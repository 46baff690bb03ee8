import SignedToken.Proofs.Claim.Freeze

/-!
This module contains that freezing and thawing are inverse to each other: one leads to values in which
nothing can change, the other one from there to values in which everything can. The keys of mappings are
left alone by both, so they are the same all the way.
-/

namespace SignedToken.ClaimValue

variable {items : List ClaimValue} {entries : List (ClaimValue × ClaimValue)}

def frozenNode : ClaimValue → Prop
  | list _ | dict _ => False
  | _ => True

/--
Whether nothing in a value can change.
-/
def IsFrozen (v : ClaimValue) : Prop :=
  ∀ x, Within x v → x.frozenNode

theorem isFrozen_tuple_iff : (tuple items).IsFrozen ↔ ∀ x ∈ items, x.IsFrozen :=
  forall_within_tuple.trans (and_iff_right trivial)

theorem isFrozen_readOnly_iff : (readOnly entries).IsFrozen ↔ ∀ e ∈ entries, e.2.IsFrozen :=
  forall_within_readOnly.trans (and_iff_right trivial)

theorem isFrozen_freeze (v : ClaimValue) : v.freeze.IsFrozen := by
  induction v with
  | list items ih | tuple items ih =>
    rw [freeze, freezeItems_eq_map, isFrozen_tuple_iff, List.forall_mem_map]
    exact ih
  | dict entries ih | readOnly entries ih =>
    rw [freeze, freezeEntries_eq_map, isFrozen_readOnly_iff, List.forall_mem_map]
    exact ih
  | null | bool | int | float | text | bytes | foreign =>
    rintro _ (_ | _)
    trivial

theorem isPlain_thaw {v : ClaimValue} (h : v.IsFrozen) : v.thaw.IsPlain := by
  induction v with
  | list items => exact (h _ .self).elim
  | dict entries => exact (h _ .self).elim
  | tuple items ih =>
    rw [thaw, thawItems_eq_map, isPlain_list_iff, List.forall_mem_map]
    exact fun x hx => ih x hx (isFrozen_tuple_iff.1 h x hx)
  | readOnly entries ih =>
    rw [thaw, thawEntries_eq_map, isPlain_dict_iff, List.forall_mem_map]
    exact fun e he => ih e he (isFrozen_readOnly_iff.1 h e he)
  | null | bool | int | float | text | bytes | foreign =>
    rintro _ (_ | _)
    trivial

theorem freeze_thaw {v : ClaimValue} (h : v.IsFrozen) : v.thaw.freeze = v := by
  induction v with
  | list items => exact (h _ .self).elim
  | dict entries => exact (h _ .self).elim
  | tuple items ih =>
    rw [thaw, thawItems_eq_map, freeze, freezeItems_eq_map, List.map_map]
    exact congrArg tuple (map_items_eq_self fun x hx => ih x hx (isFrozen_tuple_iff.1 h x hx))
  | readOnly entries ih =>
    rw [thaw, thawEntries_eq_map, freeze, freezeEntries_eq_map, List.map_map]
    exact congrArg readOnly (map_entries_eq_self (f := freeze ∘ thaw) fun e he =>
      ih e he (isFrozen_readOnly_iff.1 h e he))
  | null | bool | int | float | text | bytes | foreign => rfl

theorem freeze_of_isFrozen {v : ClaimValue} (h : v.IsFrozen) : v.freeze = v := by
  induction v with
  | list items => exact (h _ .self).elim
  | dict entries => exact (h _ .self).elim
  | tuple items ih =>
    rw [freeze, freezeItems_eq_map]
    exact congrArg tuple (map_items_eq_self fun x hx => ih x hx (isFrozen_tuple_iff.1 h x hx))
  | readOnly entries ih =>
    rw [freeze, freezeEntries_eq_map]
    exact congrArg readOnly (map_entries_eq_self fun e he =>
      ih e he (isFrozen_readOnly_iff.1 h e he))
  | null | bool | int | float | text | bytes | foreign => rfl

/-! ### Keys -/

mutual

def keys : ClaimValue → List ClaimValue
  | list items => keysItems items
  | tuple items => keysItems items
  | dict entries => keysEntries entries
  | readOnly entries => keysEntries entries
  | _ => []
termination_by structural v => v

def keysItems : List ClaimValue → List ClaimValue
  | [] => []
  | x :: xs => keys x ++ keysItems xs
termination_by structural xs => xs

def keysEntries : List (ClaimValue × ClaimValue) → List ClaimValue
  | [] => []
  | (k, v) :: es => k :: (keys v ++ keysEntries es)
termination_by structural es => es

end

theorem keysItems_map {f : ClaimValue → ClaimValue} {items : List ClaimValue}
    (h : ∀ x ∈ items, (f x).keys = x.keys) : keysItems (items.map f) = keysItems items := by
  induction items with
  | nil => rfl
  | cons x xs ih =>
    rw [List.forall_mem_cons] at h
    rw [List.map_cons, keysItems, keysItems, h.1, ih h.2]

theorem keysEntries_map {f : ClaimValue → ClaimValue} {entries : List (ClaimValue × ClaimValue)}
    (h : ∀ e ∈ entries, (f e.2).keys = e.2.keys)
    : keysEntries (entries.map fun e => (e.1, f e.2)) = keysEntries entries := by
  induction entries with
  | nil => rfl
  | cons e es ih =>
    rw [List.forall_mem_cons] at h
    rw [List.map_cons, keysEntries, keysEntries, h.1, ih h.2]

theorem keys_freeze (v : ClaimValue) : v.freeze.keys = v.keys := by
  induction v with
  | list items ih | tuple items ih =>
    rw [freeze, freezeItems_eq_map, keys, keys, keysItems_map ih]
  | dict entries ih | readOnly entries ih =>
    rw [freeze, freezeEntries_eq_map, keys, keys, keysEntries_map ih]
  | null | bool | int | float | text | bytes | foreign => rfl

theorem keys_thaw (v : ClaimValue) : v.thaw.keys = v.keys := by
  induction v with
  | list items => rfl
  | tuple items ih => rw [thaw, thawItems_eq_map, keys, keys, keysItems_map ih]
  | dict entries ih | readOnly entries ih =>
    rw [thaw, thawEntries_eq_map, keys, keys, keysEntries_map ih]
  | null | bool | int | float | text | bytes | foreign => rfl

/--
Thawing undoes freezing just where nothing was frozen before, and freezing undoes thawing just where
everything was. Whatever kinds of sequences and mappings a value is made of, freezing it leaves none of
them that can change, and there is nothing left to freeze afterwards; thawing this leaves none that cannot
change. Keys are the same all the way.
-/
theorem freeze_thaw_inverse (v : ClaimValue)
    : (v.freeze.thaw = v ↔ v.IsPlain) ∧
      (v.thaw.freeze = v ↔ v.IsFrozen) ∧
      v.freeze.freeze = v.freeze ∧
      v.freeze.IsFrozen ∧
      v.freeze.thaw.IsPlain ∧
      v.freeze.keys = v.keys ∧
      v.freeze.thaw.keys = v.keys := by
  have hfrozen := isFrozen_freeze v
  have hplain := isPlain_thaw hfrozen
  refine ⟨⟨?_, thaw_freeze⟩, ⟨?_, freeze_thaw⟩, freeze_of_isFrozen hfrozen, hfrozen, hplain,
    keys_freeze v, ?_⟩
  . intro h
    rwa [h] at hplain
  . intro h
    rw [← h]
    exact isFrozen_freeze v.thaw
  . rw [keys_thaw, keys_freeze]

-- Thawing does not look into a list, so it is freezing first that lets it reach everything.
example : (list [tuple []]).thaw = list [tuple []] ∧ (list [tuple []]).freeze.thaw = list [list []] :=
  ⟨rfl, rfl⟩

end SignedToken.ClaimValue
