import SignedToken.Proofs.Claim.Alike
import SignedToken.Proofs.Claim.Jsonable

/-!
This module contains the laws of data, that is of values built from what JSON has: what they are reduced
to, which is data again, and that nothing in them is left as it is.
-/

namespace SignedToken.ClaimValue

variable {nonFinite : Bool}

def dataNode : ClaimValue → Prop
  | bytes _ | readOnly _ | foreign => False
  | float x => x.isFinite = true
  | dict entries =>
    (∀ e ∈ entries, ∃ t, e.1 = text t) ∧ entries.Pairwise fun e f => e.1.equals f.1 = false
  | _ => True

/--
Whether a value is built from what JSON has, with finite numbers, texts for keys and sequences of
either kind.
-/
def IsData (v : ClaimValue) : Prop :=
  ∀ x, Within x v → x.dataNode

theorem isData_list_iff {items : List ClaimValue}
    : (list items).IsData ↔ ∀ x ∈ items, x.IsData :=
  forall_within_list.trans (and_iff_right trivial)

theorem isData_tuple_iff {items : List ClaimValue}
    : (tuple items).IsData ↔ ∀ x ∈ items, x.IsData :=
  forall_within_tuple.trans (and_iff_right trivial)

theorem isData_dict_iff {entries : List (ClaimValue × ClaimValue)}
    : (dict entries).IsData
        ↔
      ((∀ e ∈ entries, ∃ t, e.1 = text t) ∧
        entries.Pairwise fun e f => e.1.equals f.1 = false) ∧ ∀ e ∈ entries, e.2.IsData :=
  forall_within_dict

theorem not_isData_readOnly {entries : List (ClaimValue × ClaimValue)}
    : ¬ (readOnly entries).IsData :=
  fun h => h _ .self

theorem IsData.hasDistinctKeys {v : ClaimValue} (h : v.IsData) : v.HasDistinctKeys := by
  intro x hx
  have hnode := h x hx
  cases x with
  | dict entries => exact hnode.2
  | readOnly entries => exact hnode.elim
  | _ => trivial

theorem IsData.nodup_names {es : List (ClaimValue × ClaimValue)}
    (h : (dict es).IsData) : (es.map fun e => e.1.nameText nonFinite).Nodup := by
  obtain ⟨⟨hkeys, hdistinct⟩, -⟩ := isData_dict_iff.1 h
  obtain ⟨zs, rfl⟩ := exists_texts_of_keys hkeys
  rw [List.map_map]
  exact (distinct_texts_iff (f := id)).1 hdistinct

def isLeaf : ClaimValue → Bool
  | list _ | tuple _ | dict _ | readOnly _ => false
  | _ => true

theorem equals_self_of_isLeaf {v : ClaimValue} (h : v.isLeaf = true) (hv : v.IsData)
    : v.equals v = true := by
  cases v with
  | float x => exact equals_float_self (hv _ .self)
  | list | tuple | dict | readOnly => cases h
  | bytes | foreign => exact (hv _ .self).elim
  | null | bool | int | text => simp [equals, number?, sameNumber]

/-! ### Sequences -/

def IsSequenceOf (items : List ClaimValue) (v : ClaimValue) : Prop :=
  v = list items ∨ v = tuple items

section Sequence

variable {items : List ClaimValue} {v : ClaimValue} (h : IsSequenceOf items v)

include h

theorem IsSequenceOf.isData_iff
    : v.IsData ↔ ∀ x ∈ items, x.IsData := by
  cases h with
  | inl h => rw [h, isData_list_iff]
  | inr h => rw [h, isData_tuple_iff]

theorem IsSequenceOf.toJson_eq
    : v.toJson nonFinite = (list items).toJson nonFinite := by
  cases h with
  | inl h => rw [h]
  | inr h => rw [h, toJson_tuple]

theorem IsSequenceOf.freeze_eq
    : v.freeze = tuple (items.map freeze) := by
  cases h with
  | inl h => rw [h, freeze, freezeItems_eq_map]
  | inr h => rw [h, freeze, freezeItems_eq_map]

end Sequence

/-! ### What is written -/

theorem toJson_dict_of_texts {es : List (ClaimValue × ClaimValue)} {j : Json}
    (hkeys : ∀ e ∈ es, ∃ t, e.1 = text t)
    : (dict es).toJson nonFinite = .ok j
        ↔
      (∀ e ∈ es, e.2.toJson nonFinite = .ok (e.2.jsonOf nonFinite)) ∧
        j = .object (Json.sortMembers (es.map fun e =>
          (e.1.nameText nonFinite, e.2.jsonOf nonFinite))) := by
  obtain ⟨zs, rfl⟩ := exists_texts_of_keys hkeys
  rw [List.forall_mem_map, List.map_map]
  exact toJson_texts_eq_ok_iff (f := id)

/-! ### What comes of a reduction -/

section Reduced

variable {depth : Nat}

theorem reduce_dict_eq_ok_iff {es : List (ClaimValue × ClaimValue)} {w : ClaimValue}
    (h : (dict es).IsData)
    : reduce (depth + 1) (dict es) = .ok w
        ↔
      (∀ e ∈ es, (e.1.nameText false).any CodePoint.isSurrogate = false ∧
        reduce depth e.2 = .ok (reduced depth e.2)) ∧
        w = dict (es.map fun e => (e.1, reduced depth e.2)) := by
  obtain ⟨⟨hkeys, hdistinct⟩, -⟩ := isData_dict_iff.1 h
  obtain ⟨zs, rfl⟩ := exists_texts_of_keys hkeys
  have hnodup : (zs.map (·.1)).Nodup := (distinct_texts_iff (f := id)).1 hdistinct
  have hentries : ∀ out, reduceEntries depth [] (zs.map fun z => (text z.1, z.2)) = .ok out ↔ _ :=
    fun out => reduceEntries_eq_ok_iff [] hnodup
  rw [reduce, Outcome.map_eq_ok_iff, List.forall_mem_map, List.map_map]
  constructor
  . rintro ⟨out, hout, rfl⟩
    obtain ⟨hall, rfl⟩ := (hentries out).1 hout
    exact ⟨hall, by rw [List.nil_append, List.map_map]; rfl⟩
  . rintro ⟨hall, rfl⟩
    refine ⟨_, (hentries _).2 ⟨hall, rfl⟩, ?_⟩
    rw [List.nil_append, List.map_map]
    rfl

theorem IsSequenceOf.reduce_eq_ok_iff {items : List ClaimValue} {v w : ClaimValue}
    (h : IsSequenceOf items v)
    : reduce (depth + 1) v = .ok w
        ↔
      (∀ x ∈ items, reduce depth x = .ok (reduced depth x)) ∧ w = list (items.map (reduced depth)) := by
  have hreduce : reduce (depth + 1) v = (reduceItems depth items).map list := by
    cases h with
    | inl h => rw [h, reduce]
    | inr h => rw [h, reduce]
  rw [hreduce, Outcome.map_eq_ok_iff]
  constructor
  . rintro ⟨ys, hys, rfl⟩
    obtain ⟨hall, rfl⟩ := reduceItems_eq_ok_iff.1 hys
    exact ⟨hall, rfl⟩
  . rintro ⟨hall, rfl⟩
    exact ⟨_, reduceItems_eq_ok_iff.2 ⟨hall, rfl⟩, rfl⟩

theorem nesting_list_lt {items : List ClaimValue} (h : ∀ x ∈ items, x.nesting < depth)
    : (list items).nesting < depth + 1 := by
  rw [Nat.lt_succ_iff, nesting_list_le_iff]
  cases items with
  | nil => exact .inl rfl
  | cons x xs =>
    have hx := h x List.mem_cons_self
    exact .inr ⟨depth - 1, by omega, fun y hy => Nat.le_sub_one_of_lt (h y hy)⟩

theorem nesting_dict_lt {entries : List (ClaimValue × ClaimValue)}
    (h : ∀ e ∈ entries, e.2.nesting < depth) : (dict entries).nesting < depth + 1 := by
  rw [Nat.lt_succ_iff, nesting_dict_le_iff]
  cases entries with
  | nil => exact .inl rfl
  | cons e es =>
    have he := h e List.mem_cons_self
    exact .inr ⟨depth - 1, by omega, fun f hf => Nat.le_sub_one_of_lt (h f hf)⟩

theorem isData_of_reduce {v w : ClaimValue} (hv : v.IsData) (h : reduce depth v = .ok w)
    : w.IsData ∧ w.nesting < depth := by
  have hsequence : ∀ {items : List ClaimValue} {v w : ClaimValue} {depth : Nat},
      IsSequenceOf items v → v.IsData → reduce depth v = .ok w →
        (∀ x ∈ items, ∀ {depth w}, x.IsData → reduce depth x = .ok w → w.IsData ∧ w.nesting < depth) →
          w.IsData ∧ w.nesting < depth := by
    intro items v w depth hitems hv h ih
    obtain ⟨depth, rfl⟩ := exists_eq_succ_of_reduce h
    obtain ⟨hall, rfl⟩ := hitems.reduce_eq_ok_iff.1 h
    have hpart : ∀ x ∈ items, (reduced depth x).IsData ∧ (reduced depth x).nesting < depth :=
      fun x hx => ih x hx (hitems.isData_iff.1 hv x hx) (hall x hx)
    rw [isData_list_iff, List.forall_mem_map]
    refine ⟨fun x hx => (hpart x hx).1, nesting_list_lt ?_⟩
    rw [List.forall_mem_map]
    exact fun x hx => (hpart x hx).2
  induction v generalizing depth w with
  | null | bool | int | float | text =>
    obtain ⟨depth, rfl⟩ := exists_eq_succ_of_reduce h
    cases h
    exact ⟨hv, Nat.succ_pos depth⟩
  | list items ih => exact hsequence (.inl rfl) hv h ih
  | tuple items ih => exact hsequence (.inr rfl) hv h ih
  | dict entries ih =>
    obtain ⟨depth, rfl⟩ := exists_eq_succ_of_reduce h
    obtain ⟨hall, rfl⟩ := (reduce_dict_eq_ok_iff hv).1 h
    obtain ⟨⟨hkeys, hdistinct⟩, hvalues⟩ := isData_dict_iff.1 hv
    have hpart : ∀ e ∈ entries, (reduced depth e.2).IsData ∧ (reduced depth e.2).nesting < depth :=
      fun e he => ih e he (hvalues e he) (hall e he).2
    rw [isData_dict_iff, List.forall_mem_map, List.forall_mem_map, List.pairwise_map]
    refine ⟨⟨⟨hkeys, hdistinct⟩, fun e he => (hpart e he).1⟩, nesting_dict_lt ?_⟩
    rw [List.forall_mem_map]
    exact fun e he => (hpart e he).2
  | bytes | readOnly | foreign => exact (hv _ .self).elim

/-! ### Obstacles -/

theorem reduceItems_ne_foreign {items : List ClaimValue}
    (h : ∀ x ∈ items, reduce depth x ≠ .error .foreign)
    : reduceItems depth items ≠ .error .foreign := by
  induction items with
  | nil => nofun
  | cons x xs ih =>
    rw [List.forall_mem_cons] at h
    intro hforeign
    rw [reduceItems] at hforeign
    split at hforeign
    . next hx =>
      cases hforeign
      exact h.1 hx
    . split at hforeign
      . next hxs =>
        cases hforeign
        exact ih h.2 hxs
      . cases hforeign

theorem keyText_text_ne_foreign (t : Text) : keyText (text t) ≠ .error .foreign := by
  rw [keyText]
  split <;> simp

theorem reduceEntries_ne_foreign {done entries : List (ClaimValue × ClaimValue)}
    (h : ∀ e ∈ entries, (∃ t, e.1 = text t) ∧ reduce depth e.2 ≠ .error .foreign)
    : reduceEntries depth done entries ≠ .error .foreign := by
  induction entries generalizing done with
  | nil => nofun
  | cons e es ih =>
    rw [List.forall_mem_cons] at h
    obtain ⟨⟨⟨t, ht⟩, he⟩, hes⟩ := h
    intro hforeign
    rw [reduceEntries, ht] at hforeign
    split at hforeign
    . next hkey =>
      cases hforeign
      exact keyText_text_ne_foreign t hkey
    . split at hforeign
      . next hvalue =>
        cases hforeign
        exact he hvalue
      . exact ih hes hforeign

theorem reduce_ne_foreign {v : ClaimValue} (hv : v.IsData) : reduce depth v ≠ .error .foreign := by
  induction v generalizing depth with
  | list items ih =>
    rw [isData_list_iff] at hv
    cases depth with
    | zero => simp [reduce]
    | succ depth =>
      rw [reduce, Ne, Outcome.map_eq_error_iff]
      exact reduceItems_ne_foreign fun x hx => ih x hx (hv x hx)
  | tuple items ih =>
    rw [isData_tuple_iff] at hv
    cases depth with
    | zero => simp [reduce]
    | succ depth =>
      rw [reduce, Ne, Outcome.map_eq_error_iff]
      exact reduceItems_ne_foreign fun x hx => ih x hx (hv x hx)
  | dict entries ih =>
    obtain ⟨⟨hkeys, -⟩, hvalues⟩ := isData_dict_iff.1 hv
    cases depth with
    | zero => simp [reduce]
    | succ depth =>
      rw [reduce, Ne, Outcome.map_eq_error_iff]
      exact reduceEntries_ne_foreign fun e he => ⟨hkeys e he, ih e he (hvalues e he)⟩
  | null | bool | int | float | text => cases depth <;> simp [reduce]
  | bytes | readOnly | foreign => exact (hv _ .self).elim

end Reduced

end SignedToken.ClaimValue
