import SignedToken.Proofs.Claim

/-!
This module contains the laws of freezing and thawing: both keep the nesting of a value, and thawing
undoes freezing wherever there was nothing frozen before.
-/

namespace SignedToken.ClaimValue

theorem nesting_freeze (v : ClaimValue) : v.freeze.nesting = v.nesting := by
  induction v with
  | list items ih | tuple items ih =>
    rw [freeze, freezeItems_eq_map, nesting, nesting, nestingItems_map ih, List.isEmpty_map]
  | dict entries ih | readOnly entries ih =>
    rw [freeze, freezeEntries_eq_map, nesting, nesting, nestingEntries_map ih, List.isEmpty_map]
  | null | bool | int | float | text | bytes | foreign => rfl

theorem nesting_thaw (v : ClaimValue) : v.thaw.nesting = v.nesting := by
  induction v with
  | list items ih => rfl
  | tuple items ih =>
    rw [thaw, thawItems_eq_map, nesting, nesting, nestingItems_map ih, List.isEmpty_map]
  | dict entries ih | readOnly entries ih =>
    rw [thaw, thawEntries_eq_map, nesting, nesting, nestingEntries_map ih, List.isEmpty_map]
  | null | bool | int | float | text | bytes | foreign => rfl

def plainNode : ClaimValue → Prop
  | tuple _ | readOnly _ => False
  | _ => True

/--
Whether everything in a value can change.
-/
def IsPlain (v : ClaimValue) : Prop :=
  ∀ x, Within x v → x.plainNode

theorem isPlain_list_iff {items : List ClaimValue}
    : (list items).IsPlain ↔ ∀ x ∈ items, x.IsPlain :=
  forall_within_list.trans (and_iff_right trivial)

theorem isPlain_dict_iff {entries : List (ClaimValue × ClaimValue)}
    : (dict entries).IsPlain ↔ ∀ e ∈ entries, e.2.IsPlain :=
  forall_within_dict.trans (and_iff_right trivial)

theorem map_items_eq_self {f : ClaimValue → ClaimValue} {items : List ClaimValue}
    (h : ∀ x ∈ items, f x = x) : items.map f = items :=
  (List.map_congr_left h).trans (List.map_id items)

theorem map_entries_eq_self {f : ClaimValue → ClaimValue} {entries : List (ClaimValue × ClaimValue)}
    (h : ∀ e ∈ entries, f e.2 = e.2) : entries.map (fun e => (e.1, f e.2)) = entries := by
  have hentries : ∀ e ∈ entries, (e.1, f e.2) = id e := fun e he => by rw [h e he, id]
  rw [List.map_congr_left hentries, List.map_id]

theorem thaw_freeze {v : ClaimValue} (h : v.IsPlain) : v.freeze.thaw = v := by
  induction v with
  | list items ih =>
    rw [freeze, freezeItems_eq_map, thaw, thawItems_eq_map, List.map_map]
    exact congrArg list (map_items_eq_self fun x hx => ih x hx (isPlain_list_iff.1 h x hx))
  | dict entries ih =>
    rw [freeze, freezeEntries_eq_map, thaw, thawEntries_eq_map, List.map_map]
    exact congrArg dict (map_entries_eq_self (f := thaw ∘ freeze) fun e he =>
      ih e he (isPlain_dict_iff.1 h e he))
  | tuple items => exact (h _ .self).elim
  | readOnly entries => exact (h _ .self).elim
  | null | bool | int | float | text | bytes | foreign => rfl

theorem within_freeze_float {x : Binary64} {v : ClaimValue} (h : Within (.float x) v)
    : Within (.float x) v.freeze := by
  induction h with
  | self => exact .self
  | list hy _ ih | tuple hy _ ih =>
    rw [freeze, freezeItems_eq_map]
    exact .tuple (List.mem_map_of_mem hy) ih
  | dict he _ ih | readOnly he _ ih =>
    rw [freeze, freezeEntries_eq_map]
    exact .readOnly (e := (_, _)) (List.mem_map.2 ⟨_, he, rfl⟩) ih

theorem within_float_of_freeze {x : Binary64} {v : ClaimValue} (h : Within (.float x) v.freeze)
    : Within (.float x) v := by
  induction v with
  | list items ih =>
    rw [freeze, freezeItems_eq_map] at h
    cases h with
    | tuple hy hx =>
      obtain ⟨z, hz, rfl⟩ := List.mem_map.1 hy
      exact .list hz (ih z hz hx)
  | tuple items ih =>
    rw [freeze, freezeItems_eq_map] at h
    cases h with
    | tuple hy hx =>
      obtain ⟨z, hz, rfl⟩ := List.mem_map.1 hy
      exact .tuple hz (ih z hz hx)
  | dict entries ih =>
    rw [freeze, freezeEntries_eq_map] at h
    cases h with
    | readOnly he hx =>
      obtain ⟨f, hf, rfl⟩ := List.mem_map.1 he
      exact .dict hf (ih f hf hx)
  | readOnly entries ih =>
    rw [freeze, freezeEntries_eq_map] at h
    cases h with
    | readOnly he hx =>
      obtain ⟨f, hf, rfl⟩ := List.mem_map.1 he
      exact .readOnly hf (ih f hf hx)
  | null | bool | int | float | text | bytes | foreign => exact h

theorem isPlain_ofJson (j : Json) : (ofJson j).IsPlain := by
  induction j with
  | array items ih =>
    rw [ofJson, ofJsonItems_eq_map, isPlain_list_iff, List.forall_mem_map]
    exact ih
  | object members ih =>
    rw [ofJson_object, isPlain_dict_iff, List.forall_mem_map]
    exact Entries.forall_snd_ofList (fun x => (ofJson x).IsPlain) ih
  | null | bool | int | float | text =>
    rintro _ (_ | _)
    trivial

theorem thaw_freeze_ofJson (j : Json) : (ofJson j).freeze.thaw = ofJson j :=
  thaw_freeze (isPlain_ofJson j)

end SignedToken.ClaimValue
