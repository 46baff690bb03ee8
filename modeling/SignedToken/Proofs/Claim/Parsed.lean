import SignedToken.Proofs.Claim.Rearranged
import SignedToken.Proofs.Json.Reordered

/-!
This module contains what the values of JSON texts are like: they are data as long as their numbers are
finite, and a text with its members in another order has the same value written down in another way.
-/

namespace SignedToken.ClaimValue

theorem isData_ofJson {j : Json} (h : ∀ x, Within (.float x) (ofJson j) → x.isFinite = true)
    : (ofJson j).IsData := by
  induction j with
  | array items ih =>
    rw [ofJson, ofJsonItems_eq_map] at h ⊢
    rw [isData_list_iff, List.forall_mem_map]
    intro y hy
    exact ih y hy fun x hx => h x (.list (List.mem_map_of_mem hy) hx)
  | object members ih =>
    rw [ofJson_object] at h ⊢
    rw [isData_dict_iff, List.forall_mem_map, List.forall_mem_map]
    refine ⟨⟨fun m _ => ⟨m.1, rfl⟩, distinct_texts_iff.2 (Entries.nodup_ofList members)⟩, ?_⟩
    intro m hm
    -- Every value that was put is the value of a member.
    obtain ⟨m', hm', heq⟩ := List.mem_map.1 (Entries.mem_ofList hm).2
    rw [← heq]
    apply ih m' hm'
    intro x hx
    rw [heq] at hx
    exact h x (.dict (List.mem_map_of_mem hm) hx)
  | float x =>
    rintro _ (_ | _)
    exact h x .self
  | null | bool | int | text =>
    rintro _ (_ | _)
    trivial

theorem within_float_of_ofJson {x : Binary64} {j : Json} (h : Within (.float x) (ofJson j))
    : Json.Within (.float x) j := by
  induction j with
  | array items ih =>
    rw [ofJson, ofJsonItems_eq_map] at h
    cases h with
    | list hy hx =>
      obtain ⟨z, hz, rfl⟩ := List.mem_map.1 hy
      exact .item hz (ih z hz hx)
  | object members ih =>
    rw [ofJson_object] at h
    cases h with
    | dict he hx =>
      obtain ⟨m, hm, rfl⟩ := List.mem_map.1 he
      obtain ⟨m', hm', heq⟩ := List.mem_map.1 (Entries.mem_ofList hm).2
      dsimp only at hx
      rw [← heq] at hx
      exact .member hm' (ih m' hm' hx)
  | float =>
    cases h
    exact .self
  | null | bool | int | text => cases h

theorem rearranged_ofJson {v w : Json} (h : v.Reordered w) (hv : v.HasDistinctNames)
    : (ofJson v).Rearranged (ofJson w) := by
  have hw := h.hasDistinctNames hv
  induction h with
  | refl v => exact .refl _
  | array ps _ ih =>
    rw [Json.hasDistinctNames_array_iff, List.forall_mem_map] at hv hw
    rw [ofJson, ofJson, ofJsonItems_eq_map, ofJsonItems_eq_map]
    refine .sequence (ps.map fun p => (ofJson p.1, ofJson p.2)) (.inl ?_) (.inl ?_)
      (List.forall_mem_map.2 fun p hp => ih p hp (hv p hp) (hw p hp))
    . rw [List.map_map, List.map_map]
      rfl
    . rw [List.map_map, List.map_map]
      rfl
  | @object ms ns ps hms hns _ ih =>
    rw [Json.hasDistinctNames_object_iff] at hv hw
    rw [ofJson_object, ofJson_object, Entries.ofList_of_nodup hv.1, Entries.ofList_of_nodup hw.1]
    refine .dict (ps.map fun p => (.text p.1, ofJson p.2.1, ofJson p.2.2))
      (Entries.map_perm_map hms fun _ => rfl) (Entries.map_perm_map hns fun _ => rfl) ?_
    rw [List.forall_mem_map]
    intro p hp
    refine ih p hp (hv.2 (p.1, p.2.1) ?_) (hw.2 (p.1, p.2.2) ?_)
    . exact hms.mem_iff.2 (List.mem_map.2 ⟨p, hp, rfl⟩)
    . exact hns.mem_iff.2 (List.mem_map.2 ⟨p, hp, rfl⟩)

end SignedToken.ClaimValue
