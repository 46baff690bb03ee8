import SignedToken.Proofs.Claim.Data

/-!
This module contains what it means that one value is written down in two ways: with its entries in
another order, or with a sequence as a list here and as a tuple there. Neither makes a difference to
what data is reduced to, what that equals, and what it is written as.
-/

namespace SignedToken.ClaimValue

/--
Whether two values differ in nothing but the order of entries, at any depth, and in writing a sequence
as a list or a tuple.
-/
inductive Rearranged : ClaimValue → ClaimValue → Prop where
  | leaf {v : ClaimValue} : v.isLeaf = true → Rearranged v v
  | sequence {v w : ClaimValue} (ps : List (ClaimValue × ClaimValue)) :
    IsSequenceOf (ps.map (·.1)) v → IsSequenceOf (ps.map (·.2)) w → (∀ p ∈ ps, Rearranged p.1 p.2) →
    Rearranged v w
  | dict {es fs : List (ClaimValue × ClaimValue)} (ps : List (ClaimValue × ClaimValue × ClaimValue)) :
    es.Perm (ps.map fun p => (p.1, p.2.1)) → fs.Perm (ps.map fun p => (p.1, p.2.2)) →
    (∀ p ∈ ps, Rearranged p.2.1 p.2.2) → Rearranged (.dict es) (.dict fs)
  | readOnly {es fs : List (ClaimValue × ClaimValue)}
    (ps : List (ClaimValue × ClaimValue × ClaimValue)) :
    es.Perm (ps.map fun p => (p.1, p.2.1)) → fs.Perm (ps.map fun p => (p.1, p.2.2)) →
    (∀ p ∈ ps, Rearranged p.2.1 p.2.2) → Rearranged (.readOnly es) (.readOnly fs)

theorem Rearranged.symm {v w : ClaimValue} (h : v.Rearranged w) : w.Rearranged v := by
  induction h with
  | leaf h => exact .leaf h
  | sequence ps hv hw _ ih =>
    refine .sequence (ps.map Prod.swap) ?_ ?_ (List.forall_mem_map.2 ih)
    . rw [List.map_map]
      exact hw
    . rw [List.map_map]
      exact hv
  | dict ps hes hfs _ ih =>
    refine .dict (ps.map fun p => (p.1, p.2.2, p.2.1)) ?_ ?_ (List.forall_mem_map.2 ih)
    . rw [List.map_map]
      exact hfs
    . rw [List.map_map]
      exact hes
  | readOnly ps hes hfs _ ih =>
    refine .readOnly (ps.map fun p => (p.1, p.2.2, p.2.1)) ?_ ?_ (List.forall_mem_map.2 ih)
    . rw [List.map_map]
      exact hfs
    . rw [List.map_map]
      exact hes

theorem map_map_cancel {f : α → β} {g : β → α} (l : List α) (h : ∀ x, g (f x) = x)
    : (l.map f).map g = l := by
  have hid : ∀ x ∈ l, (g ∘ f) x = id x := fun x _ => h x
  rw [List.map_map, List.map_congr_left hid, List.map_id]

theorem Rearranged.refl (v : ClaimValue) : v.Rearranged v := by
  -- Every part is paired with itself.
  induction v with
  | list items ih =>
    exact .sequence (items.map fun x => (x, x)) (.inl (by rw [map_map_cancel items fun _ => rfl]))
      (.inl (by rw [map_map_cancel items fun _ => rfl])) (List.forall_mem_map.2 ih)
  | tuple items ih =>
    exact .sequence (items.map fun x => (x, x)) (.inr (by rw [map_map_cancel items fun _ => rfl]))
      (.inr (by rw [map_map_cancel items fun _ => rfl])) (List.forall_mem_map.2 ih)
  | dict entries ih =>
    exact .dict (entries.map fun e => (e.1, e.2, e.2)) (by rw [map_map_cancel entries fun _ => rfl])
      (by rw [map_map_cancel entries fun _ => rfl]) (List.forall_mem_map.2 ih)
  | readOnly entries ih =>
    exact .readOnly (entries.map fun e => (e.1, e.2, e.2)) (by rw [map_map_cancel entries fun _ => rfl])
      (by rw [map_map_cancel entries fun _ => rfl]) (List.forall_mem_map.2 ih)
  | null | bool | int | float | text | bytes | foreign => exact .leaf rfl

theorem rearranged_dict_iff {es fs : List (ClaimValue × ClaimValue)}
    : (dict es).Rearranged (dict fs)
        ↔
      ∃ ps : List (ClaimValue × ClaimValue × ClaimValue),
        es.Perm (ps.map fun p => (p.1, p.2.1)) ∧ fs.Perm (ps.map fun p => (p.1, p.2.2)) ∧
          ∀ p ∈ ps, p.2.1.Rearranged p.2.2 := by
  constructor
  . intro h
    generalize hv : dict es = v at h
    generalize hw : dict fs = w at h
    cases h with
    | leaf h =>
      rw [← hv] at h
      cases h
    | sequence ps hsequence =>
      rw [← hv] at hsequence
      rcases hsequence with h | h <;> cases h
    | dict ps hes hfs hall =>
      cases hv
      cases hw
      exact ⟨ps, hes, hfs, hall⟩
    | readOnly => cases hv
  . rintro ⟨ps, hes, hfs, hall⟩
    exact .dict ps hes hfs hall

theorem rearranged_of_perm {es fs : List (ClaimValue × ClaimValue)} (h : es.Perm fs)
    : (dict es).Rearranged (dict fs) := by
  refine .dict (es.map fun e => (e.1, e.2, e.2)) ?_ ?_ (List.forall_mem_map.2 fun e _ => .refl e.2)
  . rw [map_map_cancel es fun _ => rfl]
  . rw [map_map_cancel es fun _ => rfl]
    exact h.symm

/-! ### Data written in two ways -/

theorem isData_pairs {β : Type} {es : List (ClaimValue × ClaimValue)} {ps : List β}
    {f : β → ClaimValue × ClaimValue} (h : (dict es).IsData) (hperm : es.Perm (ps.map f))
    : ∀ p ∈ ps, (∃ t, (f p).1 = text t) ∧ (f p).2.IsData := by
  obtain ⟨⟨hkeys, -⟩, hvalues⟩ := isData_dict_iff.1 h
  intro p hp
  have hmem := hperm.mem_iff.2 (List.mem_map_of_mem hp)
  exact ⟨hkeys _ hmem, hvalues _ hmem⟩

theorem toJson_of_rearranged {nonFinite : Bool} {v w : ClaimValue} (h : v.Rearranged w)
    (hv : v.IsData) (hw : w.IsData) {j : Json} (hj : v.toJson nonFinite = .ok j) : w.toJson nonFinite = .ok j := by
  induction h generalizing j with
  | leaf => exact hj
  | sequence ps hv' hw' _ ih =>
    rw [hv'.isData_iff, List.forall_mem_map] at hv
    rw [hw'.isData_iff, List.forall_mem_map] at hw
    rw [hv'.toJson_eq, toJson_list_eq_ok_iff, List.forall_mem_map, List.map_map] at hj
    obtain ⟨hall, rfl⟩ := hj
    have hsame : ∀ p ∈ ps, p.2.toJson nonFinite = .ok (p.1.jsonOf nonFinite) :=
      fun p hp => ih p hp (hv p hp) (hw p hp) (hall p hp)
    rw [hw'.toJson_eq, toJson_list_eq_ok_iff, List.forall_mem_map, List.map_map]
    refine ⟨fun p hp => toJson_eq_jsonOf (hsame p hp), ?_⟩
    exact congrArg Json.array (List.map_congr_left fun p hp => (jsonOf_eq (hsame p hp)).symm)
  | @dict es fs ps hes hfs _ ih =>
    have hleft := isData_pairs hv hes
    have hright := isData_pairs hw hfs
    rw [toJson_dict_of_texts (isData_dict_iff.1 hv).1.1] at hj
    obtain ⟨hall, rfl⟩ := hj
    have hsame : ∀ p ∈ ps, p.2.2.toJson nonFinite = .ok (p.2.1.jsonOf nonFinite) := by
      intro p hp
      apply ih p hp (hleft p hp).2 (hright p hp).2
      exact hall (p.1, p.2.1) (hes.mem_iff.2 (List.mem_map.2 ⟨p, hp, rfl⟩))
    rw [toJson_dict_of_texts (isData_dict_iff.1 hw).1.1]
    constructor
    . intro f hf
      obtain ⟨p, hp, rfl⟩ := List.mem_map.1 (hfs.mem_iff.1 hf)
      exact toJson_eq_jsonOf (hsame p hp)
    . -- Sorted by their names, which do not repeat, the members come in one order.
      have hmembers : (es.map fun e => (e.1.nameText nonFinite, e.2.jsonOf nonFinite)).Perm
          (fs.map fun f => (f.1.nameText nonFinite, f.2.jsonOf nonFinite)) := by
        apply Entries.map_perm_map_of_halves hes hfs
        intro p hp
        exact congrArg (Prod.mk (p.1.nameText nonFinite)) (jsonOf_eq (hsame p hp)).symm
      rw [Json.sortMembers_eq_of_perm hmembers]
      rw [List.map_map]
      exact hv.nodup_names
  | readOnly => exact absurd hv not_isData_readOnly

theorem freeze_equals_freeze {v w : ClaimValue} (h : v.Rearranged w) (hv : v.IsData) (hw : w.IsData)
    : v.freeze.equals w.freeze = true := by
  induction h with
  | @leaf v h =>
    have hfreeze : v.freeze = v := by
      cases v with
      | list | tuple | dict | readOnly => cases h
      | _ => rfl
    rw [hfreeze]
    exact equals_self_of_isLeaf h hv
  | sequence ps hv' hw' _ ih =>
    rw [hv'.isData_iff, List.forall_mem_map] at hv
    rw [hw'.isData_iff, List.forall_mem_map] at hw
    rw [hv'.freeze_eq, hw'.freeze_eq, equals, List.map_map, List.map_map]
    exact equalItems_map_iff.2 fun p hp => ih p hp (hv p hp) (hw p hp)
  | @dict es fs ps hes hfs _ ih =>
    have hleft := isData_pairs hv hes
    have hright := isData_pairs hw hfs
    rw [freeze, freeze, freezeEntries_eq_map, freezeEntries_eq_map, readOnly_equals_readOnly_iff,
      List.length_map, List.length_map, hes.length_eq, hfs.length_eq, List.length_map, List.length_map,
      List.forall_mem_map]
    refine ⟨rfl, fun e he => ?_⟩
    obtain ⟨p, hp, rfl⟩ := List.mem_map.1 (hes.mem_iff.1 he)
    obtain ⟨t, ht⟩ := (hleft p hp).1
    have hmem : (p.1, p.2.2) ∈ fs := hfs.mem_iff.2 (List.mem_map.2 ⟨p, hp, rfl⟩)
    refine ⟨_, List.mem_map_of_mem hmem, ?_, ih p hp (hleft p hp).2 (hright p hp).2⟩
    dsimp only at ht ⊢
    rw [ht, equals_text, beq_self_eq_true]
  | readOnly => exact absurd hv not_isData_readOnly

theorem exists_reduce_of_rearranged {depth : Nat} {v w v' : ClaimValue} (h : v.Rearranged w)
    (hv : v.IsData) (hw : w.IsData) (hv' : reduce depth v = .ok v')
    : ∃ w', reduce depth w = .ok w' ∧ v'.Rearranged w' := by
  induction h generalizing depth v' with
  | leaf => exact ⟨v', hv', .refl v'⟩
  | sequence ps hleft hright _ ih =>
    obtain ⟨depth, rfl⟩ := exists_eq_succ_of_reduce hv'
    rw [hleft.isData_iff, List.forall_mem_map] at hv
    rw [hright.isData_iff, List.forall_mem_map] at hw
    rw [hleft.reduce_eq_ok_iff, List.forall_mem_map] at hv'
    obtain ⟨hall, rfl⟩ := hv'
    have hpart : ∀ p ∈ ps, reduce depth p.2 = .ok (reduced depth p.2) ∧
        (reduced depth p.1).Rearranged (reduced depth p.2) := by
      intro p hp
      obtain ⟨w', hw', hrearranged⟩ := ih p hp (hv p hp) (hw p hp) (hall p hp)
      rw [reduced_eq hw']
      exact ⟨hw', hrearranged⟩
    refine ⟨_, hright.reduce_eq_ok_iff.2 ⟨List.forall_mem_map.2 fun p hp => (hpart p hp).1, rfl⟩, ?_⟩
    refine .sequence (ps.map fun p => (reduced depth p.1, reduced depth p.2)) (.inl ?_) (.inl ?_)
      (List.forall_mem_map.2 fun p hp => (hpart p hp).2)
    . rw [List.map_map, List.map_map]
      rfl
    . rw [List.map_map, List.map_map]
      rfl
  | @dict es fs ps hes hfs _ ih =>
    obtain ⟨depth, rfl⟩ := exists_eq_succ_of_reduce hv'
    have hleft := isData_pairs hv hes
    have hright := isData_pairs hw hfs
    obtain ⟨hall, rfl⟩ := (reduce_dict_eq_ok_iff hv).1 hv'
    have hpart : ∀ p ∈ ps, (p.1.nameText false).any CodePoint.isSurrogate = false ∧
        reduce depth p.2.2 = .ok (reduced depth p.2.2) ∧
        (reduced depth p.2.1).Rearranged (reduced depth p.2.2) := by
      intro p hp
      obtain ⟨hlegible, hreduce⟩ := hall (p.1, p.2.1) (hes.mem_iff.2 (List.mem_map.2 ⟨p, hp, rfl⟩))
      obtain ⟨w', hw', hrearranged⟩ := ih p hp (hleft p hp).2 (hright p hp).2 hreduce
      rw [reduced_eq hw']
      exact ⟨hlegible, hw', hrearranged⟩
    refine ⟨_, (reduce_dict_eq_ok_iff hw).2 ⟨?_, rfl⟩, ?_⟩
    . intro f hf
      obtain ⟨p, hp, rfl⟩ := List.mem_map.1 (hfs.mem_iff.1 hf)
      exact ⟨(hpart p hp).1, (hpart p hp).2.1⟩
    . exact .dict (ps.map fun p => (p.1, reduced depth p.2.1, reduced depth p.2.2))
        (Entries.map_perm_map hes fun _ => rfl) (Entries.map_perm_map hfs fun _ => rfl)
        (List.forall_mem_map.2 fun p hp => (hpart p hp).2.2)
  | readOnly => exact absurd hv not_isData_readOnly

end SignedToken.ClaimValue
