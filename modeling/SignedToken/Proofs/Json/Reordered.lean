import SignedToken.Proofs.Json

/-!
This module contains what it means that two JSON values differ in the order of members only, and what
such values have in common: every part of the one is, reordered, a part of the other.
-/

namespace SignedToken.Json

/--
Whether two values differ in nothing but the order of members, at any depth.
-/
inductive Reordered : Json → Json → Prop where
  | refl (v : Json) : Reordered v v
  | array (ps : List (Json × Json)) : (∀ p ∈ ps, Reordered p.1 p.2) →
    Reordered (.array (ps.map (·.1))) (.array (ps.map (·.2)))
  | object {ms ns : List (Text × Json)} (ps : List (Text × Json × Json)) :
    ms.Perm (ps.map fun p => (p.1, p.2.1)) → ns.Perm (ps.map fun p => (p.1, p.2.2)) →
    (∀ p ∈ ps, Reordered p.2.1 p.2.2) → Reordered (.object ms) (.object ns)

theorem Reordered.symm {v w : Json} (h : v.Reordered w) : w.Reordered v := by
  induction h with
  | refl v => exact .refl v
  | array ps _ ih =>
    have hswap := Reordered.array (ps.map Prod.swap) (List.forall_mem_map.2 ih)
    rwa [List.map_map, List.map_map] at hswap
  | object ps hms hns _ ih =>
    refine .object (ps.map fun p => (p.1, p.2.2, p.2.1)) ?_ ?_ (List.forall_mem_map.2 ih)
    . rw [List.map_map]
      exact hns
    . rw [List.map_map]
      exact hms

theorem Reordered.exists_pairs {ms : List (Text × Json)} {w : Json}
    (h : Reordered (.object ms) w)
    : ∃ (ns : List (Text × Json)) (ps : List (Text × Json × Json)), w = .object ns ∧
        ms.Perm (ps.map fun p => (p.1, p.2.1)) ∧ ns.Perm (ps.map fun p => (p.1, p.2.2)) ∧
          ∀ p ∈ ps, p.2.1.Reordered p.2.2 := by
  generalize hv : Json.object ms = v at h
  cases h with
  | refl =>
    refine ⟨ms, ms.map fun m => (m.1, m.2, m.2), hv.symm, ?_, ?_,
      List.forall_mem_map.2 fun m _ => .refl m.2⟩
    . rw [List.map_map]
      exact .of_eq (List.map_id ms).symm
    . rw [List.map_map]
      exact .of_eq (List.map_id ms).symm
  | array => cases hv
  | object ps hms hns hall =>
    cases hv
    exact ⟨_, ps, rfl, hms, hns, hall⟩

theorem Reordered.eq_text {v : Json} {t : Text} (h : Reordered v (.text t)) : v = .text t := by
  cases h
  rfl

theorem Reordered.exists_items {xs : List Json} {w : Json} (h : Reordered (.array xs) w)
    : ∃ ps : List (Json × Json), xs = ps.map (·.1) ∧ w = .array (ps.map (·.2)) ∧
        ∀ p ∈ ps, p.1.Reordered p.2 := by
  generalize hv : Json.array xs = v at h
  cases h with
  | refl =>
    refine ⟨xs.map fun x => (x, x), ?_, ?_, List.forall_mem_map.2 fun x _ => .refl x⟩
    . rw [List.map_map]
      exact (List.map_id xs).symm
    . rw [List.map_map, ← hv]
      exact congrArg Json.array (List.map_id xs).symm
  | array ps hall =>
    cases hv
    exact ⟨ps, rfl, rfl, hall⟩
  | object => cases hv

theorem Reordered.perm_names {ms ns : List (Text × Json)}
    (h : Reordered (.object ms) (.object ns)) : (ms.map (·.1)).Perm (ns.map (·.1)) := by
  obtain ⟨_, ps, heq, hms, hns, -⟩ := h.exists_pairs
  cases heq
  exact Entries.map_perm_map_of_halves hms hns fun _ _ => rfl

section Reordered

variable {v w : Json} (h : v.Reordered w)

include h

theorem Reordered.exists_within {y : Json} (hy : Within y w)
    : ∃ x, Within x v ∧ x.Reordered y := by
  induction h generalizing y with
  | refl v => exact ⟨y, hy, .refl y⟩
  | array ps hall ih =>
    cases hy with
    | self => exact ⟨_, .self, .array ps hall⟩
    | item hz hy =>
      obtain ⟨p, hp, rfl⟩ := List.mem_map.1 hz
      obtain ⟨x, hx, hxy⟩ := ih p hp hy
      exact ⟨x, .item (List.mem_map_of_mem hp) hx, hxy⟩
  | object ps hms hns hall ih =>
    cases hy with
    | self => exact ⟨_, .self, .object ps hms hns hall⟩
    | member hm hy =>
      obtain ⟨p, hp, rfl⟩ := List.mem_map.1 (hns.mem_iff.1 hm)
      obtain ⟨x, hx, hxy⟩ := ih p hp hy
      exact ⟨x, .member (hms.mem_iff.2 (List.mem_map.2 ⟨p, hp, rfl⟩)) hx, hxy⟩

theorem Reordered.within_float {x : Binary64} (hx : Within (.float x) w) : Within (.float x) v := by
  obtain ⟨y, hy, hxy⟩ := h.exists_within hx
  cases hxy with
  | refl => exact hy

theorem Reordered.nesting_le {countsEmpty : Bool} {n : Nat} (hv : v.nesting countsEmpty ≤ n)
    : w.nesting countsEmpty ≤ n := by
  induction h generalizing n with
  | refl => exact hv
  | array ps _ ih =>
    rw [nesting_array_le_iff, List.map_eq_nil_iff] at hv ⊢
    refine hv.imp_right ?_
    rintro ⟨k, rfl, hle⟩
    rw [List.forall_mem_map] at hle
    exact ⟨k, rfl, List.forall_mem_map.2 fun p hp => ih p hp (hle p hp)⟩
  | object ps hms hns _ ih =>
    rw [nesting_object_le_iff] at hv ⊢
    refine hv.imp ?_ ?_
    . rintro ⟨rfl, hcounts⟩
      rw [List.nil_perm, List.map_eq_nil_iff] at hms
      rw [hms, List.map_nil, List.perm_nil] at hns
      exact ⟨hns, hcounts⟩
    . rintro ⟨k, rfl, hle⟩
      refine ⟨k, rfl, fun m hm => ?_⟩
      obtain ⟨p, hp, rfl⟩ := List.mem_map.1 (hns.mem_iff.1 hm)
      exact ih p hp (hle (p.1, p.2.1) (hms.mem_iff.2 (List.mem_map.2 ⟨p, hp, rfl⟩)))

end Reordered

/-! ### Names -/

def distinctNode : Json → Prop
  | object members => (members.map (·.1)).Nodup
  | _ => True

def HasDistinctNames (j : Json) : Prop :=
  ∀ x, Within x j → x.distinctNode

theorem hasDistinctNames_object_iff {members : List (Text × Json)}
    : (object members).HasDistinctNames
        ↔
      (members.map (·.1)).Nodup ∧ ∀ m ∈ members, m.2.HasDistinctNames :=
  forall_within_object

theorem hasDistinctNames_array_iff {items : List Json}
    : (array items).HasDistinctNames ↔ ∀ x ∈ items, x.HasDistinctNames :=
  forall_within_array.trans (and_iff_right trivial)

theorem Reordered.hasDistinctNames {v w : Json} (h : v.Reordered w) (hv : v.HasDistinctNames)
    : w.HasDistinctNames := by
  intro y hy
  obtain ⟨x, hx, hxy⟩ := h.exists_within hy
  have hnode := hv x hx
  cases y with
  | object ns =>
    obtain ⟨ms, -, rfl, -⟩ := hxy.symm.exists_pairs
    exact hxy.perm_names.nodup_iff.1 hnode
  | _ => trivial

end SignedToken.Json
