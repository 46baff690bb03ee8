import SignedToken.Proofs.Claim.Written
import SignedToken.Proofs.Json.Legible

/-!
This module contains the canonical JSON values, that is those whose objects have sorted names and
whose numbers can be written. The JSON form of a value that was read from a JSON text is canonical,
and a canonical value is its own JSON form.
-/

namespace SignedToken

namespace Json

def canonicalNode : Json → Prop
  | int n => hasNumeral n = true
  | float x => x.isFinite = true
  | object members =>
    members.Pairwise (fun m n => Text.le m.1 n.1 = true) ∧ (members.map (·.1)).Nodup
  | _ => True

/--
Whether the names of every object in a value are sorted and do not repeat, and all numbers can be
written.
-/
def IsCanonical (j : Json) : Prop :=
  ∀ x, Within x j → x.canonicalNode

theorem isCanonical_array_iff {items : List Json}
    : (array items).IsCanonical ↔ ∀ x ∈ items, x.IsCanonical :=
  forall_within_array.trans (and_iff_right trivial)

theorem isCanonical_object_iff {members : List (Text × Json)}
    : (object members).IsCanonical
        ↔
      (members.Pairwise (fun m n => Text.le m.1 n.1 = true) ∧ (members.map (·.1)).Nodup) ∧
        ∀ m ∈ members, m.2.IsCanonical :=
  forall_within_object

theorem isCanonical_sortMembers {members : List (Text × Json)} (hnodup : (members.map (·.1)).Nodup)
    (h : ∀ m ∈ members, m.2.IsCanonical) : (object (sortMembers members)).IsCanonical := by
  refine isCanonical_object_iff.2 ⟨⟨sortMembers_pairwise members, ?_⟩, ?_⟩
  . exact nodup_sortMembers_iff.2 hnodup
  . exact fun m hm => h m (mem_sortMembers.1 hm)

end Json

namespace ClaimValue

theorem toJson_ofJson_object_iff {nonFinite : Bool} {members : List (Text × Json)} {j : Json}
    : (ofJson (.object members)).toJson nonFinite = .ok j
        ↔
      (∀ m ∈ Entries.ofList (· == ·) members,
        (ofJson m.2).toJson nonFinite = .ok ((ofJson m.2).jsonOf nonFinite)) ∧
        j = .object (Json.sortMembers ((Entries.ofList (· == ·) members).map fun m =>
          (m.1, (ofJson m.2).jsonOf nonFinite))) := by
  rw [ofJson_object, toJson_texts_eq_ok_iff]

theorem toJson_ofJson {j : Json} (h : j.IsCanonical) : (ofJson j).toJson false = .ok j := by
  induction j with
  | null | bool | text => rfl
  | int n => exact toJson_int_eq_ok_iff.2 ⟨h _ .self, rfl⟩
  | float x =>
    have hx : x.isFinite = true := h _ .self
    exact toJson_float_eq_ok_iff.2 ⟨by rw [hx, Bool.true_or], rfl⟩
  | array items ih =>
    rw [Json.isCanonical_array_iff] at h
    have hall : ∀ x ∈ items, (ofJson x).toJson false = .ok x := fun x hx => ih x hx (h x hx)
    rw [ofJson, ofJsonItems_eq_map, toJson_list_eq_ok_iff, List.forall_mem_map, List.map_map]
    constructor
    . intro x hx
      rw [jsonOf_eq (hall x hx)]
      exact hall x hx
    . have hmap : items.map (jsonOf false ∘ ofJson) = items := by
        rw [List.map_congr_left (g := id), List.map_id]
        exact fun x hx => jsonOf_eq (hall x hx)
      rw [hmap]
  | object members ih =>
    rw [Json.isCanonical_object_iff] at h
    have hall : ∀ m ∈ members, (ofJson m.2).toJson false = .ok m.2 :=
      fun m hm => ih m hm (h.2 m hm)
    rw [toJson_ofJson_object_iff, Entries.ofList_of_nodup h.1.2]
    constructor
    . intro m hm
      rw [jsonOf_eq (hall m hm)]
      exact hall m hm
    . have hmap : (members.map fun m => (m.1, (ofJson m.2).jsonOf false)) = members := by
        rw [List.map_congr_left (g := id), List.map_id]
        intro m hm
        rw [jsonOf_eq (hall m hm)]
        rfl
      rw [hmap, Json.sortMembers_of_pairwise h.1.1]

theorem isCanonical_of_toJson_ofJson {x j : Json} (h : (ofJson x).toJson false = .ok j)
    : j.IsCanonical := by
  induction x generalizing j with
  | null | bool | text =>
    cases h
    rintro _ (_ | _)
    trivial
  | int n =>
    obtain ⟨hn, rfl⟩ := toJson_int_eq_ok_iff.1 h
    rintro _ (_ | _)
    exact hn
  | float f =>
    obtain ⟨hf, rfl⟩ := toJson_float_eq_ok_iff.1 h
    rintro _ (_ | _)
    rwa [Bool.or_false] at hf
  | array items ih =>
    rw [ofJson, ofJsonItems_eq_map, toJson_list_eq_ok_iff, List.forall_mem_map] at h
    obtain ⟨hall, rfl⟩ := h
    rw [Json.isCanonical_array_iff, List.forall_mem_map, List.forall_mem_map]
    exact fun x hx => ih x hx (hall x hx)
  | object members ih =>
    obtain ⟨hall, rfl⟩ := toJson_ofJson_object_iff.1 h
    have hvalue : ∀ m ∈ Entries.ofList (· == ·) members,
        ∀ j, (ofJson m.2).toJson false = .ok j → j.IsCanonical := by
      apply Entries.forall_snd_ofList fun x => ∀ j, (ofJson x).toJson false = .ok j → j.IsCanonical
      exact fun m hm j => ih m hm
    apply Json.isCanonical_sortMembers
    . rw [List.map_map]
      exact Entries.nodup_ofList members
    . rw [List.forall_mem_map]
      exact fun m hm => hvalue m hm _ (hall m hm)

theorem isLegible_of_toJson_ofJson {nonFinite : Bool} {x j : Json} (hx : x.IsLegible)
    (h : (ofJson x).toJson nonFinite = .ok j) : j.IsLegible := by
  induction x generalizing j with
  | null | bool | text =>
    cases h
    exact hx
  | int n =>
    obtain ⟨-, rfl⟩ := toJson_int_eq_ok_iff.1 h
    exact hx
  | float f =>
    obtain ⟨-, rfl⟩ := toJson_float_eq_ok_iff.1 h
    exact hx
  | array items ih =>
    rw [Json.isLegible_array_iff] at hx
    rw [ofJson, ofJsonItems_eq_map, toJson_list_eq_ok_iff, List.forall_mem_map] at h
    obtain ⟨hall, rfl⟩ := h
    rw [Json.isLegible_array_iff, List.forall_mem_map, List.forall_mem_map]
    exact fun y hy => ih y hy (hx y hy) (hall y hy)
  | object members ih =>
    rw [Json.isLegible_object_iff] at hx
    obtain ⟨hall, rfl⟩ := toJson_ofJson_object_iff.1 h
    have hname : ∀ m ∈ Entries.ofList (· == ·) members, m.1.any CodePoint.isSurrogate = false := by
      apply Entries.forall_fst_ofList fun t : Text => t.any CodePoint.isSurrogate = false
      exact fun m hm => (hx m hm).1
    have hvalue : ∀ m ∈ Entries.ofList (· == ·) members,
        ∀ j, (ofJson m.2).toJson nonFinite = .ok j → j.IsLegible := by
      apply Entries.forall_snd_ofList fun x =>
        ∀ j, (ofJson x).toJson nonFinite = .ok j → j.IsLegible
      exact fun m hm j => ih m hm (hx m hm).2
    rw [Json.isLegible_object_iff]
    intro m hm
    obtain ⟨n, hn, rfl⟩ := List.mem_map.1 (Json.mem_sortMembers.1 hm)
    exact ⟨hname n hn, hvalue n hn _ (hall n hn)⟩

theorem toJson_ofJson_eq_jsonOf {nonFinite : Bool} {x : Json}
    (hnumeral : ∀ n, Json.Within (.int n) x → hasNumeral n = true)
    (hfinite : ∀ f, Within (.float f) (ofJson x) → (f.isFinite || nonFinite) = true)
    : (ofJson x).toJson nonFinite = .ok ((ofJson x).jsonOf nonFinite) := by
  induction x with
  | null | bool | text => rfl
  | int n => exact toJson_eq_jsonOf (toJson_int_eq_ok_iff.2 ⟨hnumeral n .self, rfl⟩)
  | float f => exact toJson_eq_jsonOf (toJson_float_eq_ok_iff.2 ⟨hfinite f .self, rfl⟩)
  | array items ih =>
    rw [ofJson, ofJsonItems_eq_map] at hfinite ⊢
    refine toJson_eq_jsonOf (toJson_list_eq_ok_iff.2 ⟨?_, rfl⟩)
    rw [List.forall_mem_map]
    intro x hx
    apply ih x hx fun n hn => hnumeral n (.item hx hn)
    exact fun f hf => hfinite f (.list (List.mem_map_of_mem hx) hf)
  | object members ih =>
    have hvalue : ∀ m ∈ Entries.ofList (· == ·) members,
        (∀ f, Within (.float f) (ofJson m.2) → (f.isFinite || nonFinite) = true) →
          (ofJson m.2).toJson nonFinite = .ok ((ofJson m.2).jsonOf nonFinite) := by
      apply Entries.forall_snd_ofList fun x =>
        (∀ f, Within (.float f) (ofJson x) → (f.isFinite || nonFinite) = true) →
          (ofJson x).toJson nonFinite = .ok ((ofJson x).jsonOf nonFinite)
      exact fun m hm => ih m hm fun n hn => hnumeral n (.member hm hn)
    refine toJson_eq_jsonOf (toJson_ofJson_object_iff.2 ⟨fun m hm => hvalue m hm ?_, rfl⟩)
    intro f hf
    rw [ofJson_object] at hfinite
    exact hfinite f (.dict (e := (_, _)) (List.mem_map.2 ⟨m, hm, rfl⟩) hf)

end ClaimValue

end SignedToken
