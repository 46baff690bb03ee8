import SignedToken.Proofs.Claim
import SignedToken.Proofs.Json.Written
import SignedToken.Proofs.Outcome
import SignedToken.Proofs.Text.Order

/-!
This module contains the laws of the JSON form of claim values: when there is one, what it is like,
and that it is the value itself for a value that was read from a canonical text.
-/

namespace SignedToken

namespace Json

/-! ### Members in order -/

def sortMembers (members : List (Text × β)) : List (Text × β) :=
  members.mergeSort fun m n => Text.le m.1 n.1

section Members

variable {m : Text × β} {members members' : List (Text × β)}

theorem sortMembers_perm (members : List (Text × β)) : (sortMembers members).Perm members :=
  List.mergeSort_perm _ _

theorem mem_sortMembers : m ∈ sortMembers members ↔ m ∈ members :=
  (sortMembers_perm members).mem_iff

theorem nodup_sortMembers_iff
    : ((sortMembers members).map (·.1)).Nodup ↔ (members.map (·.1)).Nodup :=
  ((sortMembers_perm members).map (·.1)).nodup_iff

theorem sortMembers_pairwise (members : List (Text × β))
    : (sortMembers members).Pairwise fun m n => Text.le m.1 n.1 = true := by
  apply List.pairwise_mergeSort
  . exact fun l m n => Text.le_trans l.1 m.1 n.1
  . exact fun m n => Text.le_total m.1 n.1

theorem sortMembers_of_pairwise (h : members.Pairwise fun m n => Text.le m.1 n.1 = true)
    : sortMembers members = members :=
  List.mergeSort_of_pairwise h

theorem sortMembers_map (f : β → γ) (members : List (Text × β))
    : sortMembers (members.map fun m => (m.1, f m.2))
        =
      (sortMembers members).map fun m => (m.1, f m.2) := by
  unfold sortMembers
  rw [List.map_mergeSort]
  intro _ _ _ _
  rfl

theorem sortMembers_eq_of_perm (h : members.Perm members') (hnodup : (members.map (·.1)).Nodup)
    : sortMembers members = sortMembers members' := by
  have hperm : (sortMembers members).Perm (sortMembers members') :=
    (sortMembers_perm members).trans (h.trans (sortMembers_perm members').symm)
  apply List.Perm.eq_of_pairwise _ (sortMembers_pairwise members) (sortMembers_pairwise members')
    hperm
  intro m n hm hn hmn hnm
  exact Entries.eq_of_mem_of_nodup hnodup (mem_sortMembers.1 hm)
    (h.mem_iff.2 (mem_sortMembers.1 hn)) (Text.le_antisymm hmn hnm)

end Members

end Json

namespace ClaimValue

variable {nonFinite : Bool}

def jsonOf (nonFinite : Bool) (v : ClaimValue) : Json :=
  (v.toJson nonFinite).toOption.getD .null

def nameText (nonFinite : Bool) (k : ClaimValue) : Text :=
  (nameOf nonFinite k).toOption.getD []

theorem jsonOf_eq {v : ClaimValue} {j : Json} (h : v.toJson nonFinite = .ok j)
    : v.jsonOf nonFinite = j := by
  rw [jsonOf, h]
  rfl

theorem toJson_eq_jsonOf {v : ClaimValue} {j : Json} (h : v.toJson nonFinite = .ok j)
    : v.toJson nonFinite = .ok (v.jsonOf nonFinite) := by
  rw [jsonOf_eq h, h]

theorem nameText_eq {k : ClaimValue} {t : Text} (h : nameOf nonFinite k = .ok t)
    : k.nameText nonFinite = t := by
  rw [nameText, h]
  rfl

theorem toJsonItems_eq_ok_iff {items : List ClaimValue} {js : List Json}
    : toJsonItems nonFinite items = .ok js
        ↔
      (∀ x ∈ items, x.toJson nonFinite = .ok (x.jsonOf nonFinite)) ∧
        js = items.map (jsonOf nonFinite) := by
  induction items generalizing js with
  | nil => simp [toJsonItems, eq_comm]
  | cons x xs ih =>
    rw [toJsonItems, List.forall_mem_cons, List.map_cons]
    constructor
    . intro h
      split at h
      . cases h
      . next j hj =>
        split at h
        . cases h
        . next js' hjs =>
          cases h
          obtain ⟨hall, rfl⟩ := ih.1 hjs
          rw [jsonOf_eq hj]
          exact ⟨⟨hj, hall⟩, rfl⟩
    . rintro ⟨⟨hx, hall⟩, rfl⟩
      rw [hx, ih.2 ⟨hall, rfl⟩]

theorem nameEntries_eq_ok_iff {entries : List (ClaimValue × ClaimValue)}
    {members : List (Text × Json)}
    : nameEntries nonFinite (entries.map fun e => (e.1, e.2.toJson nonFinite)) = .ok members
        ↔
      (∀ e ∈ entries, nameOf nonFinite e.1 = .ok (e.1.nameText nonFinite) ∧
        e.2.toJson nonFinite = .ok (e.2.jsonOf nonFinite)) ∧
        members = entries.map fun e => (e.1.nameText nonFinite, e.2.jsonOf nonFinite) := by
  induction entries generalizing members with
  | nil => simp [nameEntries, eq_comm]
  | cons e es ih =>
    rw [List.map_cons, nameEntries, List.forall_mem_cons, List.map_cons]
    constructor
    . intro h
      split at h
      . cases h
      . next name hname =>
        split at h
        . cases h
        . next j hj =>
          split at h
          . cases h
          . next ms hms =>
            cases h
            obtain ⟨hall, rfl⟩ := ih.1 hms
            rw [jsonOf_eq hj, nameText_eq hname]
            exact ⟨⟨⟨hname, hj⟩, hall⟩, rfl⟩
    . rintro ⟨⟨⟨hname, hj⟩, hall⟩, rfl⟩
      rw [hname]
      dsimp only
      rw [hj]
      dsimp only
      rw [ih.2 ⟨hall, rfl⟩]

theorem toJson_int_eq_ok_iff {n : Int} {j : Json}
    : (int n).toJson nonFinite = .ok j ↔ hasNumeral n = true ∧ j = .int n := by
  rw [toJson, checkInt]
  cases hasNumeral n <;> simp [Except.map, eq_comm]

theorem toJson_float_eq_ok_iff {x : Binary64} {j : Json}
    : (float x).toJson nonFinite = .ok j ↔ (x.isFinite || nonFinite) = true ∧ j = .float x := by
  rw [toJson, checkFloat]
  cases x.isFinite || nonFinite <;> simp [Except.map, eq_comm]

theorem toJson_list_eq_ok_iff {items : List ClaimValue} {j : Json}
    : (list items).toJson nonFinite = .ok j
        ↔
      (∀ x ∈ items, x.toJson nonFinite = .ok (x.jsonOf nonFinite)) ∧
        j = .array (items.map (jsonOf nonFinite)) := by
  rw [toJson, Outcome.map_eq_ok_iff]
  constructor
  . rintro ⟨js, hitems, rfl⟩
    obtain ⟨hall, rfl⟩ := toJsonItems_eq_ok_iff.1 hitems
    exact ⟨hall, rfl⟩
  . rintro ⟨hall, rfl⟩
    exact ⟨_, toJsonItems_eq_ok_iff.2 ⟨hall, rfl⟩, rfl⟩

theorem toJson_tuple (items : List ClaimValue)
    : (tuple items).toJson nonFinite = (list items).toJson nonFinite := by
  rw [toJson, toJson]

theorem toJson_dict_eq_ok_iff {entries : List (ClaimValue × ClaimValue)} {j : Json}
    : (dict entries).toJson nonFinite = .ok j
        ↔
      firstIncomparable? (entries.map (·.1)) = none ∧
        (∀ e ∈ entries, nameOf nonFinite e.1 = .ok (e.1.nameText nonFinite) ∧
          e.2.toJson nonFinite = .ok (e.2.jsonOf nonFinite)) ∧
        j = .object ((entries.mergeSort fun e f => keyLe e.1 f.1).map fun e =>
          (e.1.nameText nonFinite, e.2.jsonOf nonFinite)) := by
  have hkeys : (entries.map fun e => (e.1, e.2.toJson nonFinite)).map (·.1) = entries.map (·.1) := by
    simp
  have hsort : (entries.map fun e => (e.1, e.2.toJson nonFinite)).mergeSort
        (fun e f => keyLe e.1 f.1)
      = (entries.mergeSort fun e f => keyLe e.1 f.1).map fun e => (e.1, e.2.toJson nonFinite) := by
    rw [List.map_mergeSort]
    intro _ _ _ _
    rfl
  rw [toJson, toJsonEntries_eq_map, objectOf, sortEntries, hkeys, hsort]
  cases firstIncomparable? (entries.map (·.1)) with
  | some found => simp
  | none =>
    dsimp only
    rw [Outcome.map_eq_ok_iff]
    constructor
    . rintro ⟨members, hmembers, rfl⟩
      obtain ⟨hall, rfl⟩ := nameEntries_eq_ok_iff.1 hmembers
      exact ⟨rfl, fun e he => hall e (List.mem_mergeSort.2 he), rfl⟩
    . rintro ⟨-, hall, rfl⟩
      exact ⟨_, nameEntries_eq_ok_iff.2 ⟨fun e he => hall e (List.mem_mergeSort.1 he), rfl⟩, rfl⟩

theorem firstIncomparable?_text (names : List Text)
    : firstIncomparable? (names.map text) = none := by
  induction names with
  | nil => rfl
  | cons a names ih =>
    cases names with
    | nil => rfl
    | cons b names => exact ih

theorem toJson_texts_eq_ok_iff {f : β → ClaimValue} {entries : List (Text × β)} {j : Json}
    : (dict (entries.map fun e => (text e.1, f e.2))).toJson nonFinite = .ok j
        ↔
      (∀ e ∈ entries, (f e.2).toJson nonFinite = .ok ((f e.2).jsonOf nonFinite)) ∧
        j = .object (Json.sortMembers (entries.map fun e => (e.1, (f e.2).jsonOf nonFinite))) := by
  have hkeys : (entries.map fun e => (text e.1, f e.2)).map (·.1)
      = (entries.map (·.1)).map text := by
    simp
  have hname : ∀ t, nameOf nonFinite (text t) = .ok t := by
    intro t
    rfl
  have hsort : ((entries.map fun e => (text e.1, f e.2)).mergeSort
        fun e f => keyLe e.1 f.1).map (fun e => (e.1.nameText nonFinite, e.2.jsonOf nonFinite))
      = Json.sortMembers (entries.map fun e => (e.1, (f e.2).jsonOf nonFinite)) := by
    rw [List.map_mergeSort (s := fun m n : Text × Json => Text.le m.1 n.1)]
    . rw [List.map_map]
      rfl
    . intro e he e' he'
      obtain ⟨m, -, rfl⟩ := List.mem_map.1 he
      obtain ⟨n, -, rfl⟩ := List.mem_map.1 he'
      rfl
  rw [toJson_dict_eq_ok_iff, hkeys, firstIncomparable?_text, hsort, List.forall_mem_map]
  simp only [true_and]
  refine and_congr_left fun _ => forall₂_congr fun e _ => ?_
  exact and_iff_right (hname e.1)

theorem nesting_of_toJson {v : ClaimValue} {j : Json} (h : v.toJson nonFinite = .ok j)
    : j.nesting false = v.nesting := by
  have hitems : ∀ items : List ClaimValue,
      (∀ x ∈ items, (x.jsonOf nonFinite).nesting false = x.nesting) →
        Json.nestingItems false (items.map (jsonOf nonFinite)) = nestingItems items := by
    intro items hall
    induction items with
    | nil => rfl
    | cons x xs ih =>
      rw [List.forall_mem_cons] at hall
      rw [List.map_cons, Json.nestingItems, nestingItems, hall.1, ih hall.2]
  induction v generalizing j with
  | null | bool | text =>
    cases h
    rfl
  | int n =>
    obtain ⟨-, rfl⟩ := toJson_int_eq_ok_iff.1 h
    rfl
  | float x =>
    obtain ⟨-, rfl⟩ := toJson_float_eq_ok_iff.1 h
    rfl
  | list items ih =>
    obtain ⟨hall, rfl⟩ := toJson_list_eq_ok_iff.1 h
    rw [Json.nesting, nesting, hitems items fun x hx => ih x hx (hall x hx), List.isEmpty_map]
    simp
  | tuple items ih =>
    rw [toJson_tuple] at h
    obtain ⟨hall, rfl⟩ := toJson_list_eq_ok_iff.1 h
    rw [Json.nesting, nesting, hitems items fun x hx => ih x hx (hall x hx), List.isEmpty_map]
    simp
  | dict entries ih =>
    obtain ⟨-, hall, rfl⟩ := toJson_dict_eq_ok_iff.1 h
    have hmembers : ∀ n, Json.nestingMembers false
          ((entries.mergeSort fun e f => keyLe e.1 f.1).map fun e =>
            (e.1.nameText nonFinite, e.2.jsonOf nonFinite)) ≤ n
        ↔ nestingEntries entries ≤ n := by
      intro n
      rw [Json.nestingMembers_le_iff, nestingEntries_le_iff, List.forall_mem_map]
      simp only [List.mem_mergeSort]
      exact forall₂_congr fun e he => by rw [ih e he (hall e he).2]
    have hempty : ((entries.mergeSort fun e f => keyLe e.1 f.1).map fun e =>
          (e.1.nameText nonFinite, e.2.jsonOf nonFinite)).isEmpty = entries.isEmpty := by
      rw [Bool.eq_iff_iff, List.isEmpty_iff_length_eq_zero, List.isEmpty_iff_length_eq_zero,
        List.length_map, List.length_mergeSort]
    rw [Json.nesting, nesting, hempty]
    rw [Nat.le_antisymm ((hmembers _).2 (Nat.le_refl _)) ((hmembers _).1 (Nat.le_refl _))]
    simp
  | bytes | readOnly | foreign => cases h

theorem readable_of_toJson {v : ClaimValue} {j : Json} (h : v.toJson nonFinite = .ok j)
    : Json.Readable false j := by
  suffices hnumeral : ∀ n, Json.Within (.int n) j → hasNumeral n = true from
    ⟨hnumeral, fun ha => absurd ha Bool.false_ne_true⟩
  induction v generalizing j with
  | null | bool | text =>
    cases h
    rintro n (_ | _ | _)
  | int n =>
    obtain ⟨hn, rfl⟩ := toJson_int_eq_ok_iff.1 h
    rintro n (_ | _ | _)
    exact hn
  | float x =>
    obtain ⟨-, rfl⟩ := toJson_float_eq_ok_iff.1 h
    rintro n (_ | _ | _)
  | list items ih =>
    obtain ⟨hall, rfl⟩ := toJson_list_eq_ok_iff.1 h
    rintro n (_ | ⟨hy, hn⟩)
    obtain ⟨x, hx, rfl⟩ := List.mem_map.1 hy
    exact ih x hx (hall x hx) n hn
  | tuple items ih =>
    rw [toJson_tuple] at h
    obtain ⟨hall, rfl⟩ := toJson_list_eq_ok_iff.1 h
    rintro n (_ | ⟨hy, hn⟩)
    obtain ⟨x, hx, rfl⟩ := List.mem_map.1 hy
    exact ih x hx (hall x hx) n hn
  | dict entries ih =>
    obtain ⟨-, hall, rfl⟩ := toJson_dict_eq_ok_iff.1 h
    rintro n (_ | _ | ⟨hm, hn⟩)
    obtain ⟨e, he, rfl⟩ := List.mem_map.1 hm
    have he := List.mem_mergeSort.1 he
    exact ih e he (hall e he).2 n hn
  | bytes | readOnly | foreign => cases h

end ClaimValue

end SignedToken
