import SignedToken.Proofs.Json

/-!
This module contains the numbers in a JSON value, truth values among them, and what it means that two
values differ in nothing but these.
-/

namespace SignedToken.Json

mutual

def numbers : Json → List Json
  | bool b => [bool b]
  | int n => [int n]
  | float x => [float x]
  | array items => numbersItems items
  | object members => numbersMembers members
  | _ => []
termination_by structural j => j

def numbersItems : List Json → List Json
  | [] => []
  | x :: xs => numbers x ++ numbersItems xs
termination_by structural xs => xs

def numbersMembers : List (Text × Json) → List Json
  | [] => []
  | (_, x) :: ms => numbers x ++ numbersMembers ms
termination_by structural ms => ms

end

theorem numbersItems_eq_flatMap (items : List Json)
    : numbersItems items = items.flatMap numbers := by
  induction items with
  | nil => rfl
  | cons x xs ih => rw [numbersItems, ih, List.flatMap_cons]

theorem numbersMembers_eq_flatMap (members : List (Text × Json))
    : numbersMembers members = members.flatMap fun m => m.2.numbers := by
  induction members with
  | nil => rfl
  | cons m ms ih => rw [numbersMembers, ih, List.flatMap_cons]

/--
Whether two values have as many numbers, and are one value if the numbers are the same.
-/
structure SameButNumbers (j k : Json) : Prop where
  length : j.numbers.length = k.numbers.length
  eq : j.numbers = k.numbers → j = k

theorem sameButNumbers_self (j : Json) : j.SameButNumbers j :=
  ⟨rfl, fun _ => rfl⟩

theorem sameButNumbers_of_number {j k : Json} (hj : j.numbers = [j]) (hk : k.numbers = [k])
    : j.SameButNumbers k where
  length := by rw [hj, hk]; rfl
  eq := by
    intro h
    rw [hj, hk] at h
    exact List.singleton_inj.1 h

theorem sameButNumbers_flatMap {f g : α → Json} {ps : List α}
    (h : ∀ p ∈ ps, (f p).SameButNumbers (g p))
    : (ps.flatMap fun p => (f p).numbers).length = (ps.flatMap fun p => (g p).numbers).length ∧
        ((ps.flatMap fun p => (f p).numbers) = (ps.flatMap fun p => (g p).numbers) →
          ∀ p ∈ ps, f p = g p) := by
  induction ps with
  | nil => simp
  | cons p ps ih =>
    rw [List.forall_mem_cons] at h
    obtain ⟨hlength, heq⟩ := ih h.2
    simp only [List.flatMap_cons]
    constructor
    . rw [List.length_append, List.length_append, h.1.length, hlength]
    . intro happend
      obtain ⟨hhead, htail⟩ := List.append_inj happend h.1.length
      exact List.forall_mem_cons.2 ⟨h.1.eq hhead, heq htail⟩

theorem sameButNumbers_array {f g : α → Json} {ps : List α}
    (h : ∀ p ∈ ps, (f p).SameButNumbers (g p))
    : (array (ps.map f)).SameButNumbers (array (ps.map g)) := by
  obtain ⟨hlength, heq⟩ := sameButNumbers_flatMap h
  constructor
  . rw [numbers, numbers, numbersItems_eq_flatMap, numbersItems_eq_flatMap, List.flatMap_map,
      List.flatMap_map]
    exact hlength
  . rw [numbers, numbers, numbersItems_eq_flatMap, numbersItems_eq_flatMap, List.flatMap_map,
      List.flatMap_map]
    intro hnumbers
    rw [List.map_congr_left (heq hnumbers)]

theorem sameButNumbers_object {f g : α → Json} {ps : List (Text × α)}
    (h : ∀ p ∈ ps, (f p.2).SameButNumbers (g p.2))
    : (object (ps.map fun p => (p.1, f p.2))).SameButNumbers
        (object (ps.map fun p => (p.1, g p.2))) := by
  obtain ⟨hlength, heq⟩ := sameButNumbers_flatMap h
  constructor
  . rw [numbers, numbers, numbersMembers_eq_flatMap, numbersMembers_eq_flatMap, List.flatMap_map,
      List.flatMap_map]
    exact hlength
  . rw [numbers, numbers, numbersMembers_eq_flatMap, numbersMembers_eq_flatMap, List.flatMap_map,
      List.flatMap_map]
    intro hnumbers
    have hmap : ∀ p ∈ ps, (p.1, f p.2) = (p.1, g p.2) :=
      fun p hp => congrArg (Prod.mk p.1) (heq hnumbers p hp)
    rw [List.map_congr_left hmap]

end SignedToken.Json
