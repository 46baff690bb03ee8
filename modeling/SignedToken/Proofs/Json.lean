import SignedToken.Json.Writer
import SignedToken.Proofs.Entries

/-!
This module contains the structure of JSON values: induction on them, the values within a value,
those without lone surrogates, which member a name stands for, and how deep a value is nested.
-/

namespace SignedToken.Json

@[elab_as_elim, induction_eliminator]
theorem induction {motive : Json → Prop} (null : motive .null) (bool : ∀ b, motive (.bool b))
    (int : ∀ n, motive (.int n)) (float : ∀ x, motive (.float x)) (text : ∀ t, motive (.text t))
    (array : ∀ items, (∀ x ∈ items, motive x) → motive (.array items))
    (object : ∀ members, (∀ m ∈ members, motive m.2) → motive (.object members))
    : ∀ j, motive j
  | .null => null
  | .bool b => bool b
  | .int n => int n
  | .float x => float x
  | .text t => text t
  | .array items => array items fun x _ => induction null bool int float text array object x
  | .object members =>
    object members fun m _ => induction null bool int float text array object m.2
termination_by j => sizeOf j
decreasing_by
  . next hx =>
    have := List.sizeOf_lt_of_mem hx
    simp only [Json.array.sizeOf_spec]
    omega
  . next hm =>
    have := Entries.sizeOf_snd_lt_of_mem hm
    simp only [Json.object.sizeOf_spec]
    omega

/-! ### The values within a value -/

inductive Within (x : Json) : Json → Prop where
  | self : Within x x
  | item {items : List Json} {y : Json} : y ∈ items → Within x y → Within x (.array items)
  | member {members : List (Text × Json)} {m : Text × Json} :
    m ∈ members → Within x m.2 → Within x (.object members)

theorem forall_within_array {P : Json → Prop} {items : List Json}
    : (∀ x, Within x (.array items) → P x)
        ↔
      P (.array items) ∧ ∀ y ∈ items, ∀ x, Within x y → P x := by
  constructor
  . intro h
    exact ⟨h _ .self, fun y hy x hx => h x (.item hy hx)⟩
  . rintro ⟨hself, hitems⟩ x hx
    cases hx with
    | self => exact hself
    | item hy hx => exact hitems _ hy x hx

theorem forall_within_object {P : Json → Prop} {members : List (Text × Json)}
    : (∀ x, Within x (.object members) → P x)
        ↔
      P (.object members) ∧ ∀ m ∈ members, ∀ x, Within x m.2 → P x := by
  constructor
  . intro h
    exact ⟨h _ .self, fun m hm x hx => h x (.member hm hx)⟩
  . rintro ⟨hself, hmembers⟩ x hx
    cases hx with
    | self => exact hself
    | member hm hx => exact hmembers _ hm x hx

/-! ### Legible values -/

def legibleNode : Json → Prop
  | text t => t.any CodePoint.isSurrogate = false
  | object members => ∀ m ∈ members, m.1.any CodePoint.isSurrogate = false
  | _ => True

/--
Whether no text and no name in a value has a surrogate of its own.
-/
def IsLegible (j : Json) : Prop :=
  ∀ x, Within x j → x.legibleNode

theorem isLegible_array_iff {items : List Json}
    : (array items).IsLegible ↔ ∀ x ∈ items, x.IsLegible :=
  forall_within_array.trans (and_iff_right trivial)

theorem isLegible_object_iff {members : List (Text × Json)}
    : (object members).IsLegible
        ↔
      ∀ m ∈ members, m.1.any CodePoint.isSurrogate = false ∧ m.2.IsLegible := by
  simp only [imp_and, forall_and]
  exact forall_within_object

/-! ### Members by name -/

theorem lastMember?_eq_some_iff {name : Text} {members : List (Text × Json)} {x : Json}
    : lastMember? name members = some x ↔ Entries.LastOf members name x := by
  rw [lastMember?, Option.map_eq_some_iff]
  simp only [List.find?_eq_some_iff_append]
  constructor
  . rintro ⟨m, ⟨hname, behind, before, heq, hbehind⟩, rfl⟩
    refine ⟨before.reverse, behind.reverse, ?_, ?_⟩
    . rw [← List.reverse_reverse members, heq, ← beq_iff_eq.1 hname]
      simp
    . intro hmem
      obtain ⟨n, hn, heq⟩ := List.mem_map.1 hmem
      have := hbehind n (List.mem_reverse.1 hn)
      simp [heq] at this
  . rintro ⟨before, behind, rfl, hbehind⟩
    refine ⟨(name, x), ⟨beq_self_eq_true name, behind.reverse, before.reverse, by simp, ?_⟩, rfl⟩
    intro n hn
    have hne : n.1 ≠ name := fun heq => hbehind (heq ▸ List.mem_map_of_mem (List.mem_reverse.1 hn))
    simpa using hne

theorem lastMember?_eq_none_iff {name : Text} {members : List (Text × Json)}
    : lastMember? name members = none ↔ name ∉ members.map (·.1) := by
  rw [← Entries.exists_lastOf_iff, Option.eq_none_iff_forall_ne_some]
  simp only [ne_eq, lastMember?_eq_some_iff, not_exists]

/-! ### Nesting -/

mutual

def nesting (countsEmpty : Bool) : Json → Nat
  | array items => if items.isEmpty && !countsEmpty then 0 else nestingItems countsEmpty items + 1
  | object members =>
    if members.isEmpty && !countsEmpty then 0 else nestingMembers countsEmpty members + 1
  | _ => 0
termination_by structural j => j

def nestingItems (countsEmpty : Bool) : List Json → Nat
  | [] => 0
  | x :: xs => max (nesting countsEmpty x) (nestingItems countsEmpty xs)
termination_by structural xs => xs

def nestingMembers (countsEmpty : Bool) : List (Text × Json) → Nat
  | [] => 0
  | (_, x) :: ms => max (nesting countsEmpty x) (nestingMembers countsEmpty ms)
termination_by structural ms => ms

end

theorem nestingItems_le_iff {countsEmpty : Bool} {items : List Json} {n : Nat}
    : nestingItems countsEmpty items ≤ n ↔ ∀ x ∈ items, x.nesting countsEmpty ≤ n := by
  induction items with
  | nil => simp [nestingItems]
  | cons x xs ih => rw [nestingItems, Nat.max_le, ih, List.forall_mem_cons]

theorem nestingMembers_le_iff {countsEmpty : Bool} {members : List (Text × Json)} {n : Nat}
    : nestingMembers countsEmpty members ≤ n ↔ ∀ m ∈ members, m.2.nesting countsEmpty ≤ n := by
  induction members with
  | nil => simp [nestingMembers]
  | cons m ms ih => rw [nestingMembers, Nat.max_le, ih, List.forall_mem_cons]

theorem level_le_iff {excepted : Prop} [Decidable excepted] {m n : Nat}
    : (if excepted then 0 else m + 1) ≤ n ↔ excepted ∨ ∃ k, n = k + 1 ∧ m ≤ k := by
  split
  . next h => exact iff_of_true (Nat.zero_le n) (.inl h)
  . next h =>
    rw [or_iff_right h]
    constructor
    . exact fun hle => ⟨n - 1, by omega, by omega⟩
    . rintro ⟨k, rfl, hle⟩
      exact Nat.succ_le_succ hle

theorem nesting_array_le_iff {countsEmpty : Bool} {items : List Json} {n : Nat}
    : (array items).nesting countsEmpty ≤ n
        ↔
      (items = [] ∧ countsEmpty = false) ∨
        ∃ k, n = k + 1 ∧ ∀ x ∈ items, x.nesting countsEmpty ≤ k := by
  rw [nesting, level_le_iff, Bool.and_eq_true, List.isEmpty_iff, Bool.not_eq_true']
  simp only [nestingItems_le_iff]

theorem nesting_object_le_iff {countsEmpty : Bool} {members : List (Text × Json)} {n : Nat}
    : (object members).nesting countsEmpty ≤ n
        ↔
      (members = [] ∧ countsEmpty = false) ∨
        ∃ k, n = k + 1 ∧ ∀ m ∈ members, m.2.nesting countsEmpty ≤ k := by
  rw [nesting, level_le_iff, Bool.and_eq_true, List.isEmpty_iff, Bool.not_eq_true']
  simp only [nestingMembers_le_iff]

/-! ### Writing -/

theorem writeItems_eq_map (s : Style) (items : List Json)
    : writeItems s items = items.map (write s) := by
  induction items with
  | nil => rfl
  | cons x xs ih => rw [writeItems, ih, List.map_cons]

theorem writeMembers_eq_map (s : Style) (members : List (Text × Json))
    : writeMembers s members
        =
      members.map fun m => quoted s.asciiOnly m.1 ++ s.nameSeparator ++ write s m.2 := by
  induction members with
  | nil => rfl
  | cons m ms ih => rw [writeMembers, ih, List.map_cons]

end SignedToken.Json
