import SignedToken.Claim.Freeze
import SignedToken.Claim.Writer
import SignedToken.Proofs.Json

/-!
This module contains the structure of claim values: induction on them, the values within a value,
how deep a value is nested, and the functions on them as maps over items and entries.
-/

namespace SignedToken.ClaimValue

/--
Induction where the items of a sequence and the values of a mapping are taken at once. Keys are left
alone.
-/
@[elab_as_elim, induction_eliminator]
theorem induction {motive : ClaimValue → Prop} (null : motive .null) (bool : ∀ b, motive (.bool b))
    (int : ∀ n, motive (.int n)) (float : ∀ x, motive (.float x)) (text : ∀ t, motive (.text t))
    (bytes : ∀ b, motive (.bytes b))
    (list : ∀ items, (∀ x ∈ items, motive x) → motive (.list items))
    (tuple : ∀ items, (∀ x ∈ items, motive x) → motive (.tuple items))
    (dict : ∀ entries, (∀ e ∈ entries, motive e.2) → motive (.dict entries))
    (readOnly : ∀ entries, (∀ e ∈ entries, motive e.2) → motive (.readOnly entries))
    (foreign : motive .foreign) : ∀ v, motive v
  | .null => null
  | .bool b => bool b
  | .int n => int n
  | .float x => float x
  | .text t => text t
  | .bytes b => bytes b
  | .list items => list items fun x _ =>
    induction null bool int float text bytes list tuple dict readOnly foreign x
  | .tuple items => tuple items fun x _ =>
    induction null bool int float text bytes list tuple dict readOnly foreign x
  | .dict entries => dict entries fun e _ =>
    induction null bool int float text bytes list tuple dict readOnly foreign e.2
  | .readOnly entries => readOnly entries fun e _ =>
    induction null bool int float text bytes list tuple dict readOnly foreign e.2
  | .foreign => foreign
termination_by v => sizeOf v
decreasing_by
  . next hx =>
    have := List.sizeOf_lt_of_mem hx
    simp only [ClaimValue.list.sizeOf_spec]
    omega
  . next hx =>
    have := List.sizeOf_lt_of_mem hx
    simp only [ClaimValue.tuple.sizeOf_spec]
    omega
  . next he =>
    have := Entries.sizeOf_snd_lt_of_mem he
    simp only [ClaimValue.dict.sizeOf_spec]
    omega
  . next he =>
    have := Entries.sizeOf_snd_lt_of_mem he
    simp only [ClaimValue.readOnly.sizeOf_spec]
    omega

/-! ### The values within a value -/

inductive Within (x : ClaimValue) : ClaimValue → Prop where
  | self : Within x x
  | list {items : List ClaimValue} {y : ClaimValue} :
    y ∈ items → Within x y → Within x (.list items)
  | tuple {items : List ClaimValue} {y : ClaimValue} :
    y ∈ items → Within x y → Within x (.tuple items)
  | dict {entries : List (ClaimValue × ClaimValue)} {e : ClaimValue × ClaimValue} :
    e ∈ entries → Within x e.2 → Within x (.dict entries)
  | readOnly {entries : List (ClaimValue × ClaimValue)} {e : ClaimValue × ClaimValue} :
    e ∈ entries → Within x e.2 → Within x (.readOnly entries)

section Within

variable {P : ClaimValue → Prop} {items : List ClaimValue}
  {entries : List (ClaimValue × ClaimValue)}

theorem forall_within_list
    : (∀ x, Within x (.list items) → P x)
        ↔
      P (.list items) ∧ ∀ y ∈ items, ∀ x, Within x y → P x := by
  constructor
  . intro h
    exact ⟨h _ .self, fun y hy x hx => h x (.list hy hx)⟩
  . rintro ⟨hself, hitems⟩ x (_ | ⟨hy, hx⟩)
    . exact hself
    . exact hitems _ hy x hx

theorem forall_within_tuple
    : (∀ x, Within x (.tuple items) → P x)
        ↔
      P (.tuple items) ∧ ∀ y ∈ items, ∀ x, Within x y → P x := by
  constructor
  . intro h
    exact ⟨h _ .self, fun y hy x hx => h x (.tuple hy hx)⟩
  . rintro ⟨hself, hitems⟩ x (_ | _ | ⟨hy, hx⟩)
    . exact hself
    . exact hitems _ hy x hx

theorem forall_within_dict
    : (∀ x, Within x (.dict entries) → P x)
        ↔
      P (.dict entries) ∧ ∀ e ∈ entries, ∀ x, Within x e.2 → P x := by
  constructor
  . intro h
    exact ⟨h _ .self, fun e he x hx => h x (.dict he hx)⟩
  . rintro ⟨hself, hentries⟩ x (_ | _ | _ | ⟨he, hx⟩)
    . exact hself
    . exact hentries _ he x hx

theorem forall_within_readOnly
    : (∀ x, Within x (.readOnly entries) → P x)
        ↔
      P (.readOnly entries) ∧ ∀ e ∈ entries, ∀ x, Within x e.2 → P x := by
  constructor
  . intro h
    exact ⟨h _ .self, fun e he x hx => h x (.readOnly he hx)⟩
  . rintro ⟨hself, hentries⟩ x (_ | _ | _ | _ | ⟨he, hx⟩)
    . exact hself
    . exact hentries _ he x hx

end Within

/-! ### Nesting -/

mutual

/--
How deep sequences and mappings are nested. Those without items do not count.
-/
def nesting : ClaimValue → Nat
  | list items => if items.isEmpty then 0 else nestingItems items + 1
  | tuple items => if items.isEmpty then 0 else nestingItems items + 1
  | dict entries => if entries.isEmpty then 0 else nestingEntries entries + 1
  | readOnly entries => if entries.isEmpty then 0 else nestingEntries entries + 1
  | _ => 0
termination_by structural v => v

def nestingItems : List ClaimValue → Nat
  | [] => 0
  | x :: xs => max (nesting x) (nestingItems xs)
termination_by structural xs => xs

def nestingEntries : List (ClaimValue × ClaimValue) → Nat
  | [] => 0
  | (_, v) :: es => max (nesting v) (nestingEntries es)
termination_by structural es => es

end

theorem nestingItems_le_iff {items : List ClaimValue} {n : Nat}
    : nestingItems items ≤ n ↔ ∀ x ∈ items, x.nesting ≤ n := by
  induction items with
  | nil => simp [nestingItems]
  | cons x xs ih => rw [nestingItems, Nat.max_le, ih, List.forall_mem_cons]

theorem nestingEntries_le_iff {entries : List (ClaimValue × ClaimValue)} {n : Nat}
    : nestingEntries entries ≤ n ↔ ∀ e ∈ entries, e.2.nesting ≤ n := by
  induction entries with
  | nil => simp [nestingEntries]
  | cons e es ih => rw [nestingEntries, Nat.max_le, ih, List.forall_mem_cons]

theorem nesting_list_le_iff {items : List ClaimValue} {n : Nat}
    : (list items).nesting ≤ n ↔ items = [] ∨ ∃ k, n = k + 1 ∧ ∀ x ∈ items, x.nesting ≤ k := by
  rw [nesting, Json.level_le_iff, List.isEmpty_iff]
  simp only [nestingItems_le_iff]

theorem nesting_dict_le_iff {entries : List (ClaimValue × ClaimValue)} {n : Nat}
    : (dict entries).nesting ≤ n
        ↔
      entries = [] ∨ ∃ k, n = k + 1 ∧ ∀ e ∈ entries, e.2.nesting ≤ k := by
  rw [nesting, Json.level_le_iff, List.isEmpty_iff]
  simp only [nestingEntries_le_iff]

theorem nestingItems_map {f : ClaimValue → ClaimValue} {items : List ClaimValue}
    (h : ∀ x ∈ items, (f x).nesting = x.nesting)
    : nestingItems (items.map f) = nestingItems items := by
  induction items with
  | nil => rfl
  | cons x xs ih =>
    rw [List.forall_mem_cons] at h
    rw [List.map_cons, nestingItems, nestingItems, h.1, ih h.2]

theorem nestingEntries_map {f : ClaimValue → ClaimValue} {entries : List (ClaimValue × ClaimValue)}
    (h : ∀ e ∈ entries, (f e.2).nesting = e.2.nesting)
    : nestingEntries (entries.map fun e => (e.1, f e.2)) = nestingEntries entries := by
  induction entries with
  | nil => rfl
  | cons e es ih =>
    rw [List.forall_mem_cons] at h
    rw [List.map_cons, nestingEntries, nestingEntries, h.1, ih h.2]

/-! ### Functions on parts -/

theorem freezeItems_eq_map (items : List ClaimValue) : freezeItems items = items.map freeze := by
  induction items with
  | nil => rfl
  | cons x xs ih => rw [freezeItems, ih, List.map_cons]

theorem freezeEntries_eq_map (entries : List (ClaimValue × ClaimValue))
    : freezeEntries entries = entries.map fun e => (e.1, e.2.freeze) := by
  induction entries with
  | nil => rfl
  | cons e es ih => rw [freezeEntries, ih, List.map_cons]

theorem thawItems_eq_map (items : List ClaimValue) : thawItems items = items.map thaw := by
  induction items with
  | nil => rfl
  | cons x xs ih => rw [thawItems, ih, List.map_cons]

theorem thawEntries_eq_map (entries : List (ClaimValue × ClaimValue))
    : thawEntries entries = entries.map fun e => (e.1, e.2.thaw) := by
  induction entries with
  | nil => rfl
  | cons e es ih => rw [thawEntries, ih, List.map_cons]

theorem ofJsonItems_eq_map (items : List Json) : ofJsonItems items = items.map ofJson := by
  induction items with
  | nil => rfl
  | cons x xs ih => rw [ofJsonItems, ih, List.map_cons]

theorem ofJsonMembers_eq_map (members : List (Text × Json))
    : ofJsonMembers members = members.map fun m => (text m.1, ofJson m.2) := by
  induction members with
  | nil => rfl
  | cons m ms ih => rw [ofJsonMembers, ih, List.map_cons]

theorem toJsonEntries_eq_map (nonFinite : Bool) (entries : List (ClaimValue × ClaimValue))
    : toJsonEntries nonFinite entries = entries.map fun e => (e.1, e.2.toJson nonFinite) := by
  induction entries with
  | nil => rfl
  | cons e es ih => rw [toJsonEntries, ih, List.map_cons]

theorem equals_text (s t : Text) : equals (text s) (text t) = (s == t) := by
  rw [equals]

theorem ofJson_object (members : List (Text × Json))
    : ofJson (.object members)
        =
      dict ((Entries.ofList (· == ·) members).map fun m => (text m.1, ofJson m.2)) := by
  rw [ofJson, ofJsonMembers_eq_map, Entries.ofList_map ofJson equals_text]

end SignedToken.ClaimValue
