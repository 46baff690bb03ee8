import SignedToken.Proofs.Claim.Freeze
import SignedToken.Proofs.Claim.Written

/-!
This module contains the laws of the room that is left on the stack. What is written within it is the
JSON form, and a value is nested at most one level more deeply when levels without entries count.
-/

namespace SignedToken

namespace Json

theorem nesting_true_le (j : Json) : j.nesting true ≤ j.nesting false + 1 := by
  induction j with
  | array items ih =>
    have hitems : nestingItems true items ≤ nestingItems false items + 1 := by
      rw [nestingItems_le_iff]
      intro x hx
      have := nestingItems_le_iff.1 (Nat.le_refl (nestingItems false items)) x hx
      exact Nat.le_trans (ih x hx) (Nat.succ_le_succ this)
    cases items with
    | nil => decide
    | cons x items =>
      rw [nesting, nesting]
      simpa using hitems
  | object members ih =>
    have hmembers : nestingMembers true members ≤ nestingMembers false members + 1 := by
      rw [nestingMembers_le_iff]
      intro m hm
      have := nestingMembers_le_iff.1 (Nat.le_refl (nestingMembers false members)) m hm
      exact Nat.le_trans (ih m hm) (Nat.succ_le_succ this)
    cases members with
    | nil => decide
    | cons m members =>
      rw [nesting, nesting]
      simpa using hmembers
  | null | bool | int | float | text => exact Nat.zero_le _

theorem nesting_true_array (items : List Json)
    : (array items).nesting true = nestingItems true items + 1 := by
  simp [nesting]

theorem nesting_true_object (members : List (Text × Json))
    : (object members).nesting true = nestingMembers true members + 1 := by
  simp [nesting]

end Json

namespace ClaimValue

variable {nonFinite : Bool} {room : Nat}

/-! ### Thawing -/

theorem thawDepthItems_le_iff {items : List ClaimValue} {n : Nat}
    : thawDepthItems items ≤ n ↔ ∀ x ∈ items, x.thawDepth ≤ n := by
  induction items with
  | nil => simp [thawDepthItems]
  | cons x xs ih => rw [thawDepthItems, Nat.max_le, ih, List.forall_mem_cons]

theorem thawDepthEntries_le_iff {entries : List (ClaimValue × ClaimValue)} {n : Nat}
    : thawDepthEntries entries ≤ n ↔ ∀ e ∈ entries, e.2.thawDepth ≤ n := by
  induction entries with
  | nil => simp [thawDepthEntries]
  | cons e es ih => rw [thawDepthEntries, Nat.max_le, ih, List.forall_mem_cons]

theorem thawDepth_le (v : ClaimValue) : v.thawDepth ≤ v.nesting + 1 := by
  induction v with
  | tuple items ih =>
    have hitems : thawDepthItems items ≤ nestingItems items + 1 := by
      rw [thawDepthItems_le_iff]
      intro x hx
      have := nestingItems_le_iff.1 (Nat.le_refl (nestingItems items)) x hx
      exact Nat.le_trans (ih x hx) (Nat.succ_le_succ this)
    cases items with
    | nil => decide
    | cons x items =>
      rw [thawDepth, nesting]
      simpa using hitems
  | dict entries ih | readOnly entries ih =>
    have hentries : thawDepthEntries entries ≤ nestingEntries entries + 1 := by
      rw [thawDepthEntries_le_iff]
      intro e he
      have := nestingEntries_le_iff.1 (Nat.le_refl (nestingEntries entries)) e he
      exact Nat.le_trans (ih e he) (Nat.succ_le_succ this)
    cases entries with
    | nil => decide
    | cons e entries =>
      rw [thawDepth, nesting]
      simpa using hentries
  | null | bool | int | float | text | bytes | list | foreign => exact Nat.zero_le _

/-! ### Writing -/

theorem toJsonEntriesWithin_eq_map (entries : List (ClaimValue × ClaimValue))
    : toJsonEntriesWithin nonFinite room entries
        =
      entries.map fun e => (e.1, e.2.toJsonWithin nonFinite room) := by
  induction entries with
  | nil => rfl
  | cons e es ih => rw [toJsonEntriesWithin, ih, List.map_cons]

theorem toJsonItemsWithin_eq {items : List ClaimValue}
    (h : ∀ x ∈ items, x.toJsonWithin nonFinite room = x.toJson nonFinite)
    : toJsonItemsWithin nonFinite room items = toJsonItems nonFinite items := by
  induction items with
  | nil => rfl
  | cons x xs ih =>
    rw [List.forall_mem_cons] at h
    rw [toJsonItemsWithin, toJsonItems, h.1, ih h.2]

theorem toJsonEntriesWithin_eq {entries : List (ClaimValue × ClaimValue)}
    (h : ∀ e ∈ entries, e.2.toJsonWithin nonFinite room = e.2.toJson nonFinite)
    : toJsonEntriesWithin nonFinite room entries = toJsonEntries nonFinite entries := by
  rw [toJsonEntriesWithin_eq_map, toJsonEntries_eq_map]
  apply List.map_congr_left
  intro e he
  rw [h e he]

theorem exists_eq_ok_of_toJsonItemsWithin {items : List ClaimValue} {js : List Json}
    (h : toJsonItemsWithin nonFinite room items = .ok js)
    : ∀ x ∈ items, ∃ j, x.toJsonWithin nonFinite room = .ok j := by
  induction items generalizing js with
  | nil => simp
  | cons x xs ih =>
    rw [toJsonItemsWithin] at h
    split at h
    . cases h
    . next j hj =>
      split at h
      . cases h
      . next js' hjs => exact List.forall_mem_cons.2 ⟨⟨j, hj⟩, ih hjs⟩

theorem exists_eq_ok_of_nameEntries {entries : List (ClaimValue × Except WriteError Json)}
    {members : List (Text × Json)} (h : nameEntries nonFinite entries = .ok members)
    : ∀ e ∈ entries, ∃ j, e.2 = .ok j := by
  induction entries generalizing members with
  | nil => simp
  | cons e es ih =>
    rw [nameEntries] at h
    split at h
    . cases h
    . split at h
      . cases h
      . next j hj =>
        split at h
        . cases h
        . next members' hmembers => exact List.forall_mem_cons.2 ⟨⟨j, hj⟩, ih hmembers⟩

theorem exists_eq_ok_of_objectOf {entries : List (ClaimValue × Except WriteError Json)} {j : Json}
    (h : objectOf nonFinite entries = .ok j) : ∀ e ∈ entries, ∃ j, e.2 = .ok j := by
  unfold objectOf sortEntries at h
  cases hkeys : firstIncomparable? (entries.map (·.1)) with
  | some found =>
    rw [hkeys] at h
    cases h
  | none =>
    rw [hkeys] at h
    obtain ⟨members, hmembers, -⟩ := Outcome.map_eq_ok_iff.1 h
    exact fun e he => exists_eq_ok_of_nameEntries hmembers e (List.mem_mergeSort.2 he)

def WrittenWithin (nonFinite : Bool) (room : Nat) (v : ClaimValue) : Prop :=
  ∀ j, v.toJsonWithin nonFinite room = .ok j
    ↔ v.toJson nonFinite = .ok j ∧ j.nesting true ≤ room

theorem WrittenWithin.eq_toJson {v : ClaimValue} (h : v.WrittenWithin nonFinite room)
    (hok : ∃ j, v.toJsonWithin nonFinite room = .ok j)
    : v.toJsonWithin nonFinite room = v.toJson nonFinite := by
  obtain ⟨j, hj⟩ := hok
  rw [hj, ((h j).1 hj).1]

theorem writtenWithin_list {items : List ClaimValue}
    (h : ∀ x ∈ items, ∀ room, x.WrittenWithin nonFinite room)
    : (list items).WrittenWithin nonFinite room := by
  intro j
  cases room with
  | zero =>
    apply iff_of_false nofun
    rintro ⟨hj, hroom⟩
    obtain ⟨-, rfl⟩ := toJson_list_eq_ok_iff.1 hj
    rw [Json.nesting_true_array] at hroom
    exact Nat.not_succ_le_zero _ hroom
  | succ room =>
    rw [toJsonWithin, Outcome.map_eq_ok_iff]
    constructor
    . rintro ⟨js, hjs, rfl⟩
      have hparts : ∀ x ∈ items, x.toJsonWithin nonFinite room = x.toJson nonFinite :=
        fun x hx => (h x hx room).eq_toJson (exists_eq_ok_of_toJsonItemsWithin hjs x hx)
      rw [toJsonItemsWithin_eq hparts] at hjs
      obtain ⟨hall, rfl⟩ := toJsonItems_eq_ok_iff.1 hjs
      refine ⟨toJson_list_eq_ok_iff.2 ⟨hall, rfl⟩, ?_⟩
      rw [Json.nesting_true_array, Nat.add_le_add_iff_right, Json.nestingItems_le_iff,
        List.forall_mem_map]
      intro x hx
      exact ((h x hx room _).1 ((hparts x hx).trans (hall x hx))).2
    . rintro ⟨hj, hroom⟩
      obtain ⟨hall, rfl⟩ := toJson_list_eq_ok_iff.1 hj
      rw [Json.nesting_true_array, Nat.add_le_add_iff_right, Json.nestingItems_le_iff,
        List.forall_mem_map] at hroom
      have hparts : ∀ x ∈ items, x.toJsonWithin nonFinite room = x.toJson nonFinite := by
        intro x hx
        exact (h x hx room).eq_toJson ⟨_, (h x hx room _).2 ⟨hall x hx, hroom x hx⟩⟩
      rw [toJsonItemsWithin_eq hparts]
      exact ⟨_, toJsonItems_eq_ok_iff.2 ⟨hall, rfl⟩, rfl⟩

theorem writtenWithin_dict {entries : List (ClaimValue × ClaimValue)}
    (h : ∀ e ∈ entries, ∀ room, e.2.WrittenWithin nonFinite room)
    : (dict entries).WrittenWithin nonFinite room := by
  intro j
  cases room with
  | zero =>
    apply iff_of_false nofun
    rintro ⟨hj, hroom⟩
    obtain ⟨-, -, rfl⟩ := toJson_dict_eq_ok_iff.1 hj
    rw [Json.nesting_true_object] at hroom
    exact Nat.not_succ_le_zero _ hroom
  | succ room =>
    rw [toJsonWithin]
    constructor
    . intro hj
      have hparts : ∀ e ∈ entries, e.2.toJsonWithin nonFinite room = e.2.toJson nonFinite := by
        intro e he
        apply (h e he room).eq_toJson
        have hmem : (e.1, e.2.toJsonWithin nonFinite room)
            ∈ toJsonEntriesWithin nonFinite room entries := by
          rw [toJsonEntriesWithin_eq_map]
          exact List.mem_map.2 ⟨e, he, rfl⟩
        exact exists_eq_ok_of_objectOf hj _ hmem
      rw [toJsonEntriesWithin_eq hparts, ← toJson] at hj
      refine ⟨hj, ?_⟩
      obtain ⟨-, hall, rfl⟩ := toJson_dict_eq_ok_iff.1 hj
      rw [Json.nesting_true_object, Nat.add_le_add_iff_right, Json.nestingMembers_le_iff,
        List.forall_mem_map]
      intro e he
      have he := List.mem_mergeSort.1 he
      exact ((h e he room _).1 ((hparts e he).trans (hall e he).2)).2
    . rintro ⟨hj, hroom⟩
      obtain ⟨-, hall, rfl⟩ := toJson_dict_eq_ok_iff.1 hj
      rw [Json.nesting_true_object, Nat.add_le_add_iff_right, Json.nestingMembers_le_iff,
        List.forall_mem_map] at hroom
      have hparts : ∀ e ∈ entries, e.2.toJsonWithin nonFinite room = e.2.toJson nonFinite := by
        intro e he
        have hroom := hroom e (List.mem_mergeSort.2 he)
        exact (h e he room).eq_toJson ⟨_, (h e he room _).2 ⟨(hall e he).2, hroom⟩⟩
      rw [toJsonEntriesWithin_eq hparts, ← toJson]
      exact hj

theorem toJsonWithin_tuple (items : List ClaimValue)
    : (tuple items).toJsonWithin nonFinite room = (list items).toJsonWithin nonFinite room := by
  cases room <;> rfl

theorem writtenWithin (v : ClaimValue) : v.WrittenWithin nonFinite room := by
  induction v generalizing room with
  | list items ih => exact writtenWithin_list fun x hx room => ih x hx
  | tuple items ih =>
    intro j
    rw [toJsonWithin_tuple, toJson_tuple]
    exact writtenWithin_list (fun x hx room => ih x hx) j
  | dict entries ih => exact writtenWithin_dict fun e he room => ih e he
  | null | bool | text =>
    intro j
    cases room <;> exact ⟨fun h => by cases h; exact ⟨rfl, Nat.zero_le _⟩, fun h => h.1⟩
  | int n =>
    intro j
    have hleaf : (int n).toJsonWithin nonFinite room = (int n).toJson nonFinite := by
      cases room <;> rfl
    rw [hleaf, iff_self_and]
    intro hj
    obtain ⟨-, rfl⟩ := toJson_int_eq_ok_iff.1 hj
    exact Nat.zero_le _
  | float x =>
    intro j
    have hleaf : (float x).toJsonWithin nonFinite room = (float x).toJson nonFinite := by
      cases room <;> rfl
    rw [hleaf, iff_self_and]
    intro hj
    obtain ⟨-, rfl⟩ := toJson_float_eq_ok_iff.1 hj
    exact Nat.zero_le _
  | bytes | readOnly | foreign =>
    intro j
    cases room <;> exact ⟨nofun, fun h => nomatch h.1⟩

theorem toJsonWithin_eq_ok_iff {v : ClaimValue} {j : Json}
    : v.toJsonWithin nonFinite room = .ok j
        ↔
      v.toJson nonFinite = .ok j ∧ j.nesting true ≤ room :=
  writtenWithin v j

/-! ### What comes first -/

theorem toJsonItemsWithin_cases {items : List ClaimValue}
    (h : ∀ x ∈ items, x.toJsonWithin nonFinite room = x.toJson nonFinite ∨
      x.toJsonWithin nonFinite room = .error .outOfStack)
    : toJsonItemsWithin nonFinite room items = toJsonItems nonFinite items ∨
        toJsonItemsWithin nonFinite room items = .error .outOfStack := by
  induction items with
  | nil => exact .inl rfl
  | cons x xs ih =>
    rw [List.forall_mem_cons] at h
    rw [toJsonItemsWithin, toJsonItems]
    cases h.1 with
    | inr hx =>
      rw [hx]
      exact .inr rfl
    | inl hx =>
      rw [hx]
      cases x.toJson nonFinite with
      | error e => exact .inl rfl
      | ok j =>
        cases ih h.2 with
        | inl hxs =>
          rw [hxs]
          exact .inl rfl
        | inr hxs =>
          rw [hxs]
          exact .inr rfl

theorem nameEntries_cases {entries : List (ClaimValue × ClaimValue)}
    (h : ∀ e ∈ entries, e.2.toJsonWithin nonFinite room = e.2.toJson nonFinite ∨
      e.2.toJsonWithin nonFinite room = .error .outOfStack)
    : nameEntries nonFinite (entries.map fun e => (e.1, e.2.toJsonWithin nonFinite room))
          = nameEntries nonFinite (entries.map fun e => (e.1, e.2.toJson nonFinite)) ∨
        nameEntries nonFinite (entries.map fun e => (e.1, e.2.toJsonWithin nonFinite room))
          = .error .outOfStack := by
  induction entries with
  | nil => exact .inl rfl
  | cons e es ih =>
    rw [List.forall_mem_cons] at h
    rw [List.map_cons, List.map_cons, nameEntries, nameEntries]
    cases nameOf nonFinite e.1 with
    | error e => exact .inl rfl
    | ok name =>
      cases h.1 with
      | inr he =>
        rw [he]
        exact .inr rfl
      | inl he =>
        rw [he]
        cases e.2.toJson nonFinite with
        | error e => exact .inl rfl
        | ok j =>
          cases ih h.2 with
          | inl hes =>
            rw [hes]
            exact .inl rfl
          | inr hes =>
            rw [hes]
            exact .inr rfl

theorem objectOf_cases {entries : List (ClaimValue × ClaimValue)}
    (h : ∀ e ∈ entries, e.2.toJsonWithin nonFinite room = e.2.toJson nonFinite ∨
      e.2.toJsonWithin nonFinite room = .error .outOfStack)
    : objectOf nonFinite (toJsonEntriesWithin nonFinite room entries)
          = objectOf nonFinite (toJsonEntries nonFinite entries) ∨
        objectOf nonFinite (toJsonEntriesWithin nonFinite room entries) = .error .outOfStack := by
  -- The order of entries is a matter of their keys, so it is the same with and without a limit.
  have hsort : ∀ f : ClaimValue → Except WriteError Json,
      (entries.map fun e => (e.1, f e.2)).mergeSort (fun e f => keyLe e.1 f.1)
        = (entries.mergeSort fun e f => keyLe e.1 f.1).map fun e => (e.1, f e.2) := by
    intro f
    rw [List.map_mergeSort]
    intro _ _ _ _
    rfl
  have hkeys : ∀ f : ClaimValue → Except WriteError Json,
      (entries.map fun e => (e.1, f e.2)).map (·.1) = entries.map (·.1) := by
    simp
  rw [toJsonEntriesWithin_eq_map, toJsonEntries_eq_map, objectOf, objectOf, sortEntries, sortEntries,
    hkeys (toJsonWithin nonFinite room), hkeys (toJson nonFinite),
    hsort (toJsonWithin nonFinite room), hsort (toJson nonFinite)]
  cases firstIncomparable? (entries.map (·.1)) with
  | some found => exact .inl rfl
  | none =>
    dsimp only
    cases nameEntries_cases fun e he => h e (List.mem_mergeSort.1 he) with
    | inl hsame =>
      rw [hsame]
      exact .inl rfl
    | inr hstack =>
      rw [hstack]
      exact .inr rfl

theorem toJsonWithin_cases (v : ClaimValue)
    : v.toJsonWithin nonFinite room = v.toJson nonFinite ∨
        v.toJsonWithin nonFinite room = .error .outOfStack := by
  induction v generalizing room with
  | list items ih | tuple items ih =>
    cases room with
    | zero => exact .inr rfl
    | succ room =>
      rw [toJsonWithin, toJson]
      cases toJsonItemsWithin_cases fun x hx => @ih x hx room with
      | inl hsame =>
        rw [hsame]
        exact .inl rfl
      | inr hstack =>
        rw [hstack]
        exact .inr rfl
  | dict entries ih =>
    cases room with
    | zero => exact .inr rfl
    | succ room =>
      rw [toJsonWithin, toJson]
      exact objectOf_cases fun e he => ih e he
  | null | bool | int | float | text | bytes | readOnly | foreign => cases room <;> exact .inl rfl

theorem toJsonWithin_eq_toJson {v : ClaimValue} (h : v.nesting < room)
    : v.toJsonWithin nonFinite room = v.toJson nonFinite := by
  obtain ⟨room, rfl⟩ : ∃ n, room = n + 1 := ⟨room - 1, by omega⟩
  induction v generalizing room with
  | list items ih | tuple items ih =>
    rw [toJsonWithin, toJson, toJsonItemsWithin_eq]
    intro x hx
    rw [nesting, if_neg (by simpa using List.ne_nil_of_mem hx), Nat.add_lt_add_iff_right] at h
    have hlt : x.nesting < room :=
      Nat.lt_of_le_of_lt (nestingItems_le_iff.1 (Nat.le_refl _) x hx) h
    obtain ⟨room, rfl⟩ : ∃ n, room = n + 1 := ⟨room - 1, by omega⟩
    exact ih x hx room hlt
  | dict entries ih =>
    rw [toJsonWithin, toJson, toJsonEntriesWithin_eq]
    intro e he
    rw [nesting, if_neg (by simpa using List.ne_nil_of_mem he), Nat.add_lt_add_iff_right] at h
    have hlt : e.2.nesting < room :=
      Nat.lt_of_le_of_lt (nestingEntries_le_iff.1 (Nat.le_refl _) e he) h
    obtain ⟨room, rfl⟩ : ∃ n, room = n + 1 := ⟨room - 1, by omega⟩
    exact ih e he room hlt
  | null | bool | int | float | text | bytes | readOnly | foreign => rfl

theorem toJsonItems_ne_outOfStack {items : List ClaimValue}
    (h : ∀ x ∈ items, x.toJson nonFinite ≠ .error .outOfStack)
    : toJsonItems nonFinite items ≠ .error .outOfStack := by
  induction items with
  | nil => nofun
  | cons x xs ih =>
    rw [List.forall_mem_cons] at h
    intro hstack
    rw [toJsonItems] at hstack
    split at hstack
    . next hx =>
      cases hstack
      exact h.1 hx
    . split at hstack
      . next hxs =>
        cases hstack
        exact ih h.2 hxs
      . cases hstack

theorem nameOf_ne_outOfStack (k : ClaimValue) : nameOf nonFinite k ≠ .error .outOfStack := by
  cases k with
  | int n =>
    rw [nameOf, Ne, Outcome.map_eq_error_iff, checkInt]
    split <;> simp
  | float x =>
    rw [nameOf, Ne, Outcome.map_eq_error_iff, checkFloat]
    split <;> simp
  | _ => simp [nameOf]

theorem nameEntries_ne_outOfStack {entries : List (ClaimValue × Except WriteError Json)}
    (h : ∀ e ∈ entries, e.2 ≠ .error .outOfStack)
    : nameEntries nonFinite entries ≠ .error .outOfStack := by
  induction entries with
  | nil => nofun
  | cons e es ih =>
    rw [List.forall_mem_cons] at h
    intro hstack
    rw [nameEntries] at hstack
    split at hstack
    . next hname =>
      cases hstack
      exact nameOf_ne_outOfStack _ hname
    . split at hstack
      . next he =>
        cases hstack
        exact h.1 he
      . split at hstack
        . next hes =>
          cases hstack
          exact ih h.2 hes
        . cases hstack

theorem toJson_ne_outOfStack (v : ClaimValue) : v.toJson nonFinite ≠ .error .outOfStack := by
  induction v with
  | list items ih | tuple items ih =>
    rw [toJson, Ne, Outcome.map_eq_error_iff]
    exact toJsonItems_ne_outOfStack ih
  | dict entries ih =>
    rw [toJson, toJsonEntries_eq_map, objectOf, sortEntries]
    split
    . next found hfound =>
      split at hfound
      . cases hfound
        simp
      . cases hfound
    . next sorted hsorted =>
      split at hsorted
      . cases hsorted
      . cases hsorted
        rw [Ne, Outcome.map_eq_error_iff]
        apply nameEntries_ne_outOfStack
        intro e he
        obtain ⟨e', he', rfl⟩ := List.mem_map.1 (List.mem_mergeSort.1 he)
        exact ih e' he'
  | int n =>
    rw [toJson, Ne, Outcome.map_eq_error_iff, checkInt]
    split <;> simp
  | float x =>
    rw [toJson, Ne, Outcome.map_eq_error_iff, checkFloat]
    split <;> simp
  | null | bool | text | bytes | readOnly | foreign => simp [toJson]

end ClaimValue

end SignedToken
