import SignedToken.Defect

/-!
This module contains when computations that can fail, alone or several at once, give a result.
-/

namespace SignedToken

namespace Outcome

theorem map_eq_ok_iff {f : α → β} {x : Except ε α} {b : β}
    : x.map f = .ok b ↔ ∃ a, x = .ok a ∧ f a = b := by
  cases x <;> simp [Except.map]

theorem map_eq_error_iff {f : α → β} {x : Except ε α} {e : ε}
    : x.map f = .error e ↔ x = .error e := by
  cases x <;> simp [Except.map]

theorem map_mapError (f : α → β) (g : ε → ε') (x : Except ε α)
    : (x.mapError g).map f = (x.map f).mapError g := by
  cases x <;> rfl

theorem mapError_eq_ok_iff {f : ε → ε'} {x : Except ε α} {a : α}
    : x.mapError f = .ok a ↔ x = .ok a := by
  cases x with
  | error e => exact iff_of_false nofun nofun
  | ok b =>
    change Except.ok b = Except.ok a ↔ _
    rw [Except.ok.injEq, Except.ok.injEq]

end Outcome

namespace Checked

theorem both_eq_ok_iff {a : Checked α} {b : Checked β} {x : α} {y : β}
    : both a b = .ok (x, y) ↔ a = .ok x ∧ b = .ok y := by
  unfold both
  split
  . simp
  . next hnot =>
    apply iff_of_false
    . intro h
      cases h
    . rintro ⟨rfl, rfl⟩
      exact hnot x y rfl rfl

theorem all_map_ok (f : α → β) (items : List α)
    : all (items.map fun x => .ok (f x)) = .ok (items.map f) := by
  induction items with
  | nil => rfl
  | cons x xs ih =>
    rw [List.map_cons, all, ih]
    rfl

theorem all_eq_ok_iff {parts : List (Checked α)} {xs : List α}
    : all parts = .ok xs ↔ parts = xs.map .ok := by
  constructor
  . intro h
    induction parts generalizing xs with
    | nil =>
      cases h
      rfl
    | cons a rest ih =>
      rw [all, Outcome.map_eq_ok_iff] at h
      obtain ⟨⟨y, ys⟩, hboth, rfl⟩ := h
      obtain ⟨rfl, hrest⟩ := both_eq_ok_iff.1 hboth
      rw [List.map_cons, ← ih hrest]
  . rintro rfl
    have := all_map_ok id xs
    rwa [List.map_id] at this

theorem all_map_eq_ok_iff [Inhabited β] {f : α → Checked β} {items : List α} {xs : List β}
    : all (items.map f) = .ok xs
        ↔
      (∀ x ∈ items, f x = .ok ((f x).toOption.getD default)) ∧
        xs = items.map fun x => (f x).toOption.getD default := by
  rw [all_eq_ok_iff]
  constructor
  . intro h
    have hok : ∀ x ∈ items, f x = .ok ((f x).toOption.getD default) := by
      intro x hx
      have hmem : f x ∈ xs.map .ok := h ▸ List.mem_map_of_mem hx
      obtain ⟨y, -, hy⟩ := List.mem_map.1 hmem
      rw [← hy]
      rfl
    refine ⟨hok, ?_⟩
    rw [List.map_congr_left hok] at h
    have hget := congrArg (List.map fun x : Checked β => x.toOption.getD default) h
    rw [List.map_map, List.map_map] at hget
    have hid : xs.map ((fun x : Checked β => x.toOption.getD default) ∘ .ok) = xs := List.map_id xs
    rw [← hid, ← hget]
    rfl
  . rintro ⟨hok, rfl⟩
    rw [List.map_congr_left hok, List.map_map]
    rfl

theorem map_eq_mapIdx (f : α → β) (items : List α) : items.map f = items.mapIdx fun _ => f :=
  (List.mapIdx_eq_iff.2 fun _ => List.getElem?_map).symm

theorem all_mapIdx_eq_ok_iff {f : Nat → α → Checked β} {g : β → α} {items : List α} {ys : List β}
    (h : ∀ i x y, f i x = .ok y ↔ x = g y) : all (items.mapIdx f) = .ok ys ↔ items = ys.map g := by
  rw [all_eq_ok_iff]
  induction items generalizing f ys with
  | nil => cases ys <;> simp
  | cons x xs ih =>
    cases ys with
    | nil => simp
    | cons y ys =>
      simp only [List.mapIdx_cons, List.map_cons, List.cons.injEq, h]
      rw [ih fun i => h (i + 1)]

/-! ### Defects -/

theorem eq_error_defects {x : Checked α} {ds : List Defect} (h : x = .error ds) : x.defects = ds := by
  rw [h]
  rfl

theorem defects_map (f : α → β) (x : Checked α) : defects (x.map f) = x.defects := by
  cases x <;> rfl

theorem defects_both (a : Checked α) (b : Checked β)
    : (both a b).defects = a.defects ++ b.defects := by
  cases a <;> cases b <;> simp [both, defects]

theorem defects_all (parts : List (Checked α)) : (all parts).defects = parts.flatMap defects := by
  induction parts with
  | nil => rfl
  | cons a rest ih => rw [all, defects_map, defects_both, ih, List.flatMap_cons]

theorem mem_defects_all_mapIdx {f : Nat → α → Checked β} {items : List α} {d : Defect}
    : d ∈ (all (items.mapIdx f)).defects ↔ ∃ i x, items[i]? = some x ∧ d ∈ (f i x).defects := by
  rw [defects_all, List.mem_flatMap]
  constructor
  . rintro ⟨part, hpart, hd⟩
    obtain ⟨i, hi, rfl⟩ := List.mem_mapIdx.1 hpart
    exact ⟨i, items[i], List.getElem?_eq_getElem hi, hd⟩
  . rintro ⟨i, x, hx, hd⟩
    obtain ⟨hi, rfl⟩ := List.getElem?_eq_some_iff.1 hx
    exact ⟨_, List.mem_mapIdx.2 ⟨i, hi, rfl⟩, hd⟩

theorem mem_defects_all_map {f : α → Checked β} {items : List α} {d : Defect}
    : d ∈ (all (items.map f)).defects ↔ ∃ x ∈ items, d ∈ (f x).defects := by
  rw [defects_all, List.flatMap_map, List.mem_flatMap]

theorem sublist_defects_all_mapIdx {f : Nat → α → Checked β} {place : Nat → α → List Step}
    (h : ∀ i x, ((f i x).defects.map (·.place)).Sublist [place i x]) (items : List α)
    : ((all (items.mapIdx f)).defects.map (·.place)).Sublist (items.mapIdx place) := by
  rw [defects_all]
  induction items generalizing f place with
  | nil => exact List.Sublist.slnil
  | cons x xs ih =>
    rw [List.mapIdx_cons, List.mapIdx_cons, List.flatMap_cons, List.map_append]
    exact (h 0 x).append (ih fun i => h (i + 1))

theorem sublist_defects_all_map {f : α → Checked β} {place : α → List Step}
    (h : ∀ x, ((f x).defects.map (·.place)).Sublist [place x]) (items : List α)
    : ((all (items.map f)).defects.map (·.place)).Sublist (items.map place) := by
  rw [map_eq_mapIdx f, map_eq_mapIdx place]
  exact sublist_defects_all_mapIdx (fun _ => h) items

end Checked

end SignedToken
