import SignedToken.Text

/-!
This module contains the laws of texts in pieces: splitting at a separator and joining with it undo
each other.
-/

namespace SignedToken.Text

@[simp]
theorem join_singleton (sep piece : Text) : join sep [piece] = piece := by
  simp [join]

@[simp]
theorem join_cons_cons (sep piece next : Text) (pieces : List Text)
    : join sep (piece :: next :: pieces) = piece ++ (sep ++ join sep (next :: pieces)) := by
  simp [join]

theorem exists_join_cons_eq_append (sep piece : Text) (pieces : List Text)
    : ∃ more, join sep (piece :: pieces) = piece ++ more := by
  cases pieces with
  | nil => exact ⟨[], by simp⟩
  | cons next pieces => exact ⟨_, join_cons_cons sep piece next pieces⟩

theorem join_append_singleton {sep : Text} {pieces : List Text} (h : pieces ≠ []) (piece : Text)
    : join sep (pieces ++ [piece]) = join sep pieces ++ (sep ++ piece) := by
  induction pieces with
  | nil => exact absurd rfl h
  | cons first rest ih =>
    cases rest with
    | nil => simp
    | cons next rest =>
      rw [List.cons_append, List.cons_append, join_cons_cons, join_cons_cons, ← List.cons_append,
        ih (List.cons_ne_nil next rest)]
      simp

theorem join_append_cons (sep start piece : Text) (pieces : List Text)
    : join sep ((start ++ piece) :: pieces) = start ++ join sep (piece :: pieces) := by
  cases pieces with
  | nil => simp
  | cons next pieces => simp

theorem join_cons_separator (c : CodePoint) (blanks piece : Text) (pieces : List Text)
    : join (c :: blanks) (piece :: pieces) = join [c] (piece :: pieces.map (blanks ++ ·)) := by
  induction pieces generalizing piece with
  | nil => simp
  | cons next pieces ih =>
    rw [join_cons_cons, ih, List.map_cons, join_cons_cons, join_append_cons]
    simp

theorem forall_mem_join_iff {P : CodePoint → Prop} {sep : Text} {pieces : List Text}
    (hsep : ∀ c ∈ sep, P c)
    : (∀ c ∈ join sep pieces, P c) ↔ ∀ piece ∈ pieces, ∀ c ∈ piece, P c := by
  induction pieces with
  | nil => exact iff_of_true nofun nofun
  | cons first rest ih =>
    rw [List.forall_mem_cons]
    cases rest with
    | nil => simp
    | cons next rest =>
      rw [join_cons_cons, List.forall_mem_append, List.forall_mem_append, ih]
      exact and_congr_right fun _ => and_iff_right hsep

theorem splitOn.go_append {sep : CodePoint} {a : Text} (h : sep ∉ a) (piece t : Text)
    : go sep piece (a ++ t) = go sep (a.reverse ++ piece) t := by
  induction a generalizing piece with
  | nil => rfl
  | cons c a ih =>
    simp only [List.mem_cons, not_or] at h
    rw [List.cons_append, go, if_neg (Ne.symm h.1), ih h.2]
    simp

theorem splitOn.go_ne_nil (sep : CodePoint) (piece t : Text) : go sep piece t ≠ [] := by
  induction t generalizing piece with
  | nil => simp [go]
  | cons c t ih =>
    unfold go
    split
    . simp
    . apply ih

theorem splitOn.join_go (sep : CodePoint) (piece t : Text)
    : join [sep] (go sep piece t) = piece.reverse ++ t := by
  induction t generalizing piece with
  | nil => simp [go]
  | cons c t ih =>
    unfold go
    split
    . next h =>
      cases hgo : go sep [] t with
      | nil => exact absurd hgo (go_ne_nil sep [] t)
      | cons next pieces =>
        rw [join_cons_cons, ← hgo, ih, h]
        simp
    . rw [ih]
      simp

theorem join_splitOn (sep : CodePoint) (t : Text) : join [sep] (splitOn sep t) = t := by
  unfold splitOn
  rw [splitOn.join_go]
  simp

theorem splitOn_of_not_mem {sep : CodePoint} {a : Text} (h : sep ∉ a) : splitOn sep a = [a] := by
  have := splitOn.go_append h [] []
  simp only [List.append_nil] at this
  rw [splitOn, this]
  simp [splitOn.go]

theorem splitOn_append {sep : CodePoint} {a : Text} (h : sep ∉ a) (t : Text)
    : splitOn sep (a ++ sep :: t) = a :: splitOn sep t := by
  unfold splitOn
  rw [splitOn.go_append h, splitOn.go, if_pos rfl]
  simp

theorem splitOn.exists_go_append (sep : CodePoint) (piece t : Text)
    : ∃ pieces stem, ∀ s, sep ∉ s → go sep piece (t ++ s) = pieces ++ [stem ++ s] := by
  induction t generalizing piece with
  | nil =>
    refine ⟨[], piece.reverse, fun s hs => ?_⟩
    have := go_append hs piece []
    rw [List.append_nil] at this
    rw [List.nil_append, this]
    simp [go]
  | cons c t ih =>
    by_cases h : c = sep
    . obtain ⟨pieces, stem, hgo⟩ := ih []
      refine ⟨piece.reverse :: pieces, stem, fun s hs => ?_⟩
      rw [List.cons_append, go, if_pos h, hgo s hs, List.cons_append]
    . obtain ⟨pieces, stem, hgo⟩ := ih (c :: piece)
      refine ⟨pieces, stem, fun s hs => ?_⟩
      rw [List.cons_append, go, if_neg h, hgo s hs]

theorem exists_splitOn_append (sep : CodePoint) (t : Text)
    : ∃ pieces stem, ∀ s, sep ∉ s → splitOn sep (t ++ s) = pieces ++ [stem ++ s] :=
  splitOn.exists_go_append sep [] t
end SignedToken.Text
