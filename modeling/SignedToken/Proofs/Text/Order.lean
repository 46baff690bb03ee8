import SignedToken.Text

/-!
This module contains the laws of the order of texts: it is a total order.
-/

namespace SignedToken.Text

theorem le_cons_cons_iff {a b : CodePoint} {s t : Text}
    : le (a :: s) (b :: t) = true ↔ a < b ∨ a = b ∧ le s t = true := by
  simp [le]

theorem le_total (s t : Text) : (le s t || le t s) = true := by
  rw [Bool.or_eq_true]
  induction s generalizing t with
  | nil => exact .inl rfl
  | cons a s ih =>
    cases t with
    | nil => exact .inr rfl
    | cons b t =>
      simp only [le_cons_cons_iff]
      have := ih t
      rcases Nat.lt_trichotomy a.val b.val with hlt | heq | hlt
      . exact .inl (.inl hlt)
      . have heq : a = b := Fin.ext heq
        subst heq
        exact this.imp (fun h => .inr ⟨rfl, h⟩) (fun h => .inr ⟨rfl, h⟩)
      . exact .inr (.inl hlt)

theorem le_trans (s t u : Text) (hst : le s t = true) (htu : le t u = true) : le s u = true := by
  induction s generalizing t u with
  | nil => rfl
  | cons a s ih =>
    cases t with
    | nil => cases hst
    | cons b t =>
      cases u with
      | nil => cases htu
      | cons c u =>
        rw [le_cons_cons_iff] at hst htu ⊢
        rcases hst with hab | ⟨rfl, hst⟩
        . rcases htu with hbc | ⟨rfl, htu⟩
          . exact .inl (Nat.lt_trans hab hbc)
          . exact .inl hab
        . rcases htu with hbc | ⟨rfl, htu⟩
          . exact .inl hbc
          . exact .inr ⟨rfl, ih t u hst htu⟩

theorem le_antisymm {s t : Text} (hst : le s t = true) (hts : le t s = true) : s = t := by
  induction s generalizing t with
  | nil =>
    cases t with
    | nil => rfl
    | cons b t => cases hts
  | cons a s ih =>
    cases t with
    | nil => cases hst
    | cons b t =>
      rw [le_cons_cons_iff] at hst hts
      rcases hst with hab | ⟨rfl, hst⟩
      . rcases hts with hba | ⟨rfl, -⟩
        . exact absurd hab (Nat.lt_asymm hba)
        . exact absurd hab (Nat.lt_irrefl _)
      . rcases hts with hba | ⟨-, hts⟩
        . exact absurd hba (Nat.lt_irrefl _)
        . rw [ih hst hts]

end SignedToken.Text
