import SignedToken.Error

/-!
This module contains where failures come from that no error of the library stands for, when steps
follow on one another.
-/

namespace SignedToken.Outcome

/--
Whether a computation ends in a failure that no error of the library stands for.
-/
def IsUnknown (x : Except Failure α) : Prop :=
  ∃ cause, x = .error (.unknown cause)

theorem isUnknown_error_iff {e : Failure}
    : @IsUnknown α (.error e) ↔ ∃ cause, e = .unknown cause := by
  simp [IsUnknown]

theorem not_isUnknown_ok (a : α) : ¬ IsUnknown (.ok a) := by
  rintro ⟨cause, h⟩
  cases h

theorem not_isUnknown_known (e : TokenError) : ¬ @IsUnknown α (.error (.known e)) := by
  rintro ⟨cause, h⟩
  cases h

theorem isUnknown_bind_iff {x : Except Failure α} {f : α → Except Failure β}
    : IsUnknown (x.bind f) ↔ IsUnknown x ∨ ∃ a, x = .ok a ∧ IsUnknown (f a) := by
  unfold IsUnknown
  cases x <;> simp [Except.bind]

theorem isUnknown_map_iff {x : Except Failure α} {f : α → β} : IsUnknown (x.map f) ↔ IsUnknown x := by
  unfold IsUnknown
  cases x <;> simp [Except.map]

theorem not_isUnknown_mapError {f : ε → TokenError} (x : Except ε α)
    : ¬ IsUnknown (x.mapError fun e => .known (f e)) := by
  cases x with
  | ok a => exact not_isUnknown_ok a
  | error e => exact not_isUnknown_known (f e)

end SignedToken.Outcome
