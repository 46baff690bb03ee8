import SignedToken.Binary64.Shortest
import SignedToken.Proofs.Binary64.Nearest

/-!
This module contains the law of shortest decimals: the decimal of a magnitude reads back as it.
-/

namespace SignedToken.Magnitude

theorem Decimal.strip.ofDecimal?_go (fuel : Nat) (d : Decimal)
    : ofDecimal? (go fuel d).digits (go fuel d).exponent = ofDecimal? d.digits d.exponent := by
  induction fuel generalizing d with
  | zero => rfl
  | succ fuel ih =>
    unfold go
    split
    . next h =>
      have hdigits : d.digits = d.digits / 10 * 10 := by omega
      rw [ih, ← ofDecimal?_mul_ten, ← hdigits]
    . rfl

theorem ofDecimal?_strip (d : Decimal)
    : ofDecimal? d.strip.digits d.strip.exponent = ofDecimal? d.digits d.exponent :=
  Decimal.strip.ofDecimal?_go d.digits d

theorem ofDecimal?_exact (m : Magnitude) : ofDecimal? m.exact.digits m.exact.exponent = some m := by
  have hnum : (-1074 : Int).toNat = 0 := rfl
  have hden : (-(-1074) : Int).toNat = 1074 := rfl
  -- The exponent is left open here, as powers this large are better not evaluated.
  have hread : ∀ n, nearest? (m.units * 5 ^ n * 10 ^ 0 * 2 ^ n) (10 ^ n) = some m := by
    intro n
    have hunits : m.units * 5 ^ n * 10 ^ 0 * 2 ^ n = 10 ^ n * m.units := by
      rw [Nat.pow_zero, Nat.mul_one, Nat.mul_assoc, ← Nat.mul_pow, Nat.mul_comm]
    have hscale := nearest?_mul (show 0 < 10 ^ n from Nat.pow_pos (by decide)) m.units 1
    rw [Nat.mul_one] at hscale
    rw [hunits, hscale, nearest?_units]
  rw [ofDecimal?_eq_nearest?, exact]
  dsimp only
  rw [hnum, hden]
  exact hread 1074

theorem ofDecimal?_of_withDigits? {m : Magnitude} {count : Nat} {d : Decimal}
    (h : m.withDigits? count = some d) : ofDecimal? d.digits d.exponent = some m := by
  unfold withDigits? at h
  have := List.find?_some h
  rwa [Decimal.readsBackAs, beq_iff_eq] at this

theorem ofDecimal?_shortest (m : Magnitude)
    : ofDecimal? m.shortest.digits m.shortest.exponent = some m := by
  unfold shortest
  split
  . next h =>
    rw [eq_zero_of_significand h]
    rfl
  . rw [ofDecimal?_strip]
    cases hfound : ((List.range 17).map (· + 1)).findSome? m.withDigits? with
    | none => exact ofDecimal?_exact m
    | some d =>
      obtain ⟨count, -, hcount⟩ := List.exists_of_findSome?_eq_some hfound
      exact ofDecimal?_of_withDigits? hcount

end SignedToken.Magnitude
