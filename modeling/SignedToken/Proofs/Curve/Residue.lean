import Mathlib.FieldTheory.Finite.Basic
import SignedToken.Curve

/-!
This module contains what the arithmetic of remainders computes: powers and differences are those of
the integers modulo a number, and so are inverses if the number is prime. A root of every square is found
modulo the primes that are three more than a multiple of four.
-/

namespace SignedToken

theorem mod_two_pow_succ (n i : Nat) : n % 2 ^ (i + 1) = 2 ^ i * (n.testBit i).toNat + n % 2 ^ i := by
  rw [Nat.pow_succ, Nat.mod_mul, Nat.toNat_testBit, Nat.add_comm]

namespace Residue

theorem cast_pow_go (m base exponent i r : Nat)
    : (pow.go m base exponent i r : ZMod m)
        =
      (r : ZMod m) ^ 2 ^ i * (base : ZMod m) ^ (exponent % 2 ^ i) := by
  induction i generalizing r with
  | zero => simp [pow.go, Nat.mod_one]
  | succ i ih =>
    rw [pow.go]
    rw [ih, mod_two_pow_succ, pow_succ', pow_mul, pow_add, ← mul_assoc]
    congr 1
    cases exponent.testBit i with
    | true => simp [mul_pow, sq]
    | false => simp [sq]

theorem cast_pow (m base exponent : Nat)
    : (pow m base exponent : ZMod m) = (base : ZMod m) ^ exponent := by
  rw [pow, cast_pow_go, Nat.mod_eq_of_lt Nat.lt_log2_self]
  simp

theorem pow_modEq (m base exponent : Nat) : pow m base exponent ≡ base ^ exponent [MOD m] := by
  rw [← ZMod.natCast_eq_natCast_iff, cast_pow, Nat.cast_pow]

theorem cast_sub {m y : Nat} (h : y ≤ m) (x : Nat)
    : (sub m x y : ZMod m) = (x : ZMod m) - y := by
  rw [sub, ZMod.natCast_mod, Nat.cast_add, Nat.cast_sub h, ZMod.natCast_self, zero_sub,
    ← sub_eq_add_neg]

theorem cast_inv {p : Nat} [Fact p.Prime] {x : Nat} (h : (x : ZMod p) ≠ 0)
    : (inv p x : ZMod p) = (x : ZMod p)⁻¹ := by
  have htwo := (Fact.out : p.Prime).two_le
  rw [inv, cast_pow]
  apply eq_inv_of_mul_eq_one_left
  rw [← pow_succ, show p - 2 + 1 = p - 1 by omega]
  exact ZMod.pow_card_sub_one_eq_one h

theorem eq_of_cast_eq {m x y : Nat} (hx : x < m) (hy : y < m) (h : (x : ZMod m) = y) : x = y :=
  ((ZMod.natCast_eq_natCast_iff x y m).1 h).eq_of_lt_of_lt hx hy

theorem pow_lt {m : Nat} (hm : 0 < m) (base exponent : Nat) : pow m base exponent < m := by
  have hgo : ∀ i r, r < m ∨ 0 < i → pow.go m base exponent i r < m := by
    intro i
    induction i with
    | zero => exact fun r hr => hr.resolve_right (Nat.lt_irrefl 0)
    | succ i ih =>
      intro r _
      rw [pow.go]
      apply ih
      split
      . exact .inl (Nat.mod_lt _ hm)
      . exact .inl (Nat.mod_lt _ hm)
  exact hgo _ _ (.inr (Nat.succ_pos _))

/-! ### Square roots -/

theorem splitTwos_pred {p : Nat} (hp : p % 4 = 3) : splitTwos p.log2 (p - 1) = (1, (p - 1) / 2) := by
  have hodd : ∀ fuel, splitTwos fuel ((p - 1) / 2) = (0, (p - 1) / 2) := by
    intro fuel
    cases fuel with
    | zero => rfl
    | succ fuel => rw [splitTwos, if_neg (by omega)]
  have hlog : p.log2 = p.log2 - 1 + 1 := by
    have hle : 1 ≤ p.log2 := (Nat.le_log2 (by omega)).2 (by omega)
    omega
  rw [hlog, splitTwos, if_pos (by omega), hodd]

section Sqrt

variable {p : Nat} [Fact p.Prime]

theorem pow_quarter_mul_self (hp : p % 4 = 3) (y : ZMod p)
    : (y * y) ^ ((p + 1) / 4) * (y * y) ^ ((p + 1) / 4) = y * y := by
  by_cases hy : y = 0
  . rw [hy, mul_zero, zero_pow (by omega), mul_zero]
  . have hexponent : 2 * ((p + 1) / 4 + (p + 1) / 4) = p - 1 + 2 := by omega
    -- The exponents add up to two more than the order of the group.
    rw [← pow_add, ← pow_two, ← pow_mul, hexponent, pow_add, ZMod.pow_card_sub_one_eq_one hy, one_mul]

theorem pow_pred_half (hp : p % 4 = 3) (y : ZMod p)
    : (y * y) ^ ((p - 1) / 2) = 0 ∨ (y * y) ^ ((p - 1) / 2) = 1 := by
  by_cases hy : y = 0
  . rw [hy, mul_zero, zero_pow (by omega)]
    exact .inl rfl
  . have hexponent : 2 * ((p - 1) / 2) = p - 1 := by omega
    rw [← pow_two, ← pow_mul, hexponent, ZMod.pow_card_sub_one_eq_one hy]
    exact .inr rfl

theorem sqrt?_eq_some (hp : p % 4 = 3) (y : Nat)
    : ∃ r, sqrt? p (y * y % p) = some r ∧ r < p ∧ r * r % p = y * y % p := by
  have hpos : 0 < p := by omega
  have hcast : ((y * y % p : Nat) : ZMod p) = (y : ZMod p) * y := by
    rw [ZMod.natCast_mod, Nat.cast_mul]
  have hroot : pow p (y * y % p) ((p + 1) / 4) * pow p (y * y % p) ((p + 1) / 4) % p = y * y % p := by
    rw [← Nat.ModEq, ← ZMod.natCast_eq_natCast_iff, Nat.cast_mul, cast_pow, hcast,
      pow_quarter_mul_self hp, Nat.cast_mul]
  have hle : pow p (y * y % p) ((p - 1) / 2) ≤ 1 := by
    have hlt := pow_lt hpos (y * y % p) ((p - 1) / 2)
    obtain hzero | hone := pow_pred_half hp (y : ZMod p)
    . have heq : pow p (y * y % p) ((p - 1) / 2) = 0 :=
        eq_of_cast_eq hlt hpos (by rw [cast_pow, hcast, hzero, Nat.cast_zero])
      omega
    . have heq : pow p (y * y % p) ((p - 1) / 2) = 1 :=
        eq_of_cast_eq hlt (by omega) (by rw [cast_pow, hcast, hone, Nat.cast_one])
      omega
  have hquarter : ((p - 1) / 2 + 1) / 2 = (p + 1) / 4 := by omega
  refine ⟨_, ?_, pow_lt hpos _ _, hroot⟩
  rw [sqrt?, splitTwos_pred hp]
  dsimp only
  rw [sqrt?.go, if_pos hle, hquarter, if_pos hroot]

theorem eq_or_add_eq {r y : Nat} (hr : r < p) (hy : y < p) (h : r * r % p = y * y % p)
    : r = y ∨ r + y = p := by
  rw [← Nat.ModEq, ← ZMod.natCast_eq_natCast_iff, Nat.cast_mul, Nat.cast_mul, mul_self_eq_mul_self_iff]
    at h
  obtain heq | hneg := h
  . exact .inl (eq_of_cast_eq hr hy heq)
  . have hdvd : p ∣ r + y := by
      rw [← ZMod.natCast_eq_zero_iff, Nat.cast_add, hneg, neg_add_cancel]
    by_cases hzero : r + y = 0
    . exact .inl (by omega)
    . exact .inr (Nat.eq_of_dvd_of_lt_two_mul hzero hdvd (by omega))

end Sqrt

end Residue

end SignedToken
