import SignedToken.Binary64

/-!
This module contains the laws of rounding. The nearest magnitude depends on a quotient alone and not
on the terms that it is written with, and the bounds beyond which reading a decimal stops to look at
it are no more than shortcuts.
-/

namespace SignedToken

theorem divRound_mul {k : Nat} (hk : 0 < k) (num den : Nat)
    : divRound (k * num) (k * den) = divRound num den := by
  have hlt : ∀ r, 2 * (k * r) < k * den ↔ 2 * r < den := by
    intro r
    rw [Nat.mul_left_comm]
    exact Nat.mul_lt_mul_left hk
  have heq : ∀ r, 2 * (k * r) = k * den ↔ 2 * r = den := by
    intro r
    rw [Nat.mul_left_comm]
    exact Nat.mul_right_inj (Nat.ne_of_gt hk)
  simp only [divRound, Nat.mul_div_mul_left num den hk, Nat.mul_mod_mul_left, hlt, heq]

theorem divRound_mul_left {den : Nat} (h : 0 < den) (q : Nat) : divRound (q * den) den = q := by
  unfold divRound
  rw [Nat.mul_div_cancel q h, Nat.mul_mod_left]
  simp [h]

theorem divRound_eq_zero {num den : Nat} (h : 2 * num < den) : divRound num den = 0 := by
  unfold divRound
  rw [Nat.div_eq_of_lt (show num < den by omega), Nat.mod_eq_of_lt (show num < den by omega)]
  simp [h]

namespace Magnitude

theorem ofParts?_self (m : Magnitude) : ofParts? m.significand m.scale = some m := by
  unfold ofParts?
  rw [dif_pos ⟨m.significand_lt, m.normal, m.scale_le⟩]

theorem eq_zero_of_significand {m : Magnitude} (h : m.significand = 0) : m = zero := by
  have hscale : m.scale = 0 := by
    cases m.normal with
    | inl hscale => exact hscale
    | inr hle =>
      rw [h] at hle
      exact absurd hle (by decide)
  cases m
  cases h
  cases hscale
  rfl

theorem nearest?_mul {k : Nat} (hk : 0 < k) (num den : Nat)
    : nearest? (k * num) (k * den) = nearest? num den := by
  simp only [nearest?, Nat.mul_div_mul_left num den hk, Nat.mul_assoc k, divRound_mul hk]

theorem nearest?_eq_zero {num den : Nat} (h : 2 * num < den) : nearest? num den = some zero := by
  have hscale : (num / den).log2 - 52 = 0 := by
    rw [Nat.div_eq_of_lt (show num < den by omega)]
    rfl
  unfold nearest?
  dsimp only
  rw [hscale, Nat.pow_zero, Nat.mul_one, divRound_eq_zero h]
  rfl

theorem nearest?_eq_none {k num : Nat} (hk : 2098 ≤ k) (h : 2 ^ k ≤ num)
    : nearest? num 1 = none := by
  have hnum : num ≠ 0 := Nat.ne_of_gt (Nat.lt_of_lt_of_le (Nat.two_pow_pos k) h)
  have hlog : k ≤ (num / 1).log2 := by
    rw [Nat.div_one]
    exact (Nat.le_log2 hnum).2 h
  have hparts : ∀ s scale, 2045 < scale → ofParts? s scale = none := by
    intro s scale hscale
    unfold ofParts?
    rw [dif_neg]
    omega
  unfold nearest?
  dsimp only
  split
  . exact hparts _ _ (by omega)
  . exact hparts _ _ (by omega)

theorem nearest?_units (m : Magnitude) : nearest? m.units 1 = some m := by
  have hs := m.significand_lt
  have hscale : (m.units / 1).log2 - 52 = m.scale := by
    rw [Nat.div_one, units]
    cases m.normal with
    | inl hzero =>
      rw [hzero, Nat.pow_zero, Nat.mul_one]
      by_cases hnum : m.significand = 0
      . rw [hnum]
        rfl
      . have := (Nat.log2_lt hnum).2 hs
        omega
    | inr hnormal =>
      -- A normal significand has 53 binary digits, so the length of the number tells its scale.
      have hpos : m.significand * 2 ^ m.scale ≠ 0 := by
        apply Nat.mul_ne_zero
        . exact Nat.ne_of_gt (Nat.lt_of_lt_of_le (by decide) hnormal)
        . exact Nat.ne_of_gt (Nat.two_pow_pos m.scale)
      have hle : 2 ^ (52 + m.scale) ≤ m.significand * 2 ^ m.scale := by
        rw [Nat.pow_add]
        exact Nat.mul_le_mul_right _ hnormal
      have hlt : m.significand * 2 ^ m.scale < 2 ^ (53 + m.scale) := by
        rw [Nat.pow_add]
        exact Nat.mul_lt_mul_of_pos_right hs (Nat.two_pow_pos m.scale)
      have := (Nat.le_log2 hpos).2 hle
      have := (Nat.log2_lt hpos).2 hlt
      omega
  unfold nearest?
  dsimp only
  rw [hscale, Nat.one_mul, units, divRound_mul_left (Nat.two_pow_pos m.scale), if_pos hs]
  exact m.ofParts?_self

/-! ### Decimals -/

theorem two_pow_le_ten_pow (n : Nat) : 2 ^ (3 * n) ≤ 10 ^ n := by
  rw [Nat.pow_mul]
  exact Nat.pow_le_pow_left (by decide) n

theorem ofDecimal?_zero (exponent : Int) : ofDecimal? 0 exponent = some zero := by
  rw [ofDecimal?, if_pos rfl]

theorem ofDecimal?_eq_nearest? (digits : Nat) (exponent : Int)
    : ofDecimal? digits exponent
        =
      nearest? (digits * 10 ^ exponent.toNat * 2 ^ 1074) (10 ^ (-exponent).toNat) := by
  unfold ofDecimal?
  split
  . next hzero =>
    simp only [hzero, Nat.zero_mul]
    exact (nearest?_eq_zero (Nat.pow_pos (by decide))).symm
  . next hpos =>
    split
    . next hlarge =>
      have hden : (-exponent).toNat = 0 := by omega
      -- The reader gives up here without the quotient, which is beyond all finite numbers.
      rw [hden, Nat.pow_zero, nearest?_eq_none (k := 3 * exponent.toNat + 1074) (by omega)]
      calc
        2 ^ (3 * exponent.toNat + 1074) = 2 ^ (3 * exponent.toNat) * 2 ^ 1074 := Nat.pow_add ..
        _ ≤ 10 ^ exponent.toNat * 2 ^ 1074 :=
          Nat.mul_le_mul_right _ (two_pow_le_ten_pow exponent.toNat)
        _ ≤ digits * 10 ^ exponent.toNat * 2 ^ 1074 :=
          Nat.mul_le_mul_right _ (Nat.le_mul_of_pos_left _ (Nat.pos_of_ne_zero hpos))
    . split
      . next hsmall =>
        have hnum : exponent.toNat = 0 := by omega
        -- Here it is zero, as the quotient is below half of the least number.
        rw [hnum, Nat.pow_zero, Nat.mul_one, nearest?_eq_zero]
        calc
          2 * (digits * 2 ^ 1074) = digits * (2 * 2 ^ 1074) := Nat.mul_left_comm ..
          _ < 2 ^ (digits.log2 + 1) * (2 * 2 ^ 1074) :=
            Nat.mul_lt_mul_of_pos_right Nat.lt_log2_self
              (Nat.mul_pos Nat.two_pos (Nat.two_pow_pos 1074))
          _ = 2 ^ (digits.log2 + 1 + (1 + 1074)) := by
            simp only [Nat.pow_add, Nat.pow_one]
          _ ≤ 2 ^ (3 * (-exponent).toNat) := Nat.pow_le_pow_right (by decide) (by omega)
          _ ≤ 10 ^ (-exponent).toNat := two_pow_le_ten_pow _
      . split
        . next hnonneg =>
          have hden : (-exponent).toNat = 0 := by omega
          rw [hden, Nat.pow_zero]
        . next hneg =>
          have hnum : exponent.toNat = 0 := by omega
          rw [hnum, Nat.pow_zero, Nat.mul_one]

theorem ofDecimal?_mul_ten (digits : Nat) (exponent : Int)
    : ofDecimal? (digits * 10) exponent = ofDecimal? digits (exponent + 1) := by
  rw [ofDecimal?_eq_nearest?, ofDecimal?_eq_nearest?]
  generalize 2 ^ 1074 = unit
  by_cases h : 0 ≤ exponent
  . have hnum : (exponent + 1).toNat = exponent.toNat + 1 := by omega
    have hden : (-exponent).toNat = (-(exponent + 1)).toNat := by omega
    rw [hnum, hden, Nat.pow_succ', Nat.mul_assoc digits 10]
  . have hnum : exponent.toNat = 0 := by omega
    have hnum' : (exponent + 1).toNat = 0 := by omega
    have hden : (-exponent).toNat = (-(exponent + 1)).toNat + 1 := by omega
    rw [hnum, hnum', hden, Nat.pow_succ', Nat.pow_zero, Nat.mul_one, Nat.mul_one,
      Nat.mul_comm digits, Nat.mul_assoc 10, nearest?_mul (by decide)]

theorem ofDecimal?_mul_ten_pow (digits k : Nat) (exponent : Int)
    : ofDecimal? (digits * 10 ^ k) exponent = ofDecimal? digits (exponent + k) := by
  induction k generalizing exponent with
  | zero => simp
  | succ k ih =>
    rw [Nat.pow_succ, ← Nat.mul_assoc, ofDecimal?_mul_ten, ih]
    congr 1
    omega

end Magnitude

end SignedToken
