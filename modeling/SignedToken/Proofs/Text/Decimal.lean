import SignedToken.Proofs.Text
import SignedToken.Text.Integer

/-!
This module contains the laws of numerals. A numeral consists of digits, starts with a zero only if
it is the numeral of zero, and has the value that it was written for.
-/

namespace SignedToken

namespace Text

theorem ofNat_of_lt {n : Nat} (h : n < 10) : ofNat n = [CodePoint.ofChar n.digitChar] := by
  unfold ofNat
  rw [Nat.toDigits_of_lt_base h, List.map_singleton]

theorem ofNat_of_le {n : Nat} (h : 10 ≤ n)
    : ofNat n = ofNat (n / 10) ++ [CodePoint.ofChar (n % 10).digitChar] := by
  unfold ofNat
  rw [Nat.toDigits_of_base_le (by decide) h, List.map_append, List.map_singleton]

theorem length_ofNat_pos (n : Nat) : 0 < (ofNat n).length := by
  simp [ofNat, Nat.length_toDigits_pos]

theorem ofNat_ne_nil (n : Nat) : ofNat n ≠ [] :=
  List.ne_nil_of_length_pos (length_ofNat_pos n)

theorem length_ofNat_le_iff {n k : Nat} (h : 0 < k) : (ofNat n).length ≤ k ↔ n < 10 ^ k := by
  unfold ofNat
  rw [List.length_map, Nat.length_toDigits_le_iff (by decide) h]

theorem hasNumeral_iff {n : Int} : hasNumeral n = true ↔ (ofNat n.natAbs).length ≤ maxNumeralDigits := by
  rw [length_ofNat_le_iff (by decide), hasNumeral, decide_eq_true_eq]

theorem not_hasNumeral_pow : hasNumeral (10 ^ maxNumeralDigits : Nat) = false := by
  rw [hasNumeral, Int.natAbs_natCast]
  exact decide_eq_false (Nat.lt_irrefl _)

theorem isDigit_of_mem_ofNat {n : Nat} : ∀ c ∈ ofNat n, c.isDigit = true := by
  induction n using Nat.strongRecOn with
  | _ n ih =>
    by_cases h : n < 10
    . rw [ofNat_of_lt h]
      simp only [List.mem_singleton, forall_eq]
      rw [CodePoint.isDigit_iff, CodePoint.val_ofChar_digitChar h]
      omega
    . rw [ofNat_of_le (by omega)]
      intro c hc
      rw [List.mem_append] at hc
      cases hc with
      | inl hc => exact ih (n / 10) (by omega) c hc
      | inr hc =>
        rw [List.mem_singleton.1 hc, CodePoint.isDigit_iff,
          CodePoint.val_ofChar_digitChar (Nat.mod_lt n (by decide))]
        omega

theorem eq_zero_of_ofNat_eq_cons {n : Nat} {c : CodePoint} {t : Text} (h : ofNat n = c :: t)
    (hc : c.val = 0x30) : n = 0 := by
  induction n using Nat.strongRecOn generalizing t with
  | _ n ih =>
    by_cases hn : n < 10
    . rw [ofNat_of_lt hn] at h
      injection h with h
      have := CodePoint.val_ofChar_digitChar hn
      rw [h] at this
      omega
    . rw [ofNat_of_le (by omega)] at h
      cases hq : ofNat (n / 10) with
      | nil => exact absurd hq (ofNat_ne_nil (n / 10))
      | cons c' t' =>
        rw [hq, List.cons_append] at h
        injection h with h
        have := ih (n / 10) (by omega) (h ▸ hq)
        omega

theorem digitsValue_go (t : Text) (n : Nat)
    : t.foldl (fun n c => 10 * n + (c.val - 0x30)) n = n * 10 ^ t.length + digitsValue t := by
  induction t generalizing n with
  | nil => simp [digitsValue]
  | cons c t ih =>
    simp only [digitsValue, List.foldl_cons, List.length_cons]
    rw [ih, ih]
    simp only [Nat.pow_succ, Nat.zero_mul, Nat.zero_add, Nat.add_mul, Nat.mul_comm 10,
      Nat.mul_assoc, Nat.add_assoc]

theorem digitsValue_append (s t : Text)
    : digitsValue (s ++ t) = digitsValue s * 10 ^ t.length + digitsValue t := by
  rw [digitsValue, List.foldl_append, digitsValue_go]
  rfl

theorem digitsValue_lt {t : Text} (h : ∀ c ∈ t, c.isDigit = true)
    : digitsValue t < 10 ^ t.length := by
  induction t with
  | nil => decide
  | cons c t ih =>
    rw [List.forall_mem_cons, CodePoint.isDigit_iff] at h
    have hvalue : digitsValue (c :: t) = (c.val - 0x30) * 10 ^ t.length + digitsValue t := by
      rw [digitsValue, List.foldl_cons, digitsValue_go, Nat.mul_zero, Nat.zero_add]
    calc
      digitsValue (c :: t) < (c.val - 0x30) * 10 ^ t.length + 10 ^ t.length := by
        rw [hvalue]
        exact Nat.add_lt_add_left (ih h.2) _
      _ = (c.val - 0x30 + 1) * 10 ^ t.length := by rw [Nat.add_mul, Nat.one_mul]
      _ ≤ 10 * 10 ^ t.length := Nat.mul_le_mul_right _ (by omega)
      _ = 10 ^ (c :: t).length := by rw [List.length_cons, Nat.pow_succ']

theorem digitsValue_replicate_zero (k : Nat)
    : digitsValue (List.replicate k (CodePoint.ofChar '0')) = 0 := by
  induction k with
  | zero => rfl
  | succ k ih =>
    rw [List.replicate_succ', digitsValue_append, ih]
    rfl

theorem digitsValue_ofNat (n : Nat) : digitsValue (ofNat n) = n := by
  induction n using Nat.strongRecOn with
  | _ n ih =>
    by_cases h : n < 10
    . rw [ofNat_of_lt h]
      simp only [digitsValue, List.foldl_cons, List.foldl_nil]
      rw [CodePoint.val_ofChar_digitChar h]
      omega
    . rw [ofNat_of_le (by omega), digitsValue_append, ih (n / 10) (by omega)]
      simp only [digitsValue, List.foldl_cons, List.foldl_nil, List.length_singleton]
      rw [CodePoint.val_ofChar_digitChar (Nat.mod_lt n (by decide))]
      omega

/-! ### Base sixteen -/

theorem hexValue?_digitChar
    : ∀ n < 16, (CodePoint.ofChar n.digitChar).hexValue? = some n := by
  decide

theorem hexOfNatPadded_four {n : Nat} (h : n < 0x10000)
    : hexOfNatPadded 4 n
        =
      [n / 0x1000, n / 0x100 % 16, n / 0x10 % 16, n % 16].map
        (fun d => CodePoint.ofChar d.digitChar) := by
  have hzero : CodePoint.ofChar '0' = CodePoint.ofChar (Nat.digitChar 0) := rfl
  unfold hexOfNatPadded hexOfNat
  by_cases h1 : n < 16
  . rw [Nat.toDigits_of_lt_base h1]
    simp only [Nat.div_eq_of_lt (show n < 0x1000 by omega), Nat.div_eq_of_lt (show n < 0x100 by omega),
      Nat.div_eq_of_lt h1, Nat.mod_eq_of_lt h1]
    rfl
  . rw [Nat.toDigits_of_base_le (by decide) (by omega)]
    by_cases h2 : n / 16 < 16
    . rw [Nat.toDigits_of_lt_base h2]
      simp only [Nat.div_eq_of_lt (show n < 0x1000 by omega),
        Nat.div_eq_of_lt (show n < 0x100 by omega), Nat.mod_eq_of_lt h2]
      rfl
    . rw [Nat.toDigits_of_base_le (by decide) (by omega)]
      by_cases h3 : n / 16 / 16 < 16
      . rw [Nat.toDigits_of_lt_base h3]
        simp only [Nat.div_eq_of_lt (show n < 0x1000 by omega), Nat.div_div_eq_div_mul] at h3 ⊢
        rw [Nat.mod_eq_of_lt h3]
        rfl
      . rw [Nat.toDigits_of_base_le (by decide) (by omega),
          Nat.toDigits_of_lt_base (show n / 16 / 16 / 16 < 16 by omega)]
        simp only [Nat.div_div_eq_div_mul]
        rfl

theorem hexOfNat_of_lt {n : Nat} (h : n < 16) : hexOfNat n = [CodePoint.ofChar n.digitChar] := by
  unfold hexOfNat
  rw [Nat.toDigits_of_lt_base h, List.map_singleton]

theorem hexOfNat_of_le {n : Nat} (h : 16 ≤ n)
    : hexOfNat n = hexOfNat (n / 16) ++ [CodePoint.ofChar (n % 16).digitChar] := by
  unfold hexOfNat
  rw [Nat.toDigits_of_base_le (by decide) h, List.map_append, List.map_singleton]

def hexDigitsValue (t : Text) : Nat :=
  t.foldl (fun n c => 16 * n + c.hexValue?.getD 0) 0

theorem hexDigitsValue_append_digitChar {n : Nat} (h : n < 16) (t : Text)
    : hexDigitsValue (t ++ [CodePoint.ofChar n.digitChar]) = 16 * hexDigitsValue t + n := by
  rw [hexDigitsValue, List.foldl_append, List.foldl_cons, List.foldl_nil, hexValue?_digitChar n h]
  rfl

theorem hexDigitsValue_hexOfNat (n : Nat) : hexDigitsValue (hexOfNat n) = n := by
  induction n using Nat.strongRecOn with
  | _ n ih =>
    by_cases h : n < 16
    . rw [hexOfNat_of_lt h, ← List.nil_append [_], hexDigitsValue_append_digitChar h]
      exact Nat.zero_add n
    . rw [hexOfNat_of_le (by omega), hexDigitsValue_append_digitChar (Nat.mod_lt n (by decide)),
        ih (n / 16) (by omega)]
      omega

theorem hexDigitsValue_hexOfNatPadded (width n : Nat)
    : hexDigitsValue (hexOfNatPadded width n) = n := by
  have hzeros : ∀ k t, hexDigitsValue (List.replicate k (CodePoint.ofChar '0') ++ t)
      = hexDigitsValue t := by
    intro k t
    induction k with
    | zero => rfl
    | succ k ih => exact ih
  rw [hexOfNatPadded, hzeros, hexDigitsValue_hexOfNat]

theorem hexOfNatPadded_inj {width m n : Nat} (h : hexOfNatPadded width m = hexOfNatPadded width n)
    : m = n := by
  have := congrArg hexDigitsValue h
  rwa [hexDigitsValue_hexOfNatPadded, hexDigitsValue_hexOfNatPadded] at this

theorem le_length_hexOfNatPadded (width n : Nat) : width ≤ (hexOfNatPadded width n).length := by
  rw [hexOfNatPadded, List.length_append, List.length_replicate]
  omega

theorem length_hexOfNatPadded {width n : Nat} (hwidth : 0 < width) (h : n < 16 ^ width)
    : (hexOfNatPadded width n).length = width := by
  have hdigits : (hexOfNat n).length ≤ width := by
    rwa [hexOfNat, List.length_map, Nat.length_toDigits_le_iff (by decide) hwidth]
  rw [hexOfNatPadded, List.length_append, List.length_replicate]
  omega

theorem val_lt_of_mem_hexOfNatPadded {width n : Nat}
    : ∀ c ∈ hexOfNatPadded width n, c.val < 0x80 := by
  have hdigit : ∀ n < 16, (CodePoint.ofChar n.digitChar).val < 0x80 := by decide
  have hhex : ∀ c ∈ hexOfNat n, c.val < 0x80 := by
    induction n using Nat.strongRecOn with
    | _ n ih =>
      by_cases h : n < 16
      . rw [hexOfNat_of_lt h, List.forall_mem_singleton]
        exact hdigit n h
      . rw [hexOfNat_of_le (by omega), List.forall_mem_append, List.forall_mem_singleton]
        exact ⟨ih (n / 16) (by omega), hdigit _ (Nat.mod_lt n (by decide))⟩
  rw [hexOfNatPadded, List.forall_mem_append]
  exact ⟨fun c hc => by rw [List.eq_of_mem_replicate hc]; decide, hhex⟩

end Text

end SignedToken
