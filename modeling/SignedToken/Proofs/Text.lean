import SignedToken.Text

/-!
This module contains what digits, surrogates and the characters of a plain line are among the code
points.
-/

namespace SignedToken

namespace CodePoint

theorem ofChar_val (c : Char) : (ofChar c).val = c.toNat := rfl

theorem isDigit_iff {c : CodePoint} : c.isDigit = true ↔ 0x30 ≤ c.val ∧ c.val ≤ 0x39 := by
  simp [isDigit]

theorem val_ofChar_digitChar {n : Nat} (h : n < 10) : (ofChar n.digitChar).val = 0x30 + n := by
  rw [ofChar_val, Nat.toNat_digitChar_of_lt_ten h]

theorem isSurrogate_eq_false_iff {c : CodePoint}
    : c.isSurrogate = false ↔ c.val < 0xD800 ∨ 0xDFFF < c.val := by
  rw [isSurrogate, Bool.and_eq_false_iff, decide_eq_false_iff_not, decide_eq_false_iff_not,
    Nat.not_le, Nat.not_le]

def isPlainAscii (c : CodePoint) : Bool :=
  0x20 ≤ c.val && c.val < 0x7F

theorem isPlainAscii_iff {c : CodePoint} : c.isPlainAscii = true ↔ 0x20 ≤ c.val ∧ c.val < 0x7F := by
  simp [isPlainAscii]

theorem val_lt_of_isPlainAscii {c : CodePoint} (h : c.isPlainAscii = true) : c.val < 0x80 := by
  rw [isPlainAscii_iff] at h
  omega

theorem isPlainAscii_of_isDigit {c : CodePoint} (h : c.isDigit = true) : c.isPlainAscii = true := by
  rw [isDigit_iff] at h
  rw [isPlainAscii_iff]
  omega

theorem isSurrogate_of_isPlainAscii {c : CodePoint} (h : c.isPlainAscii = true)
    : c.isSurrogate = false := by
  rw [isPlainAscii_iff] at h
  rw [isSurrogate_eq_false_iff]
  omega

end CodePoint

namespace Text

theorem any_isSurrogate_of_suffix {s t : Text} (h : s <:+ t)
    (ht : t.any CodePoint.isSurrogate = false) : s.any CodePoint.isSurrogate = false := by
  rw [List.any_eq_false] at ht ⊢
  exact fun c hc => ht c (h.subset hc)

end Text

end SignedToken
