import SignedToken.Proofs.Base64Url.Canonical

/-!
This module contains the segments of numbers of a fixed width. A number has one if and only if it fits into
the width, and it is then the only text that a reader of segments takes for as many octets with this number
in them.
-/

namespace SignedToken

namespace Octets

variable {width n : Nat} {b : Bytes}

theorem ofNat_toNat (b : Bytes) : ofNat b.length (toNat b) = b :=
  toNat_inj (length_ofNat _ _) (toNat_ofNat (toNat_lt b))

theorem ofNat?_eq_some_iff : ofNat? width n = some b ↔ b.length = width ∧ toNat b = n := by
  rw [ofNat?, Option.ite_none_right_eq_some, Option.some_inj]
  constructor
  . rintro ⟨hlt, rfl⟩
    exact ⟨length_ofNat width n, toNat_ofNat hlt⟩
  . rintro ⟨rfl, rfl⟩
    exact ⟨toNat_lt b, ofNat_toNat b⟩

end Octets

namespace Base64Url

/--
How many characters the text of so many octets has: enough for their bits, and none that has no bit of
them.
-/
def textLength (size : Nat) : Nat := (8 * size + 5) / 6

theorem length_encode (b : Bytes) : (encode b).length = textLength b.length := by
  obtain ⟨worths, unused, h⟩ := isTextOf_encode b
  have hworths : (encode b).length = worths.length := by
    simpa using congrArg List.length h.characters
  have hlength := h.length_eq
  have hfewest := h.fewest
  rw [hworths, textLength]
  omega

/--
That a text is accepted as the segment of so many octets, which hold a number in big-endian order.
-/
def IsNumberText (size : Nat) (n : Int) (t : Text) : Prop :=
  ∃ b, Verifier.decodeSegment t = .ok b ∧ b.length = size ∧ (Octets.toNat b : Int) = n

variable {size : Nat} {m n : Int} {t : Text}

namespace IsNumberText

theorem length_eq (h : IsNumberText size n t) : t.length = textLength size := by
  obtain ⟨b, hdecode, rfl, -⟩ := h
  rw [Verifier.decodeSegment_eq_ok_iff.1 hdecode, length_encode]

theorem fits (h : IsNumberText size n t) : 0 ≤ n ∧ n < 256 ^ size := by
  obtain ⟨b, -, rfl, rfl⟩ := h
  have hlt := Int.ofNat_lt.2 (Octets.toNat_lt b)
  rw [Int.natCast_pow] at hlt
  exact ⟨Int.natCast_nonneg _, hlt⟩

theorem unique (hm : IsNumberText size m t) (hn : IsNumberText size n t) : m = n := by
  obtain ⟨b, hb, -, rfl⟩ := hm
  obtain ⟨c, hc, -, rfl⟩ := hn
  rw [hb, Except.ok.injEq] at hc
  rw [hc]

end IsNumberText

theorem encodeNat?_eq_some_iff : encodeNat? size n = some t ↔ IsNumberText size n t := by
  unfold encodeNat? IsNumberText
  simp only [Verifier.decodeSegment_eq_ok_iff]
  by_cases hneg : n < 0
  . rw [if_pos hneg]
    apply iff_of_false nofun
    rintro ⟨b, -, -, rfl⟩
    omega
  . rw [if_neg hneg, Option.map_eq_some_iff]
    apply exists_congr
    intro b
    have hvalue : Octets.toNat b = n.toNat ↔ (Octets.toNat b : Int) = n := by omega
    rw [Octets.ofNat?_eq_some_iff, hvalue, and_comm, eq_comm]

theorem isSome_encodeNat?_iff : (encodeNat? size n).isSome = true ↔ 0 ≤ n ∧ n < 256 ^ size := by
  rw [Option.isSome_iff_exists]
  constructor
  . rintro ⟨t, ht⟩
    exact (encodeNat?_eq_some_iff.1 ht).fits
  . rintro ⟨hnonneg, hlt⟩
    have hfits : n.toNat < 256 ^ size := by
      rw [← Int.ofNat_lt, Int.natCast_pow, Int.toNat_of_nonneg hnonneg]
      exact hlt
    rw [encodeNat?, if_neg (Int.not_lt.2 hnonneg), Octets.ofNat?, if_pos hfits]
    exact ⟨_, rfl⟩

/--
A number has a text of a fixed width if and only if it is not negative and fits into so many octets. The
text is as long as all others of this width, and a reader of segments accepts it, and no other text, for as
many octets as the width says with this number in them. So numbers with one text are the same.
-/
theorem encodeNat?_fixed_width (size : Nat) (n : Int)
    : ((encodeNat? size n).isSome = true ↔ 0 ≤ n ∧ n < 256 ^ size) ∧
      (∀ t, encodeNat? size n = some t → t.length = textLength size) ∧
      (∀ t, encodeNat? size n = some t ↔
        ∃ b, Verifier.decodeSegment t = .ok b ∧ b.length = size ∧ (Octets.toNat b : Int) = n) ∧
      ∀ m t, encodeNat? size m = some t ∧ encodeNat? size n = some t → m = n := by
  refine ⟨isSome_encodeNat?_iff, ?_, fun t => encodeNat?_eq_some_iff, ?_⟩
  . intro t ht
    exact (encodeNat?_eq_some_iff.1 ht).length_eq
  . rintro m t ⟨hm, hn⟩
    exact (encodeNat?_eq_some_iff.1 hm).unique (encodeNat?_eq_some_iff.1 hn)

-- No octets are enough for zero, and for no other number.
example : encodeNat? 0 0 = some [] ∧ encodeNat? 0 1 = none ∧ encodeNat? 1 (-1) = none := by decide

end Base64Url

end SignedToken
