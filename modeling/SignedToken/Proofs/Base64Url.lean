import SignedToken.Base64Url
import SignedToken.Proofs.Base64

/-!
This module contains the laws of segments: they consist of plain ASCII other than the dot, the
lenient reader takes each of them back to its octets, and the strict reader takes nothing else.
-/

namespace SignedToken

namespace Base64

theorem isPlainAscii_digit_url (n : Nat) : (url.digit n).isPlainAscii = true := by
  rw [CodePoint.isPlainAscii_iff]
  unfold Alphabet.digit
  split
  . dsimp only
    omega
  . split
    . dsimp only
      omega
    . split
      . dsimp only
        omega
      . split <;> decide

theorem digit_url_ne_dot (n : Nat) : url.digit n ≠ CodePoint.ofChar '.' := by
  have hdot : (CodePoint.ofChar '.').val = 0x2E := rfl
  rw [Ne, Fin.ext_iff, hdot]
  unfold Alphabet.digit
  split
  . dsimp only
    omega
  . split
    . dsimp only
      omega
    . split
      . dsimp only
        omega
      . split <;> decide

namespace decodeLenient?

open Base64Url in
theorem go_digit {n : Nat} (hn : n < 64) (s : LenientState) (rest : Bytes)
    : go standard s (toStandard (url.digit n).val.toUInt8 :: rest) = go standard (s.push n) rest := by
  have hvalue : ∀ n < 64, standard.value? (toStandard (url.digit n).val.toUInt8) = some n := by
    decide
  have hpad : ∀ n < 64, toStandard (url.digit n).val.toUInt8 ≠ padOctet := by
    decide
  rw [go, if_neg (hpad n hn), hvalue n hn]

def digitOctets (b : Bytes) : Bytes :=
  (encode url b).map fun c => Base64Url.toStandard c.val.toUInt8

theorem go_digitOctets (b read : Bytes)
    : go standard ⟨0, 0, 0, read⟩ (digitOctets b
        ++ List.replicate ((4 - (digitOctets b).length % 4) % 4) padOctet)
      =
      some (read.reverse ++ b) := by
  unfold digitOctets
  -- Three octets make four digits; one or two octets that are left make two or three digits, and the
  -- reader stops at the pads behind them.
  fun_induction encode url b generalizing read with
  | case1 x y z rest ih =>
    have hx := x.toNat_lt
    have hy := y.toNat_lt
    have hz := z.toNat_lt
    have h1 : (x.toNat / 4 * 4 + (x.toNat % 4 * 16 + y.toNat / 16) / 16).toUInt8 = x :=
      toUInt8_eq (by omega)
    have h2 : ((x.toNat % 4 * 16 + y.toNat / 16) % 16 * 16
        + (y.toNat % 16 * 4 + z.toNat / 64) / 4).toUInt8 = y :=
      toUInt8_eq (by omega)
    have h3 : ((y.toNat % 16 * 4 + z.toNat / 64) % 4 * 64 + z.toNat % 64).toUInt8 = z :=
      toUInt8_eq (by omega)
    simp only [List.map_cons, List.length_cons, List.cons_append, Nat.add_assoc, Nat.reduceAdd,
      Nat.add_mod_right]
    rw [go_digit (by omega), go_digit (by omega), go_digit (by omega), go_digit (by omega)]
    simp only [LenientState.push, h1, h2, h3]
    rw [ih]
    simp
  | case2 x y =>
    have hx := x.toNat_lt
    have hy := y.toNat_lt
    have h1 : (x.toNat / 4 * 4 + (x.toNat % 4 * 16 + y.toNat / 16) / 16).toUInt8 = x :=
      toUInt8_eq (by omega)
    have h2 : ((x.toNat % 4 * 16 + y.toNat / 16) % 16 * 16 + y.toNat % 16 * 4 / 4).toUInt8 = y :=
      toUInt8_eq (by omega)
    simp only [List.map_cons, List.cons_append]
    rw [go_digit (by omega), go_digit (by omega), go_digit (by omega)]
    simp only [LenientState.push, h1, h2]
    simp [go]
  | case3 x =>
    have hx := x.toNat_lt
    have h1 : (x.toNat / 4 * 4 + x.toNat % 4 * 16 / 16).toUInt8 = x := toUInt8_eq (by omega)
    simp only [List.map_cons, List.cons_append]
    rw [go_digit (by omega), go_digit (by omega)]
    simp only [LenientState.push, h1]
    simp [go]
  | case4 => simp [go]

end decodeLenient?

end Base64

namespace Base64Url

theorem isPlainAscii_of_mem_encode (b : Bytes) : ∀ c ∈ encode b, c.isPlainAscii = true :=
  Base64.forall_mem_encode Base64.isPlainAscii_digit_url b

theorem encode_ascii (b : Bytes) : ∀ c ∈ encode b, c.val < 0x80 :=
  fun c hc => CodePoint.val_lt_of_isPlainAscii (isPlainAscii_of_mem_encode b c hc)

theorem dot_not_mem_encode (b : Bytes) : CodePoint.ofChar '.' ∉ encode b := by
  intro h
  exact Base64.forall_mem_encode (P := (· ≠ CodePoint.ofChar '.')) Base64.digit_url_ne_dot b _ h rfl

theorem encodeAny_encode (b : Bytes)
    : Utf8.encodeAny (encode b) = (encode b).map fun c => c.val.toUInt8 :=
  Utf8.encodeAny_of_ascii (encode_ascii b)

theorem decodeOctets?_encode (b : Bytes) : decodeOctets? (Utf8.encodeAny (encode b)) = some b := by
  have hpad : toStandard Base64.padOctet = Base64.padOctet := rfl
  have := Base64.decodeLenient?.go_digitOctets b []
  simp only [Base64.decodeLenient?.digitOctets, List.length_map] at this
  rw [encodeAny_encode]
  simpa [decodeOctets?, Base64.decodeLenient?, hpad, encode, Function.comp_def] using this

theorem decodeLenient?_encode (b : Bytes) : decodeLenient? (encode b) = some b := by
  unfold decodeLenient?
  rw [Utf8.encode?_of_ascii (encode_ascii b), ← encodeAny_encode]
  exact decodeOctets?_encode b

@[simp]
theorem decode_encode (b : Bytes) : decode (encode b) = .ok b := by
  simp [decode, decodeLenient?_encode]

theorem encode_inj {a b : Bytes} : encode a = encode b ↔ a = b := by
  constructor
  . intro h
    have := decode_encode a
    rw [h, decode_encode, Except.ok.injEq] at this
    exact this.symm
  . rintro rfl
    rfl

theorem decode_eq_ok_iff {t : Text} {b : Bytes} : decode t = .ok b ↔ t = encode b := by
  constructor
  . intro h
    unfold decode at h
    split at h
    . cases h
    . split at h
      . next heq =>
        cases h
        exact heq.symm
      . cases h
  . rintro rfl
    exact decode_encode b

end Base64Url

end SignedToken
