import SignedToken.Proofs.Compact

/-!
This module contains what a segment is, told in bits and apart from any reader or writer: each character
stands for six bits, and these are the bits of the octets, filled up with as few zeros as complete the last
character. A segment is accepted with its octets if and only if it is that text.
-/

namespace SignedToken

namespace Base64Url

def bitsOf : Nat → Nat → List Bool
  | 0, _ => []
  | width + 1, n => n.testBit width :: bitsOf width n

@[simp]
theorem length_bitsOf (width n : Nat) : (bitsOf width n).length = width := by
  induction width with
  | zero => rfl
  | succ width ih => rw [bitsOf, List.length_cons, ih]

theorem bitsOf_append {m n b : Nat} (h : n < 2 ^ b) (a : Nat)
    : bitsOf a m ++ bitsOf b n = bitsOf (a + b) (2 ^ b * m + n) := by
  induction a with
  | zero =>
    rw [Nat.zero_add, bitsOf, List.nil_append]
    have hlow : ∀ c ≤ b, bitsOf c n = bitsOf c (2 ^ b * m + n) := by
      intro c
      induction c with
      | zero => exact fun _ => rfl
      | succ c ih =>
        intro hc
        rw [bitsOf, bitsOf, ih (by omega), Nat.testBit_two_pow_mul_add m h, if_pos (by omega)]
    exact hlow b (Nat.le_refl b)
  | succ a ih =>
    have hadd : a + 1 + b = a + b + 1 := by omega
    rw [bitsOf, List.cons_append, ih, hadd, bitsOf, Nat.testBit_two_pow_mul_add m h,
      if_neg (by omega), Nat.add_sub_cancel]

theorem bitsOf_zero (width : Nat) : bitsOf width 0 = List.replicate width false := by
  induction width with
  | zero => rfl
  | succ width ih => rw [bitsOf, ih, Nat.zero_testBit, List.replicate_succ]

theorem bitsOf_inj {width m n : Nat} (hm : m < 2 ^ width) (hn : n < 2 ^ width)
    (h : bitsOf width m = bitsOf width n) : m = n := by
  have hlow : ∀ c ≤ width, bitsOf c m = bitsOf c n → ∀ i < c, m.testBit i = n.testBit i := by
    intro c
    induction c with
    | zero => exact fun _ _ _ hi => absurd hi (Nat.not_lt_zero _)
    | succ c ih =>
      intro hc hbits i hi
      rw [bitsOf, bitsOf, List.cons.injEq] at hbits
      cases Nat.lt_succ_iff_lt_or_eq.1 hi with
      | inl hlt => exact ih (by omega) hbits.2 i hlt
      | inr heq => rw [heq, hbits.1]
  apply Nat.eq_of_testBit_eq
  intro i
  by_cases hi : i < width
  . exact hlow width (Nat.le_refl _) h i hi
  . have hpow : 2 ^ width ≤ 2 ^ i := Nat.pow_le_pow_right (by decide) (by omega)
    rw [Nat.testBit_lt_two_pow (Nat.lt_of_lt_of_le hm hpow),
      Nat.testBit_lt_two_pow (Nat.lt_of_lt_of_le hn hpow)]

theorem length_flatMap_bitsOf (width : Nat) (ns : List Nat)
    : (ns.flatMap (bitsOf width)).length = width * ns.length := by
  induction ns with
  | nil => rfl
  | cons n ns ih =>
    rw [List.flatMap_cons, List.length_append, ih, length_bitsOf, List.length_cons, Nat.mul_succ,
      Nat.add_comm]

theorem flatMap_bitsOf_inj {width : Nat} {ms ns : List Nat} (hlength : ms.length = ns.length)
    (hm : ∀ m ∈ ms, m < 2 ^ width) (hn : ∀ n ∈ ns, n < 2 ^ width)
    (h : ms.flatMap (bitsOf width) = ns.flatMap (bitsOf width)) : ms = ns := by
  induction ms generalizing ns with
  | nil => exact (List.eq_nil_of_length_eq_zero hlength.symm).symm
  | cons m ms ih =>
    cases ns with
    | nil => cases hlength
    | cons n ns =>
      rw [List.forall_mem_cons] at hm hn
      rw [List.flatMap_cons, List.flatMap_cons] at h
      obtain ⟨hfirst, hrest⟩ := List.append_inj h (by rw [length_bitsOf, length_bitsOf])
      rw [bitsOf_inj hm.1 hn.1 hfirst, ih (Nat.succ.inj hlength) hm.2 hn.2 hrest]

/-! ### Texts of octets -/

def alphabet : Text :=
  Text.ofString "ABCDEFGHIJKLMNOPQRSTUVWXYZabcdefghijklmnopqrstuvwxyz0123456789-_"

def octetBits (b : Bytes) : List Bool :=
  b.flatMap fun x => bitsOf 8 x.toNat

structure Spells (t : Text) (b : Bytes) (worths : List Nat) (unused : Nat) : Prop where
  characters : t.map some = worths.map fun n => alphabet[n]?
  bits : worths.flatMap (bitsOf 6) = octetBits b ++ List.replicate unused false
  fewest : unused < 6

def IsTextOf (t : Text) (b : Bytes) : Prop :=
  ∃ worths unused, Spells t b worths unused

@[simp]
theorem length_octetBits (b : Bytes) : (octetBits b).length = 8 * b.length := by
  have := length_flatMap_bitsOf 8 (b.map UInt8.toNat)
  rwa [List.flatMap_map, List.length_map] at this

theorem getElem?_alphabet : ∀ n < 64, alphabet[n]? = some (Base64.url.digit n) := by
  decide

namespace Spells

variable {t : Text} {b : Bytes} {worths : List Nat} {unused : Nat}

theorem worths_lt (h : Spells t b worths unused) : ∀ n ∈ worths, n < 64 := by
  intro n hn
  have hmem : alphabet[n]? ∈ t.map some := h.characters ▸ List.mem_map_of_mem hn
  obtain ⟨c, -, hc⟩ := List.mem_map.1 hmem
  obtain ⟨hlt, -⟩ := List.getElem?_eq_some_iff.1 hc.symm
  exact hlt

theorem length_eq (h : Spells t b worths unused) : 6 * worths.length = 8 * b.length + unused := by
  have hlength := congrArg List.length h.bits
  rwa [length_flatMap_bitsOf, List.length_append, length_octetBits, List.length_replicate] at hlength

theorem unique {t' : Text} {worths' : List Nat} {unused' : Nat} (h : Spells t b worths unused)
    (h' : Spells t' b worths' unused') : t = t' := by
  have hlength := h.length_eq
  have hlength' := h'.length_eq
  have hfewest := h.fewest
  have hfewest' := h'.fewest
  have hunused : unused = unused' := by omega
  have hbits : worths.flatMap (bitsOf 6) = worths'.flatMap (bitsOf 6) := by
    rw [h.bits, h'.bits, hunused]
  have hworths : worths = worths' :=
    flatMap_bitsOf_inj (by omega) h.worths_lt h'.worths_lt hbits
  apply (List.map_inj_right fun _ _ => Option.some.inj).1
  rw [h.characters, h'.characters, hworths]

theorem cons_group {m n o p : Nat} {x y z : UInt8} (hm : m < 64) (hn : n < 64) (ho : o < 64) (hp : p < 64)
    (hgroup : ((m * 64 + n) * 64 + o) * 64 + p = (x.toNat * 256 + y.toNat) * 256 + z.toNat)
    (h : Spells t b worths unused)
    : Spells (Base64.url.digit m :: Base64.url.digit n :: Base64.url.digit o :: Base64.url.digit p :: t)
        (x :: y :: z :: b) (m :: n :: o :: p :: worths) unused where
  characters := by
    simp only [List.map_cons, h.characters, getElem?_alphabet _ hm, getElem?_alphabet _ hn,
      getElem?_alphabet _ ho, getElem?_alphabet _ hp]
  bits := by
    have hz := z.toNat_lt
    have hy := y.toNat_lt
    have hdigits : bitsOf 6 m ++ (bitsOf 6 n ++ (bitsOf 6 o ++ bitsOf 6 p))
        = bitsOf 24 (((m * 64 + n) * 64 + o) * 64 + p) := by
      rw [bitsOf_append hp, bitsOf_append (by omega), bitsOf_append (by omega)]
      congr 1
      omega
    have hoctets : bitsOf 8 x.toNat ++ (bitsOf 8 y.toNat ++ bitsOf 8 z.toNat)
        = bitsOf 24 ((x.toNat * 256 + y.toNat) * 256 + z.toNat) := by
      rw [bitsOf_append hz, bitsOf_append (by omega)]
      congr 1
      omega
    have hbits := h.bits
    unfold octetBits at hbits ⊢
    simp only [List.flatMap_cons]
    rw [hbits, ← List.append_assoc, ← List.append_assoc, ← List.append_assoc, List.append_assoc (bitsOf 6 m),
      List.append_assoc (bitsOf 6 m), List.append_assoc (bitsOf 6 n), hdigits, hgroup, ← hoctets]
    simp only [List.append_assoc]
  fewest := h.fewest

end Spells

theorem isTextOf_encode (b : Bytes) : IsTextOf (encode b) b := by
  unfold encode
  -- One or two octets that are left over leave four or two bits of the last character unused.
  fun_induction Base64.encode Base64.url b with
  | case1 x y z rest ih =>
    have hx := x.toNat_lt
    have hy := y.toNat_lt
    have hz := z.toNat_lt
    obtain ⟨worths, unused, h⟩ := ih
    exact ⟨_, unused, h.cons_group (by omega) (by omega) (by omega) (by omega) (by omega)⟩
  | case2 x y =>
    have hx := x.toNat_lt
    have hy := y.toNat_lt
    refine ⟨[x.toNat / 4, x.toNat % 4 * 16 + y.toNat / 16, y.toNat % 16 * 4], 2, ?_, ?_, by decide⟩
    . simp only [List.map_cons, List.map_nil]
      rw [getElem?_alphabet _ (by omega), getElem?_alphabet _ (by omega), getElem?_alphabet _ (by omega)]
    . simp only [octetBits, List.flatMap_cons, List.flatMap_nil, List.append_nil]
      rw [← bitsOf_zero, bitsOf_append (by omega), bitsOf_append (by omega), List.append_assoc,
        bitsOf_append (by decide), bitsOf_append (by omega)]
      congr 1
      omega
  | case3 x =>
    have hx := x.toNat_lt
    refine ⟨[x.toNat / 4, x.toNat % 4 * 16], 4, ?_, ?_, by decide⟩
    . simp only [List.map_cons, List.map_nil]
      rw [getElem?_alphabet _ (by omega), getElem?_alphabet _ (by omega)]
    . simp only [octetBits, List.flatMap_cons, List.flatMap_nil, List.append_nil]
      rw [← bitsOf_zero, bitsOf_append (by omega), bitsOf_append (by decide)]
      congr 1
      omega
  | case4 => exact ⟨[], 0, rfl, rfl, by decide⟩

theorem eq_encode_iff {t : Text} {b : Bytes} : t = encode b ↔ IsTextOf t b := by
  constructor
  . rintro rfl
    exact isTextOf_encode b
  . rintro ⟨worths, unused, h⟩
    obtain ⟨worths', unused', h'⟩ := isTextOf_encode b
    exact h.unique h'

/-! ### Texts that stand for octets -/

theorem exists_bitsOf (bits : List Bool) : ∃ n < 2 ^ bits.length, bitsOf bits.length n = bits := by
  induction bits with
  | nil => exact ⟨0, by decide, rfl⟩
  | cons bit bits ih =>
    obtain ⟨n, hn, hbits⟩ := ih
    have hfirst : bitsOf 1 bit.toNat = [bit] := by cases bit <;> rfl
    refine ⟨2 ^ bits.length * bit.toNat + n, ?_, ?_⟩
    . have hle : 2 ^ bits.length * bit.toNat ≤ 2 ^ bits.length * 1 :=
        Nat.mul_le_mul_left _ bit.toNat_le
      rw [List.length_cons, Nat.pow_succ]
      omega
    . rw [List.length_cons, Nat.add_comm bits.length, ← bitsOf_append hn, hfirst, hbits]
      rfl

theorem exists_octetBits {count : Nat} {bits : List Bool} (h : bits.length = 8 * count)
    : ∃ b, octetBits b = bits := by
  induction count generalizing bits with
  | zero => exact ⟨[], (List.eq_nil_of_length_eq_zero h).symm⟩
  | succ count ih =>
    have htake : (bits.take 8).length = 8 := by
      rw [List.length_take]
      omega
    obtain ⟨n, hn, hfirst⟩ := exists_bitsOf (bits.take 8)
    obtain ⟨b, hrest⟩ := @ih (bits.drop 8) (by rw [List.length_drop]; omega)
    rw [htake] at hn hfirst
    refine ⟨n.toUInt8 :: b, ?_⟩
    have htoNat : n.toUInt8.toNat = n := Nat.mod_eq_of_lt hn
    rw [octetBits, List.flatMap_cons, ← octetBits, htoNat, hfirst, hrest, List.take_append_drop]

theorem bitsOf_split {a b n : Nat} : bitsOf (a + b) n = bitsOf a (n / 2 ^ b) ++ bitsOf b (n % 2 ^ b) := by
  rw [bitsOf_append (Nat.mod_lt _ (Nat.two_pow_pos b)), Nat.div_add_mod]

def unusedBits (count : Nat) : Nat := 6 * count % 8

theorem exists_octetBits_iff {worths : List Nat}
    : (∃ b unused, unused < 6 ∧
          worths.flatMap (bitsOf 6) = octetBits b ++ List.replicate unused false)
        ↔
      unusedBits worths.length < 6 ∧ ∀ n ∈ worths.getLast?, n % 2 ^ unusedBits worths.length = 0 := by
  cases List.eq_nil_or_concat worths with
  | inl hnil =>
    subst hnil
    exact iff_of_true ⟨[], 0, by decide, rfl⟩ ⟨by decide, nofun⟩
  | inr hconcat =>
    obtain ⟨front, n, rfl⟩ := hconcat
    generalize hunused : unusedBits (front.concat n).length = unused
    rw [List.concat_eq_append] at hunused ⊢
    rw [unusedBits, List.length_append, List.length_singleton] at hunused
    have hsplit : unused < 6 → (front ++ [n]).flatMap (bitsOf 6)
        = (front.flatMap (bitsOf 6) ++ bitsOf (6 - unused) (n / 2 ^ unused))
          ++ bitsOf unused (n % 2 ^ unused) := by
      intro hlt
      have hsix := @bitsOf_split (6 - unused) unused n
      rw [Nat.sub_add_cancel (Nat.le_of_lt hlt)] at hsix
      rw [List.flatMap_append, List.flatMap_singleton, hsix, List.append_assoc]
    rw [List.getLast?_concat]
    constructor
    . rintro ⟨b, unused', hlt, hbits⟩
      have hlength := congrArg List.length hbits
      rw [length_flatMap_bitsOf, List.length_append, List.length_singleton, List.length_append,
        length_octetBits, List.length_replicate] at hlength
      obtain rfl : unused' = unused := by omega
      rw [hsplit hlt] at hbits
      obtain ⟨-, hzero⟩ := List.append_inj' hbits (by rw [length_bitsOf, List.length_replicate])
      rw [← bitsOf_zero] at hzero
      refine ⟨hlt, fun m hm => ?_⟩
      cases hm
      exact bitsOf_inj (Nat.mod_lt _ (Nat.two_pow_pos _)) (Nat.two_pow_pos _) hzero
    . rintro ⟨hlt, hzero⟩
      have hcount : (front.flatMap (bitsOf 6) ++ bitsOf (6 - unused) (n / 2 ^ unused)).length
          = 8 * (6 * (front.length + 1) / 8) := by
        rw [List.length_append, length_flatMap_bitsOf, length_bitsOf]
        omega
      obtain ⟨b, hb⟩ := exists_octetBits hcount
      refine ⟨b, unused, hlt, ?_⟩
      rw [hsplit hlt, hb, hzero n rfl, bitsOf_zero]

theorem exists_isTextOf_iff {t : Text}
    : (∃ b, IsTextOf t b)
        ↔
      ∃ worths : List Nat, t.map some = worths.map (fun n => alphabet[n]?) ∧
        unusedBits worths.length < 6 ∧ ∀ n ∈ worths.getLast?, n % 2 ^ unusedBits worths.length = 0 := by
  simp only [← exists_octetBits_iff]
  constructor
  . rintro ⟨b, worths, unused, h⟩
    exact ⟨worths, h.characters, b, unused, h.fewest, h.bits⟩
  . rintro ⟨worths, hcharacters, b, unused, hlt, hbits⟩
    exact ⟨b, worths, unused, hcharacters, hbits, hlt⟩

end Base64Url

namespace Verifier

open Base64Url

theorem exists_decodeSegment_error_iff {t : Text}
    : (∃ e, decodeSegment t = .error (.segment e)) ↔ ∀ b, decodeSegment t ≠ .ok b := by
  unfold decodeSegment
  cases Base64Url.decode t with
  | error e => exact iff_of_true ⟨e, rfl⟩ nofun
  | ok b => exact iff_of_false nofun fun h => h b rfl

/--
A segment is accepted with some octets if and only if it is their unpadded base64url text, and every other
text is refused as a segment. So no two texts are accepted with the same octets, and what is written for
octets, be they none at all, gives them back.
-/
theorem decodeSegment_canonical (t : Text)
    : (∀ b, decodeSegment t = .ok b ↔ IsTextOf t b) ∧
        ((∃ e, decodeSegment t = .error (.segment e)) ↔ ∀ b, ¬ IsTextOf t b) ∧
        ((∃ b, decodeSegment t = .ok b)
          ↔ ∃ worths : List Nat, t.map some = worths.map (fun n => alphabet[n]?) ∧
              unusedBits worths.length < 6 ∧
              ∀ n ∈ worths.getLast?, n % 2 ^ unusedBits worths.length = 0) ∧
        (∀ t' b, decodeSegment t = .ok b ∧ decodeSegment t' = .ok b → t = t') ∧
        (∀ b, decodeSegment (encode b) = .ok b) ∧ encode [] = [] := by
  have hiff : ∀ b, decodeSegment t = .ok b ↔ IsTextOf t b := by
    intro b
    rw [decodeSegment_eq_ok_iff, eq_encode_iff]
  refine ⟨hiff, ?_, ?_, ?_, fun b => decodeSegment_eq_ok_iff.2 rfl, rfl⟩
  . rw [exists_decodeSegment_error_iff]
    exact forall_congr' fun b => not_congr (hiff b)
  . rw [← exists_isTextOf_iff]
    exact exists_congr hiff
  . rintro t' b ⟨h, h'⟩
    rw [decodeSegment_eq_ok_iff.1 h, decodeSegment_eq_ok_iff.1 h']

end Verifier

end SignedToken
