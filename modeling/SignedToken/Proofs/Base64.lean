import SignedToken.Base64
import SignedToken.Proofs.Text.Utf8

/-!
This module contains the laws of base64: what its digits look like as octets, and that the strict
reader takes the padded form of octets back to them.
-/

namespace SignedToken.Base64

theorem forall_mem_encode {P : CodePoint → Prop} {a : Alphabet} (h : ∀ n, P (a.digit n)) (b : Bytes)
    : ∀ c ∈ encode a b, P c := by
  fun_induction encode a b with
  | case1 x y z rest ih => simpa [h] using ih
  | case2 x y => simp [h]
  | case3 x => simp [h]
  | case4 => simp

theorem toUInt8_eq {n : Nat} {x : UInt8} (h : n = x.toNat) : n.toUInt8 = x := by
  subst h
  simp

/-! ### The standard alphabet -/

theorem digit_standard_mem (n : Nat) : standard.digit n ∈ (List.range 64).map standard.digit := by
  by_cases hn : n < 64
  . exact List.mem_map_of_mem (List.mem_range.2 hn)
  . have hlast : standard.digit n = standard.digit 63 := by
      rw [Alphabet.digit, dif_neg (by omega), dif_neg (by omega), dif_neg (by omega),
        if_neg (by omega)]
      rfl
    rw [hlast]
    decide

theorem digit_standard {P : CodePoint → Bool} (h : ((List.range 64).map standard.digit).all P = true)
    (n : Nat) : P (standard.digit n) = true :=
  List.all_eq_true.1 h _ (digit_standard_mem n)

theorem forall_mem_encodePadded {P : CodePoint → Bool}
    (h : ((List.range 64).map standard.digit).all P = true) (hpad : P pad = true) (b : Bytes)
    : ∀ c ∈ encodePadded standard b, P c = true := by
  intro c hc
  cases List.mem_append.1 hc with
  | inl hdigit => exact forall_mem_encode (P := fun c => P c = true) (digit_standard h) b c hdigit
  | inr hrest => exact List.eq_of_mem_replicate hrest ▸ hpad

/-! ### The strict reader -/

namespace decodeStrict?

theorem value?_digit : ∀ n < 64, standard.value? (standard.digit n).val.toUInt8 = some n := by
  decide

theorem value?_padOctet : standard.value? padOctet = none := by
  decide

variable {read rest : Bytes} {m n o p : Nat}

theorem go_four (hm : m < 64) (hn : n < 64) (ho : o < 64) (hp : p < 64)
    : go standard read
          ((standard.digit m).val.toUInt8 :: (standard.digit n).val.toUInt8
            :: (standard.digit o).val.toUInt8 :: (standard.digit p).val.toUInt8 :: rest)
        =
      go standard ((o % 4 * 64 + p).toUInt8 :: (n % 16 * 16 + o / 4).toUInt8
        :: (m * 4 + n / 16).toUInt8 :: read) rest := by
  rw [go, value?_digit m hm, value?_digit n hn, value?_digit o ho,
    value?_digit p hp]

theorem go_three (hm : m < 64) (hn : n < 64) (ho : o < 64) (hunused : o % 4 = 0)
    : go standard read [(standard.digit m).val.toUInt8, (standard.digit n).val.toUInt8,
          (standard.digit o).val.toUInt8, padOctet]
        =
      some ((n % 16 * 16 + o / 4).toUInt8 :: (m * 4 + n / 16).toUInt8 :: read).reverse := by
  rw [go, value?_digit m hm, value?_digit n hn, value?_digit o ho, value?_padOctet]
  exact if_pos ⟨rfl, rfl, hunused⟩

theorem go_two (hm : m < 64) (hn : n < 64) (hunused : n % 16 = 0)
    : go standard read [(standard.digit m).val.toUInt8, (standard.digit n).val.toUInt8, padOctet, padOctet]
        =
      some ((m * 4 + n / 16).toUInt8 :: read).reverse := by
  rw [go, value?_digit m hm, value?_digit n hn, value?_padOctet]
  exact if_pos ⟨rfl, rfl, rfl, hunused⟩

theorem go_encodePadded (b read : Bytes)
    : go standard read ((encodePadded standard b).map fun c => c.val.toUInt8)
        =
      some (read.reverse ++ b) := by
  have hpad : UInt8.ofNat pad.val = padOctet := rfl
  unfold encodePadded
  -- Each group of four digits gives three octets back; the last group has as many pads as it lacks
  -- octets.
  fun_induction encode standard b generalizing read with
  | case1 x y z rest ih =>
    have hx := x.toNat_lt
    have hy := y.toNat_lt
    have hz := z.toNat_lt
    have h1 : (x.toNat / 4 * 4 + (x.toNat % 4 * 16 + y.toNat / 16) / 16).toUInt8 = x :=
      toUInt8_eq (by omega)
    have h2 : ((x.toNat % 4 * 16 + y.toNat / 16) % 16 * 16
        + (y.toNat % 16 * 4 + z.toNat / 64) / 4).toUInt8 = y :=
      toUInt8_eq (by omega)
    have h3 : ((y.toNat % 16 * 4 + z.toNat / 64) % 4 * 64 + z.toNat % 64).toUInt8 = z :=
      toUInt8_eq (by omega)
    simp only [List.length_cons, Nat.add_assoc, Nat.reduceAdd, Nat.add_mod_right, List.cons_append,
      List.map_cons]
    rw [go_four (by omega) (by omega) (by omega) (by omega), h1, h2, h3, ih]
    simp
  | case2 x y =>
    have hx := x.toNat_lt
    have hy := y.toNat_lt
    have h1 : (x.toNat / 4 * 4 + (x.toNat % 4 * 16 + y.toNat / 16) / 16).toUInt8 = x :=
      toUInt8_eq (by omega)
    have h2 : ((x.toNat % 4 * 16 + y.toNat / 16) % 16 * 16 + y.toNat % 16 * 4 / 4).toUInt8 = y :=
      toUInt8_eq (by omega)
    have hthree := @go_three read (x.toNat / 4) (x.toNat % 4 * 16 + y.toNat / 16) (y.toNat % 16 * 4)
      (by omega) (by omega) (by omega) (by omega)
    rw [h1, h2] at hthree
    simpa [hpad] using hthree
  | case3 x =>
    have hx := x.toNat_lt
    have h1 : (x.toNat / 4 * 4 + x.toNat % 4 * 16 / 16).toUInt8 = x := toUInt8_eq (by omega)
    have htwo := @go_two read (x.toNat / 4) (x.toNat % 4 * 16) (by omega) (by omega) (by omega)
    rw [h1] at htwo
    simpa [hpad] using htwo
  | case4 => simp [go]

end decodeStrict?

theorem encodeAny_encodePadded (b : Bytes)
    : Utf8.encodeAny (encodePadded standard b)
        =
      (encodePadded standard b).map fun c => c.val.toUInt8 :=
  Utf8.encodeAny_of_ascii fun c hc =>
    of_decide_eq_true
      (forall_mem_encodePadded (P := fun c => c.val < 0x80) (by decide) (by decide) b c hc)

theorem decodeStrict?_encodePadded (b : Bytes)
    : decodeStrict? standard (Utf8.encodeAny (encodePadded standard b)) = some b := by
  rw [encodeAny_encodePadded]
  exact decodeStrict?.go_encodePadded b []

theorem forall_mem_encodeAny {P : UInt8 → Bool}
    (h : ((List.range 64).map standard.digit).all (fun c => P c.val.toUInt8) = true)
    (hpad : P padOctet = true) (b : Bytes)
    : ∀ x ∈ Utf8.encodeAny (encodePadded standard b), P x = true := by
  rw [encodeAny_encodePadded]
  intro x hx
  obtain ⟨c, hc, rfl⟩ := List.mem_map.1 hx
  exact forall_mem_encodePadded (P := fun c => P c.val.toUInt8) h hpad b c hc

end SignedToken.Base64
