import SignedToken.Proofs.Text
import SignedToken.Text.Utf8

/-!
This module contains the laws of UTF-8: what is written is read back, and what is read strictly has
no surrogate.
-/

namespace SignedToken.Utf8

theorem toNat_toUInt8 {n : Nat} (h : n < 0x100) : n.toUInt8.toNat = n := by
  simp only [Nat.toUInt8_eq, UInt8.toNat_ofNat', Nat.reducePow]
  exact Nat.mod_eq_of_lt h

theorem isContinuation_iff (b : UInt8) : isContinuation b ↔ 0x80 ≤ b.toNat ∧ b.toNat < 0xC0 := by
  simp [isContinuation, UInt8.le_iff_toNat_le, UInt8.lt_iff_toNat_lt]

theorem two?_eq_some {a b : UInt8} {c : CodePoint} (ha : a.toNat = 0xC0 + c.val / 0x40)
    (hb : b.toNat = 0x80 + c.val % 0x40) (hc : 0x80 ≤ c.val ∧ c.val < 0x800)
    : two? a b = some c := by
  have hn : (a.toNat - 0xC0) * 0x40 + (b.toNat - 0x80) = c.val := by omega
  unfold two?
  simp only [hn, isContinuation_iff, UInt8.le_iff_toNat_le, UInt8.lt_iff_toNat_lt]
  rw [dif_pos]
  simp only [UInt8.reduceToNat]
  omega

theorem two?_eq_none {a : UInt8} (ha : 0xE0 ≤ a.toNat) (b : UInt8) : two? a b = none := by
  unfold two?
  simp only [UInt8.le_iff_toNat_le, UInt8.lt_iff_toNat_lt]
  rw [dif_neg]
  simp only [UInt8.reduceToNat]
  omega

theorem three?_eq_some {a b c : UInt8} {d : CodePoint} {surrogates : Bool}
    (ha : a.toNat = 0xE0 + d.val / 0x1000) (hb : b.toNat = 0x80 + d.val / 0x40 % 0x40)
    (hc : c.toNat = 0x80 + d.val % 0x40) (hd : 0x800 ≤ d.val ∧ d.val < 0x10000)
    (hs : d.isSurrogate = false ∨ surrogates = true) : three? surrogates a b c = some d := by
  have hn : (a.toNat - 0xE0) * 0x1000 + (b.toNat - 0x80) * 0x40 + (c.toNat - 0x80) = d.val := by
    omega
  unfold three?
  simp only [hn, isContinuation_iff, UInt8.le_iff_toNat_le, UInt8.lt_iff_toNat_lt]
  rw [dif_pos, if_neg]
  . cases hs with
    | inl hs => simp [hs]
    | inr hs => simp [hs]
  . simp only [UInt8.reduceToNat]
    omega

theorem three?_eq_none {a : UInt8} (ha : 0xF0 ≤ a.toNat) (surrogates : Bool) (b c : UInt8)
    : three? surrogates a b c = none := by
  unfold three?
  simp only [UInt8.le_iff_toNat_le, UInt8.lt_iff_toNat_lt]
  rw [dif_neg]
  simp only [UInt8.reduceToNat]
  omega

theorem four?_eq_some {a b c d : UInt8} {e : CodePoint} (ha : a.toNat = 0xF0 + e.val / 0x40000)
    (hb : b.toNat = 0x80 + e.val / 0x1000 % 0x40) (hc : c.toNat = 0x80 + e.val / 0x40 % 0x40)
    (hd : d.toNat = 0x80 + e.val % 0x40) (he : 0x10000 ≤ e.val) : four? a b c d = some e := by
  have hn : (a.toNat - 0xF0) * 0x40000 + (b.toNat - 0x80) * 0x1000 + (c.toNat - 0x80) * 0x40
      + (d.toNat - 0x80) = e.val := by
    omega
  unfold four?
  simp only [hn, isContinuation_iff, UInt8.le_iff_toNat_le]
  rw [dif_pos]
  simp only [UInt8.reduceToNat]
  omega

namespace decodeWith

variable {surrogates : Bool} {a b c d : UInt8} {e : CodePoint}

theorem go_one {n : Nat} (ha : a.toNat = n) (hn : n < 0x80) (read : Text) (rest : Bytes)
    : go surrogates read (a :: rest) = go surrogates (⟨n, by omega⟩ :: read) rest := by
  have h80 : a < 0x80 := by
    rw [UInt8.lt_iff_toNat_lt, ha]
    exact hn
  rw [go.eq_def]
  simp only [dif_pos h80, ha]

theorem go_two (ha : 0x80 ≤ a.toNat) (h : two? a b = some e) (read : Text) (rest : Bytes)
    : go surrogates read (a :: b :: rest) = go surrogates (e :: read) rest := by
  have h80 : ¬ a < 0x80 := by
    rw [UInt8.lt_iff_toNat_lt]
    exact Nat.not_lt.2 ha
  rw [go.eq_def]
  simp only [dif_neg h80, h]

theorem go_three (ha : 0xE0 ≤ a.toNat) (h : three? surrogates a b c = some e) (read : Text)
    (rest : Bytes)
    : go surrogates read (a :: b :: c :: rest) = go surrogates (e :: read) rest := by
  have h80 : ¬ a < 0x80 := by
    rw [UInt8.lt_iff_toNat_lt]
    simp only [UInt8.reduceToNat]
    omega
  rw [go.eq_def]
  simp only [dif_neg h80, two?_eq_none ha, h]

theorem go_four (ha : 0xF0 ≤ a.toNat) (h : four? a b c d = some e) (read : Text) (rest : Bytes)
    : go surrogates read (a :: b :: c :: d :: rest) = go surrogates (e :: read) rest := by
  have h80 : ¬ a < 0x80 := by
    rw [UInt8.lt_iff_toNat_lt]
    simp only [UInt8.reduceToNat]
    omega
  rw [go.eq_def]
  simp only [dif_neg h80, two?_eq_none (Nat.le_trans (by decide) ha), three?_eq_none ha, h]

theorem go_encodeCodePoint (he : e.isSurrogate = false ∨ surrogates = true) (read : Text)
    (rest : Bytes)
    : go surrogates read (encodeCodePoint e ++ rest) = go surrogates (e :: read) rest := by
  have hlt := e.isLt
  -- The octets of each length are in a range of their own, so shorter readings of them fail.
  unfold encodeCodePoint
  dsimp only
  split
  . apply go_one
    . exact toNat_toUInt8 (by omega)
    . assumption
  . split
    . have ha : (0xC0 + e.val / 0x40).toUInt8.toNat = 0xC0 + e.val / 0x40 :=
        toNat_toUInt8 (by omega)
      apply go_two
      . omega
      . apply two?_eq_some ha (toNat_toUInt8 (by omega))
        omega
    . split
      . have ha : (0xE0 + e.val / 0x1000).toUInt8.toNat = 0xE0 + e.val / 0x1000 :=
          toNat_toUInt8 (by omega)
        apply go_three
        . omega
        . apply three?_eq_some ha (toNat_toUInt8 (by omega)) (toNat_toUInt8 (by omega))
          . omega
          . exact he
      . have ha : (0xF0 + e.val / 0x40000).toUInt8.toNat = 0xF0 + e.val / 0x40000 :=
          toNat_toUInt8 (by omega)
        apply go_four
        . omega
        . apply four?_eq_some ha (toNat_toUInt8 (by omega)) (toNat_toUInt8 (by omega))
            (toNat_toUInt8 (by omega))
          omega

theorem go_encodeAny {t : Text} (ht : t.any CodePoint.isSurrogate = false ∨ surrogates = true)
    (read : Text) : go surrogates read (encodeAny t) = some (read.reverse ++ t) := by
  induction t generalizing read with
  | nil => simp [encodeAny, go]
  | cons e t ih =>
    simp only [List.any_cons, Bool.or_eq_false_iff] at ht
    rw [encodeAny, List.flatMap_cons, go_encodeCodePoint, ← encodeAny, ih]
    . simp
    . exact ht.imp_left And.right
    . exact ht.imp_left And.left

end decodeWith

theorem decodeWith_encodeAny {surrogates : Bool} {t : Text}
    (ht : t.any CodePoint.isSurrogate = false ∨ surrogates = true)
    : decodeWith surrogates (encodeAny t) = some t := by
  unfold decodeWith
  rw [decodeWith.go_encodeAny ht]
  simp

theorem encodeAny_inj {s t : Text} : encodeAny s = encodeAny t ↔ s = t := by
  constructor
  . intro h
    have hs := decodeWith_encodeAny (t := s) (.inr rfl)
    rw [h, decodeWith_encodeAny (.inr rfl), Option.some_inj] at hs
    exact hs.symm
  . rintro rfl
    rfl

theorem encodeAny_append (s t : Text) : encodeAny (s ++ t) = encodeAny s ++ encodeAny t := by
  simp [encodeAny]

theorem encodeAny_flatten (ts : List Text) : encodeAny ts.flatten = (ts.map encodeAny).flatten := by
  induction ts with
  | nil => rfl
  | cons t ts ih => rw [List.flatten_cons, encodeAny_append, ih, List.map_cons, List.flatten_cons]

theorem encodeAny_ne_nil {t : Text} (h : t ≠ []) : encodeAny t ≠ [] := fun hnil =>
  h (encodeAny_inj.1 hnil)

theorem zero_mem_encodeCodePoint_iff {c : CodePoint} : 0 ∈ encodeCodePoint c ↔ c.val = 0 := by
  have hzero : ∀ n : Nat, n < 0x100 → (0 = n.toUInt8 ↔ n = 0) := by
    intro n hn
    rw [← UInt8.toNat_inj, toNat_toUInt8 hn, UInt8.toNat_zero, eq_comm]
  unfold encodeCodePoint
  dsimp only
  split
  . rw [List.mem_singleton, hzero _ (by omega)]
  . split
    . simp only [List.mem_cons, List.not_mem_nil, or_false]
      rw [hzero _ (by omega), hzero _ (by omega)]
      omega
    . split
      . simp only [List.mem_cons, List.not_mem_nil, or_false]
        rw [hzero _ (by omega), hzero _ (by omega), hzero _ (by omega)]
        omega
      . have := c.isLt
        simp only [List.mem_cons, List.not_mem_nil, or_false]
        rw [hzero _ (by omega), hzero _ (by omega), hzero _ (by omega), hzero _ (by omega)]
        omega

theorem encodeAny_of_ascii {t : Text} (ht : ∀ c ∈ t, c.val < 0x80)
    : encodeAny t = t.map fun c => c.val.toUInt8 := by
  induction t with
  | nil => rfl
  | cons c t ih =>
    simp only [List.mem_cons, forall_eq_or_imp] at ht
    rw [encodeAny, List.flatMap_cons, ← encodeAny, ih ht.2]
    simp [encodeCodePoint, ht.1]

theorem encode?_of_ascii {t : Text} (ht : ∀ c ∈ t, c.val < 0x80)
    : encode? t = some (t.map fun c => c.val.toUInt8) := by
  have hs : t.any CodePoint.isSurrogate = false := by
    simp only [List.any_eq_false, CodePoint.isSurrogate, Bool.and_eq_true, decide_eq_true_eq]
    intro c hc
    specialize ht c hc
    omega
  simp [encode?, hs, encodeAny_of_ascii ht]

theorem encode?_eq_some {t : Text} {b : Bytes}
    : encode? t = some b ↔ t.any CodePoint.isSurrogate = false ∧ encodeAny t = b := by
  simp [encode?]

theorem decode?_of_encode? {t : Text} {b : Bytes} (h : encode? t = some b) : decode? b = some t := by
  obtain ⟨ht, rfl⟩ := encode?_eq_some.1 h
  exact decodeWith_encodeAny (.inl ht)

theorem not_isSurrogate_of_two? {a b : UInt8} {c : CodePoint} (h : two? a b = some c)
    : c.isSurrogate = false := by
  unfold two? at h
  dsimp only at h
  split at h
  . next hn =>
    injection h with h
    subst h
    rw [CodePoint.isSurrogate_eq_false_iff]
    dsimp only
    omega
  . cases h

theorem not_isSurrogate_of_three? {a b c : UInt8} {d : CodePoint} (h : three? false a b c = some d)
    : d.isSurrogate = false := by
  unfold three? at h
  dsimp only at h
  split at h
  . split at h
    . cases h
    . next hs =>
      injection h with h
      subst h
      simpa using hs
  . cases h

theorem not_isSurrogate_of_four? {a b c d : UInt8} {e : CodePoint} (h : four? a b c d = some e)
    : e.isSurrogate = false := by
  unfold four? at h
  dsimp only at h
  split at h
  . next hn =>
    injection h with h
    subst h
    rw [CodePoint.isSurrogate_eq_false_iff]
    dsimp only
    omega
  . cases h

theorem decodeWith.any_isSurrogate_go {read t : Text} {b : Bytes}
    (hread : read.any CodePoint.isSurrogate = false) (h : go false read b = some t)
    : t.any CodePoint.isSurrogate = false := by
  fun_induction go false read b with
  | case1 =>
    injection h with h
    subst h
    simpa using hread
  | case2 read a rest _ ha ih =>
    apply ih _ h
    rw [List.any_cons, hread, Bool.or_false]
    rw [CodePoint.isSurrogate_eq_false_iff]
    dsimp only
    omega
  | case4 _ _ _ _ _ _ htwo ih =>
    apply ih _ h
    rw [List.any_cons, hread, not_isSurrogate_of_two? htwo, Bool.or_false]
  | case6 _ _ _ _ _ _ _ _ hthree ih =>
    apply ih _ h
    rw [List.any_cons, hread, not_isSurrogate_of_three? hthree, Bool.or_false]
  | case8 _ _ _ _ _ _ _ _ _ _ hfour ih =>
    apply ih _ h
    rw [List.any_cons, hread, not_isSurrogate_of_four? hfour, Bool.or_false]
  | case3 | case5 | case7 | case9 => cases h

theorem any_isSurrogate_of_decode? {b : Bytes} {t : Text} (h : decode? b = some t)
    : t.any CodePoint.isSurrogate = false := by
  apply decodeWith.any_isSurrogate_go _ h
  rfl

end SignedToken.Utf8
