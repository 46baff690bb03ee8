import SignedToken.Json.Quoted
import SignedToken.Proofs.Json.Grammar
import SignedToken.Proofs.Text.Decimal

/-!
This module contains the laws of quoted texts: what is written between quotes is of the grammar, and
whatever is of the grammar is read.
-/

namespace SignedToken.Json

theorem hexValue?_lt {c : CodePoint} {n : Nat} (h : c.hexValue? = some n) : n < 16 := by
  unfold CodePoint.hexValue? at h
  split at h
  . cases h
    omega
  split at h
  . cases h
    omega
  split at h
  . cases h
    omega
  . cases h

theorem UnitText.lt {n : Nat} {t : Text} (h : UnitText n t) : n < 0x10000 := by
  obtain ⟨a, b, c, d, w, x, y, z, -, hw, hx, hy, hz, rfl⟩ := h
  have := hexValue?_lt hw
  have := hexValue?_lt hx
  have := hexValue?_lt hy
  have := hexValue?_lt hz
  omega

/-! ### Writing -/

theorem unitText_unitEscape {n : Nat} (h : n < 0x10000) : UnitText n (unitEscape n) := by
  have hvalue := Text.hexValue?_digitChar
  have hmark : Text.ofString "\\u" = [0x5C, 0x75] := rfl
  refine ⟨_, _, _, _, n / 0x1000, n / 0x100 % 16, n / 0x10 % 16, n % 16, ?_, hvalue _ (by omega),
    hvalue _ (by omega), hvalue _ (by omega), hvalue _ (by omega), by omega⟩
  rw [unitEscape, Text.hexOfNatPadded_four h, hmark]
  rfl

theorem charText_escape {asciiOnly : Bool} {c : CodePoint}
    (h : asciiOnly = true → c.isSurrogate = false) : CharText c (escape asciiOnly c) := by
  have hlt := c.isLt
  have hshort : ∀ e v : CodePoint, c.val = v.val → (e, v) ∈ shortEscapes →
      CharText c [0x5C, e] := by
    intro e v hv hmem
    rw [← Fin.ext hv] at hmem
    exact .short hmem
  unfold escape
  dsimp only
  split
  . next hn =>
    apply CharText.short
    rcases hn with hn | hn
    . rw [show c = 0x22 from Fin.ext hn]
      decide
    . rw [show c = 0x5C from Fin.ext hn]
      decide
  split
  . next hn => exact hshort 0x62 0x8 hn (by decide)
  split
  . next hn => exact hshort 0x74 0x9 hn (by decide)
  split
  . next hn => exact hshort 0x6E 0xA hn (by decide)
  split
  . next hn => exact hshort 0x66 0xC hn (by decide)
  split
  . next hn => exact hshort 0x72 0xD hn (by decide)
  split
  . next hcontrol =>
    refine .unit ?_ (unitText_unitEscape (by omega))
    rw [CodePoint.isSurrogate_eq_false_iff]
    omega
  split
  . next hascii =>
    rw [Bool.and_eq_true, decide_eq_true_eq] at hascii
    split
    . next hunit => exact .unit (h hascii.1) (unitText_unitEscape hunit)
    . next hpair =>
      exact .pair (by omega) (unitText_unitEscape (by omega)) (unitText_unitEscape (by omega))
  . exact .plain (by omega) (by omega) (by omega)

theorem quotedText_quoted {asciiOnly : Bool} {t : Text}
    (h : asciiOnly = true → t.any CodePoint.isSurrogate = false)
    : QuotedText t (quoted asciiOnly t) := by
  have hps : ∀ p ∈ t.map fun c => (c, escape asciiOnly c), CharText p.1 p.2 := by
    rw [List.forall_mem_map]
    intro c hc
    apply charText_escape
    intro ha
    exact Bool.eq_false_iff.2 fun hsurrogate => List.any_eq_false.1 (h ha) c hc hsurrogate
  have hquoted := QuotedText.quoted hps
  rw [List.map_map, List.flatMap_map] at hquoted
  have hid : t.map ((·.1) ∘ fun c => (c, escape asciiOnly c)) = t := List.map_id t
  rw [hid] at hquoted
  exact hquoted

namespace Reader

/-! ### Reading -/

theorem pieces?_unitText {n : Nat} {s : Text} (h : UnitText n s) (hn : n < 0x10000)
    (read : List Piece) (t : Text) : pieces? read (s ++ t) = pieces? (.unit ⟨n, hn⟩ :: read) t := by
  obtain ⟨a, b, c, d, w, x, y, z, rfl, hw, hx, hy, hz, rfl⟩ := h
  have hunit : hexUnit? a b c d = some ⟨((w * 16 + x) * 16 + y) * 16 + z, hn⟩ := by
    unfold hexUnit?
    rw [hw, hx, hy, hz]
    exact dif_pos hn
  simp only [List.cons_append, List.nil_append]
  rw [pieces?.eq_def]
  simp only [hunit]
  rfl

theorem pieces?_short {c e : CodePoint} (h : (e, c) ∈ shortEscapes) (read : List Piece) (t : Text)
    : pieces? read (0x5C :: e :: t) = pieces? (.plain c :: read) t := by
  rw [pieces?.eq_def]
  simp only [shortEscapes, List.mem_cons, List.not_mem_nil, or_false, Prod.mk.injEq] at h
  rcases h with ⟨rfl, rfl⟩ | ⟨rfl, rfl⟩ | ⟨rfl, rfl⟩ | ⟨rfl, rfl⟩ | ⟨rfl, rfl⟩ | ⟨rfl, rfl⟩ |
    ⟨rfl, rfl⟩ | ⟨rfl, rfl⟩ <;> rfl

theorem pieces?_plain {c : CodePoint} (hcontrol : 0x20 ≤ c.val) (hquote : c.val ≠ 0x22)
    (hescape : c.val ≠ 0x5C) (read : List Piece) (t : Text)
    : pieces? read (c :: t) = pieces? (.plain c :: read) t := by
  rw [pieces?.eq_def]
  simp only [if_neg hquote, if_neg (Nat.not_lt.2 hcontrol), if_pos hescape]

theorem pieces?_quote (read : List Piece) (t : Text)
    : pieces? read (quote :: t) = some (read.reverse, t) := by
  rw [pieces?.eq_def]
  rfl

theorem joinPieces_unit (lone : Bool) {n : Fin 0x10000} {c : CodePoint} (hc : c.val = n.val)
    (h : c.isSurrogate = false) (read : Text) (ps : List Piece)
    : joinPieces lone read (.unit n :: ps) = joinPieces lone (c :: read) ps := by
  have hn : ¬ (0xD800 ≤ n.val ∧ n.val < 0xE000) := by
    rw [CodePoint.isSurrogate_eq_false_iff] at h
    omega
  rw [joinPieces.eq_def]
  simp only [dif_neg hn]
  congr 2
  exact Fin.ext hc.symm

theorem joinPieces_pair (lone : Bool) {m n : Fin 0x10000} {c : CodePoint}
    (hn : n.val = 0xD800 + (c.val - 0x10000) / 0x400)
    (hm : m.val = 0xDC00 + (c.val - 0x10000) % 0x400) (hc : 0x10000 ≤ c.val) (read : Text)
    (ps : List Piece)
    : joinPieces lone read (.unit n :: .unit m :: ps) = joinPieces lone (c :: read) ps := by
  have hlt := c.isLt
  have hhigh : 0xD800 ≤ n.val ∧ n.val < 0xE000 := by omega
  have hpair : n.val < 0xDC00 ∧ 0xDC00 ≤ m.val ∧ m.val < 0xE000 := by omega
  have hjoined : ∀ h, (⟨0x10000 + (n.val - 0xD800) * 0x400 + (m.val - 0xDC00), h⟩ : CodePoint) = c := by
    intro h
    apply Fin.ext
    dsimp only
    omega
  rw [joinPieces.eq_def]
  simp only [dif_pos hhigh, dif_pos hpair, hjoined]

theorem pieces?_charText {c : CodePoint} {s : Text} (h : CharText c s)
    : ∃ ps : List Piece,
        (∀ read t, pieces? read (s ++ t) = pieces? (ps.reverse ++ read) t) ∧
          ∀ lone read qs, joinPieces lone read (ps ++ qs) = joinPieces lone (c :: read) qs := by
  have hplain : ∀ lone read qs,
      joinPieces lone read ([.plain c] ++ qs) = joinPieces lone (c :: read) qs := by
    intro lone read qs
    rfl
  cases h with
  | plain hcontrol hquote hescape =>
    exact ⟨[.plain c], fun read t => pieces?_plain hcontrol hquote hescape read t, hplain⟩
  | short hmem => exact ⟨[.plain c], fun read t => pieces?_short hmem read t, hplain⟩
  | unit hc ht =>
    exact ⟨[.unit ⟨c.val, ht.lt⟩], fun read t => pieces?_unitText ht ht.lt read t,
      fun lone read qs => joinPieces_unit lone rfl hc read qs⟩
  | pair hc hs ht =>
    refine ⟨[.unit ⟨_, hs.lt⟩, .unit ⟨_, ht.lt⟩], fun read t => ?_, fun lone read qs => ?_⟩
    . rw [List.append_assoc, pieces?_unitText hs hs.lt, pieces?_unitText ht ht.lt]
      rfl
    . apply joinPieces_pair
      . rfl
      . rfl
      . exact hc

theorem pieces?_flatMap {ps : List (CodePoint × Text)} (h : ∀ p ∈ ps, CharText p.1 p.2)
    : ∃ qs : List Piece,
        (∀ read rest, pieces? read (ps.flatMap (·.2) ++ quote :: rest)
          = some (read.reverse ++ qs, rest)) ∧
          ∀ lone read, joinPieces lone read qs = some (read.reverse ++ ps.map (·.1)) := by
  induction ps with
  | nil =>
    refine ⟨[], fun read rest => ?_, fun lone read => ?_⟩
    . rw [List.flatMap_nil, List.nil_append, pieces?_quote, List.append_nil]
    . rw [joinPieces, List.map_nil, List.append_nil]
  | cons p ps ih =>
    rw [List.forall_mem_cons] at h
    obtain ⟨qs, hqs, hjoin⟩ := pieces?_charText h.1
    obtain ⟨more, hmore, hrest⟩ := ih h.2
    refine ⟨qs ++ more, fun read rest => ?_, fun lone read => ?_⟩
    . rw [List.flatMap_cons, List.append_assoc, hqs, hmore]
      simp
    . rw [hjoin, hrest]
      simp

theorem quoted?_of_quotedText {t s : Text} (h : QuotedText t s)
    : ∃ s', s = quote :: s' ∧
        ∀ (d : Dialect) (rest : Text), quoted? d (s' ++ rest) = some (t, rest) := by
  cases h with
  | quoted h =>
    obtain ⟨qs, hqs, hjoin⟩ := pieces?_flatMap h
    refine ⟨_, rfl, fun d rest => ?_⟩
    rw [List.append_assoc, List.singleton_append, quoted?, hqs]
    simp [hjoin]

end Reader

end SignedToken.Json
