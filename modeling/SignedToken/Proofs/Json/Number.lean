import SignedToken.Proofs.Binary64.Shortest
import SignedToken.Proofs.Json.Grammar
import SignedToken.Proofs.Text.Decimal

/-!
This module contains the laws of numbers in JSON texts: integers that have a numeral and floating point
numbers in all of their layouts are written as the grammar has it, and whatever is of the grammar is
read.
-/

namespace SignedToken.Json

/-! ### Digits -/

theorem isDigit_of_mem_replicate_zero {k : Nat}
    : ∀ c ∈ List.replicate k FloatLayout.digitZero, c.isDigit = true := by
  intro c hc
  rw [List.eq_of_mem_replicate hc]
  rfl

theorem isWhole_ofNat (n : Nat) : IsWhole (Text.ofNat n) where
  digits := Text.isDigit_of_mem_ofNat
  ne_nil := Text.ofNat_ne_nil n
  leading := by
    intro c t h hc
    rw [Text.eq_zero_of_ofNat_eq_cons h hc, Text.ofNat_of_lt (by decide)] at h
    injection h with _ h
    exact h.symm

theorem isWhole_singleton {c : CodePoint} (h : c.isDigit = true) : IsWhole [c] where
  digits := by simpa using h
  ne_nil := by simp
  leading := by
    intro c' t heq _
    injection heq with _ heq
    exact heq.symm

theorem isWhole_take_ofNat (n : Nat) {k : Nat} (hk : 0 < k) : IsWhole ((Text.ofNat n).take k) where
  digits := fun c hc => Text.isDigit_of_mem_ofNat c (List.mem_of_mem_take hc)
  ne_nil := by
    rw [Ne, List.take_eq_nil_iff]
    rintro (hzero | hnil)
    . exact absurd hzero (Nat.ne_of_gt hk)
    . exact Text.ofNat_ne_nil n hnil
  leading := by
    intro c t h hc
    cases hn : Text.ofNat n with
    | nil => exact absurd hn (Text.ofNat_ne_nil n)
    | cons c' t' =>
      obtain ⟨k, rfl⟩ : ∃ k', k = k' + 1 := ⟨k - 1, by omega⟩
      rw [hn, List.take_succ_cons] at h
      injection h with hhead htail
      rw [← htail, (isWhole_ofNat n).leading c' t' hn (hhead ▸ hc), List.take_nil]

/-! ### Integers written -/

theorem valueText_ofInt {n : Int} (hn : hasNumeral n = true) : ValueText (.int n) (Text.ofInt n) := by
  have hint := @ValueText.int (decide (n < 0)) _ (isWhole_ofNat n.natAbs)
    (Text.hasNumeral_iff.1 hn)
  rw [Text.digitsValue_ofNat] at hint
  have hvalue : (if decide (n < 0) = true then -(n.natAbs : Int) else n.natAbs) = n := by
    simp only [decide_eq_true_eq]
    split <;> omega
  have htext : Text.ofInt n = signText (decide (n < 0)) ++ Text.ofNat n.natAbs := by
    unfold Text.ofInt signText
    split
    . next h => simp [h, FloatLayout.minus]
    . next h => simp [h]
  rw [hvalue] at hint
  rw [htext]
  exact hint

/-! ### Floating point numbers written -/

def Spells (m : Magnitude) (t : Text) : Prop :=
  ∃ digits exponent, DecimalText digits exponent t ∧ Magnitude.ofDecimal? digits exponent = some m

theorem spells_positional {m : Magnitude} {whole behind : Text} (hwhole : IsWhole whole)
    (hbehind : ∀ c ∈ behind, c.isDigit = true) (hne : behind ≠ [])
    (hlength : whole.length ≤ maxNumeralDigits)
    (hvalue : Magnitude.ofDecimal? (Text.digitsValue (whole ++ behind)) (-behind.length) = some m)
    : Spells m (whole ++ FloatLayout.decimalPoint :: behind) := by
  have hdecimal := DecimalText.decimal hwhole hlength (.some hbehind hne) .none rfl
  rw [List.append_nil, Option.getD_some, Option.getD_none, Int.zero_sub] at hdecimal
  exact ⟨_, _, hdecimal, hvalue⟩

theorem exponentText_renderExponent (e : Int)
    : ExponentText (some e) (FloatLayout.json.renderExponent e) := by
  have hdigits : ∀ k, ∀ c ∈ List.replicate k FloatLayout.digitZero ++ Text.ofNat e.natAbs,
      c.isDigit = true := by
    intro k
    simp only [List.mem_append]
    rintro c (hc | hc)
    . exact isDigit_of_mem_replicate_zero c hc
    . exact Text.isDigit_of_mem_ofNat c hc
  have hvalue : ∀ k, Text.digitsValue (List.replicate k FloatLayout.digitZero ++ Text.ofNat e.natAbs)
      = e.natAbs := by
    intro k
    rw [Text.digitsValue_append, FloatLayout.digitZero, Text.digitsValue_replicate_zero,
      Text.digitsValue_ofNat]
    omega
  unfold FloatLayout.renderExponent
  dsimp only
  generalize FloatLayout.json.exponentWidth - (Text.ofNat e.natAbs).length = k
  have hexponent := @ExponentText.some FloatLayout.json.exponentMark
    [CodePoint.ofChar (if e < 0 then '-' else '+')] _ (.inl rfl) ?_ (hdigits k)
    (by simp [Text.ofNat_ne_nil])
  . have hne : CodePoint.ofChar '+' ≠ CodePoint.ofChar '-' := by decide
    have hsign : (if [CodePoint.ofChar (if e < 0 then '-' else '+')] = [CodePoint.ofChar '-'] then
        -(e.natAbs : Int) else e.natAbs) = e := by
      split
      . next h =>
        rw [if_pos rfl]
        omega
      . next h =>
        rw [if_neg (by simpa using hne)]
        omega
    rw [hvalue k, hsign] at hexponent
    exact hexponent
  . split <;> simp

/-! ### The four layouts -/

theorem spells_front {m : Magnitude} {n k : Nat}
    (hvalue : Magnitude.ofDecimal? n (-(k + (Text.ofNat n).length : Nat)) = some m)
    : Spells m (FloatLayout.digitZero :: FloatLayout.decimalPoint
        :: (List.replicate k FloatLayout.digitZero ++ Text.ofNat n)) := by
  have hcat : [FloatLayout.digitZero] ++ (List.replicate k FloatLayout.digitZero ++ Text.ofNat n)
      = List.replicate (k + 1) FloatLayout.digitZero ++ Text.ofNat n := by
    rw [← List.append_assoc, List.singleton_append, List.replicate_succ]
  apply spells_positional (isWhole_singleton (c := FloatLayout.digitZero) rfl)
  . simp only [List.mem_append]
    rintro c (hc | hc)
    . exact isDigit_of_mem_replicate_zero c hc
    . exact Text.isDigit_of_mem_ofNat c hc
  . simp [Text.ofNat_ne_nil]
  . decide
  . rw [hcat, Text.digitsValue_append, FloatLayout.digitZero, Text.digitsValue_replicate_zero,
      Text.digitsValue_ofNat, Nat.zero_mul, Nat.zero_add, List.length_append,
      List.length_replicate]
    exact hvalue

theorem spells_behind {m : Magnitude} {n k : Nat} (hk : n = 0 → k = 0)
    (hlength : (Text.ofNat n).length + k ≤ maxNumeralDigits)
    (hvalue : Magnitude.ofDecimal? n k = some m)
    : Spells m (Text.ofNat n ++ List.replicate k FloatLayout.digitZero
        ++ [FloatLayout.decimalPoint, FloatLayout.digitZero]) := by
  have hwhole : IsWhole (Text.ofNat n ++ List.replicate k FloatLayout.digitZero) := by
    constructor
    . simp only [List.mem_append]
      rintro c (hc | hc)
      . exact Text.isDigit_of_mem_ofNat c hc
      . exact isDigit_of_mem_replicate_zero c hc
    . simp [Text.ofNat_ne_nil]
    . intro c t h hc
      cases hn : Text.ofNat n with
      | nil => exact absurd hn (Text.ofNat_ne_nil n)
      | cons c' t' =>
        rw [hn, List.cons_append] at h
        injection h with hhead htail
        have hzero := Text.eq_zero_of_ofNat_eq_cons hn (hhead ▸ hc)
        rw [← htail, (isWhole_ofNat n).leading c' t' hn (hhead ▸ hc), hk hzero]
        rfl
  have hzero : Text.digitsValue [FloatLayout.digitZero] = 0 := rfl
  apply spells_positional hwhole
  . simp only [List.mem_singleton, forall_eq]
    rfl
  . simp
  . simpa using hlength
  . rw [Text.digitsValue_append, Text.digitsValue_append, Text.digitsValue_ofNat,
      FloatLayout.digitZero, Text.digitsValue_replicate_zero, ← FloatLayout.digitZero, hzero,
      Nat.add_zero, Nat.add_zero, List.length_replicate, List.length_singleton, Nat.mul_assoc,
      ← Nat.pow_add, Magnitude.ofDecimal?_mul_ten_pow]
    rw [show (-((1 : Nat) : Int) + ((k + 1 : Nat) : Int)) = k by omega]
    exact hvalue

theorem spells_among {m : Magnitude} {n k : Nat} (hpos : 0 < k) (hk : k < (Text.ofNat n).length)
    (hlength : k ≤ maxNumeralDigits)
    (hvalue : Magnitude.ofDecimal? n (-((Text.ofNat n).length - k : Nat)) = some m)
    : Spells m ((Text.ofNat n).take k ++ FloatLayout.decimalPoint :: (Text.ofNat n).drop k) := by
  apply spells_positional (isWhole_take_ofNat n hpos)
  . exact fun c hc => Text.isDigit_of_mem_ofNat c (List.mem_of_mem_drop hc)
  . rw [Ne, List.drop_eq_nil_iff]
    exact Nat.not_le.2 hk
  . exact Nat.le_trans (List.length_take_le k _) hlength
  . rw [List.take_append_drop, Text.digitsValue_ofNat, List.length_drop]
    exact hvalue

theorem spells_scientific {m : Magnitude} {n : Nat} {e : Int}
    (hvalue : Magnitude.ofDecimal? n (e - ((Text.ofNat n).length - 1 : Nat)) = some m)
    : Spells m ((Text.ofNat n).take 1
        ++ (if (Text.ofNat n).length ≤ 1 then []
          else FloatLayout.decimalPoint :: (Text.ofNat n).drop 1)
        ++ FloatLayout.json.renderExponent e) := by
  have hwhole : IsWhole ((Text.ofNat n).take 1) := isWhole_take_ofNat n (by decide)
  have hlength : ((Text.ofNat n).take 1).length ≤ maxNumeralDigits :=
    Nat.le_trans (List.length_take_le 1 _) (by decide)
  have hexponent := exponentText_renderExponent e
  rw [List.append_assoc]
  split
  . next hshort =>
    have htake : (Text.ofNat n).take 1 = Text.ofNat n := List.take_of_length_le hshort
    have hdecimal := DecimalText.decimal hwhole hlength .none hexponent rfl
    refine ⟨_, _, hdecimal, ?_⟩
    simp only [Option.getD_none, Option.getD_some, List.append_nil, htake, Text.digitsValue_ofNat,
      List.length_nil]
    rwa [Nat.sub_eq_zero_of_le hshort] at hvalue
  . next hlong =>
    have hbehind : ∀ c ∈ (Text.ofNat n).drop 1, c.isDigit = true :=
      fun c hc => Text.isDigit_of_mem_ofNat c (List.mem_of_mem_drop hc)
    have hne : (Text.ofNat n).drop 1 ≠ [] := by
      rw [Ne, List.drop_eq_nil_iff]
      exact hlong
    have hdecimal := DecimalText.decimal hwhole hlength (.some hbehind hne) hexponent rfl
    refine ⟨_, _, hdecimal, ?_⟩
    simp only [Option.getD_some, List.take_append_drop, Text.digitsValue_ofNat, List.length_drop]
    exact hvalue

theorem spells_renderMagnitude (m : Magnitude)
    : Spells m (FloatLayout.json.renderMagnitude m) := by
  have hshortest := m.ofDecimal?_shortest
  unfold FloatLayout.renderMagnitude
  generalize m.shortest = d at hshortest
  obtain ⟨n, e⟩ := d
  dsimp only at hshortest ⊢
  have hpos := Text.length_ofNat_pos n
  have hlimits : FloatLayout.json.firstPoint = -3 ∧ FloatLayout.json.lastPoint = 16 := ⟨rfl, rfl⟩
  have hmax : maxNumeralDigits = 4300 := rfl
  by_cases hn : n = 0
  . -- Zero has its point behind the only digit.
    subst hn
    have hzero : Magnitude.ofDecimal? 0 (0 : Nat) = some m := by
      rw [Magnitude.ofDecimal?_zero] at hshortest ⊢
      exact hshortest
    rw [if_pos rfl, if_pos (by decide), if_neg (by decide), if_pos (by decide)]
    exact spells_behind (fun _ => rfl) (by decide) hzero
  . rw [if_neg hn]
    split
    . split
      . have := spells_front (n := n) (k := (-((Text.ofNat n).length + e)).toNat) (m := m)
        apply this
        rw [show (-((-((Text.ofNat n).length + e)).toNat + (Text.ofNat n).length : Nat) : Int) = e
          by omega]
        exact hshortest
      . split
        . apply spells_behind (fun h => absurd h hn)
          . omega
          . rw [show ((((Text.ofNat n).length + e).toNat - (Text.ofNat n).length : Nat) : Int) = e
              by omega]
            exact hshortest
        . apply spells_among
          . omega
          . omega
          . omega
          . rw [show (-((Text.ofNat n).length - ((Text.ofNat n).length + e).toNat : Nat) : Int) = e
              by omega]
            exact hshortest
    . apply spells_scientific
      rw [show ((Text.ofNat n).length + e - 1 - ((Text.ofNat n).length - 1 : Nat) : Int) = e
        by omega]
      exact hshortest

theorem valueText_render (x : Binary64) : ValueText (.float x) (FloatLayout.json.render x) := by
  cases x with
  | nan => exact .nan
  | infinite negative => exact .infinite
  | finite negative m =>
    obtain ⟨digits, exponent, htext, hvalue⟩ := spells_renderMagnitude m
    have hfloat := @ValueText.float negative _ _ _ htext
    rw [Binary64.ofDecimal, hvalue] at hfloat
    exact hfloat

namespace Reader

/-! ### What stands behind a number -/

def StopsDigits (t : Text) : Prop := ∀ c ∈ t.head?, c.isDigit = false

def StopsNumber (t : Text) : Prop :=
  ∀ c ∈ t.head?, c.isDigit = false ∧ c.val ≠ 0x2E ∧ c.val ≠ 0x65 ∧ c.val ≠ 0x45

theorem stopsNumber_nil : StopsNumber [] := by
  intro c hc
  cases hc

theorem stopsNumber_cons {c : CodePoint} (t : Text)
    (h : c.isDigit = false ∧ c.val ≠ 0x2E ∧ c.val ≠ 0x65 ∧ c.val ≠ 0x45) : StopsNumber (c :: t) := by
  intro c' hc'
  cases hc'
  exact h

theorem StopsNumber.stopsDigits {t : Text} (h : StopsNumber t) : StopsDigits t :=
  fun c hc => (h c hc).1

theorem stopsDigits_cons {c : CodePoint} (t : Text) (h : c.isDigit = false)
    : StopsDigits (c :: t) := by
  intro c' hc'
  cases hc'
  exact h

/-! ### The parts of a number -/

theorem digits_append {ds rest : Text} (hds : ∀ c ∈ ds, c.isDigit = true) (hrest : StopsDigits rest)
    : digits (ds ++ rest) = (ds, rest) := by
  unfold digits
  rw [List.takeWhile_append_of_pos hds, List.dropWhile_append_of_pos hds]
  cases rest with
  | nil => simp
  | cons c rest =>
    have := hrest c rfl
    simp [this]

theorem integerPart?_append {whole rest : Text} (h : IsWhole whole) (hrest : StopsDigits rest)
    : integerPart? (whole ++ rest) = some (whole, rest) := by
  cases whole with
  | nil => exact absurd rfl h.ne_nil
  | cons c t =>
    rw [List.cons_append, integerPart?]
    split
    . next hzero =>
      rw [h.leading c t rfl hzero]
      rfl
    . rw [if_pos (h.digits c (by simp)), ← List.cons_append, digits_append h.digits hrest]

def StopsFraction (t : Text) : Prop := ∀ c ∈ t.head?, c.isDigit = false ∧ c.val ≠ 0x2E

theorem fractionPart?_append {fraction : Option Text} {s rest : Text} (h : FractionText fraction s)
    (hrest : StopsFraction rest) : fractionPart? (s ++ rest) = some (fraction, rest) := by
  cases h with
  | none =>
    cases rest with
    | nil => rfl
    | cons c t => rw [List.nil_append, fractionPart?, if_neg (hrest c rfl).2]
  | some hdigits hne =>
    have hpoint : FloatLayout.decimalPoint.val = 0x2E := rfl
    rw [List.cons_append, fractionPart?, if_pos hpoint,
      digits_append hdigits fun c hc => (hrest c hc).1]
    simp [hne]

theorem stopsDigits_append {fraction : Option Text} {s rest : Text} (h : FractionText fraction s)
    (hrest : StopsFraction rest) : StopsDigits (s ++ rest) := by
  cases h with
  | none => exact fun c hc => (hrest c hc).1
  | some => exact stopsDigits_cons _ rfl

theorem cutSign_append {sign digits rest : Text}
    (hsign : sign ∈ [[], [CodePoint.ofChar '+'], [CodePoint.ofChar '-']])
    (hdigits : ∀ c ∈ digits, c.isDigit = true) (hne : digits ≠ [])
    : Text.cutSign (sign ++ digits ++ rest)
        =
      (decide (sign = [CodePoint.ofChar '-']), digits ++ rest) := by
  have hmarks : CodePoint.ofChar '+' ≠ CodePoint.ofChar '-' := by decide
  simp only [List.mem_cons, List.not_mem_nil, or_false] at hsign
  rcases hsign with rfl | rfl | rfl
  . cases digits with
    | nil => exact absurd rfl hne
    | cons c t =>
      have hc := hdigits c List.mem_cons_self
      have hminus : c ≠ CodePoint.ofChar '-' := by
        rintro rfl
        revert hc
        decide
      have hplus : c ≠ CodePoint.ofChar '+' := by
        rintro rfl
        revert hc
        decide
      simp [Text.cutSign, hminus, hplus]
  . simp [Text.cutSign, hmarks]
  . simp [Text.cutSign]

theorem exponentPart?_append {exponent : Option Int} {t rest : Text} (h : ExponentText exponent t)
    (hrest : StopsNumber rest) : exponentPart? (t ++ rest) = some (exponent, rest) := by
  cases h with
  | none =>
    cases rest with
    | nil => rfl
    | cons c t =>
      have := (hrest c rfl).2.2
      rw [List.nil_append, exponentPart?, if_neg (by omega)]
  | some hmark hsign hdigits hne =>
    rw [List.cons_append, exponentPart?, if_pos hmark, cutSign_append hsign hdigits hne]
    dsimp only
    rw [digits_append hdigits hrest.stopsDigits]
    simp [hne]

theorem stopsFraction_append {exponent : Option Int} {t rest : Text} (h : ExponentText exponent t)
    (hrest : StopsNumber rest) : StopsFraction (t ++ rest) := by
  cases h with
  | none => exact fun c hc => ⟨(hrest c hc).1, (hrest c hc).2.1⟩
  | some hmark =>
    intro c hc
    cases hc
    rw [← Bool.not_eq_true, CodePoint.isDigit_iff]
    omega

/-! ### Numbers read -/

theorem after?_of_ne {c d : CodePoint} (h : c ≠ d) (s t : Text)
    : after? (c :: s) (d :: t) = none := by
  rw [after?, if_neg h]

theorem number?_of_parts (d : Dialect) (negative : Bool) {whole s t rest : Text}
    {fraction : Option Text} {exponent : Option Int} (hwhole : IsWhole whole)
    (hs : FractionText fraction s) (ht : ExponentText exponent t) (hrest : StopsNumber rest)
    : number? d (signText negative ++ (whole ++ (s ++ (t ++ rest))))
        =
      (numberValue? d negative whole fraction exponent).map (·, rest) := by
  have hfraction := fractionPart?_append hs (stopsFraction_append ht hrest)
  have hinteger :=
    integerPart?_append hwhole (stopsDigits_append hs (stopsFraction_append ht hrest))
  obtain ⟨c, t', hcons⟩ : ∃ c t', whole ++ (s ++ (t ++ rest)) = c :: t' ∧ c.isDigit = true := by
    cases whole with
    | nil => exact absurd rfl hwhole.ne_nil
    | cons c t' => exact ⟨c, _, rfl, hwhole.digits c List.mem_cons_self⟩
  rw [hcons.1] at hinteger ⊢
  have hdigit := CodePoint.isDigit_iff.1 hcons.2
  have hinfinity : after? (Text.ofString "Infinity") (c :: t') = none := by
    apply after?_of_ne
    rintro rfl
    revert hdigit
    decide
  have hminus : FloatLayout.minus.val = 0x2D := rfl
  unfold number? signText
  cases negative with
  | true =>
    simp only [if_true, List.cons_append, List.nil_append, if_pos hminus, hinfinity, hinteger,
      hfraction, exponentPart?_append ht hrest]
  | false =>
    simp only [Bool.false_eq_true, if_false, List.nil_append, if_neg (show ¬ c.val = 0x2D by omega),
      hinfinity, hinteger, hfraction, exponentPart?_append ht hrest]

theorem number?_whole (d : Dialect) (negative : Bool) {whole rest : Text} (hwhole : IsWhole whole)
    (hlength : whole.length ≤ maxNumeralDigits) (hrest : StopsNumber rest)
    : number? d (signText negative ++ whole ++ rest)
        =
      some (.int (if negative then -(Text.digitsValue whole : Int) else Text.digitsValue whole),
        rest) := by
  have hparts := number?_of_parts d negative hwhole .none .none hrest
  rw [List.append_assoc]
  rw [List.nil_append, List.nil_append] at hparts
  rw [hparts]
  simp [numberValue?, Nat.not_lt.2 hlength]

theorem number?_decimal (d : Dialect) (negative : Bool) {digits : Nat} {exponent : Int}
    {t rest : Text} (h : DecimalText digits exponent t) (hrest : StopsNumber rest)
    : number? d (signText negative ++ t ++ rest)
        =
      some (.float (.ofDecimal negative digits exponent), rest) := by
  cases h with
  | decimal hwhole hlength hs ht hfloat =>
    rw [List.append_assoc, List.append_assoc, List.append_assoc,
      number?_of_parts d negative hwhole hs ht hrest]
    unfold numberValue?
    simp only [hfloat, Bool.false_or, Bool.and_eq_true, decide_eq_true_eq, Nat.not_lt.2 hlength,
      and_false, if_false, Bool.false_eq_true, Option.map_some]

theorem number?_infinite (d : Dialect) (negative : Bool) (rest : Text)
    : number? d (signText negative ++ Text.ofString "Infinity" ++ rest)
        =
      some (.float (.infinite negative), rest) := by
  cases negative <;> rfl

end Reader

end SignedToken.Json
