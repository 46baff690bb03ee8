import SignedToken.Binary64.Shortest
import SignedToken.Json
import SignedToken.Json.Reader

/-!
This module contains the grammar of JSON texts, as a relation between values and the texts that stand
for them. There are many for each value: blanks may stand around every mark, characters may be
escaped, and numbers that are no integers may be written with zeros at their end and with any exponent.
-/

namespace SignedToken.Json

open Reader (comma colon quote openBracket closeBracket openBrace closeBrace)

def IsBlank (t : Text) : Prop :=
  ∀ c ∈ t, Reader.isSpace c = true

theorem isBlank_nil : IsBlank [] := by
  intro c hc
  cases hc

/-! ### Quoted texts -/

def UnitText (n : Nat) (t : Text) : Prop :=
  ∃ a b c d w x y z, t = [0x5C, 0x75, a, b, c, d] ∧ a.hexValue? = some w ∧ b.hexValue? = some x ∧
    c.hexValue? = some y ∧ d.hexValue? = some z ∧ ((w * 16 + x) * 16 + y) * 16 + z = n

def shortEscapes : List (CodePoint × CodePoint) :=
  [(0x22, 0x22), (0x5C, 0x5C), (0x2F, 0x2F), (0x62, 0x8), (0x66, 0xC), (0x6E, 0xA), (0x72, 0xD),
    (0x74, 0x9)]

inductive CharText : CodePoint → Text → Prop where
  | plain {c : CodePoint} : 0x20 ≤ c.val → c.val ≠ 0x22 → c.val ≠ 0x5C → CharText c [c]
  | short {c e : CodePoint} : (e, c) ∈ shortEscapes → CharText c [0x5C, e]
  | unit {c : CodePoint} {t : Text} : c.isSurrogate = false → UnitText c.val t → CharText c t
  | pair {c : CodePoint} {s t : Text} : 0x10000 ≤ c.val →
    UnitText (0xD800 + (c.val - 0x10000) / 0x400) s →
    UnitText (0xDC00 + (c.val - 0x10000) % 0x400) t → CharText c (s ++ t)

inductive QuotedText : Text → Text → Prop where
  | quoted {ps : List (CodePoint × Text)} : (∀ p ∈ ps, CharText p.1 p.2) →
    QuotedText (ps.map (·.1)) (quote :: (ps.flatMap (·.2) ++ [quote]))

/-! ### Numbers -/

def signText (negative : Bool) : Text :=
  if negative then [FloatLayout.minus] else []

structure IsWhole (whole : Text) : Prop where
  digits : ∀ c ∈ whole, c.isDigit = true
  ne_nil : whole ≠ []
  leading : ∀ c t, whole = c :: t → c.val = 0x30 → t = []

inductive FractionText : Option Text → Text → Prop where
  | none : FractionText none []
  | some {behind : Text} : (∀ c ∈ behind, c.isDigit = true) → behind ≠ [] →
    FractionText (some behind) (FloatLayout.decimalPoint :: behind)

inductive ExponentText : Option Int → Text → Prop where
  | none : ExponentText none []
  | some {mark : CodePoint} {sign digits : Text} : mark.val = 0x65 ∨ mark.val = 0x45 →
    sign ∈ [[], [CodePoint.ofChar '+'], [CodePoint.ofChar '-']] →
    (∀ c ∈ digits, c.isDigit = true) → digits ≠ [] →
    ExponentText
      (some (if sign = [CodePoint.ofChar '-'] then -(Text.digitsValue digits : Int)
        else Text.digitsValue digits))
      (mark :: (sign ++ digits))

inductive DecimalText : Nat → Int → Text → Prop where
  | decimal {whole s t : Text} {fraction : Option Text} {exponent : Option Int} : IsWhole whole →
    whole.length ≤ maxNumeralDigits → FractionText fraction s → ExponentText exponent t →
    (fraction.isNone && exponent.isNone) = false →
    DecimalText (Text.digitsValue (whole ++ fraction.getD []))
      (exponent.getD 0 - (fraction.getD []).length) (whole ++ (s ++ t))

/-! ### Values -/

structure Padded where
  before : Text
  text : Text
  after : Text
  isBlank_before : IsBlank before
  isBlank_after : IsBlank after

def Padded.whole (p : Padded) : Text :=
  p.before ++ (p.text ++ p.after)

theorem Padded.length_text_le (p : Padded) : p.text.length ≤ p.whole.length := by
  simp only [Padded.whole, List.length_append]
  omega

structure WrittenMember where
  name : Text
  nameText : Padded
  value : Json
  valueText : Padded

def WrittenMember.whole (m : WrittenMember) : Text :=
  m.nameText.whole ++ colon :: m.valueText.whole

/--
Whether a text stands for a value. There are no blanks around it.
-/
inductive ValueText : Json → Text → Prop where
  | null : ValueText .null (Text.ofString "null")
  | true : ValueText (.bool true) (Text.ofString "true")
  | false : ValueText (.bool false) (Text.ofString "false")
  | int {negative : Bool} {whole : Text} : IsWhole whole → whole.length ≤ maxNumeralDigits →
    ValueText
      (.int (if negative then -(Text.digitsValue whole : Int) else Text.digitsValue whole))
      (signText negative ++ whole)
  | float {negative : Bool} {digits : Nat} {exponent : Int} {t : Text} :
    DecimalText digits exponent t →
    ValueText (.float (.ofDecimal negative digits exponent)) (signText negative ++ t)
  | nan : ValueText (.float .nan) (Text.ofString "NaN")
  | infinite {negative : Bool} :
    ValueText (.float (.infinite negative)) (signText negative ++ Text.ofString "Infinity")
  | text {s t : Text} : QuotedText s t → ValueText (.text s) t
  | emptyArray {blanks : Text} : IsBlank blanks →
    ValueText (.array []) (openBracket :: (blanks ++ [closeBracket]))
  | array {ps : List (Json × Padded)} : ps ≠ [] → (∀ p ∈ ps, ValueText p.1 p.2.text) →
    ValueText (.array (ps.map (·.1)))
      (openBracket :: (Text.join [comma] (ps.map (·.2.whole)) ++ [closeBracket]))
  | emptyObject {blanks : Text} : IsBlank blanks →
    ValueText (.object []) (openBrace :: (blanks ++ [closeBrace]))
  | object {ms : List WrittenMember} : ms ≠ [] → (∀ m ∈ ms, QuotedText m.name m.nameText.text) →
    (∀ m ∈ ms, ValueText m.value m.valueText.text) →
    ValueText (.object (ms.map fun m => (m.name, m.value)))
      (openBrace :: (Text.join [comma] (ms.map (·.whole)) ++ [closeBrace]))

def HasText (j : Json) (t : Text) : Prop :=
  ∃ p : Padded, t = p.whole ∧ ValueText j p.text

end SignedToken.Json
