import SignedToken.Binary64

/-!
This module contains the decimal form of a floating point number: of all decimals that read back as
the number, those with the fewest digits, and of these the nearest one. How the digits are laid out
is a record of its own.
-/

namespace SignedToken

namespace Magnitude

structure Decimal where
  digits : Nat
  exponent : Int
  deriving DecidableEq, Repr

def Decimal.strip (d : Decimal) : Decimal :=
  go d.digits d
where
  go : Nat → Decimal → Decimal
    | 0, d => d
    | fuel + 1, d =>
      if d.digits ≠ 0 ∧ d.digits % 10 = 0 then go fuel ⟨d.digits / 10, d.exponent + 1⟩ else d

def Decimal.readsBackAs (d : Decimal) (m : Magnitude) : Bool :=
  ofDecimal? d.digits d.exponent == some m

/--
A magnitude that is not zero is at least `10 ^ (point - 1)` and below `10 ^ point`.
-/
def point (m : Magnitude) : Int :=
  ((Nat.toDigits 10 (m.units * 10 ^ 350 / 2 ^ 1074)).length : Int) - 350

/--
The neighbours of a magnitude among the multiples of `10 ^ exponent`, the nearer one first; of two
that are equally near, the even one comes first.
-/
def neighbours (m : Magnitude) (exponent : Int) : List Decimal :=
  let (num, den) :=
    if 0 ≤ exponent then (m.units, 2 ^ 1074 * 10 ^ exponent.toNat)
    else (m.units * 10 ^ (-exponent).toNat, 2 ^ 1074)
  let below := num / den
  if divRound num den = below then [⟨below, exponent⟩, ⟨below + 1, exponent⟩]
  else [⟨below + 1, exponent⟩, ⟨below, exponent⟩]

def withDigits? (m : Magnitude) (count : Nat) : Option Decimal :=
  (m.neighbours (m.point - count)).find? (·.readsBackAs m)

/--
Every magnitude is a decimal, as `2 ^ (-1074)` is `5 ^ 1074 * 10 ^ (-1074)`.
-/
def exact (m : Magnitude) : Decimal :=
  ⟨m.units * 5 ^ 1074, -1074⟩

def shortest (m : Magnitude) : Decimal :=
  if m.significand = 0 then ⟨0, 0⟩
  else ((((List.range 17).map (· + 1)).findSome? m.withDigits?).getD m.exact).strip

end Magnitude

structure FloatLayout where
  lastPoint : Int
  firstPoint : Int
  exponentMark : CodePoint
  exponentWidth : Nat
  nan : Text
  infinity : Text

namespace FloatLayout

/--
Numbers with their point behind digit 16 or more than three zeros behind the point get an exponent
of two digits; a positional number always has a point and a digit behind it.
-/
def standard : FloatLayout where
  lastPoint := 16
  firstPoint := -3
  exponentMark := CodePoint.ofChar 'e'
  exponentWidth := 2
  nan := Text.ofString "nan"
  infinity := Text.ofString "inf"

def json : FloatLayout :=
  { standard with nan := Text.ofString "NaN", infinity := Text.ofString "Infinity" }

def digitZero : CodePoint := CodePoint.ofChar '0'

def decimalPoint : CodePoint := CodePoint.ofChar '.'

def minus : CodePoint := CodePoint.ofChar '-'

def renderExponent (l : FloatLayout) (e : Int) : Text :=
  let digits := Text.ofNat e.natAbs
  l.exponentMark :: CodePoint.ofChar (if e < 0 then '-' else '+')
    :: (List.replicate (l.exponentWidth - digits.length) digitZero ++ digits)

def renderMagnitude (l : FloatLayout) (m : Magnitude) : Text :=
  let d := m.shortest
  let digits := Text.ofNat d.digits
  let point := if d.digits = 0 then 1 else digits.length + d.exponent
  if l.firstPoint ≤ point ∧ point ≤ l.lastPoint then
    if point ≤ 0 then
      digitZero :: decimalPoint :: (List.replicate (-point).toNat digitZero ++ digits)
    else if digits.length ≤ point.toNat then
      digits ++ List.replicate (point.toNat - digits.length) digitZero ++ [decimalPoint, digitZero]
    else
      digits.take point.toNat ++ decimalPoint :: digits.drop point.toNat
  else
    digits.take 1 ++ (if digits.length ≤ 1 then [] else decimalPoint :: digits.drop 1)
      ++ l.renderExponent (point - 1)

def render (l : FloatLayout) : Binary64 → Text
  | .nan => l.nan
  | .infinite negative => (if negative then [minus] else []) ++ l.infinity
  | .finite negative m => (if negative then [minus] else []) ++ l.renderMagnitude m

end FloatLayout

end SignedToken
