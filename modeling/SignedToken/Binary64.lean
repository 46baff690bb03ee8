import SignedToken.Text

/-!
This module contains the floating point numbers of claims. They are kept as exact data, a sign and
a multiple of a power of two, so that reading and writing decimals is integer arithmetic and every
rule about them can be stated on the numbers themselves.
-/

namespace SignedToken

def divRound (num den : Nat) : Nat :=
  let q := num / den
  let r := num % den
  if 2 * r < den ∨ (2 * r = den ∧ q % 2 = 0) then q else q + 1

/--
The size of a finite number: `significand * 2 ^ scale` units of `2 ^ (-1074)`. The significand has
53 bits, or fewer when the scale is zero, and the scale is at most that of the largest number.
-/
structure Magnitude where
  significand : Nat
  scale : Nat
  significand_lt : significand < 2 ^ 53
  normal : scale = 0 ∨ 2 ^ 52 ≤ significand
  scale_le : scale ≤ 2045
  deriving DecidableEq, Repr

namespace Magnitude

def zero : Magnitude := ⟨0, 0, by decide, .inl rfl, by decide⟩

def units (m : Magnitude) : Nat :=
  m.significand * 2 ^ m.scale

def ofParts? (significand scale : Nat) : Option Magnitude :=
  if h : significand < 2 ^ 53 ∧ (scale = 0 ∨ 2 ^ 52 ≤ significand) ∧ scale ≤ 2045 then
    some ⟨significand, scale, h.1, h.2.1, h.2.2⟩
  else none

/--
The magnitude nearest to `num / den` units; of two equally near ones, that with the even
significand. There is none beyond the largest finite number.
-/
def nearest? (num den : Nat) : Option Magnitude :=
  let scale := (num / den).log2 - 52
  let s := divRound num (den * 2 ^ scale)
  if s < 2 ^ 53 then ofParts? s scale else ofParts? (2 ^ 52) (scale + 1)

/--
The magnitude nearest to `digits * 10 ^ exponent`.

Beyond the exponents given here the result is settled by size alone: the largest number is below
`10 ^ 400`, half of the least one is above `10 ^ (-400)`.
-/
def ofDecimal? (digits : Nat) (exponent : Int) : Option Magnitude :=
  if digits = 0 then some zero
  else if 400 < exponent then none
  else if exponent + 400 + digits.log2 < 0 then some zero
  else if 0 ≤ exponent then nearest? (digits * 10 ^ exponent.toNat * 2 ^ 1074) 1
  else nearest? (digits * 2 ^ 1074) (10 ^ (-exponent).toNat)

end Magnitude

inductive Binary64 where
  | nan
  | infinite (negative : Bool)
  | finite (negative : Bool) (magnitude : Magnitude)
  deriving DecidableEq, Repr

namespace Binary64

def isFinite : Binary64 → Bool
  | finite .. => true
  | _ => false

def ofDecimal (negative : Bool) (digits : Nat) (exponent : Int) : Binary64 :=
  match Magnitude.ofDecimal? digits exponent with
  | some m => finite negative m
  | none => infinite negative

def equals : Binary64 → Binary64 → Bool
  | finite n x, finite m y => x == y && (n == m || x.significand == 0)
  | infinite n, infinite m => n == m
  | _, _ => false

def equalsInt (x : Binary64) (i : Int) : Bool :=
  match x with
  | finite negative m =>
    m.units == i.natAbs * 2 ^ 1074 && (i == 0 || negative == decide (i < 0))
  | _ => false

/--
The place of a number among all numbers: infinities lie beyond the finite ones, which are counted
in units of `2 ^ (-1074)`. What is no number has no place.
-/
def place? : Binary64 → Option (Int × Int)
  | nan => none
  | infinite negative => some (if negative then -1 else 1, 0)
  | finite negative m => some (0, if negative then -m.units else m.units)

end Binary64

end SignedToken
