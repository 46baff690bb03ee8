import SignedToken.Text

/-!
This module contains the numerals of integers: an optional sign, then digits, which may be grouped
by single underscores. Which code points are digits is a parameter.
-/

namespace SignedToken

/--
Decimal numerals have at most this many digits; longer ones are neither read nor written.
-/
def maxNumeralDigits : Nat := 4300

def hasNumeral (n : Int) : Bool :=
  n.natAbs < 10 ^ maxNumeralDigits

namespace Text

def underscore : CodePoint := CodePoint.ofChar '_'

def cutSign : Text → Bool × Text
  | c :: t =>
    if c = CodePoint.ofChar '-' then (true, t)
    else if c = CodePoint.ofChar '+' then (false, t)
    else (false, c :: t)
  | [] => (false, [])

/--
The digits of a numeral whose groups are set apart by single underscores; every group has a digit.
-/
def groupedDigits? (digit? : CodePoint → Option Nat) (t : Text) : Option (List Nat) :=
  ((splitOn underscore t).mapM fun (group : Text) =>
    if group.isEmpty then none else group.mapM digit?).map List.flatten

def signedValue (negative : Bool) (digits : List Nat) : Int :=
  let n : Nat := digits.foldl (fun n d => 10 * n + d) 0
  if negative then -(n : Int) else n

def asciiDigit? (c : CodePoint) : Option Nat :=
  if c.isDigit then some (c.val - 0x30) else none

end Text

end SignedToken
