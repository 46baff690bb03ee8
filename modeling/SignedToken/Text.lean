/-!
This module contains texts as sequences of Unicode code points. Claims, wires and paths come from
callers that may hold lone surrogates, which a `String` cannot, so texts are lists of code points
and `Text.toString?` is partial in that respect only.
-/

namespace SignedToken

-- Powers of numbers are those of the core library in every module, whatever else one imports.
attribute [instance (2000), default_instance 20000] instPowNat

/--
A Unicode code point. Surrogates are included.
-/
abbrev CodePoint := Fin 0x110000

instance CodePoint.neZero : @NeZero Nat Zero.ofOfNat0 0x110000 := ⟨by decide⟩

abbrev Text := List CodePoint

abbrev Bytes := List UInt8

namespace CodePoint

def ofChar (c : Char) : CodePoint :=
  ⟨c.toNat, by
    have h := c.valid
    simp only [UInt32.isValidChar, Nat.isValidChar] at h
    simp only [Char.toNat]
    omega⟩

def isSurrogate (c : CodePoint) : Bool :=
  0xD800 ≤ c.val && c.val ≤ 0xDFFF

def isDigit (c : CodePoint) : Bool :=
  0x30 ≤ c.val && c.val ≤ 0x39

def hexValue? (c : CodePoint) : Option Nat :=
  if 0x30 ≤ c.val ∧ c.val ≤ 0x39 then some (c.val - 0x30)
  else if 0x61 ≤ c.val ∧ c.val ≤ 0x66 then some (c.val - 0x61 + 10)
  else if 0x41 ≤ c.val ∧ c.val ≤ 0x46 then some (c.val - 0x41 + 10)
  else none

def toChar? (c : CodePoint) : Option Char :=
  if h : c.val.isValidChar then some ⟨c.val.toUInt32, by
    have hc := c.isLt
    simp only [UInt32.isValidChar, Nat.toUInt32, UInt32.toNat_ofNat']
    rw [Nat.mod_eq_of_lt (by omega)]
    exact h⟩
  else none

end CodePoint

namespace Text

def ofString (s : String) : Text :=
  s.toList.map CodePoint.ofChar

instance : Coe String Text := ⟨ofString⟩

def toString? (t : Text) : Option String :=
  (t.mapM CodePoint.toChar?).map String.ofList

def le : Text → Text → Bool
  | [], _ => true
  | _ :: _, [] => false
  | a :: s, b :: t => a < b || (a == b && le s t)

def splitOn (sep : CodePoint) (t : Text) : List Text :=
  go [] t
where
  go (piece : Text) : Text → List Text
    | [] => [piece.reverse]
    | c :: t => if c = sep then piece.reverse :: go [] t else go (c :: piece) t

def join (sep : Text) (pieces : List Text) : Text :=
  (pieces.intersperse sep).flatten

def startsWith (t start : Text) : Bool :=
  start.isPrefixOf t

def cutAt? (sep : CodePoint) (t : Text) : Option (Text × Text) :=
  match t.dropWhile (· != sep) with
  | [] => none
  | _ :: after => some (t.takeWhile (· != sep), after)

def dropEndWhile (p : CodePoint → Bool) (t : Text) : Text :=
  (t.reverse.dropWhile p).reverse

def digitsValue (t : Text) : Nat :=
  t.foldl (fun n c => 10 * n + (c.val - 0x30)) 0

def ofNat (n : Nat) : Text :=
  (Nat.toDigits 10 n).map CodePoint.ofChar

def ofInt (n : Int) : Text :=
  if n < 0 then CodePoint.ofChar '-' :: ofNat n.natAbs else ofNat n.natAbs

def hexOfNat (n : Nat) : Text :=
  (Nat.toDigits 16 n).map CodePoint.ofChar

def hexOfNatPadded (width n : Nat) : Text :=
  let digits := hexOfNat n
  List.replicate (width - digits.length) (CodePoint.ofChar '0') ++ digits

def hexOfBytes (b : Bytes) : Text :=
  b.flatMap fun x => hexOfNatPadded 2 x.toNat

end Text

end SignedToken
