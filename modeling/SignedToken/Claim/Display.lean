import SignedToken.Binary64.Shortest
import SignedToken.Claim
import SignedToken.Text.Printable

/-!
This module contains the text that stands for a claim value in a message. Texts are quoted with
single quotes unless only those occur in them, and what has no shape of its own is shown by number.
-/

namespace SignedToken.ClaimValue

def hexEscape (mark : Char) (width n : Nat) : Text :=
  0x5C :: CodePoint.ofChar mark :: Text.hexOfNatPadded width n

def displayCodePoint (quote c : CodePoint) : Text :=
  let n := c.val
  if c = quote ∨ n = 0x5C then [0x5C, c]
  else if n = 0x9 then Text.ofString "\\t"
  else if n = 0xA then Text.ofString "\\n"
  else if n = 0xD then Text.ofString "\\r"
  else if c.isPrintable then [c]
  else if n < 0x100 then hexEscape 'x' 2 n
  else if n < 0x10000 then hexEscape 'u' 4 n
  else hexEscape 'U' 8 n

def displayQuote (t : Text) : CodePoint :=
  if t.contains 0x27 && !t.contains 0x22 then 0x22 else 0x27

def displayText (t : Text) : Text :=
  let quote := displayQuote t
  quote :: (t.flatMap (displayCodePoint quote) ++ [quote])

def displayOctet (quote : CodePoint) (x : UInt8) : Text :=
  let c : CodePoint := ⟨x.toNat, by have := x.toNat_lt; omega⟩
  if x < 0x7F then displayCodePoint quote c else hexEscape 'x' 2 x.toNat

def displayBytes (b : Bytes) : Text :=
  let quote : CodePoint := if b.contains 0x27 && !b.contains 0x22 then 0x22 else 0x27
  CodePoint.ofChar 'b' :: quote :: (b.flatMap (displayOctet quote) ++ [quote])

def displaySeparator : Text := Text.ofString ", "

def enclosed (start stop : String) (t : Text) : Text :=
  Text.ofString start ++ t ++ Text.ofString stop

mutual

def display : ClaimValue → Text
  | null => Text.ofString "None"
  | bool b => Text.ofString (if b then "True" else "False")
  | int n => Text.ofInt n
  | float x => FloatLayout.standard.render x
  | text t => displayText t
  | bytes b => displayBytes b
  | list items => enclosed "[" "]" (Text.join displaySeparator (displayItems items))
  | tuple [x] => enclosed "(" ",)" (display x)
  | tuple items => enclosed "(" ")" (Text.join displaySeparator (displayItems items))
  | dict entries =>
    enclosed "\x7b" "\x7d" (Text.join displaySeparator (displayEntries entries))
  | readOnly entries =>
    enclosed "mappingproxy(\x7b" "\x7d)" (Text.join displaySeparator (displayEntries entries))
  | foreign => Text.ofString "<Opaque>"
termination_by structural v => v

def displayItems : List ClaimValue → List Text
  | [] => []
  | x :: xs => display x :: displayItems xs
termination_by structural xs => xs

def displayEntries : List (ClaimValue × ClaimValue) → List Text
  | [] => []
  | (k, v) :: es => (display k ++ Text.ofString ": " ++ display v) :: displayEntries es
termination_by structural es => es

end

end SignedToken.ClaimValue
