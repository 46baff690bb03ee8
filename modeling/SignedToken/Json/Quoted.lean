import SignedToken.Text

/-!
This module contains the written form of texts in JSON. Quotes, backslashes and controls are always
escaped; whether anything beyond ASCII is escaped too is a choice of the writer.
-/

namespace SignedToken.Json

def unitEscape (n : Nat) : Text :=
  Text.ofString "\\u" ++ Text.hexOfNatPadded 4 n

def escape (asciiOnly : Bool) (c : CodePoint) : Text :=
  let n := c.val
  if n = 0x22 ∨ n = 0x5C then [0x5C, c]
  else if n = 0x8 then Text.ofString "\\b"
  else if n = 0x9 then Text.ofString "\\t"
  else if n = 0xA then Text.ofString "\\n"
  else if n = 0xC then Text.ofString "\\f"
  else if n = 0xD then Text.ofString "\\r"
  else if n < 0x20 then unitEscape n
  else if asciiOnly && 0x7F ≤ n then
    if n < 0x10000 then unitEscape n
    else unitEscape (0xD800 + (n - 0x10000) / 0x400) ++ unitEscape (0xDC00 + (n - 0x10000) % 0x400)
  else [c]

def quoted (asciiOnly : Bool) (t : Text) : Text :=
  0x22 :: (t.flatMap (escape asciiOnly) ++ [0x22])

end SignedToken.Json
