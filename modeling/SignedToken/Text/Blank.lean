import SignedToken.Text

/-!
This module contains the blanks that may stand around a number: the Unicode property White_Space.
-/

namespace SignedToken

def CodePoint.isBlank (c : CodePoint) : Bool :=
  (0x9 ≤ c.val && c.val ≤ 0xD) || c.val == 0x20 || c.val == 0x85 || c.val == 0xA0
    || c.val == 0x1680 || (0x2000 ≤ c.val && c.val ≤ 0x200A) || c.val == 0x2028
    || c.val == 0x2029 || c.val == 0x202F || c.val == 0x205F || c.val == 0x3000

def Text.trim (t : Text) : Text :=
  Text.dropEndWhile CodePoint.isBlank (t.dropWhile CodePoint.isBlank)

end SignedToken
