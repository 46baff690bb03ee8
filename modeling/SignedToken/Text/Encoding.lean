import SignedToken.Text.Utf8

/-!
This module contains the encoding forms that JSON text may arrive in. The form is told from a byte
order mark or from where the first octets are zero, as a JSON text starts with an ASCII character.
Lone surrogates are code points in all of them.
-/

namespace SignedToken

inductive TextEncoding where
  | utf8
  | utf16 (bigEndian : Bool)
  | utf32 (bigEndian : Bool)
  deriving DecidableEq, Repr

namespace TextEncoding

def units16? (bigEndian : Bool) (b : Bytes) : Option (List Nat) :=
  go [] b
where
  go (read : List Nat) : Bytes → Option (List Nat)
    | [] => some read.reverse
    | [_] => none
    | a :: b :: rest =>
      go ((if bigEndian then a.toNat * 0x100 + b.toNat else b.toNat * 0x100 + a.toNat) :: read) rest

/--
Pairs of a high and a low surrogate become one code point, any other unit is its own.
-/
def pairUnits (units : List Nat) : Option Text :=
  go [] units
where
  go (read : Text) : List Nat → Option Text
    | [] => some read.reverse
    | u :: rest =>
      if hu : u < 0x10000 then
        if hs : 0xD800 ≤ u ∧ u < 0xDC00 then
          match rest with
          | [] => some (⟨u, by omega⟩ :: read).reverse
          | v :: rest' =>
            if hv : 0xDC00 ≤ v ∧ v < 0xE000 then
              go (⟨0x10000 + (u - 0xD800) * 0x400 + (v - 0xDC00), by omega⟩ :: read) rest'
            else
              go (⟨u, by omega⟩ :: read) (v :: rest')
        else
          go (⟨u, by omega⟩ :: read) rest
      else
        none

def decodeUnits32 (bigEndian : Bool) (b : Bytes) : Option Text :=
  go [] b
where
  go (read : Text) : Bytes → Option Text
    | [] => some read.reverse
    | a :: b :: c :: d :: rest =>
      let n :=
        if bigEndian then ((a.toNat * 0x100 + b.toNat) * 0x100 + c.toNat) * 0x100 + d.toNat
        else ((d.toNat * 0x100 + c.toNat) * 0x100 + b.toNat) * 0x100 + a.toNat
      if h : n < 0x110000 then go (⟨n, h⟩ :: read) rest else none
    | _ => none

/--
The encoding form of a JSON text together with the octets after its byte order mark.
-/
def detect (b : Bytes) : TextEncoding × Bytes :=
  match b with
  | 0x00 :: 0x00 :: 0xFE :: 0xFF :: rest => (.utf32 true, rest)
  | 0xFF :: 0xFE :: 0x00 :: 0x00 :: rest => (.utf32 false, rest)
  | 0xFE :: 0xFF :: rest => (.utf16 true, rest)
  | 0xFF :: 0xFE :: rest => (.utf16 false, rest)
  | 0xEF :: 0xBB :: 0xBF :: rest => (.utf8, rest)
  | 0 :: x :: _ :: _ :: _ => (if x = 0 then .utf32 true else .utf16 true, b)
  | _ :: 0 :: x :: y :: _ => (if x = 0 ∧ y = 0 then .utf32 false else .utf16 false, b)
  | [0, _] => (.utf16 true, b)
  | [_, 0] => (.utf16 false, b)
  | _ => (.utf8, b)

def decode? (e : TextEncoding) (b : Bytes) : Option Text :=
  match e with
  | .utf8 => Utf8.decodeWith true b
  | .utf16 bigEndian => units16? bigEndian b >>= pairUnits
  | .utf32 bigEndian => decodeUnits32 bigEndian b

def decodeDetected? (b : Bytes) : Option Text :=
  let (e, rest) := detect b
  e.decode? rest

end TextEncoding

end SignedToken
