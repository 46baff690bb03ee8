import SignedToken.Text.Utf8

/-!
This module contains base64: the writer, which works on groups of three octets, and two readers.
The strict one takes exactly what the padded writer produces. The lenient one skips every octet
that is no digit and stops at padding that completes a group, as mail readers do; what it accepts
in more than one spelling has to be compared with the written form by its caller.
-/

namespace SignedToken.Base64

structure Alphabet where
  digit62 : CodePoint
  digit63 : CodePoint

def standard : Alphabet where
  digit62 := CodePoint.ofChar '+'
  digit63 := CodePoint.ofChar '/'

def url : Alphabet where
  digit62 := CodePoint.ofChar '-'
  digit63 := CodePoint.ofChar '_'

def Alphabet.digit (a : Alphabet) (n : Nat) : CodePoint :=
  if h : n < 26 then ⟨0x41 + n, by omega⟩
  else if h : n < 52 then ⟨0x61 + (n - 26), by omega⟩
  else if h : n < 62 then ⟨0x30 + (n - 52), by omega⟩
  else if n = 62 then a.digit62
  else a.digit63

def Alphabet.value? (a : Alphabet) (x : UInt8) : Option Nat :=
  let n := x.toNat
  if 0x41 ≤ n ∧ n ≤ 0x5A then some (n - 0x41)
  else if 0x61 ≤ n ∧ n ≤ 0x7A then some (n - 0x61 + 26)
  else if 0x30 ≤ n ∧ n ≤ 0x39 then some (n - 0x30 + 52)
  else if n = a.digit62.val then some 62
  else if n = a.digit63.val then some 63
  else none

/--
The digits of a sequence of octets, without padding. A last group of one or two octets has two or
three digits, whose unused bits are zero.
-/
def encode (a : Alphabet) : Bytes → Text
  | x :: y :: z :: rest =>
    a.digit (x.toNat / 4) :: a.digit (x.toNat % 4 * 16 + y.toNat / 16)
      :: a.digit (y.toNat % 16 * 4 + z.toNat / 64) :: a.digit (z.toNat % 64) :: encode a rest
  | [x, y] =>
    [a.digit (x.toNat / 4), a.digit (x.toNat % 4 * 16 + y.toNat / 16), a.digit (y.toNat % 16 * 4)]
  | [x] => [a.digit (x.toNat / 4), a.digit (x.toNat % 4 * 16)]
  | [] => []

def pad : CodePoint := CodePoint.ofChar '='

def encodePadded (a : Alphabet) (b : Bytes) : Text :=
  encode a b ++ List.replicate ((3 - b.length % 3) % 3) pad

def padOctet : UInt8 := 0x3D

def decodeStrict? (a : Alphabet) (b : Bytes) : Option Bytes :=
  go [] b
where
  go (read : Bytes) : Bytes → Option Bytes
    | [] => some read.reverse
    | w :: x :: y :: z :: rest =>
      match a.value? w, a.value? x with
      | some m, some n =>
        let first := (m * 4 + n / 16).toUInt8
        match a.value? y, a.value? z with
        | some o, some p =>
          go ((o % 4 * 64 + p).toUInt8 :: (n % 16 * 16 + o / 4).toUInt8 :: first :: read) rest
        | some o, none =>
          if z = padOctet ∧ rest = [] ∧ o % 4 = 0 then
            some ((n % 16 * 16 + o / 4).toUInt8 :: first :: read).reverse
          else none
        | none, _ =>
          if y = padOctet ∧ z = padOctet ∧ rest = [] ∧ n % 16 = 0 then some (first :: read).reverse
          else none
      | _, _ => none
    | _ => none

/--
Where a lenient reader is: how many digits of the current group it has read, the bits of the last
one that no octet holds yet, the pads since then, and the octets so far in reverse.
-/
structure LenientState where
  position : Nat
  left : Nat
  pads : Nat
  read : Bytes

def LenientState.push (s : LenientState) (n : Nat) : LenientState :=
  match s.position with
  | 0 => ⟨1, n, 0, s.read⟩
  | 1 => ⟨2, n % 16, 0, (s.left * 4 + n / 16).toUInt8 :: s.read⟩
  | 2 => ⟨3, n % 4, 0, (s.left * 16 + n / 4).toUInt8 :: s.read⟩
  | _ => ⟨0, 0, 0, (s.left * 64 + n).toUInt8 :: s.read⟩

/--
Reads digits and skips all else, up to the pads that complete a group. Octets that end inside a
group are refused.
-/
def decodeLenient? (a : Alphabet) (b : Bytes) : Option Bytes :=
  go ⟨0, 0, 0, []⟩ b
where
  go (s : LenientState) : Bytes → Option Bytes
    | [] => if s.position = 0 then some s.read.reverse else none
    | x :: rest =>
      if x = padOctet then
        if 2 ≤ s.position then
          if 4 ≤ s.position + s.pads + 1 then some s.read.reverse
          else go { s with pads := s.pads + 1 } rest
        else
          go s rest
      else
        match a.value? x with
        | some n => go (s.push n) rest
        | none => go s rest

end SignedToken.Base64
