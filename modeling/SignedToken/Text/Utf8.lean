import SignedToken.Text

/-!
This module contains UTF-8: a writer and a reader that is strict up to one choice, whether the
three octets of a lone surrogate are a code point. Overlong forms and numbers beyond the last code
point are never read.
-/

namespace SignedToken.Utf8

/--
The octets of one code point. A surrogate gets the three octets of its number.
-/
def encodeCodePoint (c : CodePoint) : Bytes :=
  let n := c.val
  if n < 0x80 then [n.toUInt8]
  else if n < 0x800 then [(0xC0 + n / 0x40).toUInt8, (0x80 + n % 0x40).toUInt8]
  else if n < 0x10000 then
    [(0xE0 + n / 0x1000).toUInt8, (0x80 + n / 0x40 % 0x40).toUInt8, (0x80 + n % 0x40).toUInt8]
  else
    [(0xF0 + n / 0x40000).toUInt8, (0x80 + n / 0x1000 % 0x40).toUInt8,
      (0x80 + n / 0x40 % 0x40).toUInt8, (0x80 + n % 0x40).toUInt8]

def encodeAny (t : Text) : Bytes :=
  t.flatMap encodeCodePoint

def encode? (t : Text) : Option Bytes :=
  if t.any CodePoint.isSurrogate then none else some (encodeAny t)

def isContinuation (b : UInt8) : Bool :=
  0x80 ≤ b && b < 0xC0

def two? (a b : UInt8) : Option CodePoint :=
  let n := (a.toNat - 0xC0) * 0x40 + (b.toNat - 0x80)
  if h : 0xC0 ≤ a ∧ a < 0xE0 ∧ isContinuation b ∧ 0x80 ≤ n ∧ n < 0x800 then
    some ⟨n, by omega⟩
  else
    none

def three? (surrogates : Bool) (a b c : UInt8) : Option CodePoint :=
  let n := (a.toNat - 0xE0) * 0x1000 + (b.toNat - 0x80) * 0x40 + (c.toNat - 0x80)
  if h : 0xE0 ≤ a ∧ a < 0xF0 ∧ isContinuation b ∧ isContinuation c ∧ 0x800 ≤ n ∧ n < 0x10000 then
    let c : CodePoint := ⟨n, by omega⟩
    if c.isSurrogate && !surrogates then none else some c
  else
    none

def four? (a b c d : UInt8) : Option CodePoint :=
  let n := (a.toNat - 0xF0) * 0x40000 + (b.toNat - 0x80) * 0x1000 + (c.toNat - 0x80) * 0x40
    + (d.toNat - 0x80)
  if h : 0xF0 ≤ a ∧ isContinuation b ∧ isContinuation c ∧ isContinuation d ∧ 0x10000 ≤ n
      ∧ n < 0x110000 then
    some ⟨n, by omega⟩
  else
    none

/--
Reads octets from the left; `surrogates` tells whether a lone surrogate is a code point.
-/
def decodeWith (surrogates : Bool) (b : Bytes) : Option Text :=
  go [] b
where
  go (read : Text) : Bytes → Option Text
    | [] => some read.reverse
    | a :: rest =>
      if h : a < 0x80 then
        have : a.toNat < 0x80 := UInt8.lt_iff_toNat_lt.1 h
        go (⟨a.toNat, by omega⟩ :: read) rest
      else
        match rest with
        | [] => none
        | b :: rest =>
          match two? a b with
          | some c => go (c :: read) rest
          | none =>
            match rest with
            | [] => none
            | c :: rest =>
              match three? surrogates a b c with
              | some c => go (c :: read) rest
              | none =>
                match rest with
                | [] => none
                | d :: rest =>
                  match four? a b c d with
                  | some c => go (c :: read) rest
                  | none => none

def decode? (b : Bytes) : Option Text :=
  decodeWith false b

end SignedToken.Utf8
