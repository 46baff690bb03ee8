import SignedToken.Octets

/-!
This module contains the distinguished encoding of data: a tag, a length in its shortest form, and
as many octets of content. Readers take nothing but that form, so each value has one encoding.
-/

namespace SignedToken.Der

structure Element where
  tag : UInt8
  content : Bytes
  deriving DecidableEq, Repr

def integerTag : UInt8 := 0x02
def bitStringTag : UInt8 := 0x03
def octetStringTag : UInt8 := 0x04
def nullTag : UInt8 := 0x05
def objectIdTag : UInt8 := 0x06
def sequenceTag : UInt8 := 0x30
def setTag : UInt8 := 0x31

def contextTag (n : UInt8) : UInt8 := 0xA0 + n

def minimalOctets (n : Nat) : Bytes :=
  Octets.ofNat ((n.log2 + 8) / 8) n

def writeLength (n : Nat) : Bytes :=
  if n < 0x80 then [n.toUInt8]
  else
    let octets := minimalOctets n
    (0x80 + octets.length).toUInt8 :: octets

def write (tag : UInt8) (content : Bytes) : Bytes :=
  tag :: (writeLength content.length ++ content)

def writeSequence (parts : List Bytes) : Bytes :=
  write sequenceTag parts.flatten

def writeInteger (n : Nat) : Bytes :=
  let octets := minimalOctets n
  write integerTag (if octets.head?.any (0x80 ≤ ·) then 0 :: octets else octets)

def writeOctets (b : Bytes) : Bytes := write octetStringTag b

def writeBits (b : Bytes) : Bytes := write bitStringTag (0 :: b)

def sevens (n : Nat) : Bytes :=
  let count := n.log2 / 7
  (List.range count).map (fun i => (0x80 + n / 128 ^ (count - i) % 128).toUInt8) ++
    [(n % 128).toUInt8]

/--
The content of an object identifier; its first two numbers share a group.
-/
def objectId : List Nat → Bytes
  | a :: b :: rest => ((40 * a + b) :: rest).flatMap sevens
  | numbers => numbers.flatMap sevens

def writeObjectId (numbers : List Nat) : Bytes := write objectIdTag (objectId numbers)

def splitAt? (n : Nat) (b : Bytes) : Option (Bytes × Bytes) :=
  if n ≤ b.length then some (b.take n, b.drop n) else none

/--
A length in its shortest form, in at most five octets.
-/
def readLength? : Bytes → Option (Nat × Bytes)
  | [] => none
  | first :: rest =>
    if first < 0x80 then some (first.toNat, rest)
    else
      let count := first.toNat - 0x80
      if count = 0 ∨ 4 < count then none
      else
        match splitAt? count rest with
        | none => none
        | some (octets, rest) =>
          let n := Octets.toNat octets
          if n < 0x80 ∨ n < 256 ^ (count - 1) then none else some (n, rest)

def element? : Bytes → Option (Element × Bytes)
  | [] => none
  | tag :: rest =>
    if tag &&& 0x1F = 0x1F then none
    else
      match readLength? rest with
      | none => none
      | some (n, rest) => (splitAt? n rest).map fun (content, rest) => (⟨tag, content⟩, rest)

def elements? (b : Bytes) : Option (List Element) :=
  go b.length b
where
  go : Nat → Bytes → Option (List Element)
    | _, [] => some []
    | 0, _ => none
    | fuel + 1, b =>
      match element? b with
      | none => none
      | some (e, rest) => (go fuel rest).map (e :: ·)

def sole? (tag : UInt8) (b : Bytes) : Option Bytes :=
  match elements? b with
  | some [e] => if e.tag = tag then some e.content else none
  | _ => none

def sequence? (b : Bytes) : Option (List Element) :=
  sole? sequenceTag b >>= elements?

def isInteger : Bytes → Bool
  | [] => false
  | [_] => true
  | a :: b :: _ => !(a == 0 && b < 0x80) && !(a == 0xFF && 0x80 ≤ b)

def natural? (content : Bytes) : Option Nat :=
  if isInteger content && content.head?.any (· < 0x80) then some (Octets.toNat content) else none

def wholeBits? : Bytes → Option Bytes
  | 0 :: octets => some octets
  | _ => none

def isObjectId (content : Bytes) : Bool :=
  go true content
where
  go (start : Bool) : Bytes → Bool
    | [] => false
    | [x] => x < 0x80
    | x :: rest => !(start && x == 0x80) && go (x < 0x80) rest

def octetsLe : Bytes → Bytes → Bool
  | [], _ => true
  | _ :: _, [] => false
  | a :: s, b :: t => a < b || (a == b && octetsLe s t)

def set? (content : Bytes) : Option (List Element) :=
  match elements? content with
  | none => none
  | some es =>
    let encoded := es.map fun e => write e.tag e.content
    if (encoded.zip (encoded.drop 1)).all fun (a, b) => octetsLe a b then some es else none

end SignedToken.Der
