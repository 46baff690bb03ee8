import SignedToken.Base64

/-!
This module contains the text armour of binary data: a labelled block of base64 lines between a
first and a last line. The reader takes any text around blocks, header lines in front of the data,
and blanks inside of it.
-/

namespace SignedToken.Pem

structure Block where
  label : Bytes
  headers : List Bytes
  data : Bytes
  deriving DecidableEq, Repr

def ascii (s : String) : Bytes :=
  Utf8.encodeAny (Text.ofString s)

def beginMark : Bytes := ascii "-----BEGIN "
def endMark : Bytes := ascii "-----END "
def tailMark : Bytes := ascii "-----"

def isBlank (x : UInt8) : Bool :=
  x == 0x20 || x == 0x9 || x == 0xA || x == 0xD

def isDataBlank (x : UInt8) : Bool :=
  isBlank x || x == 0xC

/--
What comes before a mark, and what comes after it. An octet that breaks off a partial match is not
taken for the start of a new one.
-/
def readUntil? (mark : Bytes) (b : Bytes) : Option (Bytes × Bytes) :=
  go [] mark b
where
  go (seen : Bytes) : Bytes → Bytes → Option (Bytes × Bytes)
    | [], rest => some ((seen.drop mark.length).reverse, rest)
    | _, [] => none
    | m :: more, x :: rest => if x = m then go (x :: seen) more rest else go (x :: seen) mark rest

def skipBlanks (b : Bytes) : Bytes := b.dropWhile isBlank

def cutAt? (mark : Bytes) (b : Bytes) : Option (Bytes × Bytes) :=
  go [] b
where
  go (seen : Bytes) : Bytes → Option (Bytes × Bytes)
    | [] => none
    | x :: rest =>
      if mark.isPrefixOf (x :: rest) then some (seen.reverse, (x :: rest).drop mark.length)
      else go (x :: seen) rest

def lines (b : Bytes) : List Bytes :=
  (go [] b).filter (!·.isEmpty)
where
  finish (line : Bytes) : Bytes :=
    match line with
    | 0xD :: line => line.reverse
    | line => line.reverse
  go (line : Bytes) : Bytes → List Bytes
    | [] => [finish line]
    | x :: rest => if x = 0xA then finish line :: go [] rest else go (x :: line) rest

def splitHeaders (payload : Bytes) : Bytes × Bytes :=
  match cutAt? [0xA, 0xA] payload with
  | some parts => parts
  | none =>
    match cutAt? [0xD, 0xA, 0xD, 0xA] payload with
    | some parts => parts
    | none => ([], payload)

def block? (label payload lastLabel : Bytes) : Option Block :=
  let (headers, data) := splitHeaders payload
  let headers := lines headers
  if label.isEmpty || label != lastLabel || (Utf8.decode? label).isNone then none
  else if !headers.all (·.contains 0x3A) then none
  else
    (Base64.decodeStrict? Base64.standard (data.filter (!isDataBlank ·))).map
      fun data => ⟨label, headers, data⟩

def nextBlock (b : Bytes) : Option (Option Block × Bytes) :=
  match readUntil? beginMark b with
  | none => none
  | some (_, b) =>
    let parts := do
      let (label, b) ← readUntil? tailMark b
      let (payload, b) ← readUntil? endMark (skipBlanks b)
      let (lastLabel, b) ← readUntil? tailMark b
      pure (label, payload, lastLabel, skipBlanks b)
    match parts with
    | none => some (none, [])
    | some (label, payload, lastLabel, rest) => some (block? label payload lastLabel, rest)

def blocks? (b : Bytes) : Option (List Block) :=
  go b.length b
where
  go : Nat → Bytes → Option (List Block)
    | 0, _ => some []
    | fuel + 1, b =>
      match nextBlock b with
      | none => some []
      | some (none, _) => none
      | some (some block, rest) => (go fuel rest).map (block :: ·)

def first? (b : Bytes) : Option Block :=
  match nextBlock b with
  | some (block, _) => block
  | none => none

def wrap (t : Text) : List Text :=
  go t.length t
where
  go : Nat → Text → List Text
    | 0, _ => []
    | fuel + 1, t => if t.isEmpty then [] else t.take 64 :: go fuel (t.drop 64)

def write (label : String) (data : Bytes) : Bytes :=
  let first := Text.ofString ("-----BEGIN " ++ label ++ "-----")
  let last := Text.ofString ("-----END " ++ label ++ "-----")
  Utf8.encodeAny ((first :: (wrap (Base64.encodePadded Base64.standard data) ++ [last])).flatMap
    fun line => line ++ [0xA])

end SignedToken.Pem
