import SignedToken.Json
import SignedToken.Text.Integer

/-!
This module contains the reader of JSON texts. What readers of JSON commonly differ in is a record:
lone surrogates in escapes, the depth of nesting, and the numbers that are too long. `NaN`,
`Infinity` and `-Infinity` are numbers for every one of them.

Containers are read with a depth that counts down; all recursion is bounded by the length of the
text, as every step takes something off it.
-/

namespace SignedToken.Json

structure Dialect where
  loneSurrogates : Bool
  maxDepth : Nat
  /-- Whether a container without items counts for the depth. -/
  countsEmpty : Bool
  /-- Whether the limit on digits also holds for the digits in front of a point or an exponent. -/
  limitsFractions : Bool
  deriving DecidableEq, Repr

namespace Reader

def isSpace (c : CodePoint) : Bool :=
  c.val == 0x20 || c.val == 0x9 || c.val == 0xA || c.val == 0xD

def skipSpace (t : Text) : Text :=
  t.dropWhile isSpace

def after? : Text → Text → Option Text
  | [], t => some t
  | _ :: _, [] => none
  | c :: s, d :: t => if c = d then after? s t else none

inductive Piece where
  | plain (c : CodePoint)
  | unit (n : Fin 0x10000)

def shortEscape? (c : CodePoint) : Option CodePoint :=
  if c.val = 0x22 ∨ c.val = 0x5C ∨ c.val = 0x2F then some c
  else if c.val = 0x62 then some 0x8
  else if c.val = 0x66 then some 0xC
  else if c.val = 0x6E then some 0xA
  else if c.val = 0x72 then some 0xD
  else if c.val = 0x74 then some 0x9
  else none

def hexUnit? (a b c d : CodePoint) : Option (Fin 0x10000) :=
  match a.hexValue?, b.hexValue?, c.hexValue?, d.hexValue? with
  | some w, some x, some y, some z =>
    let n := ((w * 16 + x) * 16 + y) * 16 + z
    if h : n < 0x10000 then some ⟨n, h⟩ else none
  | _, _, _, _ => none

def pieces? (read : List Piece) : Text → Option (List Piece × Text)
  | [] => none
  | c :: t =>
    if c.val = 0x22 then some (read.reverse, t)
    else if c.val < 0x20 then none
    else if c.val ≠ 0x5C then pieces? (.plain c :: read) t
    else
      match t with
      | [] => none
      | e :: t =>
        if e.val = 0x75 then
          match t with
          | a :: b :: c :: d :: t =>
            match hexUnit? a b c d with
            | some n => pieces? (.unit n :: read) t
            | none => none
          | _ => none
        else
          match shortEscape? e with
          | some c => pieces? (.plain c :: read) t
          | none => none

/--
The text of the pieces: a high and a low unit next to each other are one code point.
-/
def joinPieces (loneSurrogates : Bool) (read : Text) : List Piece → Option Text
  | [] => some read.reverse
  | .plain c :: rest => joinPieces loneSurrogates (c :: read) rest
  | .unit n :: rest =>
    let c : CodePoint := ⟨n.val, by omega⟩
    if hn : 0xD800 ≤ n.val ∧ n.val < 0xE000 then
      match rest with
      | .unit m :: rest' =>
        if h : n.val < 0xDC00 ∧ 0xDC00 ≤ m.val ∧ m.val < 0xE000 then
          let pair : CodePoint :=
            ⟨0x10000 + (n.val - 0xD800) * 0x400 + (m.val - 0xDC00), by omega⟩
          joinPieces loneSurrogates (pair :: read) rest'
        else if loneSurrogates then joinPieces loneSurrogates (c :: read) (.unit m :: rest')
        else none
      | rest => if loneSurrogates then joinPieces loneSurrogates (c :: read) rest else none
    else
      joinPieces loneSurrogates (c :: read) rest

def quoted? (d : Dialect) (t : Text) : Option (Text × Text) :=
  match pieces? [] t with
  | some (ps, rest) => (joinPieces d.loneSurrogates [] ps).map (·, rest)
  | none => none

def digits (t : Text) : Text × Text :=
  (t.takeWhile CodePoint.isDigit, t.dropWhile CodePoint.isDigit)

def integerPart? (t : Text) : Option (Text × Text) :=
  match t with
  | [] => none
  | c :: rest =>
    if c.val = 0x30 then some ([c], rest)
    else if c.isDigit then some (digits t)
    else none

def fractionPart? (t : Text) : Option (Option Text × Text) :=
  match t with
  | c :: rest =>
    if c.val = 0x2E then
      let (ds, rest) := digits rest
      if ds.isEmpty then none else some (some ds, rest)
    else
      some (none, t)
  | [] => some (none, t)

def exponentPart? (t : Text) : Option (Option Int × Text) :=
  match t with
  | c :: rest =>
    if c.val = 0x65 ∨ c.val = 0x45 then
      let (negative, rest) := Text.cutSign rest
      let (ds, rest) := digits rest
      if ds.isEmpty then none
      else
        let e : Int := Text.digitsValue ds
        some (some (if negative then -e else e), rest)
    else
      some (none, t)
  | [] => some (none, t)

def numberValue? (d : Dialect) (negative : Bool) (whole : Text) (fraction : Option Text)
    (exponent : Option Int) : Option Json :=
  let isInteger := fraction.isNone && exponent.isNone
  if (isInteger || d.limitsFractions) && maxNumeralDigits < whole.length then none
  else if isInteger then
    let n : Int := Text.digitsValue whole
    some (.int (if negative then -n else n))
  else
    let behind := fraction.getD []
    some (.float (Binary64.ofDecimal negative (Text.digitsValue (whole ++ behind))
      (exponent.getD 0 - behind.length)))

def number? (d : Dialect) (t : Text) : Option (Json × Text) :=
  let (negative, t) :=
    match t with
    | c :: rest => if c.val = 0x2D then (true, rest) else (false, t)
    | [] => (false, t)
  match after? (Text.ofString "Infinity") t with
  | some rest => some (.float (.infinite negative), rest)
  | none =>
    match integerPart? t with
    | none => none
    | some (whole, t) =>
      match fractionPart? t with
      | none => none
      | some (fraction, t) =>
        match exponentPart? t with
        | none => none
        | some (exponent, t) => (numberValue? d negative whole fraction exponent).map (·, t)

def named? (t : Text) : Option (Json × Text) :=
  match after? (Text.ofString "null") t with
  | some rest => some (.null, rest)
  | none =>
    match after? (Text.ofString "true") t with
    | some rest => some (.bool true, rest)
    | none =>
      match after? (Text.ofString "false") t with
      | some rest => some (.bool false, rest)
      | none => (after? (Text.ofString "NaN") t).map (.float .nan, ·)

def openBracket : CodePoint := CodePoint.ofChar '['
def closeBracket : CodePoint := CodePoint.ofChar ']'
def openBrace : CodePoint := CodePoint.ofChar '\x7b'
def closeBrace : CodePoint := CodePoint.ofChar '\x7d'
def comma : CodePoint := CodePoint.ofChar ','
def colon : CodePoint := CodePoint.ofChar ':'
def quote : CodePoint := CodePoint.ofChar '"'

mutual

def value? (d : Dialect) (depth : Nat) (t : Text) : Nat → Option (Json × Text)
  | 0 => none
  | fuel + 1 =>
    match t with
    | [] => none
    | c :: rest =>
      if c = quote then (quoted? d rest).map fun (s, rest) => (.text s, rest)
      else if c = openBracket then
        let rest := skipSpace rest
        if rest.head? = some closeBracket then
          if depth = 0 && d.countsEmpty then none else some (.array [], rest.drop 1)
        else if depth = 0 then none
        else (items? d (depth - 1) [] rest fuel).map fun (xs, rest) => (.array xs, rest)
      else if c = openBrace then
        let rest := skipSpace rest
        if rest.head? = some closeBrace then
          if depth = 0 && d.countsEmpty then none else some (.object [], rest.drop 1)
        else if depth = 0 then none
        else (members? d (depth - 1) [] rest fuel).map fun (ms, rest) => (.object ms, rest)
      else
        match named? t with
        | some found => some found
        | none => number? d t

def items? (d : Dialect) (depth : Nat) (read : List Json) (t : Text) :
    Nat → Option (List Json × Text)
  | 0 => none
  | fuel + 1 =>
    match value? d depth t fuel with
    | none => none
    | some (x, rest) =>
      match skipSpace rest with
      | [] => none
      | c :: rest =>
        if c = closeBracket then some ((x :: read).reverse, rest)
        else if c = comma then items? d depth (x :: read) (skipSpace rest) fuel
        else none

def members? (d : Dialect) (depth : Nat) (read : List (Text × Json)) (t : Text) :
    Nat → Option (List (Text × Json) × Text)
  | 0 => none
  | fuel + 1 =>
    match t with
    | [] => none
    | q :: rest =>
      if q ≠ quote then none
      else
        match quoted? d rest with
        | none => none
        | some (name, rest) =>
          match skipSpace rest with
          | [] => none
          | c :: rest =>
            if c ≠ colon then none
            else
              match value? d depth (skipSpace rest) fuel with
              | none => none
              | some (x, rest) =>
                match skipSpace rest with
                | [] => none
                | c :: rest =>
                  if c = closeBrace then some (((name, x) :: read).reverse, rest)
                  else if c = comma then members? d depth ((name, x) :: read) (skipSpace rest) fuel
                  else none

end

end Reader

/--
The value of a JSON text. Every call of the reader takes a code point off the text or follows one
that did, so twice the length of the text is enough.
-/
def read? (d : Dialect) (t : Text) : Option Json :=
  match Reader.value? d d.maxDepth (Reader.skipSpace t) (2 * t.length + 2) with
  | some (x, rest) => if (Reader.skipSpace rest).isEmpty then some x else none
  | none => none

end SignedToken.Json
