import SignedToken.Claim
import SignedToken.Json.Writer
import SignedToken.Text.Integer

/-!
This module contains the JSON form of claim values and its text. Members are sorted by name, so a
value has one text for each style of writing. What cannot be written is an error, and of two
obstacles the one that comes first in the text is reported.
-/

namespace SignedToken.ClaimValue

structure Style extends Json.Style where
  nonFinite : Bool

def Style.canonical : Style where
  toStyle := Json.Style.canonical
  nonFinite := false

def Style.line : Style where
  toStyle := Json.Style.line
  nonFinite := true

inductive WriteError where
  | kind (name : String)
  | keyKind (name : String)
  | keyOrder (left right : String)
  | notFinite
  | tooLong
  | outOfStack
  deriving DecidableEq, Repr

def WriteError.message : WriteError → String
  | kind name => "Object of type " ++ name ++ " is not JSON serializable"
  | keyKind name => "keys must be str, int, float, bool or None, not " ++ name
  | keyOrder left right =>
    "'<' not supported between instances of '" ++ left ++ "' and '" ++ right ++ "'"
  | notFinite => "Out of range float values are not JSON compliant"
  | tooLong =>
    "Exceeds the limit (" ++ toString maxNumeralDigits ++ " digits) for integer string conversion; "
      ++ "use sys.set_int_max_str_digits() to increase the limit"
  | outOfStack => "maximum recursion depth exceeded while encoding a JSON object"

def checkInt (n : Int) : Except WriteError Unit :=
  if hasNumeral n then .ok () else .error .tooLong

def checkFloat (nonFinite : Bool) (x : Binary64) : Except WriteError Unit :=
  if x.isFinite || nonFinite then .ok () else .error .notFinite

def nameOf (nonFinite : Bool) : ClaimValue → Except WriteError Text
  | text t => .ok t
  | null => .ok (Text.ofString "null")
  | bool b => .ok (Json.writeBool b)
  | int n => (checkInt n).map fun () => Text.ofInt n
  | float x => (checkFloat nonFinite x).map fun () => FloatLayout.json.render x
  | k => .error (.keyKind k.kindName)

/--
Keys are compared when both are texts or both are numbers.
-/
def comparable (a b : ClaimValue) : Bool :=
  match a, b with
  | text _, text _ => true
  | bytes _, bytes _ => true
  | tuple _, tuple _ => true
  | a, b => a.number?.isSome && b.number?.isSome

def place? : Int ⊕ Binary64 → Option (Int × Int)
  | .inl n => some (0, n * 2 ^ 1074)
  | .inr x => x.place?

def keyLe (a b : ClaimValue) : Bool :=
  match a, b with
  | text s, text t => Text.le s t
  | a, b =>
    match a.number?.bind place?, b.number?.bind place? with
    | some (i, m), some (j, n) => i < j || (i == j && m ≤ n)
    | _, _ => true

/--
The first two neighbours that cannot be compared, the later one first.
-/
def firstIncomparable? : List ClaimValue → Option (ClaimValue × ClaimValue)
  | a :: b :: rest =>
    if comparable b a then firstIncomparable? (b :: rest) else some (b, a)
  | _ => none

def sortEntries (entries : List (ClaimValue × β)) : Except WriteError (List (ClaimValue × β)) :=
  match firstIncomparable? (entries.map (·.1)) with
  | some (b, a) => .error (.keyOrder b.kindName a.kindName)
  | none => .ok (entries.mergeSort fun e f => keyLe e.1 f.1)

def nameEntries (nonFinite : Bool) : List (ClaimValue × Except WriteError Json) →
    Except WriteError (List (Text × Json))
  | [] => .ok []
  | (k, v) :: rest =>
    match nameOf nonFinite k with
    | .error e => .error e
    | .ok name =>
      match v with
      | .error e => .error e
      | .ok x =>
        match nameEntries nonFinite rest with
        | .error e => .error e
        | .ok members => .ok ((name, x) :: members)

def objectOf (nonFinite : Bool) (entries : List (ClaimValue × Except WriteError Json)) :
    Except WriteError Json :=
  match sortEntries entries with
  | .error e => .error e
  | .ok entries => (nameEntries nonFinite entries).map .object

mutual

def toJson (nonFinite : Bool) : ClaimValue → Except WriteError Json
  | null => .ok .null
  | bool b => .ok (.bool b)
  | int n => (checkInt n).map fun () => .int n
  | float x => (checkFloat nonFinite x).map fun () => .float x
  | text t => .ok (.text t)
  | list items => (toJsonItems nonFinite items).map .array
  | tuple items => (toJsonItems nonFinite items).map .array
  | dict entries => objectOf nonFinite (toJsonEntries nonFinite entries)
  | v => .error (.kind v.kindName)
termination_by structural v => v

def toJsonItems (nonFinite : Bool) : List ClaimValue → Except WriteError (List Json)
  | [] => .ok []
  | x :: xs =>
    match toJson nonFinite x with
    | .error e => .error e
    | .ok y =>
      match toJsonItems nonFinite xs with
      | .error e => .error e
      | .ok ys => .ok (y :: ys)
termination_by structural xs => xs

def toJsonEntries (nonFinite : Bool) : List (ClaimValue × ClaimValue) →
    List (ClaimValue × Except WriteError Json)
  | [] => []
  | (k, v) :: es => (k, toJson nonFinite v) :: toJsonEntries nonFinite es
termination_by structural es => es

end

mutual

/--
The JSON form of a value as far as the stack reaches. There is room for as many levels of sequences
and mappings, those without entries included; what lies deeper is an obstacle like any other.
-/
def toJsonWithin (nonFinite : Bool) : Nat → ClaimValue → Except WriteError Json
  | 0, list _ => .error .outOfStack
  | 0, tuple _ => .error .outOfStack
  | 0, dict _ => .error .outOfStack
  | room + 1, list items => (toJsonItemsWithin nonFinite room items).map .array
  | room + 1, tuple items => (toJsonItemsWithin nonFinite room items).map .array
  | room + 1, dict entries => objectOf nonFinite (toJsonEntriesWithin nonFinite room entries)
  | _, v => v.toJson nonFinite
termination_by structural _ v => v

def toJsonItemsWithin (nonFinite : Bool) (room : Nat) :
    List ClaimValue → Except WriteError (List Json)
  | [] => .ok []
  | x :: xs =>
    match toJsonWithin nonFinite room x with
    | .error e => .error e
    | .ok y =>
      match toJsonItemsWithin nonFinite room xs with
      | .error e => .error e
      | .ok ys => .ok (y :: ys)
termination_by structural xs => xs

def toJsonEntriesWithin (nonFinite : Bool) (room : Nat) :
    List (ClaimValue × ClaimValue) → List (ClaimValue × Except WriteError Json)
  | [] => []
  | (k, v) :: es => (k, toJsonWithin nonFinite room v) :: toJsonEntriesWithin nonFinite room es
termination_by structural es => es

end

def write (s : Style) (v : ClaimValue) : Except WriteError Text :=
  (v.toJson s.nonFinite).map (·.write s.toStyle)

def writeWithin (s : Style) (room : Nat) (v : ClaimValue) : Except WriteError Text :=
  (v.toJsonWithin s.nonFinite room).map (·.write s.toStyle)

end SignedToken.ClaimValue
