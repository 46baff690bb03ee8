import SignedToken.Entries
import SignedToken.Json

/-!
This module contains the values of claims. Callers build tokens from more than JSON: there are
sequences and mappings that can change and ones that cannot, octets, and values that have no JSON
form at all. Two values are equal when a reader of the claims could not tell them apart, so
`1`, `1.0` and `true` are one number.
-/

namespace SignedToken

inductive ClaimValue where
  | null
  | bool (b : Bool)
  | int (n : Int)
  | float (x : Binary64)
  | text (t : Text)
  | bytes (b : Bytes)
  | list (items : List ClaimValue)
  | tuple (items : List ClaimValue)
  | dict (entries : List (ClaimValue × ClaimValue))
  | readOnly (entries : List (ClaimValue × ClaimValue))
  | foreign
  deriving Repr, Inhabited

namespace ClaimValue

def kindName : ClaimValue → String
  | null => "NoneType"
  | bool _ => "bool"
  | int _ => "int"
  | float _ => "float"
  | text _ => "str"
  | bytes _ => "bytes"
  | list _ => "list"
  | tuple _ => "tuple"
  | dict _ => "dict"
  | readOnly _ => "mappingproxy"
  | foreign => "Opaque"

/--
A number, where a truth value is one or zero.
-/
def number? : ClaimValue → Option (Int ⊕ Binary64)
  | bool b => some (.inl (if b then 1 else 0))
  | int n => some (.inl n)
  | float x => some (.inr x)
  | _ => none

def sameNumber : Int ⊕ Binary64 → Int ⊕ Binary64 → Bool
  | .inl m, .inl n => m == n
  | .inl m, .inr y => y.equalsInt m
  | .inr x, .inl n => x.equalsInt n
  | .inr x, .inr y => x.equals y

mutual

/--
Equality of claim values. Sequences of different kinds differ, mappings are compared by content
alone, and a foreign value equals nothing.
-/
def equals : ClaimValue → ClaimValue → Bool
  | null, null => true
  | text s, text t => s == t
  | bytes a, bytes b => a == b
  | list xs, list ys => equalItems xs ys
  | tuple xs, tuple ys => equalItems xs ys
  | dict es, dict fs => es.length == fs.length && entriesWithin es fs
  | dict es, readOnly fs => es.length == fs.length && entriesWithin es fs
  | readOnly es, dict fs => es.length == fs.length && entriesWithin es fs
  | readOnly es, readOnly fs => es.length == fs.length && entriesWithin es fs
  | bool a, w => match w.number? with
    | some n => sameNumber (.inl (if a then 1 else 0)) n
    | none => false
  | int a, w => match w.number? with
    | some n => sameNumber (.inl a) n
    | none => false
  | float a, w => match w.number? with
    | some n => sameNumber (.inr a) n
    | none => false
  | _, _ => false
termination_by structural v => v

def equalItems : List ClaimValue → List ClaimValue → Bool
  | [], [] => true
  | x :: xs, y :: ys => equals x y && equalItems xs ys
  | _, _ => false
termination_by structural xs => xs

def entriesWithin : List (ClaimValue × ClaimValue) → List (ClaimValue × ClaimValue) → Bool
  | [], _ => true
  | (k, v) :: es, fs => fs.any (fun f => equals k f.1 && equals v f.2) && entriesWithin es fs
termination_by structural es => es

end

mutual

/--
The value of a JSON text. Of members with one name the last one counts.
-/
def ofJson : Json → ClaimValue
  | .null => null
  | .bool b => bool b
  | .int n => int n
  | .float x => float x
  | .text t => text t
  | .array items => list (ofJsonItems items)
  | .object members => dict (Entries.ofList equals (ofJsonMembers members))
termination_by structural v => v

def ofJsonItems : List Json → List ClaimValue
  | [] => []
  | x :: xs => ofJson x :: ofJsonItems xs
termination_by structural xs => xs

def ofJsonMembers : List (Text × Json) → List (ClaimValue × ClaimValue)
  | [] => []
  | (name, x) :: ms => (text name, ofJson x) :: ofJsonMembers ms
termination_by structural ms => ms

end

end ClaimValue

end SignedToken
