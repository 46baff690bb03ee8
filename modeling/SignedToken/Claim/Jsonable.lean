import SignedToken.Binary64.Shortest
import SignedToken.Claim
import SignedToken.Text.Integer
import SignedToken.Text.Utf8

/-!
This module contains the reduction of claim values to those of JSON: octets become the text they
encode, tuples become lists, and the keys of mappings become texts. A read-only mapping and a
foreign value are not reduced, which is told apart from values that are broken.
-/

namespace SignedToken.ClaimValue

/--
Why a value has no JSON form: it is of a kind that is not reduced, or it is malformed, that is
nested too deeply, no UTF-8, or a key that cannot be written.
-/
inductive Irreducible where
  | foreign
  | malformed
  deriving DecidableEq, Repr

/--
Values are nested at most this deep, the innermost one included.
-/
def maxDepth : Nat := 255

def decodeBytes (b : Bytes) : Except Irreducible Text :=
  match Utf8.decode? b with
  | some t => .ok t
  | none => .error .malformed

mutual

def keyText : ClaimValue → Except Irreducible Text
  | null => .ok (Text.ofString "None")
  | bool b => .ok (Text.ofString (if b then "true" else "false"))
  | int n => if hasNumeral n then .ok (Text.ofInt n) else .error .malformed
  | float x => .ok (FloatLayout.standard.render x)
  | text t => if t.any CodePoint.isSurrogate then .error .malformed else .ok t
  | bytes b => decodeBytes b
  | tuple items =>
    match keyTexts items with
    | .ok texts => .ok (Text.join [CodePoint.ofChar ','] texts)
    | .error e => .error e
  | _ => .error .foreign
termination_by structural v => v

def keyTexts : List ClaimValue → Except Irreducible (List Text)
  | [] => .ok []
  | x :: xs =>
    match keyText x with
    | .error e => .error e
    | .ok t =>
      match keyTexts xs with
      | .error e => .error e
      | .ok ts => .ok (t :: ts)
termination_by structural xs => xs

end

mutual

def reduce : Nat → ClaimValue → Except Irreducible ClaimValue
  | 0, _ => .error .malformed
  | _ + 1, bytes b => (decodeBytes b).map text
  | depth + 1, list items => (reduceItems depth items).map list
  | depth + 1, tuple items => (reduceItems depth items).map list
  | depth + 1, dict entries => (reduceEntries depth [] entries).map dict
  | _ + 1, readOnly _ => .error .foreign
  | _ + 1, foreign => .error .foreign
  | _ + 1, v => .ok v
termination_by structural _ v => v

def reduceItems (depth : Nat) : List ClaimValue → Except Irreducible (List ClaimValue)
  | [] => .ok []
  | x :: xs =>
    match reduce depth x with
    | .error e => .error e
    | .ok y =>
      match reduceItems depth xs with
      | .error e => .error e
      | .ok ys => .ok (y :: ys)
termination_by structural xs => xs

/--
The entries in their order. A key whose text an earlier key had replaces the value of that one.
-/
def reduceEntries (depth : Nat) (done : List (ClaimValue × ClaimValue)) :
    List (ClaimValue × ClaimValue) → Except Irreducible (List (ClaimValue × ClaimValue))
  | [] => .ok done
  | (k, v) :: es =>
    match keyText k with
    | .error e => .error e
    | .ok t =>
      match reduce depth v with
      | .error e => .error e
      | .ok w => reduceEntries depth (Entries.put equals (text t) w done) es
termination_by structural es => es

end

def jsonable (v : ClaimValue) : Except Irreducible ClaimValue :=
  reduce maxDepth v

end SignedToken.ClaimValue
