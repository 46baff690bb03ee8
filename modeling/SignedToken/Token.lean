import SignedToken.Claim.Freeze
import SignedToken.Claim.Jsonable
import SignedToken.Claim.Writer
import SignedToken.Defect
import SignedToken.Stack
import SignedToken.Text.Utf8

/-!
This module contains tokens: the claims about a user that a signature covers. Four claims are
declared, all others are carried along as they are. A token never changes once it is built, and its
encoding is canonical: members sorted by name, no blanks, UTF-8.
-/

namespace SignedToken

/--
The claims of a token. `expiration` is in milliseconds since the epoch. No name in `assertions` or
`extra` repeats, and no extra claim has the name of a declared one.
-/
structure Token where
  expiration : Int
  username : Text
  groups : List Text
  assertions : List (Text × Text)
  extra : List (Text × ClaimValue)
  deriving Repr, Inhabited

namespace Token

def expirationName : Text := Text.ofString "expiration"
def usernameName : Text := Text.ofString "username"
def groupsName : Text := Text.ofString "groups"
def assertionsName : Text := Text.ofString "assertions"

def declaredNames : List Text :=
  [expirationName, usernameName, groupsName, assertionsName]

def assertionsValue (assertions : List (Text × Text)) : ClaimValue :=
  .readOnly (assertions.map fun (name, t) => (.text name, .text t))

def heldClaims (t : Token) : List (Text × ClaimValue) :=
  [(expirationName, .int t.expiration), (usernameName, .text t.username),
    (groupsName, .tuple (t.groups.map .text)), (assertionsName, assertionsValue t.assertions)]
    ++ t.extra

def claims (t : Token) : List (Text × ClaimValue) :=
  t.heldClaims.map fun (name, v) => (name, v.thaw)

def claimsValue (t : Token) : ClaimValue :=
  .dict (t.claims.map fun (name, v) => (.text name, v))

def equals (s t : Token) : Bool :=
  s.expiration == t.expiration && s.username == t.username && s.groups == t.groups
    && (assertionsValue s.assertions).equals (assertionsValue t.assertions)
    && (ClaimValue.readOnly (s.extra.map fun (name, v) => (.text name, v))).equals
      (.readOnly (t.extra.map fun (name, v) => (.text name, v)))

/--
A token is valid up to and including the millisecond of its expiration.
-/
def isExpired (t : Token) (now : Int) : Bool :=
  t.expiration < now

/--
Why a token has no encoding: a claim has no JSON text, the text has no UTF-8 form, or the claims are
nested more deeply than the stack reaches.
-/
inductive EncodeError where
  | unwritable (cause : ClaimValue.WriteError)
  | surrogate
  | outOfStack
  deriving DecidableEq, Repr

/--
How many levels of claims are within reach when they are thawed. A level takes a call for the value and
one for its items; the encoding and the claims are above, the innermost value and the check of its kind
below.
-/
def thawRoom : Nat := Stack.levels 6 2

/--
How many levels of claims are within reach when they are written. A level takes a call; the encoding and
three layers of the writer are above.
-/
def writeRoom : Nat := Stack.levels 4 1

theorem thawRoom_eq : thawRoom = 490 := rfl

theorem writeRoom_eq : writeRoom = 982 := rfl

def thawDepth (t : Token) : Nat :=
  (ClaimValue.dict (t.heldClaims.map fun (name, v) => (.text name, v))).thawDepth

def encode (t : Token) : Except EncodeError Bytes :=
  if thawRoom < t.thawDepth then .error .outOfStack
  else
    match t.claimsValue.writeWithin .canonical writeRoom with
    | .error .outOfStack => .error .outOfStack
    | .error e => .error (.unwritable e)
    | .ok text =>
      match Utf8.encode? text with
      | some b => .ok b
      | none => .error .surrogate

/--
What assigning to a claim does: nothing that is visible for a private name, and an error else.
-/
def assign (_ : Token) (name : Text) : Checked Unit :=
  if name.head? = some Text.underscore then .ok () else .fail .immutable [.name name]

end Token

end SignedToken
