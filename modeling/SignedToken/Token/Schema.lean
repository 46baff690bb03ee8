import SignedToken.Claim.Display
import SignedToken.Json.Reader
import SignedToken.Token

/-!
This module contains the two ways to a token: from claim values that a caller hands in, and from
the octets of a payload. Both check the declared claims in their order and report every defect;
they differ in what they take for a text, a sequence and a mapping.
-/

namespace SignedToken

namespace Token

def checkText (place : List Step) : ClaimValue → Checked Text
  | .text t => .ok t
  | .bytes b =>
    match Utf8.decode? b with
    | some t => .ok t
    | none => .fail .notUtf8 place
  | _ => .fail .notText place

def checkExpiration : Option ClaimValue → Checked Int
  | none => .fail .missing [.name expirationName]
  | some (.int n) => .ok n
  | some _ => .fail .notInteger [.name expirationName]

def checkUsername : Option ClaimValue → Checked Text
  | none => .ok []
  | some v => checkText [.name usernameName] v

def checkGroupItems (items : List ClaimValue) : Checked (List Text) :=
  .all (items.mapIdx fun i v => checkText [.name groupsName, .index i] v)

def checkGroups : Option ClaimValue → Checked (List Text)
  | none => .ok []
  | some (.list items) => checkGroupItems items
  | some (.tuple items) => checkGroupItems items
  | some _ => .fail .notSequence [.name groupsName]

/--
A surrogate in a name shows as the marks of the three octets it would have in UTF-8.
-/
def legible (t : Text) : Text :=
  t.flatMap fun c => if c.isSurrogate then List.replicate 3 0xFFFD else [c]

/--
The step to the entry of a key: texts by name, small numbers by number, others as they display.
-/
def keyStep (k : ClaimValue) : Step :=
  match k with
  | .text t => .name (legible t)
  | .bool b => .index (if b then 1 else 0)
  | .int n => if -(2 ^ 63) ≤ n ∧ n < 2 ^ 63 then .index n else .name k.display
  | _ => .name k.display

def keyMark : Step := .name (Text.ofString "[key]")

def checkAssertion (entry : ClaimValue × ClaimValue) : Checked (Text × Text) :=
  let place := [.name assertionsName, keyStep entry.1]
  .both (checkText (place ++ [keyMark]) entry.1) (checkText place entry.2)

def checkAssertionEntries (entries : List (ClaimValue × ClaimValue)) :
    Checked (List (Text × Text)) :=
  (Checked.all (entries.map checkAssertion)).map (Entries.ofList (· == ·))

def checkAssertions : Option ClaimValue → Checked (List (Text × Text))
  | none => .ok []
  | some (.dict entries) => checkAssertionEntries entries
  | some (.readOnly entries) => checkAssertionEntries entries
  | some _ => .fail .notMapping [.name assertionsName]

/--
Extra claims are held in their JSON form. Those that are of no such form stay as they are, which
shows when the token is encoded.
-/
def holdExtra (v : ClaimValue) : Checked ClaimValue :=
  match v.jsonable with
  | .ok v => .ok v.freeze
  | .error .foreign => .ok v
  | .error .malformed => .fail .malformedValue []

def extraOf (claims : List (Text × α)) : List (Text × α) :=
  claims.filter fun (name, _) => !declaredNames.contains name

def holdExtras : List (Text × ClaimValue) → Checked (List (Text × ClaimValue))
  | [] => .ok []
  | (name, v) :: rest =>
    match holdExtra v with
    | .error ds => .error ds
    | .ok v =>
      match holdExtras rest with
      | .error ds => .error ds
      | .ok held => .ok ((name, v) :: held)

/--
The token of checked declared claims. The extra ones are looked at when these are in order.
-/
def ofChecked (expiration : Checked Int) (username : Checked Text) (groups : Checked (List Text))
    (assertions : Checked (List (Text × Text))) (extra : List (Text × ClaimValue)) :
    Checked Token :=
  match Checked.both expiration (.both username (.both groups assertions)) with
  | .error ds => .error ds
  | .ok (expiration, username, groups, assertions) =>
    (holdExtras extra).map fun extra => { expiration, username, groups, assertions, extra }

def ofClaims (claims : List (Text × ClaimValue)) : Checked Token :=
  ofChecked (checkExpiration (Entries.get? expirationName claims))
    (checkUsername (Entries.get? usernameName claims))
    (checkGroups (Entries.get? groupsName claims))
    (checkAssertions (Entries.get? assertionsName claims)) (extraOf claims)

/--
Payloads are strict JSON, nested at most 200 deep, with numbers of limited length.
-/
def payloadDialect : Json.Dialect where
  loneSurrogates := false
  maxDepth := 200
  countsEmpty := false
  limitsFractions := true

def readText (place : List Step) : Json → Checked Text
  | .text t => .ok t
  | _ => .fail .notText place

def readExpiration : Option Json → Checked Int
  | none => .fail .missing [.name expirationName]
  | some (.int n) => .ok n
  | some _ => .fail .notInteger [.name expirationName]

def readUsername : Option Json → Checked Text
  | none => .ok []
  | some x => readText [.name usernameName] x

def readGroups : Option Json → Checked (List Text)
  | none => .ok []
  | some (.array items) =>
    .all (items.mapIdx fun i x => readText [.name groupsName, .index i] x)
  | some _ => .fail .notSequence [.name groupsName]

def readAssertion (member : Text × Json) : Checked (Text × Text) :=
  (readText [.name assertionsName, .name member.1] member.2).map (member.1, ·)

def readAssertions : Option Json → Checked (List (Text × Text))
  | none => .ok []
  | some (.object members) =>
    (Checked.all (members.map readAssertion)).map (Entries.ofList (· == ·))
  | some _ => .fail .notMapping [.name assertionsName]

def ofMembers (members : List (Text × Json)) : Checked Token :=
  ofChecked (readExpiration (Json.lastMember? expirationName members))
    (readUsername (Json.lastMember? usernameName members))
    (readGroups (Json.lastMember? groupsName members))
    (readAssertions (Json.lastMember? assertionsName members))
    (Entries.ofList (· == ·) ((extraOf members).map fun (name, x) => (name, .ofJson x)))

def decode (payload : Bytes) : Checked Token :=
  match Utf8.decode? payload >>= Json.read? payloadDialect with
  | none => .fail .notJson []
  | some (.object members) => ofMembers members
  | some _ => .fail .notObject []

end Token

end SignedToken
