import SignedToken.Verifier

/-!
This module contains the issuing of tokens. A token is encoded, signed and shown to an observer; it
leaves the signer only if all three succeed, and the observer sees each token at most once.
-/

namespace SignedToken

/--
What an observer does with a token: it returns a value, it fails with an error of some kind, or it is
interrupted, which is no error for its callers to handle.
-/
inductive Reaction where
  | returned (v : ClaimValue)
  | failed (kind : String)
  | interrupted (kind : String)
  deriving Repr

abbrev Observer := Bytes → Text → Reaction

/--
A token is withheld for the truth value `false` and for failures. An interruption passes through.
-/
def Reaction.refusal? : Reaction → Option Failure
  | returned (.bool false) => some (.known (.issue (.notObserved none)))
  | returned _ => none
  | failed kind => some (.known (.issue (.notObserved (some kind))))
  | interrupted kind => some (.unknown (.interrupted kind))

structure Signer where
  profile : Profile
  key : PrivateKey
  onCurve : key.curve = profile.curve

namespace Signer

def ofPrivate (p : Profile) (k : { k : PrivateKey // k.curve = p.curve }) : Signer :=
  ⟨p, k.val, k.property⟩

def ofKey (k : AnyKey) (p : Profile) : Except KeyError Signer :=
  (k.toPrivate p).map (ofPrivate p)

def verifier (s : Signer) : Verifier :=
  ⟨s.profile, s.key.publicKey, by rw [PrivateKey.publicKey_curve]; exact s.onCurve⟩

def signingInput (p : Profile) (payload : Bytes) : Text :=
  Base64Url.encode (Utf8.encodeAny (Header.write p))
    ++ Verifier.dot :: Base64Url.encode payload

def sign? (scheme : Scheme) (s : Signer) (payload : Bytes) : Option Text :=
  let input := signingInput s.profile payload
  (scheme.sign? s.profile s.key (Utf8.encodeAny input)).map fun sig =>
    input ++ Verifier.dot :: Base64Url.encode (sig.toBytes s.profile.coordinateSize)

structure Issuance where
  outcome : Except Failure Text
  observed : List (Bytes × Text)

def failed (e : IssueError) : Issuance :=
  ⟨.error (.known (.issue e)), []⟩

def issue (scheme : Scheme) (s : Signer) (observer : Option Observer) (t : Token) : Issuance :=
  match t.encode with
  | .error (.unwritable e) => failed (.notEncodable e)
  | .error .surrogate => ⟨.error (.unknown .surrogate), []⟩
  | .error .outOfStack => ⟨.error (.unknown .outOfStack), []⟩
  | .ok payload =>
    match s.sign? scheme payload with
    | none => failed (.notSigned s.profile)
    | some wire =>
      match observer with
      | none => ⟨.ok wire, []⟩
      | some observe =>
        match (observe payload wire).refusal? with
        | some e => ⟨.error e, [(payload, wire)]⟩
        | none => ⟨.ok wire, [(payload, wire)]⟩

def run (scheme : Scheme) (s : Signer) (observer : Option Observer) (ts : List Token) :
    List Issuance :=
  ts.map (s.issue scheme observer)

/-! ### Logging -/

def digest (wire : Text) : Text :=
  Text.hexOfBytes (Sha2.hash Sha2.sha256 (Utf8.encodeAny wire))

def issuedRecord (wire claims : Text) : LogRecord where
  level := .info
  logger := "ectoken.issued"
  message := Text.ofString "Issued token sha256=" ++ digest wire ++ Text.ofString " claims=" ++ claims

/--
The record of a token that was issued, or the kind of the error when the wire is not ASCII or the payload
is not UTF-8.
-/
def logged (payload : Bytes) (wire : Text) : Except String LogRecord :=
  if wire.any (fun c => 0x80 ≤ c.val) then .error "UnicodeEncodeError"
  else
    match Utf8.decode? payload with
    | none => .error "UnicodeDecodeError"
    | some claims => .ok (issuedRecord wire claims)

def loggingObserver : Observer := fun payload wire =>
  match logged payload wire with
  | .error kind => .failed kind
  | .ok _ => .returned .null

def Issuance.records (done : Issuance) : List LogRecord :=
  done.observed.filterMap fun (payload, wire) => (logged payload wire).toOption

end Signer

end SignedToken
