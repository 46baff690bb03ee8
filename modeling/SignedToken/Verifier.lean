import SignedToken.Compact
import SignedToken.Log

/-!
This module contains the checking of tokens. A wire is checked in stages: its form, its header, the
algorithm, the signature, the payload, and last the expiration; the first stage that fails decides.
The clock is read at the last stage only, and a verifier keeps nothing from one wire to the next.
-/

namespace SignedToken

def AnyKey.toPublic (k : AnyKey) (p : Profile) :
    Except KeyError { k : PublicKey // k.curve = p.curve } :=
  match k with
  | .ecPublic k =>
    if h : k.curve = p.curve then .ok ⟨k, h⟩ else .error (.wrongCurve p.curve k.curve)
  | k => .error (.wrongKind k.kindName)

def AnyKey.toPrivate (k : AnyKey) (p : Profile) :
    Except KeyError { k : PrivateKey // k.curve = p.curve } :=
  match k with
  | .ecPrivate k =>
    if h : k.curve = p.curve then .ok ⟨k, h⟩ else .error (.wrongCurve p.curve k.curve)
  | k => .error (.wrongKind k.kindName)

structure Verifier where
  profile : Profile
  key : PublicKey
  onCurve : key.curve = profile.curve

namespace Verifier

def ofPublic (p : Profile) (k : { k : PublicKey // k.curve = p.curve }) : Verifier :=
  ⟨p, k.val, k.property⟩

def ofKey (k : AnyKey) (p : Profile) : Except KeyError Verifier :=
  (k.toPublic p).map (ofPublic p)

def dot : CodePoint := CodePoint.ofChar '.'

def decodeSegment (t : Text) : Except ParseError Bytes :=
  (Base64Url.decode t).mapError .segment

def checkSegments : List Text → Except ParseError Unit
  | [] => .ok ()
  | t :: ts =>
    match decodeSegment t with
    | .error e => .error e
    | .ok _ => checkSegments ts

def checkForm (wire : Text) : Except ParseError Unit :=
  let segments := Text.splitOn dot wire
  if segments.length ≠ 3 then .error (.segmentCount segments.length) else checkSegments segments

/--
The payload of a compact form whose signature the key accepts. The compact form is read once more,
so nothing is taken over from the look at its header.
-/
def verifiedPayload (scheme : Scheme) (v : Verifier) (wire : Text) :
    Except VerificationError Bytes :=
  match Compact.read wire with
  | .error e => .error (.malformed (.compact e))
  | .ok c =>
    if c.header.detachesPayload then
      if c.header.hasCritical then .error (.malformed .detachedPayload) else .error .unverifiable
    else
      match Ecdsa.Signature.ofBytes? v.profile.coordinateSize c.signature with
      | none => .error .signatureInvalid
      | some sig =>
        if scheme.accepts v.profile v.key c.signingInput sig then .ok c.payload
        else .error .signatureInvalid

def authenticate (scheme : Scheme) (v : Verifier) (wire : ClaimValue) :
    Except VerificationError Token :=
  match wire with
  | .text wire =>
    match checkForm wire with
    | .error e => .error (.malformed e)
    | .ok () =>
      match Compact.unverifiedHeader wire with
      | .error e => .error (.malformed (.header e))
      | .ok header =>
        match header.declared with
        | .text name =>
          if name ≠ Text.ofString v.profile.algorithm then
            .error (.algorithmMismatch v.profile (.text name))
          else
            match v.verifiedPayload scheme wire with
            | .error e => .error e
            | .ok payload => (Token.decode payload).mapError .payloadInvalid
        | declared => .error (.algorithmMismatch v.profile declared)
  | v => .error (.malformed (.notText v.kindName))

/--
The last stage. An expiration or a time too long to be written leaves the report of it unwritten.
-/
def checkExpiration (t : Token) (now : Int) : Except Failure Token :=
  if t.isExpired now then
    if hasNumeral t.expiration && hasNumeral now then
      .error (.known (.verification (.expired t.expiration now)))
    else .error (.unknown .numeralTooLong)
  else .ok t

def verify (scheme : Scheme) (v : Verifier) (now : Int) (wire : ClaimValue) :
    Except Failure Token :=
  match v.authenticate scheme wire with
  | .error e => .error (.known (.verification e))
  | .ok t => checkExpiration t now

/--
One call of a verifier whose clock shows `clock i` when it is read for the `i`-th time: the result,
and how often the clock has been read by then.
-/
def step (scheme : Scheme) (v : Verifier) (clock : Nat → Int) (reads : Nat) (wire : ClaimValue) :
    Except Failure Token × Nat :=
  match v.authenticate scheme wire with
  | .error e => (.error (.known (.verification e)), reads)
  | .ok t => (checkExpiration t (clock reads), reads + 1)

def run (scheme : Scheme) (v : Verifier) (clock : Nat → Int) (reads : Nat) :
    List ClaimValue → List (Except Failure Token × Nat)
  | [] => []
  | wire :: wires =>
    let (result, reads) := v.step scheme clock reads wire
    (result, reads) :: v.run scheme clock reads wires

def loggerName : String := "ectoken.crypto.verifier"

def records : Except Failure Token → List LogRecord
  | .error (.known (.verification (.algorithmMismatch _ declared))) =>
    [⟨.debug, loggerName, Text.ofString "Rejected token declaring algorithm " ++ declared.display⟩]
  | .error (.known (.verification .signatureInvalid)) =>
    [⟨.debug, loggerName, Text.ofString "Rejected token with invalid signature"⟩]
  | .error (.known (.verification (.expired expiration now))) =>
    [⟨.debug, loggerName, Text.ofString "Rejected token expired at " ++ Text.ofInt expiration
      ++ Text.ofString " (now " ++ Text.ofInt now ++ Text.ofString ")"⟩]
  | _ => []

end Verifier

end SignedToken
