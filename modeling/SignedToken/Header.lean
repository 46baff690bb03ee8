import SignedToken.Error
import SignedToken.Json.Reader
import SignedToken.Stack
import SignedToken.Text.Encoding

/-!
This module contains the headers of tokens: what is written, and what is taken. A header is JSON in
any encoding form; of repeated members the last one counts. The only extension known is `b64`, by
which a payload is kept out of the wire.
-/

namespace SignedToken

structure Header where
  members : List (Text × Json)

namespace Header

def write (p : Profile) : Text :=
  Text.ofString ("\x7b\"alg\":\"" ++ p.algorithm ++ "\"\x7d")

/--
Headers are read more leniently than payloads, as deep as the stack reaches. A level takes a call; the
check of the wire, two steps to its header and three layers of the reader are above.
-/
def dialect : Json.Dialect where
  loneSurrogates := true
  maxDepth := Stack.levels 6 1
  countsEmpty := true
  limitsFractions := false

def member? (h : Header) (name : String) : Option Json :=
  Json.lastMember? (Text.ofString name) h.members

def detachesPayload (h : Header) : Bool :=
  match h.member? "b64" with
  | some (.bool false) => true
  | _ => false

def hasCritical (h : Header) : Bool :=
  (h.member? "crit").isSome

def declared (h : Header) : ClaimValue :=
  match h.member? "alg" with
  | some x => .ofJson x
  | none => .null

def checkKeyId (h : Header) : Except HeaderError Unit :=
  match h.member? "kid" with
  | none => .ok ()
  | some (.text _) => .ok ()
  | some _ => .error .keyIdNotText

def checkCriticalNames (h : Header) : List Json → Except HeaderError Unit
  | [] => .ok ()
  | .text name :: rest =>
    if name ≠ Text.ofString "b64" then .error (.criticalUnknown name)
    else if (Json.lastMember? name h.members).isNone then .error (.criticalMissing name)
    else h.checkCriticalNames rest
  | _ => .error .criticalNotText

def checkCritical (h : Header) : Except HeaderError Unit :=
  match h.member? "crit" with
  | none => .ok ()
  | some (.array (name :: names)) => h.checkCriticalNames (name :: names)
  | some _ => .error .criticalNotList

def check (h : Header) : Except HeaderError Unit :=
  match h.checkKeyId with
  | .error e => .error e
  | .ok () => h.checkCritical

/--
The header of a segment's octets. `payloadEmpty` tells whether the payload has no segment.
-/
def read (octets : Bytes) (payloadEmpty : Bool) : Except HeaderError Header :=
  match TextEncoding.decodeDetected? octets >>= Json.read? dialect with
  | none => .error .unreadable
  | some (.object members) =>
    let h : Header := ⟨members⟩
    if h.detachesPayload && !payloadEmpty then .error .payloadNotEmpty else .ok h
  | some _ => .error .notObject

end Header

end SignedToken
