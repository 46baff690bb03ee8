import SignedToken.Base64Url
import SignedToken.Header

/-!
This module contains the compact form of tokens, read more leniently than a wire has to be written:
the header ends at the first dot, the signature starts behind the last one, and each segment stands
for what the lenient reader makes of it.
-/

namespace SignedToken

structure Compact where
  header : Header
  payload : Bytes
  signature : Bytes
  signingInput : Bytes

namespace Compact

def dotOctet : UInt8 := 0x2E

/--
The parts of a compact form. Headers are read before the other two segments are looked at.
-/
def read (t : Text) : Except CompactError Compact :=
  match Octets.cutAtLast? dotOctet (Utf8.encodeAny t) with
  | none => .error .segmentsMissing
  | some (signingInput, signature) =>
    match Octets.cutAt? dotOctet signingInput with
    | none => .error .segmentsMissing
    | some (header, payload) =>
      match Base64Url.decodeOctets? header with
      | none => .error .headerUnreadable
      | some octets =>
        match Header.read octets payload.isEmpty with
        | .error e => .error (.header e)
        | .ok header =>
          match Base64Url.decodeOctets? payload, Base64Url.decodeOctets? signature with
          | none, _ => .error .payloadUnreadable
          | _, none => .error .signatureUnreadable
          | some payload, some signature => .ok ⟨header, payload, signature, signingInput⟩

def unverifiedHeader (t : Text) : Except CompactError Header :=
  match read t with
  | .error e => .error e
  | .ok c =>
    match c.header.check with
    | .error e => .error (.header e)
    | .ok () => .ok c.header

end Compact

end SignedToken
