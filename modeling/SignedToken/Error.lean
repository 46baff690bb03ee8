import SignedToken.Base64Url
import SignedToken.Claim.Display
import SignedToken.Directory.Path
import SignedToken.Key
import SignedToken.Token.Lifetime

/-!
This module contains the errors of the library, as causes, and the messages that tell of them. They
form three families: what goes wrong with keys, with issuing a token, and with checking one. What
is told by none of them is a failure that passes through.
-/

namespace SignedToken

inductive KeyError where
  | wrongKind (kind : String)
  | wrongCurve (expected actual : Curve)
  | unreadable (target : Path) (cause : FileError)
  | undecodable (half : KeyHalf) (target : Path)
  | notGenerated (curve : Curve)
  | unwritable (target : Path) (cause : FileError)
  deriving DecidableEq, Repr

inductive IssueError where
  | notEncodable (cause : ClaimValue.WriteError)
  | notSigned (profile : Profile)
  | notObserved (cause : Option String)
  deriving DecidableEq, Repr

inductive HeaderError where
  | unreadable
  | notObject
  | payloadNotEmpty
  | keyIdNotText
  | criticalNotList
  | criticalNotText
  | criticalUnknown (name : Text)
  | criticalMissing (name : Text)
  deriving DecidableEq, Repr

inductive CompactError where
  | segmentsMissing
  | headerUnreadable
  | header (cause : HeaderError)
  | payloadUnreadable
  | signatureUnreadable
  deriving DecidableEq, Repr

inductive ParseError where
  | notText (kind : String)
  | segmentCount (n : Nat)
  | segment (cause : Base64Url.SegmentError)
  | header (cause : CompactError)
  | compact (cause : CompactError)
  | detachedPayload
  deriving DecidableEq, Repr

inductive VerificationError where
  | malformed (cause : ParseError)
  | algorithmMismatch (expected : Profile) (declared : ClaimValue)
  | signatureInvalid
  | unverifiable
  | payloadInvalid (defects : List Defect)
  | expired (expiration now : Int)
  deriving Repr

inductive TokenError where
  | key (e : KeyError)
  | issue (e : IssueError)
  | verification (e : VerificationError)
  deriving Repr

inductive Uncaught where
  | surrogate
  | outOfStack
  | numeralTooLong
  | embeddedNull
  | defects (ds : List Defect)
  | noSum (cause : ClaimValue.SumError)
  | interrupted (kind : String)
  deriving DecidableEq, Repr

inductive Failure where
  | known (e : TokenError)
  | unknown (cause : Uncaught)
  deriving Repr

namespace KeyError

def title : KeyError → String
  | wrongKind _ => "KeyTypeError"
  | wrongCurve .. => "KeyTypeError"
  | unreadable .. => "KeyLoadError"
  | undecodable .. => "KeyLoadError"
  | notGenerated _ => "KeyGenerationError"
  | unwritable .. => "WriteError"

def message : KeyError → Text
  | wrongKind kind => Text.ofString ("expected an EC key, but got a key of type " ++ kind)
  | wrongCurve expected actual =>
    Text.ofString ("expected the key to use " ++ expected.name ++ ", but it's using " ++ actual.name)
  | unreadable target cause =>
    Text.ofString "cannot read " ++ target.toText ++ Text.ofString (": " ++ cause.message ++ ": ")
      ++ ClaimValue.displayText target.toText
  | undecodable half target =>
    Text.ofString ("cannot decode " ++ half.name ++ " key in ") ++ target.toText
  | notGenerated curve => Text.ofString ("cannot generate " ++ curve.name ++ " key")
  | unwritable target cause =>
    Text.ofString "cannot write " ++ target.toText ++ Text.ofString (": " ++ cause.message)

end KeyError

namespace IssueError

def title : IssueError → String
  | notEncodable _ => "EncodingError"
  | notSigned _ => "SignError"
  | notObserved _ => "ObserverError"

def message : IssueError → Text
  | notEncodable cause => Text.ofString ("token cannot be encoded: " ++ cause.message)
  | notSigned profile => Text.ofString (profile.algorithm ++ " signing failed")
  | notObserved _ => Text.ofString "issuance observer reported failure"

end IssueError

namespace HeaderError

def message : HeaderError → Text
  | unreadable => Text.ofString "Invalid header string"
  | notObject => Text.ofString "Invalid header string: must be a json object"
  | payloadNotEmpty => Text.ofString "Payload segment must be empty when 'b64' is false."
  | keyIdNotText => Text.ofString "Key ID header parameter must be a string"
  | criticalNotList => Text.ofString "Invalid 'crit' header: must be a non-empty list"
  | criticalNotText => Text.ofString "Invalid 'crit' header: values must be strings"
  | criticalUnknown name => Text.ofString "Unsupported critical extension: " ++ name
  | criticalMissing name =>
    Text.ofString "Critical extension '" ++ name ++ Text.ofString "' is missing from headers"

end HeaderError

namespace CompactError

def message : CompactError → Text
  | segmentsMissing => Text.ofString "Not enough segments"
  | headerUnreadable => Text.ofString "Invalid header padding"
  | header cause => cause.message
  | payloadUnreadable => Text.ofString "Invalid payload padding"
  | signatureUnreadable => Text.ofString "Invalid crypto padding"

end CompactError

namespace ParseError

def message : ParseError → Text
  | notText kind => Text.ofString ("expected str, got " ++ kind)
  | segmentCount n => Text.ofString ("expected 3 segments, got " ++ toString n)
  | segment .invalid => Text.ofString "segment is not valid base64url"
  | segment .notCanonical => Text.ofString "segment is not canonical base64url"
  | header cause => Text.ofString "malformed token header: " ++ cause.message
  | compact cause => Text.ofString "malformed token: " ++ cause.message
  | detachedPayload =>
    Text.ofString ("malformed token: It is required that you pass in a value for the "
      ++ "\"detached_payload\" argument to decode a message having the b64 header set to false.")

end ParseError

namespace VerificationError

def title : VerificationError → String
  | malformed _ => "ParseError"
  | algorithmMismatch .. => "AlgorithmMismatchError"
  | signatureInvalid => "SignatureInvalidError"
  | unverifiable => "SignatureInvalidError"
  | payloadInvalid _ => "PayloadDecodeError"
  | expired .. => "TokenExpiredError"

def message : VerificationError → Text
  | malformed cause => cause.message
  | algorithmMismatch expected declared =>
    Text.ofString ("expected algorithm " ++ expected.algorithm ++ ", token declares ")
      ++ declared.display
  | signatureInvalid => Text.ofString "token signature is invalid"
  | unverifiable =>
    Text.ofString ("token cannot be verified: The 'b64' header parameter requires 'b64' to be "
      ++ "listed in 'crit'.")
  | payloadInvalid _ => Text.ofString "payload is not a valid token"
  | expired expiration now =>
    Text.ofString "token expired at " ++ Text.ofInt expiration ++ Text.ofString ", now is "
      ++ Text.ofInt now

end VerificationError

namespace TokenError

def title : TokenError → String
  | key e => e.title
  | issue e => e.title
  | verification e => e.title

def family : TokenError → String
  | key _ => "KeyMaterialError"
  | issue _ => "IssueError"
  | verification _ => "VerificationError"

def message : TokenError → Text
  | key e => e.message
  | issue e => e.message
  | verification e => e.message

end TokenError

end SignedToken
