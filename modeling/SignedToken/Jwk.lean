import SignedToken.Json.Quoted
import SignedToken.Verifier

/-!
This module contains the JSON form of public keys. Coordinates have a fixed width, so leading zeros
are kept and all keys of one profile have texts of one length.
-/

namespace SignedToken

structure Jwk where
  algorithm : Text
  curve : Text
  x : Text
  y : Text
  deriving DecidableEq, Repr

namespace Jwk

def coordinate (p : Profile) (n : Nat) : Text :=
  Base64Url.encode (Octets.ofNat p.coordinateSize n)

def ofPublic (p : Profile) (k : PublicKey) : Jwk where
  algorithm := Text.ofString p.algorithm
  curve := Text.ofString p.jwkCurve
  x := coordinate p k.x
  y := coordinate p k.y

def ofKey (k : AnyKey) (p : Profile) : Except KeyError Jwk :=
  (k.toPublic p).map fun k => ofPublic p k.val

def members (j : Jwk) : List (Text × Text) :=
  [(Text.ofString "kty", Text.ofString "EC"), (Text.ofString "use", Text.ofString "sig"),
    (Text.ofString "alg", j.algorithm), (Text.ofString "crv", j.curve), (Text.ofString "x", j.x),
    (Text.ofString "y", j.y)]

def render (j : Jwk) : Text :=
  let member := fun ((name, value) : Text × Text) =>
    Json.quoted false name ++ CodePoint.ofChar ':' :: Json.quoted false value
  CodePoint.ofChar '\x7b' :: (Text.join [CodePoint.ofChar ','] (j.members.map member)
    ++ [CodePoint.ofChar '\x7d'])

end Jwk

end SignedToken
