import SignedToken.Curve
import SignedToken.Sha2

/-!
This module contains signature profiles: an algorithm name together with the one curve and the one
hash function that belong to it.
-/

namespace SignedToken

inductive Profile where
  | es256
  | es384
  | es512
  deriving DecidableEq, Repr, Inhabited

namespace Profile

def all : List Profile := [es256, es384, es512]

def algorithm : Profile → String
  | es256 => "ES256"
  | es384 => "ES384"
  | es512 => "ES512"

def curve : Profile → Curve
  | es256 => .secp256r1
  | es384 => .secp384r1
  | es512 => .secp521r1

def jwkCurve : Profile → String
  | es256 => "P-256"
  | es384 => "P-384"
  | es512 => "P-521"

def hash : Profile → Sha2.Variant
  | es256 => Sha2.sha256
  | es384 => Sha2.sha384
  | es512 => Sha2.sha512

def coordinateSize (p : Profile) : Nat :=
  p.curve.coordinateSize

def ofName? (name : Text) : Option Profile :=
  all.find? fun p => Text.ofString p.algorithm == name

end Profile

end SignedToken
