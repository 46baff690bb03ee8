import SignedToken.Der
import SignedToken.Key

/-!
This module contains the structures of keys that are of no use for tokens. They are read so that a
key of another kind is told from a file that holds no key; nothing but their kind is kept.
-/

namespace SignedToken.ForeignKey

/-! ### RSA -/

def witnesses : List Nat := [2, 3, 5, 7, 11, 13, 17, 19, 23, 29, 31, 37]

def isPrimeLike (n : Nat) : Bool :=
  let (s, q) := Residue.splitTwos n.log2 (n - 1)
  1 < n && witnesses.all fun a =>
    n == a || (n % a != 0 &&
      let x := Residue.pow n a q
      x == 1 || (List.range s).any fun i => Residue.pow n x (2 ^ i) == n - 1)

structure RsaNumbers where
  n : Nat
  e : Nat
  d : Nat
  p : Nat
  q : Nat
  dp : Nat
  dq : Nat
  qInv : Nat

namespace RsaNumbers

def isSound (k : RsaNumbers) : Bool :=
  isPrimeLike k.p && isPrimeLike k.q && k.p % 2 == 1 && k.q % 2 == 1 && k.n == k.p * k.q
    && 1 < k.e && k.e % 2 == 1
    && k.d * k.e % Nat.lcm (k.p - 1) (k.q - 1) == 1
    && k.dp == k.d % (k.p - 1) && k.dq == k.d % (k.q - 1)
    && k.qInv < k.p && k.qInv * k.q % k.p == 1

end RsaNumbers

def numbers? (b : Bytes) : Option (List Nat) :=
  Der.sequence? b >>= List.mapM fun e =>
    if e.tag = Der.integerTag then Der.natural? e.content else none

def rsaPrivate? (b : Bytes) : Option String :=
  match numbers? b with
  | some [0, n, e, d, p, q, dp, dq, qInv] =>
    if (RsaNumbers.mk n e d p q dp dq qInv).isSound then some "RSAPrivateKey" else none
  | _ => none

def rsaPublic? (b : Bytes) : Option String :=
  match numbers? b with
  | some [_, _] => some "RSAPublicKey"
  | _ => none

/-! ### DSA -/

def dsaPrivate? (b : Bytes) : Option String :=
  match numbers? b with
  | some [0, _, _, _, _, _] => some "DSAPrivateKey"
  | _ => none

/-! ### Keys inside of a structure that names their algorithm -/

def rawKinds : List (Nat × String × Nat) :=
  [(110, "X25519", 32), (111, "X448", 56), (112, "Ed25519", 32), (113, "Ed448", 57)]

def isEmptyParameter : Option Der.Element → Bool
  | none => true
  | some e => e = ⟨Der.nullTag, []⟩

def isSchemeParameter : Option Der.Element → Bool
  | none => true
  | some e =>
    e.tag == Der.sequenceTag &&
      match Der.elements? e.content with
      | some es => es.all fun part => (List.range 4).any fun i => part.tag == Der.contextTag i.toUInt8
      | none => false

def numberCount : Option Der.Element → Nat
  | none => 0
  | some e => ((numbers? (Der.write e.tag e.content)).getD []).length

def ofAlgorithm? (oid : Bytes) (parameter : Option Der.Element) (half : KeyHalf) (octets : Bytes) :
    Option String :=
  let is := fun (numbers : List Nat) => oid == Der.objectId numbers
  let isNumber := (Der.sole? Der.integerTag octets >>= Der.natural?).isSome
  let named := fun (kind : String) =>
    match half with
    | .privateHalf => kind ++ "PrivateKey"
    | .publicHalf => kind ++ "PublicKey"
  if is [1, 2, 840, 113549, 1, 1, 1] && isEmptyParameter parameter
      || is [1, 2, 840, 113549, 1, 1, 10] && isSchemeParameter parameter then
    match half with
    | .privateHalf => rsaPrivate? octets
    | .publicHalf => rsaPublic? octets
  else if is [1, 2, 840, 10040, 4, 1] && numberCount parameter == 3 && isNumber then
    some (named "DSA")
  else if (is [1, 2, 840, 113549, 1, 3, 1] && (2 ≤ numberCount parameter && numberCount parameter ≤ 3)
      || is [1, 2, 840, 10046, 2, 1] && (3 ≤ numberCount parameter && numberCount parameter ≤ 5))
      && isNumber then
    some (named "DH")
  else
    match rawKinds.find? fun (last, _, _) => is [1, 3, 101, last] with
    | none => none
    | some (_, kind, size) =>
      let raw := match half with
        | .privateHalf => Der.sole? Der.octetStringTag octets
        | .publicHalf => some octets
      if parameter.isNone && raw.any (·.length == size) then some (named kind) else none

end SignedToken.ForeignKey
