import SignedToken.Key.Ec
import SignedToken.Key.Foreign

/-!
This module contains the structures that hold a key of any kind beside the name of its algorithm,
one for each half of a pair.
-/

namespace SignedToken

structure AlgorithmName where
  objectId : Bytes
  parameter : Option Der.Element
  deriving DecidableEq, Repr

namespace AlgorithmName

def ofElement? (e : Der.Element) : Option AlgorithmName :=
  if e.tag = Der.sequenceTag then
    match Der.elements? e.content with
    | some (oid :: rest) =>
      if oid.tag = Der.objectIdTag ∧ Der.isObjectId oid.content ∧ rest.length ≤ 1 then
        some ⟨oid.content, rest.head?⟩
      else none
    | _ => none
  else none

def ellipticCurve : List Nat := [1, 2, 840, 10045, 2, 1]

def isEllipticCurve (a : AlgorithmName) : Bool :=
  a.objectId == Der.objectId ellipticCurve

def write (c : Curve) : Bytes :=
  Der.writeSequence [Der.writeObjectId ellipticCurve, c.writeParameter]

end AlgorithmName

namespace PrivateKey

def toPkcs8 (k : PrivateKey) : Bytes :=
  Der.writeSequence
    [Der.writeInteger 0, AlgorithmName.write k.curve, Der.writeOctets (k.toOctets false)]

end PrivateKey

namespace PublicKey

def toSpki (k : PublicKey) : Bytes :=
  Der.writeSequence [AlgorithmName.write k.curve, Der.writeBits k.toOctets]

end PublicKey

namespace AnyKey

def isAttribute (e : Der.Element) : Bool :=
  e.tag == Der.sequenceTag &&
    match Der.elements? e.content with
    | some [oid, values] =>
      oid.tag == Der.objectIdTag && Der.isObjectId oid.content && values.tag == Der.setTag
        && (Der.set? values.content).isSome
    | _ => false

def isTrailer : List Der.Element → Bool
  | [] => true
  | [e] => e.tag == Der.contextTag 0 && (Der.set? e.content).any (·.all isAttribute)
  | _ => false

def ofPkcs8? (b : Bytes) : Option AnyKey := do
  let version :: name :: octets :: rest ← Der.sequence? b | none
  let name ← AlgorithmName.ofElement? name
  if version = ⟨Der.integerTag, [0]⟩ ∧ octets.tag = Der.octetStringTag ∧ isTrailer rest then
    if name.isEllipticCurve then
      let outer ← name.parameter
      (PrivateKey.ofOctets? outer octets.content).map ecPrivate
    else
      (ForeignKey.ofAlgorithm? name.objectId name.parameter .privateHalf octets.content).map other
  else none

def ofSpki? (b : Bytes) : Option AnyKey := do
  let [name, bits] ← Der.sequence? b | none
  let name ← AlgorithmName.ofElement? name
  if bits.tag = Der.bitStringTag then
    let octets ← Der.wholeBits? bits.content
    if name.isEllipticCurve then
      let parameter ← name.parameter
      let c ← Curve.ofParameter? parameter
      (PublicKey.ofOctets? c octets).map ecPublic
    else
      (ForeignKey.ofAlgorithm? name.objectId name.parameter .publicHalf octets).map other
  else none

end AnyKey

end SignedToken
