import SignedToken.Der
import SignedToken.Key

/-!
This module contains the encoded forms of what makes up an elliptic curve key: its curve, its
point, and the structure of a private key. What is read is checked: a point lies on its curve, and
the two halves of a pair belong together.
-/

namespace SignedToken

/-! ### Curves -/

namespace Curve

def seed? : Curve → Option Nat
  | secp256r1 => some 0xc49d360886e704936a6678e1139d26b7819f7e90
  | secp384r1 => some 0xa335926aa319a27a1d00896a6773a4827acdac73
  | secp521r1 => some 0xd09e8800291cb85396cc6717393284aaa0da64ba
  | _ => none

def writeDomain (c : Curve) (withSeed : Bool) : Bytes :=
  let k := c.params
  let field := Octets.ofNat c.coordinateSize
  let seed := if withSeed then c.seed?.map fun s => Der.writeBits (Octets.ofNat 20 s) else none
  Der.writeSequence
    [Der.writeInteger 1,
      Der.writeSequence [Der.writeObjectId [1, 2, 840, 10045, 1, 1], Der.writeInteger k.p],
      Der.writeSequence
        [Der.writeOctets (field k.a), Der.writeOctets (field k.b), seed.getD []],
      Der.writeOctets (4 :: (field k.gx ++ field k.gy)),
      Der.writeInteger k.n,
      Der.writeInteger 1]

/--
The curve that a parameter stands for. All curves go by their identifier; those with a seed may be
written out as well.
-/
def ofParameter? (e : Der.Element) : Option Curve :=
  if e.tag = Der.objectIdTag then all.find? fun c => Der.objectId c.objectId == e.content
  else
    (all.filter (·.seed?.isSome)).find? fun c =>
      [true, false].any fun withSeed => c.writeDomain withSeed == Der.write e.tag e.content

def writeParameter (c : Curve) : Bytes := Der.writeObjectId c.objectId

end Curve

/-! ### Points -/

namespace PublicKey

def toOctets (k : PublicKey) : Bytes :=
  let field := Octets.ofNat k.curve.coordinateSize
  4 :: (field k.x ++ field k.y)

def ofPoint? (c : Curve) : Point → Option PublicKey
  | .infinity => none
  | .affine x y => if c.contains (.affine x y) then some ⟨c, x, y⟩ else none

/--
The point that octets write: both coordinates, the first one and whether the second one is odd, or
all three of them. Two coordinates need not be those of a point on the curve.
-/
def point? (c : Curve) : Bytes → Option Point
  | [] => none
  | mark :: rest =>
    let size := c.coordinateSize
    let x := Octets.toNat (rest.take size)
    let y := Octets.toNat (rest.drop size)
    let odd := mark &&& 1 == 1
    if (mark = 2 ∨ mark = 3) ∧ rest.length = size then c.lift? x odd
    else if (mark = 4 ∨ (mark = 6 ∨ mark = 7) ∧ decide (y % 2 = 1) = odd)
        ∧ rest.length = 2 * size then
      some (.affine x y)
    else none

def ofOctets? (c : Curve) (b : Bytes) : Option PublicKey :=
  point? c b >>= ofPoint? c

end PublicKey

/-! ### Private keys -/

namespace PrivateKey

def optionalParts? : List Der.Element → Option (Option Der.Element × Option Bytes)
  | [] => some (none, none)
  | e :: rest => do
    if e.tag = Der.contextTag 0 then
      let [parameter] ← Der.elements? e.content | none
      let (none, point) ← optionalParts? rest | none
      pure (some parameter, point)
    else if e.tag = Der.contextTag 1 ∧ rest.isEmpty then
      let bits ← Der.sole? Der.bitStringTag e.content
      let octets ← Der.wholeBits? bits
      pure (none, some octets)
    else none

def ofParts? (c : Curve) (secret : Bytes) (point : Option Bytes) : Option PrivateKey :=
  let k : PrivateKey := ⟨c, Octets.toNat secret⟩
  if secret.length = c.scalarSize ∧ k.inRange then
    match point with
    | none => some k
    | some octets => if PublicKey.point? c octets = some k.publicKey.point then some k else none
  else none

def ofOctets? (outer : Option Der.Element) (b : Bytes) : Option PrivateKey := do
  let version :: secret :: rest ← Der.sequence? b | none
  let (inner, point) ← optionalParts? rest
  let parameter ← outer <|> inner
  let c ← Curve.ofParameter? parameter
  if version = ⟨Der.integerTag, [1]⟩ ∧ secret.tag = Der.octetStringTag
      ∧ inner.all (· = parameter) then
    ofParts? c secret.content point
  else none

def toOctets (k : PrivateKey) (withCurve : Bool) : Bytes :=
  Der.writeSequence
    [Der.writeInteger 1,
      Der.writeOctets (Octets.ofNat k.curve.scalarSize k.secret),
      if withCurve then Der.write (Der.contextTag 0) k.curve.writeParameter else [],
      Der.write (Der.contextTag 1) (Der.writeBits k.publicKey.toOctets)]

end PrivateKey

end SignedToken
