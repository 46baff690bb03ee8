import SignedToken.Curve
import SignedToken.Sha2

/-!
This module contains ECDSA signatures: their arithmetic, a way to derive the nonce from the secret
and the message so that no source of randomness is needed, and the fixed-width form of a signature.
-/

namespace SignedToken.Ecdsa

structure Signature where
  r : Nat
  s : Nat
  deriving DecidableEq, Repr

def leadingBits (c : Curve) (b : Bytes) : Nat :=
  Octets.toNat b / 2 ^ (8 * b.length - (c.params.n.log2 + 1))

def accepts (c : Curve) (q : Point) (digest : Bytes) (sig : Signature) : Bool :=
  let n := c.params.n
  if 1 ≤ sig.r ∧ sig.r < n ∧ 1 ≤ sig.s ∧ sig.s < n then
    let w := Residue.inv n sig.s
    let u := leadingBits c digest % n * w % n
    let v := sig.r * w % n
    match c.mulAdd u c.generator v q with
    | .infinity => false
    | .affine x _ => x % n == sig.r
  else false

def signWith? (c : Curve) (secret : Nat) (digest : Bytes) (nonce : Nat) : Option Signature :=
  let n := c.params.n
  if nonce = 0 ∨ n ≤ nonce then none
  else
    match c.mul nonce c.generator with
    | .infinity => none
    | .affine x _ =>
      let r := x % n
      let s := Residue.inv n nonce * ((leadingBits c digest + r * secret) % n) % n
      if r = 0 ∨ s = 0 then none else some ⟨r, s⟩

structure NonceState where
  key : Bytes
  value : Bytes

namespace NonceState

def hashOn (h : Sha2.Variant) (st : NonceState) : NonceState :=
  { st with value := Sha2.hmac h st.key st.value }

def reseed (h : Sha2.Variant) (st : NonceState) (mark : UInt8) (seed : Bytes) : NonceState :=
  hashOn h { st with key := Sha2.hmac h st.key (st.value ++ mark :: seed) }

def start (h : Sha2.Variant) (seed : Bytes) : NonceState :=
  let empty : NonceState :=
    ⟨List.replicate h.digestSize 0, List.replicate h.digestSize 1⟩
  (empty.reseed h 0 seed).reseed h 1 seed

def octets (h : Sha2.Variant) (size : Nat) : Nat → NonceState → Bytes × NonceState
  | 0, st => ([], st)
  | fuel + 1, st =>
    if size = 0 then ([], st)
    else
      let st := st.hashOn h
      let (more, st') := octets h (size - h.digestSize) fuel st
      (st.value ++ more, st')

end NonceState

/--
The signature of a digest with the first derived nonce that gives one. Out of a hundred nonces one
does, short of a broken hash function.
-/
def sign? (c : Curve) (h : Sha2.Variant) (secret : Nat) (digest : Bytes) : Option Signature :=
  let size := c.scalarSize
  let seed := Octets.ofNat size secret
    ++ Octets.ofNat size (leadingBits c digest % c.params.n)
  go size 100 (.start h seed)
where
  go (size : Nat) : Nat → NonceState → Option Signature
    | 0, _ => none
    | fuel + 1, st =>
      let (octets, st) := st.octets h size size
      match signWith? c secret digest (leadingBits c octets) with
      | some sig => some sig
      | none => go size fuel (st.reseed h 0 [])

def Signature.toBytes (size : Nat) (sig : Signature) : Bytes :=
  Octets.ofNat size sig.r ++ Octets.ofNat size sig.s

def Signature.ofBytes? (size : Nat) (b : Bytes) : Option Signature :=
  if b.length = 2 * size then
    some ⟨Octets.toNat (b.take size), Octets.toNat (b.drop size)⟩
  else none

end SignedToken.Ecdsa
