import SignedToken.Curve.Ecdsa
import SignedToken.Profile

/-!
This module contains keys. Files and callers may bring keys of many kinds; tokens are signed and
checked with keys on the curves of the profiles only.
-/

namespace SignedToken

structure PublicKey where
  curve : Curve
  x : Nat
  y : Nat
  deriving DecidableEq, Repr

def PublicKey.point (k : PublicKey) : Point :=
  .affine k.x k.y

structure PrivateKey where
  curve : Curve
  secret : Nat
  deriving DecidableEq, Repr

/--
The public half of a private key. The secret is never a multiple of the order of the curve, so
there always is a point.
-/
def PrivateKey.publicKey (k : PrivateKey) : PublicKey :=
  match k.curve.mul k.secret k.curve.generator with
  | .affine x y => ⟨k.curve, x, y⟩
  | .infinity => ⟨k.curve, 0, 0⟩

theorem PrivateKey.publicKey_curve (k : PrivateKey) : k.publicKey.curve = k.curve := by
  unfold PrivateKey.publicKey
  split <;> rfl

def PrivateKey.inRange (k : PrivateKey) : Bool :=
  1 ≤ k.secret && k.secret < k.curve.params.n

def PrivateKey.isSound (k : PrivateKey) : Bool :=
  k.inRange && k.curve.contains k.publicKey.point

/--
Whatever is handed in as a key; of those that are of no use here only the kind is known.
-/
inductive AnyKey where
  | ecPrivate (k : PrivateKey)
  | ecPublic (k : PublicKey)
  | other (kind : String)
  deriving DecidableEq, Repr

def AnyKey.kindName : AnyKey → String
  | ecPrivate _ => "ECPrivateKey"
  | ecPublic _ => "ECPublicKey"
  | other kind => kind

inductive KeyHalf where
  | privateHalf
  | publicHalf
  deriving DecidableEq, Repr

def KeyHalf.name : KeyHalf → String
  | privateHalf => "private"
  | publicHalf => "public"

structure Scheme where
  sign? : Profile → PrivateKey → Bytes → Option Ecdsa.Signature
  accepts : Profile → PublicKey → Bytes → Ecdsa.Signature → Bool

def Scheme.ecdsa : Scheme where
  sign? p k message := Ecdsa.sign? k.curve p.hash k.secret (Sha2.hash p.hash message)
  accepts p k message sig := Ecdsa.accepts k.curve k.point (Sha2.hash p.hash message) sig

def Scheme.failing (s : Scheme) : Scheme :=
  { s with sign? := fun _ _ _ => none }

end SignedToken
