import SignedToken.Text

/-!
This module contains the elliptic curves that keys may lie on, and the arithmetic of their points.
All curves are over a prime field and have a prime number of points, so every point but the one at
infinity generates all of them.
-/

namespace SignedToken

inductive Curve where
  | secp192r1
  | secp224r1
  | secp256r1
  | secp384r1
  | secp521r1
  | secp256k1
  | brainpoolP256r1
  | brainpoolP384r1
  | brainpoolP512r1
  deriving DecidableEq, Repr

namespace Curve

def all : List Curve :=
  [secp192r1, secp224r1, secp256r1, secp384r1, secp521r1,
    secp256k1, brainpoolP256r1, brainpoolP384r1, brainpoolP512r1]

def name : Curve → String
  | secp192r1 => "secp192r1"
  | secp224r1 => "secp224r1"
  | secp256r1 => "secp256r1"
  | secp384r1 => "secp384r1"
  | secp521r1 => "secp521r1"
  | secp256k1 => "secp256k1"
  | brainpoolP256r1 => "brainpoolP256r1"
  | brainpoolP384r1 => "brainpoolP384r1"
  | brainpoolP512r1 => "brainpoolP512r1"

def objectId : Curve → List Nat
  | secp192r1 => [1, 2, 840, 10045, 3, 1, 1]
  | secp224r1 => [1, 3, 132, 0, 33]
  | secp256r1 => [1, 2, 840, 10045, 3, 1, 7]
  | secp384r1 => [1, 3, 132, 0, 34]
  | secp521r1 => [1, 3, 132, 0, 35]
  | secp256k1 => [1, 3, 132, 0, 10]
  | brainpoolP256r1 => [1, 3, 36, 3, 3, 2, 8, 1, 1, 7]
  | brainpoolP384r1 => [1, 3, 36, 3, 3, 2, 8, 1, 1, 11]
  | brainpoolP512r1 => [1, 3, 36, 3, 3, 2, 8, 1, 1, 13]

/--
The curve `y ^ 2 = x ^ 3 + a * x + b` over the integers modulo `p`, a point that generates it, and
the number `n` of its points.
-/
structure Params where
  p : Nat
  a : Nat
  b : Nat
  gx : Nat
  gy : Nat
  n : Nat

def params : Curve → Params
  | secp192r1 =>
    { p := 0xfffffffffffffffffffffffffffffffeffffffffffffffff
      a := 0xfffffffffffffffffffffffffffffffefffffffffffffffc
      b := 0x64210519e59c80e70fa7e9ab72243049feb8deecc146b9b1
      gx := 0x188da80eb03090f67cbf20eb43a18800f4ff0afd82ff1012
      gy := 0x7192b95ffc8da78631011ed6b24cdd573f977a11e794811
      n := 0xffffffffffffffffffffffff99def836146bc9b1b4d22831 }
  | secp224r1 =>
    { p := 0xffffffffffffffffffffffffffffffff000000000000000000000001
      a := 0xfffffffffffffffffffffffffffffffefffffffffffffffffffffffe
      b := 0xb4050a850c04b3abf54132565044b0b7d7bfd8ba270b39432355ffb4
      gx := 0xb70e0cbd6bb4bf7f321390b94a03c1d356c21122343280d6115c1d21
      gy := 0xbd376388b5f723fb4c22dfe6cd4375a05a07476444d5819985007e34
      n := 0xffffffffffffffffffffffffffff16a2e0b8f03e13dd29455c5c2a3d }
  | secp256r1 =>
    { p := 0xffffffff00000001000000000000000000000000ffffffffffffffffffffffff
      a := 0xffffffff00000001000000000000000000000000fffffffffffffffffffffffc
      b := 0x5ac635d8aa3a93e7b3ebbd55769886bc651d06b0cc53b0f63bce3c3e27d2604b
      gx := 0x6b17d1f2e12c4247f8bce6e563a440f277037d812deb33a0f4a13945d898c296
      gy := 0x4fe342e2fe1a7f9b8ee7eb4a7c0f9e162bce33576b315ececbb6406837bf51f5
      n := 0xffffffff00000000ffffffffffffffffbce6faada7179e84f3b9cac2fc632551 }
  | secp384r1 =>
    { p := 0xfffffffffffffffffffffffffffffffffffffffffffffffffffffffffffffffeffffffff0000000000000000ffffffff
      a := 0xfffffffffffffffffffffffffffffffffffffffffffffffffffffffffffffffeffffffff0000000000000000fffffffc
      b := 0xb3312fa7e23ee7e4988e056be3f82d19181d9c6efe8141120314088f5013875ac656398d8a2ed19d2a85c8edd3ec2aef
      gx := 0xaa87ca22be8b05378eb1c71ef320ad746e1d3b628ba79b9859f741e082542a385502f25dbf55296c3a545e3872760ab7
      gy := 0x3617de4a96262c6f5d9e98bf9292dc29f8f41dbd289a147ce9da3113b5f0b8c00a60b1ce1d7e819d7a431d7c90ea0e5f
      n := 0xffffffffffffffffffffffffffffffffffffffffffffffffc7634d81f4372ddf581a0db248b0a77aecec196accc52973 }
  | secp521r1 =>
    { p := 0x1ffffffffffffffffffffffffffffffffffffffffffffffffffffffffffffffffffffffffffffffffffffffffffffffffffffffffffffffffffffffffffffffffff
      a := 0x1fffffffffffffffffffffffffffffffffffffffffffffffffffffffffffffffffffffffffffffffffffffffffffffffffffffffffffffffffffffffffffffffffc
      b := 0x51953eb9618e1c9a1f929a21a0b68540eea2da725b99b315f3b8b489918ef109e156193951ec7e937b1652c0bd3bb1bf073573df883d2c34f1ef451fd46b503f00
      gx := 0xc6858e06b70404e9cd9e3ecb662395b4429c648139053fb521f828af606b4d3dbaa14b5e77efe75928fe1dc127a2ffa8de3348b3c1856a429bf97e7e31c2e5bd66
      gy := 0x11839296a789a3bc0045c8a5fb42c7d1bd998f54449579b446817afbd17273e662c97ee72995ef42640c550b9013fad0761353c7086a272c24088be94769fd16650
      n := 0x1fffffffffffffffffffffffffffffffffffffffffffffffffffffffffffffffffa51868783bf2f966b7fcc0148f709a5d03bb5c9b8899c47aebb6fb71e91386409 }
  | secp256k1 =>
    { p := 0xfffffffffffffffffffffffffffffffffffffffffffffffffffffffefffffc2f
      a := 0x0
      b := 0x7
      gx := 0x79be667ef9dcbbac55a06295ce870b07029bfcdb2dce28d959f2815b16f81798
      gy := 0x483ada7726a3c4655da4fbfc0e1108a8fd17b448a68554199c47d08ffb10d4b8
      n := 0xfffffffffffffffffffffffffffffffebaaedce6af48a03bbfd25e8cd0364141 }
  | brainpoolP256r1 =>
    { p := 0xa9fb57dba1eea9bc3e660a909d838d726e3bf623d52620282013481d1f6e5377
      a := 0x7d5a0975fc2c3057eef67530417affe7fb8055c126dc5c6ce94a4b44f330b5d9
      b := 0x26dc5c6ce94a4b44f330b5d9bbd77cbf958416295cf7e1ce6bccdc18ff8c07b6
      gx := 0x8bd2aeb9cb7e57cb2c4b482ffc81b7afb9de27e1e3bd23c23a4453bd9ace3262
      gy := 0x547ef835c3dac4fd97f8461a14611dc9c27745132ded8e545c1d54c72f046997
      n := 0xa9fb57dba1eea9bc3e660a909d838d718c397aa3b561a6f7901e0e82974856a7 }
  | brainpoolP384r1 =>
    { p := 0x8cb91e82a3386d280f5d6f7e50e641df152f7109ed5456b412b1da197fb71123acd3a729901d1a71874700133107ec53
      a := 0x7bc382c63d8c150c3c72080ace05afa0c2bea28e4fb22787139165efba91f90f8aa5814a503ad4eb04a8c7dd22ce2826
      b := 0x4a8c7dd22ce28268b39b55416f0447c2fb77de107dcd2a62e880ea53eeb62d57cb4390295dbc9943ab78696fa504c11
      gx := 0x1d1c64f068cf45ffa2a63a81b7c13f6b8847a3e77ef14fe3db7fcafe0cbd10e8e826e03436d646aaef87b2e247d4af1e
      gy := 0x8abe1d7520f9c2a45cb1eb8e95cfd55262b70b29feec5864e19c054ff99129280e4646217791811142820341263c5315
      n := 0x8cb91e82a3386d280f5d6f7e50e641df152f7109ed5456b31f166e6cac0425a7cf3ab6af6b7fc3103b883202e9046565 }
  | brainpoolP512r1 =>
    { p := 0xaadd9db8dbe9c48b3fd4e6ae33c9fc07cb308db3b3c9d20ed6639cca703308717d4d9b009bc66842aecda12ae6a380e62881ff2f2d82c68528aa6056583a48f3
      a := 0x7830a3318b603b89e2327145ac234cc594cbdd8d3df91610a83441caea9863bc2ded5d5aa8253aa10a2ef1c98b9ac8b57f1117a72bf2c7b9e7c1ac4d77fc94ca
      b := 0x3df91610a83441caea9863bc2ded5d5aa8253aa10a2ef1c98b9ac8b57f1117a72bf2c7b9e7c1ac4d77fc94cadc083e67984050b75ebae5dd2809bd638016f723
      gx := 0x81aee4bdd82ed9645a21322e9c4c6a9385ed9f70b5d916c1b43b62eef4d0098eff3b1f78e2d0d48d50d1687b93b97d5f7c6d5047406a5e688b352209bcb9f822
      gy := 0x7dde385d566332ecc0eabfa9cf7822fdf209f70024a57b1aa000c55b881f8111b2dcde494a5f485e5bca4bd88a2763aed1ca2b2fa8f0540678cd1e0f3ad80892
      n := 0xaadd9db8dbe9c48b3fd4e6ae33c9fc07cb308db3b3c9d20ed6639cca70330870553e5c414ca92619418661197fac10471db1d381085ddaddb58796829ca90069 }

def coordinateSize (c : Curve) : Nat :=
  (c.params.p.log2 + 8) / 8

def scalarSize (c : Curve) : Nat :=
  (c.params.n.log2 + 8) / 8

end Curve

inductive Point where
  | infinity
  | affine (x y : Nat)
  deriving DecidableEq, Repr

namespace Residue

def sub (m x y : Nat) : Nat :=
  (x + (m - y)) % m

def pow (m base exponent : Nat) : Nat :=
  go (exponent.log2 + 1) 1
where
  go : Nat → Nat → Nat
    | 0, r => r
    | i + 1, r =>
      let r := r * r % m
      go i (if exponent.testBit i then r * base % m else r)

def inv (p x : Nat) : Nat :=
  pow p x (p - 2)

def nonResidue (p : Nat) : Nat :=
  ((List.range 64).map (· + 2)).find? (fun x => pow p x ((p - 1) / 2) == p - 1) |>.getD 0

def splitTwos : Nat → Nat → Nat × Nat
  | 0, n => (0, n)
  | fuel + 1, n =>
    if n ≠ 0 ∧ n % 2 = 0 then
      let (s, q) := splitTwos fuel (n / 2)
      (s + 1, q)
    else (0, n)

def sqrt? (p v : Nat) : Option Nat :=
  let (s, q) := splitTwos p.log2 (p - 1)
  let r := go p s s (pow p (nonResidue p) q) (pow p v q) (pow p v ((q + 1) / 2))
  if r * r % p = v then some r else none
where
  order : Nat → Nat → Nat → Nat → Nat
    | 0, _, _, i => i
    | fuel + 1, p, t, i => if t ≤ 1 then i else order fuel p (t * t % p) (i + 1)
  go (p : Nat) : Nat → Nat → Nat → Nat → Nat → Nat
    | 0, _, _, _, r => r
    | fuel + 1, m, c, t, r =>
      if t ≤ 1 then r
      else
        let i := order m p t 0
        let b := pow p c (2 ^ (m - i - 1))
        go p fuel i (b * b % p) (t * (b * b % p) % p) (r * b % p)

end Residue

/--
A point as `(x / z ^ 2, y / z ^ 3)`, which saves a division for each step. The point at infinity has
`z = 0`.
-/
structure Jacobian where
  x : Nat
  y : Nat
  z : Nat

namespace Jacobian

open Residue

def infinity : Jacobian := ⟨1, 1, 0⟩

def ofPoint : Point → Jacobian
  | .infinity => infinity
  | .affine x y => ⟨x, y, 1⟩

def toPoint (p : Nat) (a : Jacobian) : Point :=
  if a.z = 0 then .infinity
  else
    let i := inv p a.z
    let ii := i * i % p
    .affine (a.x * ii % p) (a.y * (ii * i % p) % p)

def double (c : Curve.Params) (q : Jacobian) : Jacobian :=
  let p := c.p
  if q.z = 0 then q
  else
    let yy := q.y * q.y % p
    let zz := q.z * q.z % p
    let s := 4 * q.x * yy % p
    let m := (3 * q.x * q.x + c.a * (zz * zz % p)) % p
    let x := sub p (m * m % p) (2 * s % p)
    ⟨x, sub p (m * sub p s x % p) (8 * yy * yy % p), 2 * q.y * q.z % p⟩

def add (c : Curve.Params) (q r : Jacobian) : Jacobian :=
  let p := c.p
  if q.z = 0 then r
  else if r.z = 0 then q
  else
    let qz := q.z * q.z % p
    let rz := r.z * r.z % p
    let u := q.x * rz % p
    let s := q.y * (rz * r.z % p) % p
    let h := sub p (r.x * qz % p) u
    let d := sub p (r.y * (qz * q.z % p) % p) s
    if h = 0 then
      if d = 0 then double c q else infinity
    else
      let hh := h * h % p
      let hhh := hh * h % p
      let v := u * hh % p
      let x := sub p (d * d % p) ((hhh + 2 * v) % p)
      ⟨x, sub p (d * sub p v x % p) (s * hhh % p), h * (q.z * r.z % p) % p⟩

def mul (c : Curve.Params) (k : Nat) (q : Jacobian) : Jacobian :=
  go (k.log2 + 1) infinity
where
  go : Nat → Jacobian → Jacobian
    | 0, r => r
    | i + 1, r =>
      let r := double c r
      go i (if k.testBit i then add c r q else r)

end Jacobian

namespace Curve

def contains (c : Curve) : Point → Bool
  | .infinity => true
  | .affine x y =>
    let k := c.params
    x < k.p && y < k.p && y * y % k.p == (x * x * x + k.a * x + k.b) % k.p

def generator (c : Curve) : Point :=
  .affine c.params.gx c.params.gy

def mul (c : Curve) (k : Nat) (q : Point) : Point :=
  ((Jacobian.ofPoint q).mul c.params k).toPoint c.params.p

def mulAdd (c : Curve) (j : Nat) (q : Point) (k : Nat) (r : Point) : Point :=
  (((Jacobian.ofPoint q).mul c.params j).add c.params ((Jacobian.ofPoint r).mul c.params k)).toPoint
    c.params.p

def lift? (c : Curve) (x : Nat) (odd : Bool) : Option Point :=
  let k := c.params
  if x < k.p then
    match Residue.sqrt? k.p ((x * x * x + k.a * x + k.b) % k.p) with
    | none => none
    | some y =>
      if decide (y % 2 = 1) == odd then some (.affine x y)
      else if y = 0 then none
      else some (.affine x (k.p - y))
  else none

end Curve

end SignedToken
