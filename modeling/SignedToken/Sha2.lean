import SignedToken.Octets

/-!
This module contains the SHA-2 hash functions. One algorithm over words of any width serves all of
them: the constants of the narrow words are the upper halves of those of the wide ones.
-/

namespace SignedToken.Sha2

/--
The amounts of the four mixing functions: three rotations for each of the two that mix the state,
two rotations and a shift for each of the two that stretch a block.
-/
structure Amounts where
  state0 : Nat × Nat × Nat
  state1 : Nat × Nat × Nat
  block0 : Nat × Nat × Nat
  block1 : Nat × Nat × Nat

structure Variant where
  width : Nat
  rounds : Nat
  amounts : Amounts
  initial : List Nat
  digestSize : Nat
  blockSize : Nat

/--
The fractional parts of the cube roots of the first eighty primes, in units of `2 ^ (-64)`.
-/
def roundConstants : List Nat :=
  [ 0x428a2f98d728ae22, 0x7137449123ef65cd, 0xb5c0fbcfec4d3b2f, 0xe9b5dba58189dbbc,
    0x3956c25bf348b538, 0x59f111f1b605d019, 0x923f82a4af194f9b, 0xab1c5ed5da6d8118,
    0xd807aa98a3030242, 0x12835b0145706fbe, 0x243185be4ee4b28c, 0x550c7dc3d5ffb4e2,
    0x72be5d74f27b896f, 0x80deb1fe3b1696b1, 0x9bdc06a725c71235, 0xc19bf174cf692694,
    0xe49b69c19ef14ad2, 0xefbe4786384f25e3, 0x0fc19dc68b8cd5b5, 0x240ca1cc77ac9c65,
    0x2de92c6f592b0275, 0x4a7484aa6ea6e483, 0x5cb0a9dcbd41fbd4, 0x76f988da831153b5,
    0x983e5152ee66dfab, 0xa831c66d2db43210, 0xb00327c898fb213f, 0xbf597fc7beef0ee4,
    0xc6e00bf33da88fc2, 0xd5a79147930aa725, 0x06ca6351e003826f, 0x142929670a0e6e70,
    0x27b70a8546d22ffc, 0x2e1b21385c26c926, 0x4d2c6dfc5ac42aed, 0x53380d139d95b3df,
    0x650a73548baf63de, 0x766a0abb3c77b2a8, 0x81c2c92e47edaee6, 0x92722c851482353b,
    0xa2bfe8a14cf10364, 0xa81a664bbc423001, 0xc24b8b70d0f89791, 0xc76c51a30654be30,
    0xd192e819d6ef5218, 0xd69906245565a910, 0xf40e35855771202a, 0x106aa07032bbd1b8,
    0x19a4c116b8d2d0c8, 0x1e376c085141ab53, 0x2748774cdf8eeb99, 0x34b0bcb5e19b48a8,
    0x391c0cb3c5c95a63, 0x4ed8aa4ae3418acb, 0x5b9cca4f7763e373, 0x682e6ff3d6b2b8a3,
    0x748f82ee5defb2fc, 0x78a5636f43172f60, 0x84c87814a1f0ab72, 0x8cc702081a6439ec,
    0x90befffa23631e28, 0xa4506cebde82bde9, 0xbef9a3f7b2c67915, 0xc67178f2e372532b,
    0xca273eceea26619c, 0xd186b8c721c0c207, 0xeada7dd6cde0eb1e, 0xf57d4f7fee6ed178,
    0x06f067aa72176fba, 0x0a637dc5a2c898a6, 0x113f9804bef90dae, 0x1b710b35131c471b,
    0x28db77f523047d84, 0x32caab7b40c72493, 0x3c9ebe0a15c9bebc, 0x431d67c49c100d4c,
    0x4cc5d4becb3e42b6, 0x597f299cfc657e2a, 0x5fcb6fab3ad6faec, 0x6c44198c4a475817]

/--
The fractional parts of the square roots of the first eight primes.
-/
def initial512 : List Nat :=
  [ 0x6a09e667f3bcc908, 0xbb67ae8584caa73b, 0x3c6ef372fe94f82b, 0xa54ff53a5f1d36f1,
    0x510e527fade682d1, 0x9b05688c2b3e6c1f, 0x1f83d9abfb41bd6b, 0x5be0cd19137e2179]

/--
The fractional parts of the square roots of the next eight primes.
-/
def initial384 : List Nat :=
  [ 0xcbbb9d5dc1059ed8, 0x629a292a367cd507, 0x9159015a3070dd17, 0x152fecd8f70e5939,
    0x67332667ffc00b31, 0x8eb44a8768581511, 0xdb0c2e0d64f98fa7, 0x47b5481dbefa4fa4]

def narrowAmounts : Amounts where
  state0 := (2, 13, 22)
  state1 := (6, 11, 25)
  block0 := (7, 18, 3)
  block1 := (17, 19, 10)

def wideAmounts : Amounts where
  state0 := (28, 34, 39)
  state1 := (14, 18, 41)
  block0 := (1, 8, 7)
  block1 := (19, 61, 6)

def sha256 : Variant where
  width := 32
  rounds := 64
  amounts := narrowAmounts
  initial := initial512.map (· / 2 ^ 32)
  digestSize := 32
  blockSize := 64

def sha384 : Variant where
  width := 64
  rounds := 80
  amounts := wideAmounts
  initial := initial384
  digestSize := 48
  blockSize := 128

def sha512 : Variant where
  width := 64
  rounds := 80
  amounts := wideAmounts
  initial := initial512
  digestSize := 64
  blockSize := 128

structure State (w : Nat) where
  a : BitVec w
  b : BitVec w
  c : BitVec w
  d : BitVec w
  e : BitVec w
  f : BitVec w
  g : BitVec w
  h : BitVec w

def State.toList (s : State w) : List (BitVec w) :=
  [s.a, s.b, s.c, s.d, s.e, s.f, s.g, s.h]

def State.ofList (ws : List (BitVec w)) : State w :=
  match ws with
  | [a, b, c, d, e, f, g, h] => ⟨a, b, c, d, e, f, g, h⟩
  | _ => ⟨0, 0, 0, 0, 0, 0, 0, 0⟩

def State.add (s t : State w) : State w :=
  ⟨s.a + t.a, s.b + t.b, s.c + t.c, s.d + t.d, s.e + t.e, s.f + t.f, s.g + t.g, s.h + t.h⟩

def mixState (amounts : Nat × Nat × Nat) (x : BitVec w) : BitVec w :=
  x.rotateRight amounts.1 ^^^ x.rotateRight amounts.2.1 ^^^ x.rotateRight amounts.2.2

def mixBlock (amounts : Nat × Nat × Nat) (x : BitVec w) : BitVec w :=
  x.rotateRight amounts.1 ^^^ x.rotateRight amounts.2.1 ^^^ (x >>> amounts.2.2)

def choose (x y z : BitVec w) : BitVec w :=
  (x &&& y) ^^^ (~~~x &&& z)

def majority (x y z : BitVec w) : BitVec w :=
  (x &&& y) ^^^ (x &&& z) ^^^ (y &&& z)

def round (v : Variant) (s : State v.width) (constant word : BitVec v.width) : State v.width :=
  let t := s.h + mixState v.amounts.state1 s.e + choose s.e s.f s.g + constant + word
  let u := mixState v.amounts.state0 s.a + majority s.a s.b s.c
  ⟨t + u, s.a, s.b, s.c, s.d + t, s.e, s.f, s.g⟩

def slide (v : Variant) (window : List (BitVec v.width)) : List (BitVec v.width) :=
  let word := window.getD 0 0 + mixBlock v.amounts.block0 (window.getD 1 0) + window.getD 9 0
    + mixBlock v.amounts.block1 (window.getD 14 0)
  window.drop 1 ++ [word]

def constants (v : Variant) : List (BitVec v.width) :=
  (roundConstants.take v.rounds).map fun k => BitVec.ofNat v.width (k / 2 ^ (64 - v.width))

def compress (v : Variant) (s : State v.width) (block : List (BitVec v.width)) : State v.width :=
  let mixed := (constants v).foldl
    (fun (s, window) constant => (round v s constant (window.getD 0 0), slide v window)) (s, block)
  s.add mixed.1

def words (w : Nat) (b : Bytes) : List (BitVec w) :=
  go b.length b []
where
  go : Nat → Bytes → List (BitVec w) → List (BitVec w)
    | 0, _, read => read.reverse
    | fuel + 1, b, read =>
      if b.isEmpty then read.reverse
      else
        let word := Octets.toNat (b.take (w / 8))
        go fuel (b.drop (w / 8)) (BitVec.ofNat w word :: read)

def pad (v : Variant) (message : Bytes) : Bytes :=
  let lengthSize := v.blockSize / 8
  let zeros := (2 * v.blockSize - 1 - lengthSize - message.length % v.blockSize) % v.blockSize
  message ++ 0x80 :: (List.replicate zeros 0 ++ Octets.ofNat lengthSize (8 * message.length))

def hash (v : Variant) (message : Bytes) : Bytes :=
  let start : State v.width := .ofList (v.initial.map (BitVec.ofNat v.width))
  let padded := words v.width (pad v message)
  let final := go (padded.length / 16) start padded
  (final.toList.flatMap fun x => Octets.ofNat (v.width / 8) x.toNat).take v.digestSize
where
  go : Nat → State v.width → List (BitVec v.width) → State v.width
    | 0, s, _ => s
    | blocks + 1, s, ws => go blocks (compress v s (ws.take 16)) (ws.drop 16)

def hmac (v : Variant) (key message : Bytes) : Bytes :=
  let key := if v.blockSize < key.length then hash v key else key
  let key := key ++ List.replicate (v.blockSize - key.length) 0
  hash v (key.map (· ^^^ 0x5C) ++ hash v (key.map (· ^^^ 0x36) ++ message))

end SignedToken.Sha2
