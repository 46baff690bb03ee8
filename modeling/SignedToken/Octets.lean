import SignedToken.Text

/-!
This module contains numbers as octets in big-endian order.
-/

namespace SignedToken.Octets

def ofNat : Nat → Nat → Bytes
  | 0, _ => []
  | width + 1, n => (n / 256 ^ width % 256).toUInt8 :: ofNat width n

def ofNat? (width n : Nat) : Option Bytes :=
  if n < 256 ^ width then some (ofNat width n) else none

def toNat (b : Bytes) : Nat :=
  b.foldl (fun n x => n * 256 + x.toNat) 0

def cutAt? (sep : UInt8) (b : Bytes) : Option (Bytes × Bytes) :=
  match b.dropWhile (· != sep) with
  | [] => none
  | _ :: after => some (b.takeWhile (· != sep), after)

def cutAtLast? (sep : UInt8) (b : Bytes) : Option (Bytes × Bytes) :=
  (cutAt? sep b.reverse).map fun (after, before) => (before.reverse, after.reverse)

end SignedToken.Octets
