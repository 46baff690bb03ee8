import SignedToken.Proofs.Curve.Order
import SignedToken.Proofs.Key.Ec

/-!
This module contains the forms in which octets write the point of a key, and that each of them is read as
that point on the curves of the profiles. Where the second coordinate is left out, it is the root of a
square that is odd or even as told.
-/

namespace SignedToken

theorem Curve.lift?_eq_some {c : Curve} [Fact c.params.p.Prime] (hp : c.params.p % 4 = 3) {x y : Nat}
    (h : c.contains (.affine x y) = true) : c.lift? x (decide (y % 2 = 1)) = some (.affine x y) := by
  obtain ⟨⟨hx, hy⟩, hsquare⟩ := contains_affine_iff.1 h
  obtain ⟨r, hroot, hr, hrr⟩ := Residue.sqrt?_eq_some hp y
  rw [lift?, if_pos hx, ← hsquare, hroot]
  dsimp only
  obtain rfl | hadd := Residue.eq_or_add_eq hr hy hrr
  . rw [if_pos (beq_self_eq_true _)]
  . have hparity : ¬ (decide (r % 2 = 1) == decide (y % 2 = 1)) = true := by
      rw [beq_iff_eq, decide_eq_decide]
      omega
    rw [if_neg hparity, if_neg (by omega)]
    have hy' : c.params.p - r = y := by omega
    rw [hy']

inductive PointForm where
  | plain
  | compressed
  | hybrid
  deriving DecidableEq, Repr

namespace PointForm

def write (k : PublicKey) : PointForm → Bytes
  | plain => k.toOctets
  | compressed => (if k.y % 2 = 1 then 3 else 2) :: Octets.ofNat k.curve.coordinateSize k.x
  | hybrid =>
    (if k.y % 2 = 1 then 7 else 6)
      :: (Octets.ofNat k.curve.coordinateSize k.x ++ Octets.ofNat k.curve.coordinateSize k.y)

variable {k : PublicKey} {p : Profile}

theorem point?_compressed {c : Curve} {mark : UInt8} {x : Nat} (hx : x < c.params.p)
    (hmark : mark = 2 ∨ mark = 3)
    : PublicKey.point? c (mark :: Octets.ofNat c.coordinateSize x) = c.lift? x (mark &&& 1 == 1) := by
  have htake : (Octets.ofNat c.coordinateSize x).take c.coordinateSize
      = Octets.ofNat c.coordinateSize x := List.take_of_length_le (by rw [Octets.length_ofNat])
  rw [PublicKey.point?, htake, Octets.toNat_ofNat (Nat.lt_of_lt_of_le hx c.field_le),
    if_pos ⟨hmark, Octets.length_ofNat _ _⟩]

theorem isReadFrom_compressed (hcurve : k.curve = p.curve) (h : k.IsOnCurve)
    : k.IsReadFrom (compressed.write k) := by
  have hprime : Fact k.curve.params.p.Prime := hcurve ▸ ⟨p.prime_field⟩
  have hmod : k.curve.params.p % 4 = 3 := by
    rw [hcurve]
    cases p <;> decide
  obtain ⟨⟨hx, -⟩, -⟩ := Curve.contains_affine_iff.1 h
  have hlift := Curve.lift?_eq_some hmod h
  unfold PublicKey.IsReadFrom
  rw [write]
  by_cases hodd : k.y % 2 = 1
  . rw [if_pos hodd, point?_compressed hx (.inr rfl)]
    rwa [decide_eq_true hodd] at hlift
  . rw [if_neg hodd, point?_compressed hx (.inl rfl)]
    rwa [decide_eq_false hodd] at hlift

theorem isReadFrom_hybrid (h : k.IsOnCurve) : k.IsReadFrom (hybrid.write k) := by
  obtain ⟨⟨hx, hy⟩, -⟩ := Curve.contains_affine_iff.1 h
  unfold PublicKey.IsReadFrom
  rw [write]
  by_cases hodd : k.y % 2 = 1
  . rw [if_pos hodd]
    exact PublicKey.point?_coordinates hx hy (.inr ⟨.inr rfl, decide_eq_true hodd⟩)
  . rw [if_neg hodd]
    exact PublicKey.point?_coordinates hx hy (.inr ⟨.inl rfl, decide_eq_false hodd⟩)

theorem isReadFrom_write (hcurve : k.curve = p.curve) (h : k.IsOnCurve)
    : ∀ form : PointForm, k.IsReadFrom (form.write k)
  | plain => PublicKey.isReadFrom_toOctets h
  | compressed => isReadFrom_compressed hcurve h
  | hybrid => isReadFrom_hybrid h

end PointForm

end SignedToken
