import SignedToken.Key
import SignedToken.Proofs.Curve.Certificates
import SignedToken.Proofs.Curve.Group

/-!
This module contains that the generators of the profiles have the order that is written beside them.
So the point of every secret in range is a point on the curve, and not the one at infinity.
-/

namespace SignedToken

open WeierstrassCurve.Affine

namespace Profile

variable (p : Profile)

instance : Fact p.curve.params.p.Prime :=
  ⟨prime_field p⟩

theorem two_ne_zero : (2 : ZMod p.curve.params.p) ≠ 0 := by
  have hodd : ¬ p.curve.params.p ∣ 2 := by
    cases p <;> decide
  rw [← Nat.cast_ofNat, ne_eq, ZMod.natCast_eq_zero_iff]
  exact hodd

theorem discriminant_ne_zero : p.curve.params.weierstrass.Δ ≠ 0 := by
  have hdvd : ¬ p.curve.params.p ∣ 64 * p.curve.params.a ^ 3 + 432 * p.curve.params.b ^ 2 := by
    cases p <;> decide
  have hcast : p.curve.params.weierstrass.Δ
      = -((64 * p.curve.params.a ^ 3 + 432 * p.curve.params.b ^ 2 : Nat) : ZMod p.curve.params.p) := by
    simp only [Curve.Params.weierstrass, WeierstrassCurve.Δ, WeierstrassCurve.b₂,
      WeierstrassCurve.b₄, WeierstrassCurve.b₆, WeierstrassCurve.b₈, Nat.cast_add, Nat.cast_mul,
      Nat.cast_pow, Nat.cast_ofNat]
    ring
  rw [hcast, neg_ne_zero, ne_eq, ZMod.natCast_eq_zero_iff]
  exact hdvd

theorem nonsingular_iff {x y : ZMod p.curve.params.p}
    : p.curve.params.weierstrass.Nonsingular x y ↔ p.curve.contains (.affine x.val y.val) = true := by
  rw [Curve.contains_iff, equation_iff_nonsingular_of_Δ_ne_zero (discriminant_ne_zero p)]

theorem val_generator
    : (p.curve.params.gx : ZMod p.curve.params.p).val = p.curve.params.gx ∧
      (p.curve.params.gy : ZMod p.curve.params.p).val = p.curve.params.gy := by
  have hlt : p.curve.params.gx < p.curve.params.p ∧ p.curve.params.gy < p.curve.params.p := by
    cases p <;> decide
  exact ⟨ZMod.val_cast_of_lt hlt.1, ZMod.val_cast_of_lt hlt.2⟩

theorem nonsingular_generator
    : p.curve.params.weierstrass.Nonsingular p.curve.params.gx p.curve.params.gy := by
  obtain ⟨hx, hy⟩ := val_generator p
  rw [nonsingular_iff, hx, hy]
  cases p <;> decide

def generator : p.curve.params.weierstrass.Point :=
  .some _ _ (nonsingular_generator p)

theorem represents_generator : (Jacobian.ofPoint p.curve.generator).Represents p.generator := by
  apply Jacobian.Represents.some
  constructor
  . simp [Jacobian.ofPoint, Curve.generator]
  . simp [Jacobian.ofPoint, Curve.generator]
  . simp [Jacobian.ofPoint, Curve.generator]

theorem represents_mul (d : Nat)
    : ((Jacobian.ofPoint p.curve.generator).mul p.curve.params d).Represents (d • p.generator) :=
  (represents_generator p).mul (two_ne_zero p) d

theorem order_nsmul_generator : p.curve.params.n • p.generator = 0 := by
  apply (represents_mul p p.curve.params.n).eq_zero
  cases p <;> decide +kernel

theorem nsmul_generator_ne_zero {d : Nat} (hpos : 1 ≤ d) (hlt : d < p.curve.params.n)
    : d • p.generator ≠ 0 := by
  intro hzero
  have : Fact p.curve.params.n.Prime := ⟨prime_order p⟩
  have horder : addOrderOf p.generator = p.curve.params.n :=
    addOrderOf_eq_prime (order_nsmul_generator p) nofun
  have hdvd := addOrderOf_dvd_of_nsmul_eq_zero hzero
  rw [horder] at hdvd
  exact absurd (Nat.le_of_dvd hpos hdvd) (Nat.not_le_of_lt hlt)

theorem exists_mul_generator {d : Nat} (hpos : 1 ≤ d) (hlt : d < p.curve.params.n)
    : ∃ x y, p.curve.mul d p.curve.generator = .affine x y ∧
        p.curve.contains (.affine x y) = true := by
  have hmul := (represents_mul p d).toPoint_eq
  cases hpoint : d • p.generator with
  | zero => exact absurd hpoint (nsmul_generator_ne_zero p hpos hlt)
  | some x y h =>
    rw [hpoint] at hmul
    exact ⟨x.val, y.val, hmul, (nonsingular_iff p).1 h⟩

theorem isSound_iff {d : Nat}
    : (PrivateKey.mk p.curve d).isSound = true ↔ 1 ≤ d ∧ d < p.curve.params.n := by
  rw [PrivateKey.isSound, Bool.and_eq_true, PrivateKey.inRange, Bool.and_eq_true, decide_eq_true_eq,
    decide_eq_true_eq]
  apply and_iff_left_of_imp
  rintro ⟨hpos, hlt⟩
  obtain ⟨x, y, hmul, hcontains⟩ := exists_mul_generator p hpos hlt
  rw [PrivateKey.publicKey, hmul]
  exact hcontains

end Profile

end SignedToken
