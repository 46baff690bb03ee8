import Mathlib.AlgebraicGeometry.EllipticCurve.Affine.Point
import Mathlib.Tactic.LinearCombination
import SignedToken.Proofs.Curve.Residue

/-!
This module contains what the arithmetic of points computes: on a curve without singular points over
a prime field, doubling, addition and multiples are those of the group of its points, whatever way
the coordinates are written as quotients.
-/

namespace SignedToken

namespace Curve.Params

def weierstrass (k : Params) : WeierstrassCurve.Affine (ZMod k.p) :=
  ⟨0, 0, 0, k.a, k.b⟩

variable {k : Params} [Fact k.p.Prime] {x y x' y' : ZMod k.p}

theorem equation_weierstrass_iff
    : k.weierstrass.Equation x y ↔ y ^ 2 = x ^ 3 + k.a * x + k.b := by
  rw [WeierstrassCurve.Affine.equation_iff]
  simp [weierstrass]

theorem negY_weierstrass : k.weierstrass.negY x y = -y := by
  simp [weierstrass, WeierstrassCurve.Affine.negY]

theorem addX_weierstrass (slope : ZMod k.p)
    : k.weierstrass.addX x x' slope = slope ^ 2 - x - x' := by
  simp [weierstrass]

theorem addY_weierstrass (slope : ZMod k.p)
    : k.weierstrass.addY x x' y slope = slope * (x - k.weierstrass.addX x x' slope) - y := by
  rw [WeierstrassCurve.Affine.addY, negY_weierstrass, WeierstrassCurve.Affine.negAddY]
  ring

end Curve.Params

theorem Curve.contains_iff {c : Curve} [Fact c.params.p.Prime] {x y : ZMod c.params.p}
    : c.contains (.affine x.val y.val) = true ↔ c.params.weierstrass.Equation x y := by
  have hcast : (y.val * y.val) % c.params.p
        = (x.val * x.val * x.val + c.params.a * x.val + c.params.b) % c.params.p
      ↔ y * y = x * x * x + c.params.a * x + c.params.b := by
    rw [← ZMod.natCast_eq_natCast_iff']
    simp only [Nat.cast_add, Nat.cast_mul, ZMod.natCast_zmod_val]
  rw [contains, Params.equation_weierstrass_iff]
  rw [Bool.and_eq_true, Bool.and_eq_true, decide_eq_true_eq, decide_eq_true_eq, beq_iff_eq, hcast,
    ← pow_two, ← pow_three']
  exact and_iff_right ⟨ZMod.val_lt x, ZMod.val_lt y⟩

namespace Residue

variable {m : Nat}

theorem cast_sub_mod (hm : 0 < m) (x y : Nat) : (sub m x (y % m) : ZMod m) = (x : ZMod m) - y := by
  rw [cast_sub (Nat.mod_lt y hm).le, ZMod.natCast_mod]

theorem cast_sub_sub (hm : 0 < m) (x y z : Nat)
    : (sub m x (sub m y z) : ZMod m) = (x : ZMod m) - sub m y z :=
  cast_sub (Nat.mod_lt _ hm).le x

theorem cast_eq_zero_iff {x : Nat} (h : x < m) : (x : ZMod m) = 0 ↔ x = 0 := by
  rw [ZMod.natCast_eq_zero_iff]
  constructor
  . intro hdvd
    exact Nat.eq_zero_of_dvd_of_lt hdvd h
  . rintro rfl
    exact Nat.dvd_zero m

end Residue

namespace Jacobian

open Curve.Params WeierstrassCurve.Affine

variable {k : Curve.Params}

structure Writes {p : Nat} (j : Jacobian) (x y : ZMod p) : Prop where
  x_eq : (j.x : ZMod p) = x * j.z ^ 2
  y_eq : (j.y : ZMod p) = y * j.z ^ 3
  z_ne : (j.z : ZMod p) ≠ 0

theorem Writes.z_ne_zero {p : Nat} {j : Jacobian} {x y : ZMod p} (h : j.Writes x y) : j.z ≠ 0 := by
  intro hzero
  apply h.z_ne
  rw [hzero, Nat.cast_zero]

inductive Represents : Jacobian → k.weierstrass.Point → Prop where
  | zero {j : Jacobian} (hz : j.z = 0) : Represents j 0
  | some {j : Jacobian} {x y : ZMod k.p} (h : k.weierstrass.Nonsingular x y) (hj : j.Writes x y)
    : Represents j (.some x y h)

theorem represents_infinity : infinity.Represents (0 : k.weierstrass.Point) :=
  .zero rfl

variable {j l : Jacobian} {P Q : k.weierstrass.Point} {x y x' y' : ZMod k.p}

theorem Represents.eq_zero (h : j.Represents P) (hz : j.z = 0) : P = 0 := by
  cases h with
  | zero _ => rfl
  | some h hj => exact absurd hz hj.z_ne_zero

/-! ### The steps of the arithmetic -/

def run (k : Curve.Params) (j l : Jacobian) : Nat :=
  Residue.sub k.p (l.x * (j.z * j.z % k.p) % k.p) (j.x * (l.z * l.z % k.p) % k.p)

def rise (k : Curve.Params) (j l : Jacobian) : Nat :=
  Residue.sub k.p (l.y * (j.z * j.z % k.p * j.z % k.p) % k.p)
    (j.y * (l.z * l.z % k.p * l.z % k.p) % k.p)

def chord (k : Curve.Params) (j l : Jacobian) : Jacobian :=
  let run := run k j l
  let cube := run * run % k.p * run % k.p
  let v := j.x * (l.z * l.z % k.p) % k.p * (run * run % k.p) % k.p
  let x := Residue.sub k.p (rise k j l * rise k j l % k.p) ((cube + 2 * v) % k.p)
  ⟨x,
    Residue.sub k.p (rise k j l * Residue.sub k.p v x % k.p)
      (j.y * (l.z * l.z % k.p * l.z % k.p) % k.p * cube % k.p),
    run * (j.z * l.z % k.p) % k.p⟩

theorem add_eq (hj : j.z ≠ 0) (hl : l.z ≠ 0)
    : add k j l
        =
      if run k j l = 0 then if rise k j l = 0 then double k j else infinity else chord k j l := by
  rw [add, if_neg hj, if_neg hl]
  rfl

variable [hp : Fact k.p.Prime]

theorem represents_of_slope {slope : ZMod k.p}
    (h : k.weierstrass.Nonsingular (k.weierstrass.addX x x' slope)
      (k.weierstrass.addY x x' y slope))
    (hx : (j.x : ZMod k.p) = (slope ^ 2 - x - x') * j.z ^ 2)
    (hy : (j.y : ZMod k.p) = slope * j.z * (x * j.z ^ 2 - j.x) - y * j.z ^ 3)
    (hz : (j.z : ZMod k.p) ≠ 0) : j.Represents (.some _ _ h) := by
  have hx' : (j.x : ZMod k.p) = k.weierstrass.addX x x' slope * j.z ^ 2 := by
    rw [hx, addX_weierstrass]
  have hy' : (j.y : ZMod k.p) = k.weierstrass.addY x x' y slope * j.z ^ 3 := by
    rw [hy, hx', addY_weierstrass]
    ring
  exact .some h ⟨hx', hy', hz⟩

/-! ### Doubling -/

theorem cast_double_x (hz : j.z ≠ 0)
    : ((double k j).x : ZMod k.p)
        =
      (3 * j.x ^ 2 + k.a * j.z ^ 4) ^ 2 - 8 * j.x * j.y ^ 2 := by
  rw [double, if_neg hz]
  simp only [Residue.cast_sub_mod hp.out.pos, ZMod.natCast_mod, Nat.cast_mul, Nat.cast_add,
    Nat.cast_ofNat]
  ring

theorem cast_double_y (hz : j.z ≠ 0)
    : ((double k j).y : ZMod k.p)
        =
      (3 * j.x ^ 2 + k.a * j.z ^ 4) * (4 * j.x * j.y ^ 2 - (double k j).x) - 8 * j.y ^ 4 := by
  rw [double, if_neg hz]
  simp only [Residue.cast_sub_mod hp.out.pos, Residue.cast_sub_sub hp.out.pos, ZMod.natCast_mod,
    Nat.cast_mul, Nat.cast_add, Nat.cast_ofNat]
  ring

theorem cast_double_z (hz : j.z ≠ 0) : ((double k j).z : ZMod k.p) = 2 * j.y * j.z := by
  rw [double, if_neg hz, ZMod.natCast_mod, Nat.cast_mul, Nat.cast_mul, Nat.cast_ofNat]

theorem double_z_lt (hz : j.z ≠ 0) : (double k j).z < k.p := by
  rw [double, if_neg hz]
  exact Nat.mod_lt _ hp.out.pos

theorem slope_tangent (hy : y ≠ k.weierstrass.negY x y)
    : k.weierstrass.slope x x y y * (2 * y) = 3 * x ^ 2 + k.a := by
  have hne : y - k.weierstrass.negY x y ≠ 0 := sub_ne_zero.2 hy
  have hdouble : 2 * y = y - k.weierstrass.negY x y := by
    rw [negY_weierstrass]
    ring
  rw [slope_of_Y_ne rfl hy, hdouble, div_mul_cancel₀ _ hne]
  simp [weierstrass]

theorem Represents.double (htwo : (2 : ZMod k.p) ≠ 0) (h : j.Represents P)
    : (double k j).Represents (P + P) := by
  cases h with
  | zero hz =>
    rw [Jacobian.double, if_pos hz, add_zero]
    exact .zero hz
  | @some x y h hj =>
    have hdouble := cast_double_z (k := k) hj.z_ne_zero
    rw [hj.y_eq] at hdouble
    by_cases hzero : y = 0
    . -- The tangent is vertical.
      rw [Point.add_self_of_Y_eq (by rw [negY_weierstrass, hzero, neg_zero])]
      apply Represents.zero ((Residue.cast_eq_zero_iff (double_z_lt hj.z_ne_zero)).1 _)
      rw [hdouble, hzero]
      ring
    . have hy_ne : y ≠ k.weierstrass.negY x y := by
        rw [negY_weierstrass, ne_eq, eq_neg_iff_add_eq_zero, ← two_mul]
        exact mul_ne_zero htwo hzero
      have htangent := slope_tangent hy_ne
      rw [Point.add_self_of_Y_ne hy_ne]
      apply represents_of_slope
      . rw [cast_double_x hj.z_ne_zero, hdouble, hj.x_eq, hj.y_eq]
        linear_combination (j.z : ZMod k.p) ^ 8 * (-(3 * x ^ 2 + k.a)
          - k.weierstrass.slope x x y y * (2 * y)) * htangent
      . rw [cast_double_y hj.z_ne_zero, hdouble, hj.x_eq, hj.y_eq]
        linear_combination -(j.z : ZMod k.p) ^ 4
          * (4 * x * y ^ 2 * j.z ^ 8 - (Jacobian.double k j).x) * htangent
      . rw [hdouble]
        exact mul_ne_zero (mul_ne_zero htwo (mul_ne_zero hzero (pow_ne_zero 3 hj.z_ne))) hj.z_ne

/-! ### Addition -/

theorem cast_run (j l : Jacobian)
    : (run k j l : ZMod k.p) = l.x * (j.z : ZMod k.p) ^ 2 - j.x * (l.z : ZMod k.p) ^ 2 := by
  simp only [run, Residue.cast_sub_mod hp.out.pos, ZMod.natCast_mod, Nat.cast_mul]
  ring

theorem cast_rise (j l : Jacobian)
    : (rise k j l : ZMod k.p) = l.y * (j.z : ZMod k.p) ^ 3 - j.y * (l.z : ZMod k.p) ^ 3 := by
  simp only [rise, Residue.cast_sub_mod hp.out.pos, ZMod.natCast_mod, Nat.cast_mul]
  ring

theorem Writes.cast_run_eq (hj : j.Writes x y) (hl : l.Writes x' y')
    : (run k j l : ZMod k.p) = (x' - x) * (j.z * l.z : ZMod k.p) ^ 2 := by
  rw [cast_run, hj.x_eq, hl.x_eq]
  ring

theorem Writes.cast_rise_eq (hj : j.Writes x y) (hl : l.Writes x' y')
    : (rise k j l : ZMod k.p) = (y' - y) * (j.z * l.z : ZMod k.p) ^ 3 := by
  rw [cast_rise, hj.y_eq, hl.y_eq]
  ring

theorem Writes.mul_z_ne (hj : j.Writes x y) (hl : l.Writes x' y') : (j.z * l.z : ZMod k.p) ≠ 0 :=
  mul_ne_zero hj.z_ne hl.z_ne

theorem Writes.run_eq_zero_iff (hj : j.Writes x y) (hl : l.Writes x' y')
    : run k j l = 0 ↔ x = x' := by
  have hlt : run k j l < k.p := Nat.mod_lt _ hp.out.pos
  rw [← Residue.cast_eq_zero_iff hlt, hj.cast_run_eq hl,
    mul_eq_zero_iff_right (pow_ne_zero 2 (hj.mul_z_ne hl)), sub_eq_zero, eq_comm]

theorem Writes.rise_eq_zero_iff (hj : j.Writes x y) (hl : l.Writes x' y')
    : rise k j l = 0 ↔ y = y' := by
  have hlt : rise k j l < k.p := Nat.mod_lt _ hp.out.pos
  rw [← Residue.cast_eq_zero_iff hlt, hj.cast_rise_eq hl,
    mul_eq_zero_iff_right (pow_ne_zero 3 (hj.mul_z_ne hl)), sub_eq_zero, eq_comm]

theorem cast_chord_x (j l : Jacobian)
    : ((chord k j l).x : ZMod k.p)
        =
      rise k j l ^ 2 - run k j l ^ 3 - 2 * j.x * (l.z : ZMod k.p) ^ 2 * run k j l ^ 2 := by
  rw [chord]
  simp only [Residue.cast_sub_mod hp.out.pos, ZMod.natCast_mod, Nat.cast_mul, Nat.cast_add,
    Nat.cast_ofNat]
  ring

theorem cast_chord_y (j l : Jacobian)
    : ((chord k j l).y : ZMod k.p)
        =
      rise k j l * (j.x * (l.z : ZMod k.p) ^ 2 * run k j l ^ 2 - (chord k j l).x)
        - j.y * (l.z : ZMod k.p) ^ 3 * run k j l ^ 3 := by
  rw [chord]
  simp only [Residue.cast_sub_mod hp.out.pos, Residue.cast_sub_sub hp.out.pos, ZMod.natCast_mod,
    Nat.cast_mul, Nat.cast_add, Nat.cast_ofNat]
  ring

theorem cast_chord_z (j l : Jacobian)
    : ((chord k j l).z : ZMod k.p) = run k j l * (j.z * l.z) := by
  rw [chord]
  simp only [ZMod.natCast_mod, Nat.cast_mul]

theorem represents_chord (h : k.weierstrass.Nonsingular x y) (h' : k.weierstrass.Nonsingular x' y')
    (hj : j.Writes x y) (hl : l.Writes x' y') (hne : x ≠ x')
    : (chord k j l).Represents (.some x y h + .some x' y' h' : k.weierstrass.Point) := by
  have hrun : (run k j l : ZMod k.p) ≠ 0 := by
    rw [hj.cast_run_eq hl]
    exact mul_ne_zero (sub_ne_zero.2 hne.symm) (pow_ne_zero 2 (hj.mul_z_ne hl))
  have hslope : k.weierstrass.slope x x' y y' * (x' - x) = y' - y := by
    rw [slope_of_X_ne hne, ← neg_sub x x', ← neg_sub y y', mul_neg,
      div_mul_cancel₀ _ (sub_ne_zero.2 hne)]
  rw [Point.add_of_X_ne hne]
  apply represents_of_slope
  . rw [cast_chord_x, cast_chord_z, hj.cast_run_eq hl, hj.cast_rise_eq hl, hj.x_eq, ← hslope]
    ring
  . rw [cast_chord_y, cast_chord_z, hj.cast_run_eq hl, hj.cast_rise_eq hl, hj.x_eq, hj.y_eq, ← hslope]
    ring
  . rw [cast_chord_z]
    exact mul_ne_zero hrun (hj.mul_z_ne hl)

theorem Represents.add (htwo : (2 : ZMod k.p) ≠ 0) (hP : j.Represents P) (hQ : l.Represents Q)
    : (add k j l).Represents (P + Q) := by
  cases hP with
  | zero hz =>
    rw [Jacobian.add, if_pos hz, zero_add]
    exact hQ
  | @some x y h hj =>
    cases hQ with
    | zero hz =>
      rw [Jacobian.add, if_neg hj.z_ne_zero, if_pos hz, add_zero]
      exact .some h hj
    | @some x' y' h' hl =>
      rw [add_eq hj.z_ne_zero hl.z_ne_zero]
      by_cases hxx : x = x'
      . rw [if_pos ((hj.run_eq_zero_iff hl).2 hxx)]
        by_cases hyy : y = y'
        . rw [if_pos ((hj.rise_eq_zero_iff hl).2 hyy)]
          subst hxx hyy
          exact (Represents.some h hj).double htwo
        . rw [if_neg fun hrise => hyy ((hj.rise_eq_zero_iff hl).1 hrise),
            Point.add_of_Y_eq hxx ((Y_eq_of_X_eq h.1 h'.1 hxx).resolve_left hyy)]
          exact represents_infinity
      . rw [if_neg fun hrun => hxx ((hj.run_eq_zero_iff hl).1 hrun)]
        exact represents_chord h h' hj hl hxx

/-! ### Multiples -/

theorem Represents.mul_go (htwo : (2 : ZMod k.p) ≠ 0) (hj : j.Represents P) (n i : Nat)
    (hl : l.Represents Q)
    : (mul.go k n j i l).Represents ((2 ^ i) • Q + (n % 2 ^ i) • P) := by
  induction i generalizing l Q with
  | zero =>
    rw [mul.go, pow_zero, Nat.mod_one, one_nsmul, zero_nsmul, add_zero]
    exact hl
  | succ i ih =>
    have hdouble := hl.double htwo
    have hsplit : (2 ^ (i + 1)) • Q + (n % 2 ^ (i + 1)) • P
        = (2 ^ i) • (Q + Q + (n.testBit i).toNat • P) + (n % 2 ^ i) • P := by
      rw [mod_two_pow_succ, pow_succ, mul_nsmul', two_nsmul, add_nsmul, mul_nsmul',
        nsmul_add (Q + Q), add_assoc]
    rw [mul.go, hsplit]
    apply ih
    cases n.testBit i with
    | true =>
      rw [Bool.toNat_true, one_nsmul]
      exact hdouble.add htwo hj
    | false =>
      rw [Bool.toNat_false, zero_nsmul, add_zero]
      exact hdouble

theorem Represents.mul (htwo : (2 : ZMod k.p) ≠ 0) (hj : j.Represents P) (n : Nat)
    : (mul k n j).Represents (n • P) := by
  have hgo := hj.mul_go htwo n (n.log2 + 1) represents_infinity
  rwa [nsmul_zero, zero_add, Nat.mod_eq_of_lt Nat.lt_log2_self] at hgo

/-! ### Points -/

def pointOf : k.weierstrass.Point → Point
  | .zero => .infinity
  | .some x y _ => .affine x.val y.val

theorem Represents.toPoint_eq (h : j.Represents P) : j.toPoint k.p = pointOf P := by
  cases h with
  | zero hz => exact if_pos hz
  | @some x y h hj =>
    have hz := hj.z_ne
    have hx_val : j.x * (Residue.inv k.p j.z * Residue.inv k.p j.z % k.p) % k.p = x.val := by
      rw [← ZMod.val_natCast]
      congr 1
      rw [Nat.cast_mul, ZMod.natCast_mod, Nat.cast_mul, Residue.cast_inv hz, hj.x_eq]
      field_simp
    have hy_val : j.y * (Residue.inv k.p j.z * Residue.inv k.p j.z % k.p
        * Residue.inv k.p j.z % k.p) % k.p = y.val := by
      rw [← ZMod.val_natCast]
      congr 1
      rw [Nat.cast_mul, ZMod.natCast_mod, Nat.cast_mul, ZMod.natCast_mod, Nat.cast_mul,
        Residue.cast_inv hz, hj.y_eq]
      field_simp
    rw [toPoint, if_neg hj.z_ne_zero]
    dsimp only
    rw [hx_val, hy_val]
    rfl

end Jacobian

end SignedToken
