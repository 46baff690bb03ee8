import Mathlib.GroupTheory.OrderOfElement
import Mathlib.Data.List.Prime
import SignedToken.Proofs.Curve.Residue

/-!
This module contains Pocklington's test of primality: a number is prime if enough of the factors of
its predecessor are known to be prime and some base tells that none of them is missing from the order
of a remainder. A list of such tests, each built on the ones before it, is checked by computation.
-/

namespace SignedToken

/-! ### The criterion -/

theorem dvd_of_forall_prime {order m part : Nat} (hm : 0 < m) (horder : order ∣ m) (hpart : part ∣ m)
    (h : ∀ q, q.Prime → q ∣ part → ¬ order ∣ m / q) : part ∣ order := by
  obtain ⟨cofactor, rfl⟩ := horder
  have hcoprime : part.Coprime cofactor := by
    by_contra hnot
    obtain ⟨q, hq, hqpart, cofactor', rfl⟩ := Nat.Prime.not_coprime_iff_dvd.1 hnot
    apply h q hq hqpart
    rw [show order * (q * cofactor') = q * (order * cofactor') by ring,
      Nat.mul_div_cancel_left _ hq.pos]
    exact Nat.dvd_mul_right order cofactor'
  exact hcoprime.dvd_of_dvd_mul_right hpart

theorem dvd_sub_one_of_pocklington {n base part r : Nat} (hn : 1 < n) (hpart : part ∣ n - 1)
    (hpow : base ^ (n - 1) ≡ 1 [MOD n])
    (hbase : ∀ q, q.Prime → q ∣ part →
      ∀ r, r.Prime → r ∣ n → ¬ base ^ ((n - 1) / q) ≡ 1 [MOD r])
    (hr : r.Prime) (hrn : r ∣ n) : part ∣ r - 1 := by
  have := Fact.mk hr
  have hcast : ∀ k, (base : ZMod r) ^ k = 1 ↔ base ^ k ≡ 1 [MOD r] := by
    intro k
    rw [← ZMod.natCast_eq_natCast_iff, Nat.cast_pow, Nat.cast_one]
  have hone : (base : ZMod r) ^ (n - 1) = 1 := (hcast _).2 (hpow.of_dvd hrn)
  have hne : (base : ZMod r) ≠ 0 := by
    intro hzero
    rw [hzero, zero_pow (by omega)] at hone
    exact zero_ne_one hone
  apply Nat.dvd_trans (dvd_of_forall_prime (by omega) (orderOf_dvd_of_pow_eq_one hone) hpart ?_)
  . exact orderOf_dvd_of_pow_eq_one (ZMod.pow_card_sub_one_eq_one hne)
  . intro q hq hqpart hdvd
    exact hbase q hq hqpart r hr hrn ((hcast _).1 (orderOf_dvd_iff_pow_eq_one.1 hdvd))

theorem prime_of_pocklington {n base part : Nat} (hn : 1 < n) (hpart : part ∣ n - 1)
    (hlt : n < part * part) (hpow : base ^ (n - 1) ≡ 1 [MOD n])
    (hbase : ∀ q, q.Prime → q ∣ part →
      ∀ r, r.Prime → r ∣ n → ¬ base ^ ((n - 1) / q) ≡ 1 [MOD r])
    : n.Prime := by
  have hmin : n.minFac.Prime := Nat.minFac_prime (by omega)
  have hdvd := dvd_sub_one_of_pocklington hn hpart hpow hbase hmin n.minFac_dvd
  have hle : part ≤ n.minFac - 1 := Nat.le_of_dvd (Nat.sub_pos_of_lt hmin.one_lt) hdvd
  -- A composite number has a prime divisor up to its root, and this one is beyond it.
  by_contra hnot
  have hsq := Nat.minFac_sq_le_self (by omega) hnot
  have hpart_sq : part * part ≤ n.minFac * n.minFac := Nat.mul_le_mul (by omega) (by omega)
  rw [sq] at hsq
  omega

/-! ### Certificates -/

structure Certificate where
  number : Nat
  base : Nat
  factors : List (Nat × Nat)

namespace Certificate

def part (c : Certificate) : Nat :=
  (c.factors.map fun f => f.1 ^ f.2).prod

/--
Pocklington's test, given the numbers that are known to be prime.
-/
def check (known : List Nat) (c : Certificate) : Bool :=
  1 < c.number && c.part ∣ c.number - 1 && c.number < c.part * c.part
    && Residue.pow c.number c.base (c.number - 1) == 1
    && c.factors.all fun f =>
      known.contains f.1
        && Nat.gcd (Residue.pow c.number c.base ((c.number - 1) / f.1) - 1) c.number == 1

def checkAll (known : List Nat) : List Certificate → Bool
  | [] => true
  | c :: cs => c.check known && checkAll (c.number :: known) cs

variable {known : List Nat} {c : Certificate}

theorem exists_mem_factors_of_dvd (hknown : ∀ f ∈ c.factors, f.1.Prime) {q : Nat} (hq : q.Prime)
    (h : q ∣ c.part) : ∃ f ∈ c.factors, f.1 = q := by
  obtain ⟨x, hx, hqx⟩ := hq.prime.dvd_prod_iff.1 h
  obtain ⟨f, hf, rfl⟩ := List.mem_map.1 hx
  exact ⟨f, hf, ((Nat.prime_dvd_prime_iff_eq hq (hknown f hf)).1 (hq.dvd_of_dvd_pow hqx)).symm⟩

theorem not_modEq_one_of_gcd {n base k r : Nat}
    (hgcd : Nat.gcd (Residue.pow n base k - 1) n = 1) (hr : r.Prime) (hrn : r ∣ n)
    : ¬ base ^ k ≡ 1 [MOD r] := by
  intro h
  have hpow : Residue.pow n base k ≡ 1 [MOD r] := ((Residue.pow_modEq n base k).of_dvd hrn).trans h
  have hdvd : r ∣ Residue.pow n base k - 1 := by
    cases Nat.eq_zero_or_pos (Residue.pow n base k) with
    | inl hzero =>
      rw [hzero]
      exact Nat.dvd_zero r
    | inr hpos => exact (Nat.modEq_iff_dvd' hpos).1 hpow.symm
  have hone := Nat.dvd_gcd hdvd hrn
  rw [hgcd] at hone
  exact hr.one_lt.ne' (Nat.dvd_one.1 hone)

theorem prime_of_check (hknown : ∀ q ∈ known, q.Prime) (h : c.check known = true)
    : c.number.Prime := by
  simp only [check, Bool.and_eq_true, decide_eq_true_eq, List.all_eq_true, beq_iff_eq,
    List.contains_iff_mem] at h
  obtain ⟨⟨⟨⟨hone, hpart⟩, hlt⟩, hpow⟩, hfactors⟩ := h
  apply prime_of_pocklington hone hpart hlt
  . have hmod := Residue.pow_modEq c.number c.base (c.number - 1)
    rw [hpow] at hmod
    exact hmod.symm
  . intro q hq hqpart r hr hrn
    obtain ⟨f, hf, rfl⟩ := exists_mem_factors_of_dvd (fun f hf => hknown _ (hfactors f hf).1) hq hqpart
    exact not_modEq_one_of_gcd (hfactors f hf).2 hr hrn

theorem prime_of_checkAll {cs : List Certificate} (hknown : ∀ q ∈ known, q.Prime)
    (h : checkAll known cs = true) : ∀ c ∈ cs, c.number.Prime := by
  induction cs generalizing known with
  | nil => exact List.forall_mem_nil _
  | cons c cs ih =>
    rw [checkAll, Bool.and_eq_true] at h
    have hprime := prime_of_check hknown h.1
    rw [List.forall_mem_cons]
    refine ⟨hprime, ih ?_ h.2⟩
    rw [List.forall_mem_cons]
    exact ⟨hprime, hknown⟩

end Certificate

end SignedToken
