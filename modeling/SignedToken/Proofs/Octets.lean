import SignedToken.Octets

/-!
This module contains the laws of octets: a number is recovered from its octets whenever it fits, and
a sequence is recovered from the two sides of a separator.
-/

namespace SignedToken.Octets

@[simp]
theorem length_ofNat (width n : Nat) : (ofNat width n).length = width := by
  induction width with
  | zero => rfl
  | succ width ih => simp [ofNat, ih]

theorem toNat_go (b : Bytes) (n : Nat)
    : b.foldl (fun n x => n * 256 + x.toNat) n = n * 256 ^ b.length + toNat b := by
  induction b generalizing n with
  | nil => simp [toNat]
  | cons x b ih =>
    simp only [toNat, List.foldl_cons, List.length_cons]
    rw [ih, ih]
    simp only [Nat.pow_succ, Nat.zero_mul, Nat.zero_add, Nat.add_mul, Nat.mul_assoc,
      Nat.mul_comm 256, Nat.add_assoc]

theorem toNat_cons (x : UInt8) (b : Bytes)
    : toNat (x :: b) = x.toNat * 256 ^ b.length + toNat b := by
  rw [toNat, List.foldl_cons, toNat_go]
  simp

theorem toNat_ofNat_mod (width n : Nat) : toNat (ofNat width n) = n % 256 ^ width := by
  induction width with
  | zero => simp [ofNat, toNat, Nat.mod_one]
  | succ width ih =>
    have hlt : n / 256 ^ width % 256 < 256 := Nat.mod_lt _ (by decide)
    rw [ofNat, toNat_cons, ih, length_ofNat, Nat.pow_succ, Nat.mod_mul]
    simp only [Nat.toUInt8_eq, UInt8.toNat_ofNat', Nat.reducePow, Nat.mod_eq_of_lt hlt]
    rw [Nat.mul_comm, Nat.add_comm]

theorem toNat_ofNat {width n : Nat} (h : n < 256 ^ width) : toNat (ofNat width n) = n := by
  rw [toNat_ofNat_mod, Nat.mod_eq_of_lt h]

theorem toNat_lt (b : Bytes) : toNat b < 256 ^ b.length := by
  induction b with
  | nil => decide
  | cons x b ih =>
    have hx := x.toNat_lt
    have hle : (x.toNat + 1) * 256 ^ b.length ≤ 256 * 256 ^ b.length :=
      Nat.mul_le_mul_right _ (by omega)
    rw [toNat_cons, List.length_cons, Nat.pow_succ, Nat.mul_comm _ 256]
    rw [Nat.succ_mul] at hle
    omega

theorem toNat_inj {a b : Bytes} (hlength : a.length = b.length) (h : toNat a = toNat b)
    : a = b := by
  induction a generalizing b with
  | nil => exact (List.eq_nil_of_length_eq_zero hlength.symm).symm
  | cons x a ih =>
    cases b with
    | nil => cases hlength
    | cons y b =>
      have hrest : a.length = b.length := Nat.succ.inj hlength
      have hpos : 0 < 256 ^ b.length := Nat.pow_pos (by decide)
      have ha := toNat_lt a
      rw [hrest] at ha
      rw [toNat_cons, toNat_cons, hrest] at h
      -- The first octet is what is left after a division, the others are its remainder.
      have hquotient := congrArg (· / 256 ^ b.length) h
      have hremainder := congrArg (· % 256 ^ b.length) h
      simp only [Nat.add_comm (_ * _), Nat.add_mul_div_right _ _ hpos, Nat.div_eq_of_lt ha,
        Nat.div_eq_of_lt (toNat_lt b), Nat.zero_add] at hquotient
      simp only [Nat.mul_add_mod_self_right, Nat.mod_eq_of_lt ha, Nat.mod_eq_of_lt (toNat_lt b)]
        at hremainder
      rw [UInt8.toNat_inj.1 hquotient, ih hrest hremainder]

theorem cutAt?_append {sep : UInt8} {a : Bytes} (h : sep ∉ a) (b : Bytes)
    : cutAt? sep (a ++ sep :: b) = some (a, b) := by
  have hne : ∀ x ∈ a, (x != sep) = true := by
    intro x hx
    simp only [bne_iff_ne]
    rintro rfl
    exact h hx
  unfold cutAt?
  rw [List.dropWhile_append_of_pos hne, List.takeWhile_append_of_pos hne]
  simp

theorem cutAtLast?_append {sep : UInt8} {b : Bytes} (h : sep ∉ b) (a : Bytes)
    : cutAtLast? sep (a ++ sep :: b) = some (a, b) := by
  unfold cutAtLast?
  have : (a ++ sep :: b).reverse = b.reverse ++ sep :: a.reverse := by simp
  rw [this, cutAt?_append]
  . simp
  . simpa using h

end SignedToken.Octets
