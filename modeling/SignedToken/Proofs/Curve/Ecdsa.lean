import SignedToken.Key
import SignedToken.Proofs.Octets

/-!
This module contains the laws of signatures as data: what is signed has two halves below the order of
the curve, which fit into the fixed width that a profile writes them in.
-/

namespace SignedToken

theorem Curve.order_pos (c : Curve) : 0 < c.params.n := by
  cases c <;> decide

theorem Profile.curve_inj {p q : Profile} (h : p.curve = q.curve) : p = q := by
  cases p <;> cases q <;> first | rfl | cases h

theorem Profile.order_le (p : Profile) : p.curve.params.n ≤ 256 ^ p.coordinateSize := by
  cases p <;> decide +kernel

namespace Ecdsa

structure Signature.InRange (n : Nat) (sig : Signature) : Prop where
  r_pos : 1 ≤ sig.r
  r_lt : sig.r < n
  s_pos : 1 ≤ sig.s
  s_lt : sig.s < n

theorem signWith?_inRange {c : Curve} {secret nonce : Nat} {digest : Bytes} {sig : Signature}
    (h : signWith? c secret digest nonce = some sig) : sig.InRange c.params.n := by
  have hpos := c.order_pos
  unfold signWith? at h
  dsimp only at h
  split at h
  . cases h
  . split at h
    . cases h
    . split at h
      . cases h
      . next hzero =>
        rw [not_or] at hzero
        injection h with h
        subst h
        exact ⟨Nat.pos_of_ne_zero hzero.1, Nat.mod_lt _ hpos, Nat.pos_of_ne_zero hzero.2,
          Nat.mod_lt _ hpos⟩

theorem exists_signWith?_of_sign? {c : Curve} {variant : Sha2.Variant} {secret : Nat}
    {digest : Bytes} {sig : Signature} (h : sign? c variant secret digest = some sig)
    : ∃ nonce, signWith? c secret digest nonce = some sig := by
  have hgo : ∀ size fuel st, sign?.go c variant secret digest size fuel st = some sig →
      ∃ nonce, signWith? c secret digest nonce = some sig := by
    intro size fuel
    induction fuel with
    | zero =>
      intro st hst
      cases hst
    | succ fuel ih =>
      intro st hst
      rw [sign?.go] at hst
      dsimp only at hst
      split at hst
      . next sig' hsig =>
        cases hst
        exact ⟨_, hsig⟩
      . exact ih _ hst
  exact hgo _ _ _ h

theorem sign?_inRange {c : Curve} {variant : Sha2.Variant} {secret : Nat} {digest : Bytes}
    {sig : Signature} (h : sign? c variant secret digest = some sig) : sig.InRange c.params.n := by
  obtain ⟨nonce, hnonce⟩ := exists_signWith?_of_sign? h
  exact signWith?_inRange hnonce

theorem Signature.ofBytes?_toBytes {size : Nat} {sig : Signature} (hr : sig.r < 256 ^ size)
    (hs : sig.s < 256 ^ size) : ofBytes? size (sig.toBytes size) = some sig := by
  have hlength : (sig.toBytes size).length = 2 * size := by
    rw [toBytes, List.length_append, Octets.length_ofNat, Octets.length_ofNat]
    omega
  have htake : (sig.toBytes size).take size = Octets.ofNat size sig.r :=
    List.take_left' (Octets.length_ofNat size sig.r)
  have hdrop : (sig.toBytes size).drop size = Octets.ofNat size sig.s :=
    List.drop_left' (Octets.length_ofNat size sig.r)
  rw [ofBytes?, if_pos hlength, htake, hdrop, Octets.toNat_ofNat hr, Octets.toNat_ofNat hs]

theorem Signature.ofBytes?_inj {size : Nat} {a b : Bytes} {sig : Signature}
    (ha : ofBytes? size a = some sig) (hb : ofBytes? size b = some sig) : a = b := by
  unfold ofBytes? at ha hb
  split at ha
  . next hlengthA =>
    split at hb
    . next hlengthB =>
      have hlength : a.length = b.length := by rw [hlengthA, hlengthB]
      rw [← hb, Option.some_inj, Signature.mk.injEq] at ha
      have htake := Octets.toNat_inj (by rw [List.length_take, List.length_take, hlength]) ha.1
      have hdrop := Octets.toNat_inj (by rw [List.length_drop, List.length_drop, hlength]) ha.2
      rw [← List.take_append_drop size a, htake, hdrop, List.take_append_drop]
    . cases hb
  . cases ha

end Ecdsa

end SignedToken
