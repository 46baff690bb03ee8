import SignedToken.Proofs.Curve.Ecdsa
import SignedToken.Proofs.Verifier.Rejection
import SignedToken.Signer

/-!
This module contains the law of tokens that are issued and checked: between a signer and its verifier
the wire adds nothing to a payload and takes nothing away from it.
-/

namespace SignedToken

/-! ### The last stage -/

def Verifier.verdict (payload : Bytes) (now : Int) : Except Failure Token :=
  match Token.decode payload with
  | .error ds => .error (.known (.verification (.payloadInvalid ds)))
  | .ok d =>
    if now ≤ d.expiration then .ok d
    else .error (.known (.verification (.expired d.expiration now)))

theorem Verifier.verify_eq_verdict_iff {scheme : Scheme} {v : Verifier} {wire : Text}
    {payload : Bytes} {now : Int}
    (h : v.authenticate scheme (.text wire) = (Token.decode payload).mapError .payloadInvalid)
    : v.verify scheme now (.text wire) = verdict payload now
        ↔
      ∀ d, Token.decode payload = .ok d → d.expiration < now → hasNumeral now = true := by
  unfold verify verdict
  rw [h]
  cases hdecode : Token.decode payload with
  | error ds => exact iff_of_true rfl fun d hd => nomatch hd
  | ok d =>
    dsimp only [Except.mapError]
    by_cases hle : now ≤ d.expiration
    . rw [if_pos hle]
      apply iff_of_true
      . exact checkExpiration_eq_ok_iff.2 ⟨rfl, hle⟩
      . intro d' hd' hlt
        cases hd'
        omega
    . -- An expiration that was read has a numeral, so it is only the time that can be too long.
      rw [if_neg hle, checkExpiration_of_lt (by omega) (Token.isReceived_of_decode hdecode).expiration]
      cases hasNumeral now with
      | true => simp
      | false =>
        apply iff_of_false
        . intro heq
          cases heq
        . intro hall
          cases hall d rfl (by omega)

/-! ### Signing -/

/--
What is asked of a signature primitive for a key: it signs everything, with numbers below the order
of the curve, and its signatures belong to the public half of the key.
-/
structure Scheme.AcceptsOwn (scheme : Scheme) (p : Profile) (k : PrivateKey) : Prop where
  signs : ∀ message, ∃ sig, scheme.sign? p k message = some sig
  inRange : ∀ message sig, scheme.sign? p k message = some sig →
    sig.r < p.curve.params.n ∧ sig.s < p.curve.params.n
  accepts : ∀ message sig, scheme.sign? p k message = some sig →
    scheme.accepts p k.publicKey message sig = true

def Scheme.ofKey (k : PrivateKey) : Scheme where
  sign? p k' message := some ((Scheme.ecdsa.sign? p k' message).getD ⟨1, 1⟩)
  accepts p q message sig :=
    q == k.publicKey && sig == (Scheme.ecdsa.sign? p k message).getD ⟨1, 1⟩

theorem Scheme.inRange_ofKey {p : Profile} {k : PrivateKey} (hk : k.curve = p.curve) {message : Bytes}
    {sig : Ecdsa.Signature} (h : (Scheme.ofKey k).sign? p k message = some sig)
    : sig.InRange p.curve.params.n := by
  injection h with h
  cases hecdsa : Scheme.ecdsa.sign? p k message with
  | none =>
    -- Nobody has seen a message for which no nonce serves, but it has to be signed like any other.
    rw [hecdsa] at h
    rw [← h]
    cases p <;> constructor <;> decide +kernel
  | some sig' =>
    rw [hecdsa, Option.getD_some] at h
    rw [← h, ← hk]
    exact Ecdsa.sign?_inRange hecdsa

theorem Scheme.acceptsOwn_ofKey {p : Profile} {k : PrivateKey} (hk : k.curve = p.curve)
    : (Scheme.ofKey k).AcceptsOwn p k where
  signs := fun message => ⟨_, rfl⟩
  inRange := by
    intro message sig hsig
    have hrange := Scheme.inRange_ofKey hk hsig
    exact ⟨hrange.r_lt, hrange.s_lt⟩
  accepts := by
    intro message sig hsig
    injection hsig with hsig
    simp [Scheme.ofKey, hsig]

namespace Signer

variable {scheme : Scheme} {s : Signer}

theorem ofKey_publicKey (s : Signer)
    : Verifier.ofKey (.ecPublic s.key.publicKey) s.profile = .ok s.verifier := by
  have hcurve : s.key.publicKey.curve = s.profile.curve := by
    rw [PrivateKey.publicKey_curve, s.onCurve]
  rw [Verifier.ofKey, AnyKey.toPublic, dif_pos hcurve]
  rfl

theorem sign?_eq_some_iff {payload : Bytes} {wire : Text}
    : s.sign? scheme payload = some wire
        ↔
      ∃ sig, scheme.sign? s.profile s.key (Utf8.encodeAny (signingInput s.profile payload))
          = some sig ∧
        Compact.write (Utf8.encodeAny (Header.write s.profile)) payload
          (sig.toBytes s.profile.coordinateSize) = wire :=
  Option.map_eq_some_iff

theorem authenticate_sign? (h : scheme.AcceptsOwn s.profile s.key) (payload : Bytes)
    : ∃ wire, s.sign? scheme payload = some wire ∧
        s.verifier.authenticate scheme (.text wire)
          = (Token.decode payload).mapError .payloadInvalid := by
  obtain ⟨sig, hsig⟩ := h.signs (Utf8.encodeAny (signingInput s.profile payload))
  refine ⟨_, sign?_eq_some_iff.2 ⟨sig, hsig, rfl⟩,
    Verifier.authenticate_write (s.verifier.addressed_write) ⟨sig, ?_, ?_⟩⟩
  . obtain ⟨hr, hs⟩ := h.inRange _ sig hsig
    have hle := s.profile.order_le
    exact Ecdsa.Signature.ofBytes?_toBytes (Nat.lt_of_lt_of_le hr hle) (Nat.lt_of_lt_of_le hs hle)
  . exact h.accepts _ sig hsig

theorem outcome_issue {observer : Option Observer} {t : Token} {payload : Bytes} {wire : Text}
    (hencode : t.encode = .ok payload) (hsign : s.sign? scheme payload = some wire)
    (hobserver : ∀ observe, observer = some observe → (observe payload wire).refusal? = none)
    : (s.issue scheme observer t).outcome = .ok wire := by
  unfold issue
  rw [hencode]
  dsimp only
  rw [hsign]
  cases observer with
  | none => rfl
  | some observe =>
    dsimp only
    rw [hobserver observe rfl]

/--
The verifier of a signer can be built, and says of the wire of a token what it is to say of the
token's encoding, unless the time is too long to be written in the report of an expired token.
-/
theorem verify_issue_iff (hscheme : scheme.AcceptsOwn s.profile s.key) {observer : Option Observer}
    {t : Token} {payload : Bytes} (hencode : t.encode = .ok payload)
    (hobserver : ∀ observe, observer = some observe →
      ∀ wire, (observe payload wire).refusal? = none) (now : Int)
    : Verifier.ofKey (.ecPublic s.key.publicKey) s.profile = .ok s.verifier ∧
        ∃ wire, (s.issue scheme observer t).outcome = .ok wire ∧
          (s.verifier.verify scheme now (.text wire) = Verifier.verdict payload now
              ↔
            ∀ d, Token.decode payload = .ok d → d.expiration < now → hasNumeral now = true) := by
  obtain ⟨wire, hsign, hauthenticate⟩ := authenticate_sign? hscheme payload
  refine ⟨ofKey_publicKey s, wire, ?_, Verifier.verify_eq_verdict_iff hauthenticate⟩
  exact outcome_issue hencode hsign fun observe heq => hobserver observe heq wire

theorem exists_encode_bare
    : ∃ payload, (Token.mk 1 [] [] [] []).encode = .ok payload ∧
        Token.decode payload = .ok (Token.mk 1 [] [] [] []) := by
  have hwellFormed : (Token.mk 1 [] [] [] []).WellFormed := by
    constructor <;> simp
  obtain ⟨payload, hpayload⟩ := Token.exists_encode_of_extra (List.forall_mem_nil _)
  have hcopy : (Token.mk 1 [] [] [] []).copy = Token.mk 1 [] [] [] [] := by
    simp [Token.copy, Json.sortMembers]
  refine ⟨payload, hpayload, ?_⟩
  rw [Token.decode_encode hwellFormed hpayload (by simp), hcopy]

def least : Signer :=
  ⟨.es256, ⟨.secp256r1, 1⟩, rfl⟩

def acceptAll : Observer := fun _ _ => .returned .null

theorem verify_issue_in_time
    : ∃ wire,
        (least.issue (.ofKey least.key) (some acceptAll) (Token.mk 1 [] [] [] [])).outcome
          = .ok wire ∧
        least.verifier.verify (.ofKey least.key) 1 (.text wire) = .ok (Token.mk 1 [] [] [] []) := by
  obtain ⟨payload, hencode, hdecode⟩ := exists_encode_bare
  have hobserver : ∀ observe, some acceptAll = some observe →
      ∀ wire, (observe payload wire).refusal? = none := by
    intro observe heq wire
    cases heq
    rfl
  obtain ⟨-, wire, hissue, hverify⟩ :=
    verify_issue_iff (Scheme.acceptsOwn_ofKey least.onCurve) hencode hobserver 1
  have hverdict : Verifier.verdict payload 1 = .ok (Token.mk 1 [] [] [] []) := by
    rw [Verifier.verdict, hdecode]
    rfl
  refine ⟨wire, hissue, (hverify.2 ?_).trans hverdict⟩
  intro d hd hlt
  rw [hdecode] at hd
  cases hd
  exact absurd hlt (Int.lt_irrefl 1)

theorem exists_verify_issue_unreported
    : (Scheme.ofKey least.key).AcceptsOwn least.profile least.key ∧
        ∃ payload wire d,
          (Token.mk 1 [] [] [] []).encode = .ok payload ∧ Token.decode payload = .ok d ∧
          d.expiration < (10 ^ maxNumeralDigits : Nat) ∧
          (least.issue (.ofKey least.key) none (Token.mk 1 [] [] [] [])).outcome = .ok wire ∧
          least.verifier.verify (.ofKey least.key) (10 ^ maxNumeralDigits : Nat) (.text wire)
            = .error (.unknown .numeralTooLong) := by
  obtain ⟨payload, hencode, hdecode⟩ := exists_encode_bare
  have hscheme := Scheme.acceptsOwn_ofKey least.onCurve
  have hlt : (1 : Int) < (10 ^ maxNumeralDigits : Nat) :=
    Int.ofNat_lt.2 (Nat.one_lt_pow (by decide) (by decide))
  have hone : hasNumeral 1 = true := Text.hasNumeral_iff.2 (by decide)
  obtain ⟨wire, hsign, hauthenticate⟩ := authenticate_sign? hscheme payload
  refine ⟨hscheme, payload, wire, _, hencode, hdecode, hlt, outcome_issue hencode hsign ?_, ?_⟩
  . intro observe heq
    cases heq
  . rw [Verifier.verify, hauthenticate, hdecode]
    dsimp only [Except.mapError]
    rw [Verifier.checkExpiration_of_lt (t := Token.mk 1 [] [] [] []) hlt hone,
      Text.not_hasNumeral_pow]
    rfl

end Signer

end SignedToken
