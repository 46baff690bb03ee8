import SignedToken.Proofs.Curve.Ecdsa
import SignedToken.Proofs.Verifier.Rejection

/-!
This module contains why no wire can be edited. What a verifier asks its signature primitive tells the
wire that it asks about, so an edited wire is either not asked about at all or is another question.
-/

namespace SignedToken

namespace Verifier

variable {scheme : Scheme} {v : Verifier}

/--
What a verifier asks its signature primitive about a wire that comes so far: whether the signature
belongs to the message.
-/
def Asks (v : Verifier) (wire : Text) (message signature : Bytes) : Prop :=
  ∃ header payload, wire = Compact.write header payload signature ∧ v.Addressed header ∧
    message = Utf8.encodeAny (Compact.signedText header payload)

theorem Asks.wire_eq {wire wire' : Text} {message signature : Bytes}
    (h : v.Asks wire message signature) (h' : v.Asks wire' message signature) : wire = wire' := by
  obtain ⟨header, payload, rfl, -, hmessage⟩ := h
  obtain ⟨header', payload', rfl, -, hmessage'⟩ := h'
  rw [hmessage', Utf8.encodeAny_inj] at hmessage
  unfold Compact.write
  rw [hmessage]

theorem exists_error_of_not_asks {wire : Text}
    (hnot : ¬ ∃ message signature, v.Asks wire message signature)
    : ∃ e, ∀ scheme now,
        v.verify scheme now (.text wire) = .error (.known (.verification e)) := by
  have hrejected : ∃ e, ∀ scheme, v.authenticate scheme (.text wire) = .error e := by
    by_cases hform : ∃ header payload signature, wire = Compact.write header payload signature
    . obtain ⟨header, payload, signature, rfl⟩ := hform
      have hheader : ¬ v.Addressed header :=
        fun haddressed => hnot ⟨_, signature, header, payload, rfl, haddressed, rfl⟩
      obtain ⟨e, hreport⟩ := exists_headerReport hheader payload.isEmpty
      exact ⟨e, fun scheme => authenticate_of_headerReport hreport⟩
    . have hnone : ¬ ∃ header payload signature,
          ClaimValue.text wire = .text (Compact.write header payload signature) := by
        simpa using hform
      obtain ⟨e, -, hreport⟩ := exists_formReport (v := v) hnone
      exact ⟨.malformed e, hreport⟩
  obtain ⟨e, he⟩ := hrejected
  refine ⟨e, fun scheme now => ?_⟩
  unfold verify
  rw [he]

/--
What comes of a wire hangs on one answer of the primitive: if it is no the wire is rejected, and if it
is yes the rest does not depend on the primitive.
-/
structure DecidedBy (v : Verifier) (wire : Text) (message signature : Bytes) : Prop where
  rejected : ∀ scheme now, ¬ v.Signed scheme message signature →
    v.verify scheme now (.text wire) = .error (.known (.verification .signatureInvalid))
  settled : ∀ scheme scheme' now, v.Signed scheme message signature →
    v.Signed scheme' message signature →
      v.verify scheme now (.text wire) = v.verify scheme' now (.text wire)

theorem Asks.decidedBy {wire : Text} {message signature : Bytes} (h : v.Asks wire message signature)
    : v.DecidedBy wire message signature := by
  obtain ⟨header, payload, rfl, haddressed, rfl⟩ := h
  constructor
  . intro scheme now hnot
    unfold verify
    rw [authenticate_of_not_signed haddressed hnot]
  . intro scheme scheme' now hsigned hsigned'
    unfold verify
    rw [authenticate_write haddressed hsigned, authenticate_write haddressed hsigned']

def AcceptsOnly (scheme : Scheme) (v : Verifier) (message signature : Bytes) : Prop :=
  ∀ m sig, scheme.accepts v.profile v.key m sig = true →
    m = message ∧ Ecdsa.Signature.ofBytes? v.profile.coordinateSize signature = some sig

theorem AcceptsOnly.eq_of_signed {message signature m s : Bytes}
    (h : v.AcceptsOnly scheme message signature) (hsigned : v.Signed scheme m s)
    : m = message ∧ s = signature := by
  obtain ⟨sig, hsig, haccepts⟩ := hsigned
  obtain ⟨rfl, hsig'⟩ := h m sig haccepts
  exact ⟨rfl, Ecdsa.Signature.ofBytes?_inj hsig hsig'⟩

def onlyScheme (message : Bytes) (sig : Ecdsa.Signature) : Scheme where
  sign? _ _ _ := none
  accepts _ _ m s := m == message && s == sig

theorem acceptsOnly_onlyScheme {message signature : Bytes} {sig : Ecdsa.Signature}
    (hsig : Ecdsa.Signature.ofBytes? v.profile.coordinateSize signature = some sig)
    : v.AcceptsOnly (onlyScheme message sig) message signature := by
  intro m s haccepts
  simp only [onlyScheme, Bool.and_eq_true, beq_iff_eq] at haccepts
  obtain ⟨rfl, rfl⟩ := haccepts
  exact ⟨rfl, hsig⟩

/--
A wire that differs from one that is asked about is rejected without the primitive, or the primitive
is asked something else about it and that answer decides. So that the primitive accepts the signature
of one wire never makes another one acceptable.
-/
theorem asks_otherwise_of_ne (v : Verifier) {wire wire' : Text} {message signature : Bytes}
    (hasks : v.Asks wire message signature) (hne : wire' ≠ wire)
    : ((∃ e, ∀ scheme now,
            v.verify scheme now (.text wire') = .error (.known (.verification e))) ∨
          ∃ message' signature', v.Asks wire' message' signature' ∧
            (message', signature') ≠ (message, signature) ∧
            v.DecidedBy wire' message' signature') ∧
        ∀ scheme now t, v.AcceptsOnly scheme message signature →
          v.verify scheme now (.text wire') ≠ .ok t := by
  have hother : ∀ {message' signature'}, v.Asks wire' message' signature' →
      (message', signature') ≠ (message, signature) := by
    intro message' signature' hasks' heq
    cases heq
    exact hne (hasks'.wire_eq hasks)
  constructor
  . by_cases hasks' : ∃ message' signature', v.Asks wire' message' signature'
    . obtain ⟨message', signature', hasks'⟩ := hasks'
      exact .inr ⟨message', signature', hasks', hother hasks', hasks'.decidedBy⟩
    . exact .inl (exists_error_of_not_asks hasks')
  . intro scheme now t honly hok
    obtain ⟨header, payload, s, rfl, haddressed, hsigned, -⟩ :=
      authenticate_eq_ok_iff.1 (authenticate_of_verify hok)
    obtain ⟨hmessage, hsignature⟩ := honly.eq_of_signed hsigned
    apply hother ⟨header, payload, rfl, haddressed, rfl⟩
    rw [hmessage, hsignature]

theorem asks_otherwise_of_sibling
    : ∃ wire wire' message,
        wire' = wire.dropLast ++ Text.ofString "B" ∧ wire' ≠ wire ∧
        (ofGenerator .es256).Asks wire message (List.replicate 64 0) ∧
        ((∃ e, ∀ scheme now, (ofGenerator .es256).verify scheme now (.text wire')
              = .error (.known (.verification e))) ∨
            ∃ message' signature', (ofGenerator .es256).Asks wire' message' signature' ∧
              (message', signature') ≠ (message, List.replicate 64 0) ∧
              (ofGenerator .es256).DecidedBy wire' message' signature') ∧
        (ofGenerator .es256).AcceptsOnly (onlyScheme message ⟨0, 0⟩) message (List.replicate 64 0) ∧
        ∀ now t, (ofGenerator .es256).verify (onlyScheme message ⟨0, 0⟩) now (.text wire') ≠ .ok t := by
  let header := Utf8.encodeAny (Header.write .es256)
  let wire := Compact.write header [] (List.replicate 64 0)
  have hasks : (ofGenerator .es256).Asks wire (Utf8.encodeAny (Compact.signedText header []))
      (List.replicate 64 0) := ⟨header, [], rfl, addressed_write (ofGenerator .es256), rfl⟩
  have hne : wire.dropLast ++ Text.ofString "B" ≠ wire := by
    decide
  have honly : (ofGenerator .es256).AcceptsOnly
      (onlyScheme (Utf8.encodeAny (Compact.signedText header [])) ⟨0, 0⟩)
      (Utf8.encodeAny (Compact.signedText header [])) (List.replicate 64 0) :=
    acceptsOnly_onlyScheme rfl
  obtain ⟨hasked, hrejected⟩ := asks_otherwise_of_ne (ofGenerator .es256) hasks hne
  exact ⟨wire, _, _, rfl, hne, hasks, hasked, honly, fun now t => hrejected _ now t honly⟩

end Verifier

end SignedToken
