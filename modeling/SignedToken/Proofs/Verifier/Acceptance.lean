import SignedToken.Proofs.Compact
import SignedToken.Proofs.Header.Written

/-!
This module contains what a verifier accepts. Its several readings of a wire come to the same three
segments, so the accepted wires are described without any of them.
-/

namespace SignedToken

theorem Header.declared_eq_text_iff {h : Header} {name : Text}
    : h.declared = .text name ↔ h.member? "alg" = some (.text name) := by
  unfold declared
  cases h.member? "alg" with
  | none => simp
  | some x => cases x <;> simp [ClaimValue.ofJson]

theorem Compact.unverifiedHeader_write_eq_ok_iff {header payload signature : Bytes} {h : Header}
    : unverifiedHeader (write header payload signature) = .ok h
        ↔
      Header.read header payload.isEmpty = .ok h ∧ h.check = .ok () := by
  unfold unverifiedHeader
  rw [read_write]
  cases Header.read header payload.isEmpty with
  | error e => simp
  | ok h' =>
    dsimp only
    constructor
    . intro hok
      split at hok
      . cases hok
      . next hcheck =>
        cases hok
        exact ⟨rfl, hcheck⟩
    . rintro ⟨heq, hcheck⟩
      cases heq
      rw [hcheck]

namespace Verifier

variable {scheme : Scheme} {v : Verifier}

def Signed (scheme : Scheme) (v : Verifier) (message signature : Bytes) : Prop :=
  ∃ sig, Ecdsa.Signature.ofBytes? v.profile.coordinateSize signature = some sig ∧
    scheme.accepts v.profile v.key message sig = true

/--
What the octets of a header are like that a verifier goes by: JSON members that are admissible and
that declare the algorithm of its profile.
-/
def Addressed (v : Verifier) (octets : Bytes) : Prop :=
  ∃ h : Header,
    (TextEncoding.decodeDetected? octets >>= Json.read? Header.dialect) = some (.object h.members) ∧
      h.Admissible ∧ h.member? "alg" = some (.text (Text.ofString v.profile.algorithm))

theorem addressed_write (v : Verifier)
    : v.Addressed (Utf8.encodeAny (Header.write v.profile)) :=
  ⟨Header.issued v.profile, Header.spelled_write v.profile, Header.issued_admissible v.profile, rfl⟩

theorem verifiedPayload_write_eq_ok_iff {header payload signature b : Bytes}
    : v.verifiedPayload scheme (Compact.write header payload signature) = .ok b
        ↔
      (∃ h, Header.read header payload.isEmpty = .ok h ∧ h.detachesPayload = false) ∧
        v.Signed scheme (Utf8.encodeAny (Compact.signedText header payload)) signature ∧
        b = payload := by
  unfold verifiedPayload Signed
  rw [Compact.read_write]
  cases Header.read header payload.isEmpty with
  | error e => simp
  | ok h =>
    dsimp only
    cases hdetach : h.detachesPayload with
    | true =>
      constructor
      . intro hok
        rw [if_pos rfl] at hok
        split at hok <;> cases hok
      . rintro ⟨⟨h', heq, hattached⟩, -⟩
        cases heq
        rw [hdetach] at hattached
        cases hattached
    | false =>
      rw [if_neg Bool.false_ne_true]
      cases hsig : Ecdsa.Signature.ofBytes? v.profile.coordinateSize signature with
      | none => simp
      | some sig =>
        cases haccepts : scheme.accepts v.profile v.key
            (Utf8.encodeAny (Compact.signedText header payload)) sig with
        | false => simp [haccepts]
        | true =>
          simp only [if_true, Except.ok.injEq, Option.some_inj, exists_eq_left', haccepts,
            hdetach, true_and]
          exact eq_comm

theorem Addressed.read {octets : Bytes} (haddressed : v.Addressed octets) (payloadEmpty : Bool)
    : ∃ h : Header, Header.read octets payloadEmpty = .ok h ∧ h.check = .ok () ∧
        h.detachesPayload = false ∧
        h.member? "alg" = some (.text (Text.ofString v.profile.algorithm)) := by
  obtain ⟨h, hparse, hadm, halg⟩ := haddressed
  obtain ⟨hcheck, hattached⟩ := Header.admissible_iff.1 hadm
  exact ⟨h, Header.read_eq_ok_iff.2 ⟨hparse, .inl hattached⟩, hcheck, hattached, halg⟩

theorem authenticate_of_addressed {header payload signature : Bytes}
    (haddressed : v.Addressed header)
    : v.authenticate scheme (.text (Compact.write header payload signature))
        =
      match v.verifiedPayload scheme (Compact.write header payload signature) with
      | .error e => .error e
      | .ok b => (Token.decode b).mapError .payloadInvalid := by
  obtain ⟨h, hread, hcheck, hattached, halg⟩ := haddressed.read payload.isEmpty
  have hform : checkForm (Compact.write header payload signature) = .ok () :=
    checkForm_eq_ok_iff.2 ⟨header, payload, signature, rfl⟩
  have hheader : Compact.unverifiedHeader (Compact.write header payload signature) = .ok h :=
    Compact.unverifiedHeader_write_eq_ok_iff.2 ⟨hread, hcheck⟩
  unfold authenticate
  dsimp only
  rw [hform]
  dsimp only
  rw [hheader]
  dsimp only
  rw [Header.declared_eq_text_iff.2 halg]
  exact if_neg (not_not_intro rfl)

theorem authenticate_write {header payload signature : Bytes} (haddressed : v.Addressed header)
    (hsigned : v.Signed scheme (Utf8.encodeAny (Compact.signedText header payload)) signature)
    : v.authenticate scheme (.text (Compact.write header payload signature))
        =
      (Token.decode payload).mapError .payloadInvalid := by
  obtain ⟨h, hread, hcheck, hattached, halg⟩ := haddressed.read payload.isEmpty
  rw [authenticate_of_addressed haddressed,
    verifiedPayload_write_eq_ok_iff.2 ⟨⟨h, hread, hattached⟩, hsigned, rfl⟩]

theorem authenticate_eq_ok_iff {wire : Text} {t : Token}
    : v.authenticate scheme (.text wire) = .ok t
        ↔
      ∃ header payload signature, wire = Compact.write header payload signature ∧
        v.Addressed header ∧
        v.Signed scheme (Utf8.encodeAny (Compact.signedText header payload)) signature ∧
        Token.decode payload = .ok t := by
  constructor
  . intro hok
    unfold authenticate at hok
    dsimp only at hok
    split at hok
    . cases hok
    . next hform =>
      -- The form leaves one way to cut the wire, so both readings that follow find these segments.
      obtain ⟨header, payload, signature, rfl⟩ := checkForm_eq_ok_iff.1 hform
      split at hok
      . cases hok
      . next h hheader =>
        split at hok
        . next name hdeclared =>
          split at hok
          . cases hok
          . next hname =>
            split at hok
            . cases hok
            . next b hb =>
              obtain ⟨hread, hcheck⟩ := Compact.unverifiedHeader_write_eq_ok_iff.1 hheader
              obtain ⟨⟨h', hread', hattached⟩, hsigned, rfl⟩ :=
                verifiedPayload_write_eq_ok_iff.1 hb
              rw [hread] at hread'
              cases hread'
              refine ⟨header, b, signature, rfl, ⟨h, ?_, ?_, ?_⟩, hsigned, ?_⟩
              . exact (Header.read_eq_ok_iff.1 hread).1
              . exact Header.admissible_iff.2 ⟨hcheck, hattached⟩
              . rw [← Decidable.not_not.1 hname]
                exact Header.declared_eq_text_iff.1 hdeclared
              . exact Outcome.mapError_eq_ok_iff.1 hok
        . cases hok
  . rintro ⟨header, payload, signature, rfl, haddressed, hsigned, hdecode⟩
    rw [authenticate_write haddressed hsigned]
    exact Outcome.mapError_eq_ok_iff.2 hdecode

theorem checkExpiration_eq_ok_iff {t u : Token} {now : Int}
    : checkExpiration t now = .ok u ↔ u = t ∧ now ≤ t.expiration := by
  unfold checkExpiration Token.isExpired
  split
  . next h =>
    rw [decide_eq_true_eq] at h
    constructor
    . intro hok
      split at hok <;> cases hok
    . rintro ⟨-, hle⟩
      omega
  . next h =>
    rw [decide_eq_true_eq] at h
    constructor
    . intro hok
      cases hok
      exact ⟨rfl, by omega⟩
    . rintro ⟨rfl, -⟩
      rfl

theorem authenticate_of_verify {wire : ClaimValue} {now : Int} {t : Token}
    (h : v.verify scheme now wire = .ok t) : v.authenticate scheme wire = .ok t := by
  unfold verify at h
  cases hauthenticate : v.authenticate scheme wire with
  | error e =>
    rw [hauthenticate] at h
    cases h
  | ok u =>
    rw [hauthenticate] at h
    obtain ⟨rfl, -⟩ := checkExpiration_eq_ok_iff.1 h
    rfl

/--
The verifier accepts exactly the wires of three written segments of which the first is a header for
its profile, the last one is a signature of what stands before the last dot, and the one in between
encodes a token that is not expired.
-/
theorem verify_eq_ok_iff (scheme : Scheme) (v : Verifier) (now : Int) (wire : Text) (t : Token)
    : v.verify scheme now (.text wire) = .ok t
        ↔
      ∃ header payload signature, wire = Compact.write header payload signature ∧
        v.Addressed header ∧
        v.Signed scheme (Utf8.encodeAny (Compact.signedText header payload)) signature ∧
        Token.decode payload = .ok t ∧ now ≤ t.expiration := by
  unfold verify
  constructor
  . intro hok
    split at hok
    . cases hok
    . next u hu =>
      obtain ⟨rfl, hle⟩ := checkExpiration_eq_ok_iff.1 hok
      obtain ⟨header, payload, signature, hwire, haddressed, hsigned, hdecode⟩ :=
        authenticate_eq_ok_iff.1 hu
      exact ⟨header, payload, signature, hwire, haddressed, hsigned, hdecode, hle⟩
  . rintro ⟨header, payload, signature, hwire, haddressed, hsigned, hdecode, hle⟩
    rw [authenticate_eq_ok_iff.2 ⟨header, payload, signature, hwire, haddressed, hsigned, hdecode⟩]
    exact checkExpiration_eq_ok_iff.2 ⟨rfl, hle⟩

end Verifier

end SignedToken
