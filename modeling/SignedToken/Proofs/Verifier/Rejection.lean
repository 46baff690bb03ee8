import SignedToken.Proofs.Token.Received
import SignedToken.Proofs.Verifier.Acceptance

/-!
This module contains what a verifier says of the wires that it rejects. Its report on a header needs
no more of the rest of the wire than whether there is a payload, and every report is one of the
documented errors unless the time is too long to be written in it.
-/

namespace SignedToken

theorem Compact.unverifiedHeader_write (header payload signature : Bytes)
    : unverifiedHeader (write header payload signature)
        =
      match Header.read header payload.isEmpty with
      | .error e => .error (.header e)
      | .ok h =>
        match h.check with
        | .error e => .error (.header e)
        | .ok () => .ok h := by
  unfold unverifiedHeader
  rw [read_write]
  cases Header.read header payload.isEmpty <;> rfl

namespace Verifier

variable {scheme : Scheme} {v : Verifier}

inductive HeaderReport (v : Verifier) : Except HeaderError Header → VerificationError → Prop where
  | unread {e : HeaderError} : HeaderReport v (.error e) (.malformed (.header (.header e)))
  | refused {h : Header} {e : HeaderError} (hcheck : h.check = .error e)
    : HeaderReport v (.ok h) (.malformed (.header (.header e)))
  | otherAlgorithm {h : Header} (hcheck : h.check = .ok ())
      (halg : h.member? "alg" ≠ some (.text (Text.ofString v.profile.algorithm)))
    : HeaderReport v (.ok h) (.algorithmMismatch v.profile h.declared)
  | detached {h : Header} (hcheck : h.check = .ok ())
      (halg : h.member? "alg" = some (.text (Text.ofString v.profile.algorithm)))
      (hdetached : h.detachesPayload = true)
    : HeaderReport v (.ok h) (if h.hasCritical then .malformed .detachedPayload else .unverifiable)

theorem exists_headerReport {octets : Bytes} (hnot : ¬ v.Addressed octets) (payloadEmpty : Bool)
    : ∃ e, v.HeaderReport (Header.read octets payloadEmpty) e := by
  cases hread : Header.read octets payloadEmpty with
  | error e => exact ⟨_, .unread⟩
  | ok h =>
    cases hcheck : h.check with
    | error e => exact ⟨_, .refused hcheck⟩
    | ok u =>
      by_cases halg : h.member? "alg" = some (.text (Text.ofString v.profile.algorithm))
      . cases hdetached : h.detachesPayload with
        | true => exact ⟨_, .detached hcheck halg hdetached⟩
        | false =>
          have hadm : h.Admissible := Header.admissible_iff.2 ⟨hcheck, hdetached⟩
          exact absurd ⟨h, (Header.read_eq_ok_iff.1 hread).1, hadm, halg⟩ hnot
      . exact ⟨_, .otherAlgorithm hcheck halg⟩

theorem verifiedPayload_of_detached {header payload signature : Bytes} {h : Header}
    (hread : Header.read header payload.isEmpty = .ok h) (hdetached : h.detachesPayload = true)
    : v.verifiedPayload scheme (Compact.write header payload signature)
        =
      .error (if h.hasCritical then .malformed .detachedPayload else .unverifiable) := by
  unfold verifiedPayload
  rw [Compact.read_write, hread]
  dsimp only
  rw [if_pos hdetached]
  split <;> rfl

theorem authenticate_of_headerReport {header payload signature : Bytes} {e : VerificationError}
    (hreport : v.HeaderReport (Header.read header payload.isEmpty) e)
    : v.authenticate scheme (.text (Compact.write header payload signature)) = .error e := by
  have hform : checkForm (Compact.write header payload signature) = .ok () :=
    checkForm_eq_ok_iff.2 ⟨header, payload, signature, rfl⟩
  unfold authenticate
  dsimp only
  rw [hform]
  dsimp only
  rw [Compact.unverifiedHeader_write]
  generalize hread : Header.read header payload.isEmpty = read at hreport
  cases hreport with
  | unread => rfl
  | refused hcheck =>
    dsimp only
    rw [hcheck]
  | otherAlgorithm hcheck halg =>
    dsimp only
    rw [hcheck]
    dsimp only
    split
    . next name hdeclared =>
      rw [if_pos, hdeclared]
      rintro rfl
      exact halg (Header.declared_eq_text_iff.1 hdeclared)
    . rfl
  | detached hcheck halg hdetached =>
    dsimp only
    rw [hcheck]
    dsimp only
    rw [Header.declared_eq_text_iff.2 halg]
    dsimp only
    rw [if_neg (not_not_intro rfl), verifiedPayload_of_detached hread hdetached]

theorem verifiedPayload_of_not_signed {header payload signature : Bytes}
    (haddressed : v.Addressed header)
    (hnot : ¬ v.Signed scheme (Utf8.encodeAny (Compact.signedText header payload)) signature)
    : v.verifiedPayload scheme (Compact.write header payload signature)
        =
      .error .signatureInvalid := by
  obtain ⟨h, hread, hcheck, hattached, halg⟩ := haddressed.read payload.isEmpty
  unfold verifiedPayload
  rw [Compact.read_write, hread]
  dsimp only
  rw [hattached, if_neg Bool.false_ne_true]
  cases hsig : Ecdsa.Signature.ofBytes? v.profile.coordinateSize signature with
  | none => rfl
  | some sig =>
    dsimp only
    rw [if_neg]
    intro haccepts
    exact hnot ⟨sig, hsig, haccepts⟩

theorem authenticate_of_not_signed {header payload signature : Bytes}
    (haddressed : v.Addressed header)
    (hnot : ¬ v.Signed scheme (Utf8.encodeAny (Compact.signedText header payload)) signature)
    : v.authenticate scheme (.text (Compact.write header payload signature))
        =
      .error .signatureInvalid := by
  rw [authenticate_of_addressed haddressed, verifiedPayload_of_not_signed haddressed hnot]

theorem not_signed_of_length {message signature : Bytes}
    (hlength : signature.length ≠ 2 * v.profile.coordinateSize)
    : ¬ v.Signed scheme message signature := by
  rintro ⟨sig, hsig, -⟩
  rw [Ecdsa.Signature.ofBytes?, if_neg hlength] at hsig
  cases hsig

/-! ### The wires that have no form -/

inductive FormReport : ClaimValue → ParseError → Prop where
  | notText {w : ClaimValue} (htext : ∀ t, w ≠ .text t) : FormReport w (.notText w.kindName)
  | segmentCount {t : Text} (hcount : (Text.splitOn dot t).length ≠ 3)
    : FormReport (.text t) (.segmentCount (Text.splitOn dot t).length)
  | segment {t u : Text} {e : Base64Url.SegmentError} (hmem : u ∈ Text.splitOn dot t)
      (hdecode : Base64Url.decode u = .error e)
    : FormReport (.text t) (.segment e)

theorem exists_segment_of_checkSegments {ts : List Text} {e : ParseError}
    (h : checkSegments ts = .error e)
    : ∃ t ∈ ts, ∃ cause, Base64Url.decode t = .error cause ∧ e = .segment cause := by
  induction ts with
  | nil => cases h
  | cons t ts ih =>
    unfold checkSegments decodeSegment at h
    cases hdecode : Base64Url.decode t with
    | error cause =>
      rw [hdecode] at h
      cases h
      exact ⟨t, List.mem_cons_self, cause, hdecode, rfl⟩
    | ok b =>
      rw [hdecode] at h
      obtain ⟨u, hmem, hu⟩ := ih h
      exact ⟨u, List.mem_cons_of_mem t hmem, hu⟩

theorem formReport_of_checkForm {t : Text} {e : ParseError} (h : checkForm t = .error e)
    : FormReport (.text t) e := by
  unfold checkForm at h
  dsimp only at h
  split at h
  . next hcount =>
    cases h
    exact .segmentCount hcount
  . obtain ⟨u, hmem, cause, hdecode, rfl⟩ := exists_segment_of_checkSegments h
    exact .segment hmem hdecode

theorem exists_formReport {wire : ClaimValue}
    (hnot : ¬ ∃ header payload signature, wire = .text (Compact.write header payload signature))
    : ∃ e, FormReport wire e ∧ ∀ scheme, v.authenticate scheme wire = .error (.malformed e) := by
  by_cases htext : ∃ t, wire = .text t
  . obtain ⟨t, rfl⟩ := htext
    cases hform : checkForm t with
    | error e =>
      refine ⟨e, formReport_of_checkForm hform, fun scheme => ?_⟩
      unfold authenticate
      dsimp only
      rw [hform]
    | ok u =>
      obtain ⟨header, payload, signature, rfl⟩ := checkForm_eq_ok_iff.1 hform
      exact absurd ⟨header, payload, signature, rfl⟩ hnot
  . refine ⟨_, .notText fun t ht => htext ⟨t, ht⟩, fun scheme => ?_⟩
    cases wire with
    | text t => exact absurd ⟨t, rfl⟩ htext
    | _ => rfl

/-! ### The last stage -/

theorem isReceived_of_authenticate {wire : ClaimValue} {t : Token}
    (h : v.authenticate scheme wire = .ok t) : t.IsReceived := by
  cases wire with
  | text wire =>
    obtain ⟨header, payload, signature, -, -, -, hdecode⟩ := authenticate_eq_ok_iff.1 h
    exact Token.isReceived_of_decode hdecode
  | _ => cases h

theorem hasNumeral_of_authenticate {wire : ClaimValue} {t : Token}
    (h : v.authenticate scheme wire = .ok t) : hasNumeral t.expiration = true :=
  (isReceived_of_authenticate h).expiration

theorem checkExpiration_of_lt {t : Token} {now : Int} (h : t.expiration < now)
    (ht : hasNumeral t.expiration = true)
    : checkExpiration t now
        =
      if hasNumeral now then .error (.known (.verification (.expired t.expiration now)))
      else .error (.unknown .numeralTooLong) := by
  unfold checkExpiration
  rw [Token.isExpired, if_pos (decide_eq_true h), ht, Bool.true_and]

/-! ### The documented failures -/

def documentedTitles : List String :=
  ["ParseError", "AlgorithmMismatchError", "SignatureInvalidError", "PayloadDecodeError",
    "TokenExpiredError"]

theorem title_mem_documentedTitles (e : VerificationError) : e.title ∈ documentedTitles := by
  unfold documentedTitles
  cases e <;> simp [VerificationError.title]

def ofGenerator (p : Profile) : Verifier :=
  ⟨p, ⟨p.curve, p.curve.params.gx, p.curve.params.gy⟩, rfl⟩

end Verifier

end SignedToken
