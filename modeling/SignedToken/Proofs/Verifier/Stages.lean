import SignedToken.Proofs.Verifier.Rejection

/-!
This module contains the order in which a verifier checks a wire. What each stage asks for can be
said without the other stages; the first stage that asks in vain decides the report, and only a wire
that comes to the last stage costs a look at the clock.
-/

namespace SignedToken

namespace Verifier

inductive Stage where
  | form
  | header
  | algorithm
  | attachment
  | signature
  | payload
  | expiration
  deriving DecidableEq, Repr

def Stage.rank : Stage → Nat
  | form => 0
  | header => 1
  | algorithm => 2
  | attachment => 3
  | signature => 4
  | payload => 5
  | expiration => 6

variable {scheme : Scheme} {v : Verifier} {now : Int}

def Holds (scheme : Scheme) (v : Verifier) (now : Int) (header payload signature : Bytes)
    : Stage → Prop
  | .form => True
  | .header => ∃ h : Header, h.Spelled header ∧ h.check = .ok () ∧
      (h.detachesPayload = true → payload = [])
  | .algorithm => ∃ h : Header, h.Spelled header ∧
      h.member? "alg" = some (.text (Text.ofString v.profile.algorithm))
  | .attachment => ∃ h : Header, h.Spelled header ∧ h.member? "b64" ≠ some (.bool false)
  | .signature => v.Signed scheme (Utf8.encodeAny (Compact.signedText header payload)) signature
  | .payload => ∃ t, Token.decode payload = .ok t
  | .expiration => ∃ t, Token.decode payload = .ok t ∧ now ≤ t.expiration

def Passes (scheme : Scheme) (v : Verifier) (now : Int) (wire : ClaimValue) (stage : Stage)
    : Prop :=
  ∃ header payload signature, wire = .text (Compact.write header payload signature) ∧
    v.Holds scheme now header payload signature stage

structure StopsAt (scheme : Scheme) (v : Verifier) (now : Int) (wire : ClaimValue)
    (stage : Stage) : Prop where
  passes : ∀ earlier : Stage, earlier.rank < stage.rank → v.Passes scheme now wire earlier
  fails : ¬ v.Passes scheme now wire stage

inductive Reports (v : Verifier) (now : Int) : ClaimValue → Stage → VerificationError → Prop where
  | form {wire : ClaimValue} {e : ParseError} (hform : FormReport wire e)
    : Reports v now wire .form (.malformed e)
  | header {wire : ClaimValue} (e : HeaderError)
    : Reports v now wire .header (.malformed (.header (.header e)))
  | algorithm {header payload signature : Bytes} {h : Header} (hspelled : h.Spelled header)
    : Reports v now (.text (Compact.write header payload signature)) .algorithm
        (.algorithmMismatch v.profile h.declared)
  | attachment {header payload signature : Bytes} {h : Header} (hspelled : h.Spelled header)
    : Reports v now (.text (Compact.write header payload signature)) .attachment
        (if h.hasCritical then .malformed .detachedPayload else .unverifiable)
  | signature {wire : ClaimValue} : Reports v now wire .signature .signatureInvalid
  | payload {header payload signature : Bytes} {ds : List Defect}
      (hdecode : Token.decode payload = .error ds)
    : Reports v now (.text (Compact.write header payload signature)) .payload (.payloadInvalid ds)
  | expiration {header payload signature : Bytes} {t : Token}
      (hdecode : Token.decode payload = .ok t)
    : Reports v now (.text (Compact.write header payload signature)) .expiration
        (.expired t.expiration now)

/-! ### The stages of a wire that has its form -/

section Form

variable {header payload signature : Bytes}

theorem passes_write_iff {stage : Stage}
    : v.Passes scheme now (.text (Compact.write header payload signature)) stage
        ↔
      v.Holds scheme now header payload signature stage := by
  constructor
  . rintro ⟨header', payload', signature', hwire, hholds⟩
    rw [ClaimValue.text.injEq] at hwire
    obtain ⟨rfl, rfl, rfl⟩ := write_inj.1 hwire
    exact hholds
  . intro hholds
    exact ⟨header, payload, signature, rfl, hholds⟩

theorem holds_header_iff
    : v.Holds scheme now header payload signature .header
        ↔
      ∃ h, Header.read header payload.isEmpty = .ok h ∧ h.check = .ok () := by
  unfold Holds
  constructor
  . rintro ⟨h, hspelled, hcheck, hempty⟩
    refine ⟨h, Header.read_eq_ok_iff.2 ⟨hspelled, ?_⟩, hcheck⟩
    cases hdetached : h.detachesPayload with
    | false => exact .inl rfl
    | true =>
      rw [hempty hdetached]
      exact .inr rfl
  . rintro ⟨h, hread, hcheck⟩
    obtain ⟨hspelled, hempty⟩ := Header.read_eq_ok_iff.1 hread
    refine ⟨h, hspelled, hcheck, fun hdetached => ?_⟩
    rw [hdetached] at hempty
    simpa using hempty

theorem addressed_iff_holds
    : v.Addressed header
        ↔
      v.Holds scheme now header payload signature .header ∧
        v.Holds scheme now header payload signature .algorithm ∧
        v.Holds scheme now header payload signature .attachment := by
  unfold Holds
  constructor
  . rintro ⟨h, hspelled, hadm, halg⟩
    obtain ⟨hcheck, hattached⟩ := Header.admissible_iff.1 hadm
    refine ⟨⟨h, hspelled, hcheck, ?_⟩, ⟨h, hspelled, halg⟩, h, hspelled, hadm.attached⟩
    rw [hattached]
    exact nofun
  . rintro ⟨⟨h, hspelled, hcheck, -⟩, ⟨h', hspelled', halg⟩, h'', hspelled'', hattached⟩
    obtain rfl := hspelled.unique hspelled'
    obtain rfl := hspelled.unique hspelled''
    rw [← Header.detachesPayload_eq_false_iff] at hattached
    exact ⟨h, hspelled, Header.admissible_iff.2 ⟨hcheck, hattached⟩, halg⟩

theorem StopsAt.holds {stage : Stage}
    (h : v.StopsAt scheme now (.text (Compact.write header payload signature)) stage)
    (earlier : Stage) (hrank : earlier.rank < stage.rank)
    : v.Holds scheme now header payload signature earlier :=
  passes_write_iff.1 (h.passes earlier hrank)

theorem StopsAt.not_holds {stage : Stage}
    (h : v.StopsAt scheme now (.text (Compact.write header payload signature)) stage)
    : ¬ v.Holds scheme now header payload signature stage :=
  fun hholds => h.fails (passes_write_iff.2 hholds)

theorem StopsAt.addressed {stage : Stage}
    (h : v.StopsAt scheme now (.text (Compact.write header payload signature)) stage)
    (hrank : Stage.attachment.rank < stage.rank) : v.Addressed header :=
  addressed_iff_holds.2 ⟨h.holds .header (Nat.lt_trans (by decide) hrank),
    h.holds .algorithm (Nat.lt_trans (by decide) hrank), h.holds .attachment hrank⟩

theorem report_header
    (h : v.StopsAt scheme now (.text (Compact.write header payload signature)) .header)
    : ∃ e, v.Reports now (.text (Compact.write header payload signature)) .header e ∧
        v.authenticate scheme (.text (Compact.write header payload signature)) = .error e := by
  have hnot := h.not_holds
  rw [holds_header_iff] at hnot
  cases hread : Header.read header payload.isEmpty with
  | error e =>
    refine ⟨_, .header e, authenticate_of_headerReport ?_⟩
    rw [hread]
    exact .unread
  | ok k =>
    cases hcheck : k.check with
    | error e =>
      refine ⟨_, .header e, authenticate_of_headerReport ?_⟩
      rw [hread]
      exact .refused hcheck
    | ok u => exact absurd ⟨k, hread, hcheck⟩ hnot

theorem report_algorithm
    (h : v.StopsAt scheme now (.text (Compact.write header payload signature)) .algorithm)
    : ∃ e, v.Reports now (.text (Compact.write header payload signature)) .algorithm e ∧
        v.authenticate scheme (.text (Compact.write header payload signature)) = .error e := by
  obtain ⟨k, hread, hcheck⟩ := holds_header_iff.1 (h.holds .header (by decide))
  have hspelled := Header.spelled_of_read hread
  refine ⟨_, .algorithm hspelled, authenticate_of_headerReport ?_⟩
  rw [hread]
  exact .otherAlgorithm hcheck fun halg => h.not_holds ⟨k, hspelled, halg⟩

theorem report_attachment
    (h : v.StopsAt scheme now (.text (Compact.write header payload signature)) .attachment)
    : ∃ e, v.Reports now (.text (Compact.write header payload signature)) .attachment e ∧
        v.authenticate scheme (.text (Compact.write header payload signature)) = .error e := by
  obtain ⟨k, hread, hcheck⟩ := holds_header_iff.1 (h.holds .header (by decide))
  obtain ⟨k', hspelled', halg⟩ := h.holds .algorithm (by decide)
  have hspelled := Header.spelled_of_read hread
  obtain rfl := hspelled.unique hspelled'
  have hdetached : k.detachesPayload = true := by
    rw [← Bool.not_eq_false, Header.detachesPayload_eq_false_iff]
    exact fun hattached => h.not_holds ⟨k, hspelled, hattached⟩
  refine ⟨_, .attachment hspelled, authenticate_of_headerReport ?_⟩
  rw [hread]
  exact .detached hcheck halg hdetached

theorem report_payload
    (h : v.StopsAt scheme now (.text (Compact.write header payload signature)) .payload)
    : ∃ e, v.Reports now (.text (Compact.write header payload signature)) .payload e ∧
        v.authenticate scheme (.text (Compact.write header payload signature)) = .error e := by
  have haddressed := h.addressed (by decide)
  rw [authenticate_write haddressed (h.holds .signature (by decide))]
  cases hdecode : Token.decode payload with
  | ok t => exact absurd ⟨t, hdecode⟩ h.not_holds
  | error ds => exact ⟨_, .payload hdecode, rfl⟩

end Form

theorem StopsAt.authenticate_eq_error {wire : ClaimValue} {stage : Stage}
    (h : v.StopsAt scheme now wire stage) (hstage : stage ≠ .expiration)
    : ∃ e, v.Reports now wire stage e ∧ v.authenticate scheme wire = .error e := by
  cases stage with
  | form =>
    have hnot : ¬ ∃ header payload signature,
        wire = .text (Compact.write header payload signature) := by
      rintro ⟨header, payload, signature, hwire⟩
      exact h.fails ⟨header, payload, signature, hwire, trivial⟩
    obtain ⟨e, hform, hauthenticate⟩ := exists_formReport (v := v) hnot
    exact ⟨_, .form hform, hauthenticate scheme⟩
  | header =>
    obtain ⟨header, payload, signature, rfl, -⟩ := h.passes .form (by decide)
    exact report_header h
  | algorithm =>
    obtain ⟨header, payload, signature, rfl, -⟩ := h.passes .form (by decide)
    exact report_algorithm h
  | attachment =>
    obtain ⟨header, payload, signature, rfl, -⟩ := h.passes .form (by decide)
    exact report_attachment h
  | signature =>
    obtain ⟨header, payload, signature, rfl, -⟩ := h.passes .form (by decide)
    exact ⟨_, .signature, authenticate_of_not_signed (h.addressed (by decide)) h.not_holds⟩
  | payload =>
    obtain ⟨header, payload, signature, rfl, -⟩ := h.passes .form (by decide)
    exact report_payload h
  | expiration => exact absurd rfl hstage

theorem StopsAt.authenticate_eq_ok {wire : ClaimValue}
    (h : v.StopsAt scheme now wire .expiration)
    : ∃ t, v.Reports now wire .expiration (.expired t.expiration now) ∧
        v.authenticate scheme wire = .ok t ∧ t.expiration < now := by
  obtain ⟨header, payload, signature, rfl, -⟩ := h.passes .form (by decide)
  obtain ⟨t, hdecode⟩ := h.holds .payload (by decide)
  refine ⟨t, .expiration hdecode, ?_, ?_⟩
  . rw [authenticate_write (h.addressed (by decide)) (h.holds .signature (by decide)), hdecode]
    rfl
  . rw [← Int.not_le]
    exact fun hle => h.not_holds ⟨t, hdecode, hle⟩

/-! ### One call -/

theorem StopsAt.step_eq {clock : Nat → Int} {reads : Nat} {wire : ClaimValue} {stage : Stage}
    (hnow : hasNumeral (clock reads) = true) (h : v.StopsAt scheme (clock reads) wire stage)
    : ∃ e, v.Reports (clock reads) wire stage e ∧
        v.step scheme clock reads wire
          =
        (.error (.known (.verification e)), if stage = .expiration then reads + 1 else reads) := by
  unfold step
  by_cases hstage : stage = .expiration
  . subst hstage
    obtain ⟨t, hreport, hauthenticate, hlt⟩ := h.authenticate_eq_ok
    refine ⟨_, hreport, ?_⟩
    rw [hauthenticate, if_pos rfl]
    dsimp only
    rw [checkExpiration_of_lt hlt (hasNumeral_of_authenticate hauthenticate), if_pos hnow]
  . obtain ⟨e, hreport, hauthenticate⟩ := h.authenticate_eq_error hstage
    refine ⟨e, hreport, ?_⟩
    rw [hauthenticate, if_neg hstage]

theorem step_of_passes {clock : Nat → Int} {reads : Nat} {wire : ClaimValue}
    (h : ∀ stage, v.Passes scheme (clock reads) wire stage)
    : ∃ header payload signature t, wire = .text (Compact.write header payload signature) ∧
        Token.decode payload = .ok t ∧ v.step scheme clock reads wire = (.ok t, reads + 1) := by
  obtain ⟨header, payload, signature, rfl, -⟩ := h .form
  have hholds := fun stage => passes_write_iff.1 (h stage)
  obtain ⟨t, hdecode, hle⟩ := hholds .expiration
  have haddressed : v.Addressed header :=
    addressed_iff_holds.2 ⟨hholds .header, hholds .algorithm, hholds .attachment⟩
  refine ⟨header, payload, signature, t, rfl, hdecode, ?_⟩
  unfold step
  rw [authenticate_write haddressed (hholds .signature), hdecode]
  dsimp only [Except.mapError]
  rw [checkExpiration_eq_ok_iff.2 ⟨rfl, hle⟩]

theorem exists_stopsAt_or_passes (scheme : Scheme) (v : Verifier) (now : Int) (wire : ClaimValue)
    : (∃ stage, v.StopsAt scheme now wire stage) ∨ ∀ stage, v.Passes scheme now wire stage := by
  by_cases hstop : ∃ stage, v.StopsAt scheme now wire stage
  . exact .inl hstop
  . refine .inr fun stage => ?_
    induction hrank : stage.rank using Nat.strongRecOn generalizing stage with
    | _ n ih =>
      subst hrank
      apply Classical.byContradiction
      intro hfails
      exact hstop ⟨stage, fun earlier hlt => ih earlier.rank hlt earlier rfl, hfails⟩

/-! ### Two wires with one header -/

theorem StopsAt.not_signed {header payload signature : Bytes} {stage : Stage}
    (h : v.StopsAt scheme now (.text (Compact.write header payload signature)) stage)
    (hrank : stage.rank ≤ Stage.signature.rank) (haddressed : v.Addressed header)
    : ¬ v.Signed scheme (Utf8.encodeAny (Compact.signedText header payload)) signature := by
  obtain ⟨hheader, halgorithm, hattachment⟩ := addressed_iff_holds.1 haddressed
  intro hsigned
  apply h.not_holds
  cases stage with
  | form => trivial
  | header => exact hheader
  | algorithm => exact halgorithm
  | attachment => exact hattachment
  | signature => exact hsigned
  | payload => exact absurd hrank (by decide)
  | expiration => exact absurd hrank (by decide)

theorem StopsAt.authenticate_eq_authenticate {header payload payload' signature signature' : Bytes}
    {stage stage' : Stage}
    (h : v.StopsAt scheme now (.text (Compact.write header payload signature)) stage)
    (h' : v.StopsAt scheme now (.text (Compact.write header payload' signature')) stage')
    (hrank : stage.rank ≤ Stage.signature.rank) (hrank' : stage'.rank ≤ Stage.signature.rank)
    (hpayload : payload.isEmpty = payload'.isEmpty ∨
      ∀ k : Header, k.Spelled header → k.detachesPayload = false)
    : v.authenticate scheme (.text (Compact.write header payload signature))
        =
      v.authenticate scheme (.text (Compact.write header payload' signature')) := by
  by_cases haddressed : v.Addressed header
  . rw [authenticate_of_not_signed haddressed (h.not_signed hrank haddressed),
      authenticate_of_not_signed haddressed (h'.not_signed hrank' haddressed)]
  . have hread : Header.read header payload.isEmpty = Header.read header payload'.isEmpty := by
      cases hpayload with
      | inl hempty => rw [hempty]
      | inr hattached => exact Header.read_eq_read hattached _ _
    obtain ⟨e, hreport⟩ := exists_headerReport haddressed payload.isEmpty
    rw [authenticate_of_headerReport hreport]
    rw [hread] at hreport
    rw [authenticate_of_headerReport hreport]

/-! ### The order of the stages -/

/--
The first stage that a wire does not pass decides what is reported of it and whether the clock is
read. Of two wires with one header that stop before their payloads are decoded the same is reported,
unless the header wants to keep the payload out of the wire and only one of them has a payload.
-/
theorem step_decided_by_stages (scheme : Scheme) (v : Verifier) (clock : Nat → Int) (reads : Nat)
    (hnow : hasNumeral (clock reads) = true) (wire : ClaimValue)
    : ((∃ stage, v.StopsAt scheme (clock reads) wire stage) ∨
        ∀ stage, v.Passes scheme (clock reads) wire stage) ∧
      (∀ stage, v.StopsAt scheme (clock reads) wire stage →
        ∃ e, v.Reports (clock reads) wire stage e ∧
          v.step scheme clock reads wire
            =
          (.error (.known (.verification e)),
            if stage = .expiration then reads + 1 else reads)) ∧
      ((∀ stage, v.Passes scheme (clock reads) wire stage) →
        ∃ header payload signature t, wire = .text (Compact.write header payload signature) ∧
          Token.decode payload = .ok t ∧ v.step scheme clock reads wire = (.ok t, reads + 1)) ∧
      ∀ header payload signature, wire = .text (Compact.write header payload signature) →
        (signature.length ≠ 2 * v.profile.coordinateSize →
          ¬ v.Passes scheme (clock reads) wire .signature) ∧
        ∀ payload' signature' stage stage',
          stage.rank ≤ Stage.signature.rank → stage'.rank ≤ Stage.signature.rank →
          v.StopsAt scheme (clock reads) wire stage →
          v.StopsAt scheme (clock reads) (.text (Compact.write header payload' signature')) stage' →
          (payload.isEmpty = payload'.isEmpty ∨
            ∀ k : Header, k.Spelled header → k.member? "b64" ≠ some (.bool false)) →
          v.step scheme clock reads wire
            =
          v.step scheme clock reads (.text (Compact.write header payload' signature')) := by
  refine ⟨exists_stopsAt_or_passes scheme v (clock reads) wire, fun stage h => h.step_eq hnow,
    step_of_passes, ?_⟩
  rintro header payload signature rfl
  constructor
  . intro hlength hpasses
    exact not_signed_of_length hlength (passes_write_iff.1 hpasses)
  . intro payload' signature' stage stage' hrank hrank' h h' hpayload
    simp only [← Header.detachesPayload_eq_false_iff] at hpayload
    unfold step
    rw [h.authenticate_eq_authenticate h' hrank hrank' hpayload]

theorem step_decided_by_stages_bare
    : hasNumeral 0 = true ∧
        (ofGenerator .es256).step .ecdsa (fun _ => 0) 0
            (.text (Compact.write [0x7B, 0x7D] [] []))
          =
        (.error (.known (.verification (.algorithmMismatch .es256 .null))), 0) := by
  have hnow : hasNumeral 0 = true := Text.hasNumeral_iff.2 (by decide)
  have hspelled : (Header.mk []).Spelled [0x7B, 0x7D] := by
    apply Header.spelled_text (h := ⟨[]⟩)
    . apply Header.readable_of_forall
      simp
    . decide
  have hstops : (ofGenerator .es256).StopsAt .ecdsa 0
      (.text (Compact.write [0x7B, 0x7D] [] [])) .algorithm := by
    constructor
    . intro earlier hrank
      rw [passes_write_iff]
      cases earlier with
      | form => trivial
      | header => exact ⟨_, hspelled, rfl, fun _ => rfl⟩
      | _ => exact absurd hrank (by decide)
    . rw [passes_write_iff]
      rintro ⟨h, hspelled', halg⟩
      obtain rfl := hspelled.unique hspelled'
      cases halg
  obtain ⟨e, hreport, hstep⟩ := (step_decided_by_stages .ecdsa (ofGenerator .es256)
    (fun _ => 0) 0 hnow (.text (Compact.write [0x7B, 0x7D] [] []))).2.1 _ hstops
  refine ⟨hnow, ?_⟩
  rw [hstep]
  generalize hwire : ClaimValue.text (Compact.write [0x7B, 0x7D] [] []) = wire at hreport
  cases hreport with
  | algorithm hspelled' =>
    rw [ClaimValue.text.injEq] at hwire
    obtain ⟨rfl, -, -⟩ := write_inj.1 hwire
    obtain rfl := hspelled.unique hspelled'
    rfl

/-! ### Headers that want to keep the payload out of the wire -/

def detachedHeader : Header :=
  ⟨[(Text.ofString "alg", .text (Text.ofString "ES256")), (Text.ofString "b64", .bool false)]⟩

def detachedOctets : Bytes :=
  Utf8.encodeAny (Text.ofString "\x7b\"alg\":\"ES256\",\"b64\":false\x7d")

theorem detachedHeader_spelled : detachedHeader.Spelled detachedOctets := by
  have htext : detachedHeader.text
      = Text.ofString "\x7b\"alg\":\"ES256\",\"b64\":false\x7d" := rfl
  unfold detachedOctets
  rw [← htext]
  apply Header.spelled_text
  . apply Header.readable_of_forall
    simp [detachedHeader]
  . decide

theorem step_detached
    : detachedHeader.Spelled detachedOctets ∧ detachedHeader.check = .ok () ∧
        detachedHeader.member? "alg" = some (.text (Text.ofString "ES256")) ∧
        detachedHeader.member? "b64" = some (.bool false) ∧
        (ofGenerator .es256).step .ecdsa (fun _ => 0) 0
            (.text (Compact.write detachedOctets [] []))
          = (.error (.known (.verification .unverifiable)), 0) ∧
        VerificationError.unverifiable.title = "SignatureInvalidError" ∧
        (ofGenerator .es256).step .ecdsa (fun _ => 0) 0
            (.text (Compact.write detachedOctets [0] []))
          = (.error (.known (.verification (.malformed (.header (.header .payloadNotEmpty))))), 0)
    := by
  have hspelled := detachedHeader_spelled
  refine ⟨hspelled, rfl, rfl, rfl, ?_, rfl, ?_⟩
  . have hread : Header.read detachedOctets ([] : Bytes).isEmpty = .ok detachedHeader :=
      Header.read_eq_ok_iff.2 ⟨hspelled, .inr rfl⟩
    have hreport : (ofGenerator .es256).HeaderReport
        (Header.read detachedOctets ([] : Bytes).isEmpty) .unverifiable := by
      rw [hread]
      exact .detached rfl rfl rfl
    unfold step
    rw [authenticate_of_headerReport hreport]
  . have hread : Header.read detachedOctets ([0] : Bytes).isEmpty = .error .payloadNotEmpty := by
      unfold Header.read
      rw [hspelled]
      rfl
    have hreport : (ofGenerator .es256).HeaderReport
        (Header.read detachedOctets ([0] : Bytes).isEmpty)
        (.malformed (.header (.header .payloadNotEmpty))) := by
      rw [hread]
      exact .unread
    unfold step
    rw [authenticate_of_headerReport hreport]

end Verifier

end SignedToken
