import Mathlib.Data.List.Forall2
import SignedToken.Proofs.Signer.Transparency
import SignedToken.Proofs.Token.Encode

/-!
This module contains why no token leaves a signer unseen: a token that is not encoded, not signed or
not agreed to is withheld, so that over any number of calls the wires that leave are among those that
the observer was shown. An observer that only logs agrees to all that it is ever shown. What withholds a
token is an error of the signer, unless the observer was interrupted.
-/

namespace SignedToken

inductive Reaction.Refuses : Reaction → Option String → Prop where
  | denied : Refuses (.returned (.bool false)) none
  | failed (kind : String) : Refuses (.failed kind) (some kind)

theorem Reaction.Refuses.refusal? {r : Reaction} {cause : Option String} (h : r.Refuses cause)
    : r.refusal? = some (.known (.issue (.notObserved cause))) := by
  cases h <;> rfl

theorem Reaction.refusal?_eq_none_iff {r : Reaction}
    : r.refusal? = none ↔ ∃ v, r = .returned v ∧ v ≠ .bool false := by
  fun_cases refusal? r <;> simp_all

theorem Reaction.exists_known_of_refusal? {r : Reaction} {e : Failure} (h : r.refusal? = some e)
    (hr : ∀ kind, r ≠ .interrupted kind) : ∃ e', e = .known e' := by
  unfold refusal? at h
  split at h
  . exact ⟨_, (Option.some.inj h).symm⟩
  . cases h
  . exact ⟨_, (Option.some.inj h).symm⟩
  . next kind => exact absurd rfl (hr kind)

namespace Signer

variable {scheme : Scheme} {s : Signer} {observer : Option Observer} {observe : Observer} {t : Token}
variable {payload : Bytes} {wire : Text}

structure Sealed (scheme : Scheme) (s : Signer) (t : Token) (payload : Bytes) (wire : Text) : Prop where
  encoded : t.encode = .ok payload
  signed : s.sign? scheme payload = some wire

theorem Sealed.unique {payload' : Bytes} {wire' : Text} (h : s.Sealed scheme t payload wire)
    (h' : s.Sealed scheme t payload' wire') : payload = payload' ∧ wire = wire' := by
  have hpayload := h.encoded.symm.trans h'.encoded
  cases hpayload
  have hwire := h.signed.symm.trans h'.signed
  cases hwire
  exact ⟨rfl, rfl⟩

def release (observer : Option Observer) (payload : Bytes) (wire : Text) : Issuance :=
  match observer with
  | none => ⟨.ok wire, []⟩
  | some observe =>
    match (observe payload wire).refusal? with
    | some e => ⟨.error e, [(payload, wire)]⟩
    | none => ⟨.ok wire, [(payload, wire)]⟩

theorem Sealed.issue_eq (h : s.Sealed scheme t payload wire)
    : s.issue scheme observer t = release observer payload wire := by
  unfold issue
  rw [h.encoded]
  dsimp only
  rw [h.signed]
  rfl

theorem issue_of_not_sealed (h : ∀ payload wire, ¬ s.Sealed scheme t payload wire)
    : ∃ e, ∀ observer, s.issue scheme observer t = ⟨.error e, []⟩ := by
  unfold issue
  split
  . exact ⟨_, fun _ => rfl⟩
  . exact ⟨_, fun _ => rfl⟩
  . exact ⟨_, fun _ => rfl⟩
  . next payload hencode =>
    split
    . exact ⟨_, fun _ => rfl⟩
    . next wire hsign => exact absurd ⟨hencode, hsign⟩ (h payload wire)

theorem issue_cases (scheme : Scheme) (s : Signer) (observer : Option Observer) (t : Token)
    : ((∀ payload wire, ¬ s.Sealed scheme t payload wire) ∧
          ∃ e, s.issue scheme observer t = ⟨.error e, []⟩) ∨
        ∃ payload wire, s.Sealed scheme t payload wire ∧
          s.issue scheme observer t = release observer payload wire := by
  by_cases h : ∃ payload wire, s.Sealed scheme t payload wire
  . obtain ⟨payload, wire, hsealed⟩ := h
    exact .inr ⟨payload, wire, hsealed, hsealed.issue_eq⟩
  . simp only [not_exists] at h
    obtain ⟨e, hissue⟩ := issue_of_not_sealed h
    exact .inl ⟨h, e, hissue observer⟩

theorem release_withheld {e : Failure} (h : (observe payload wire).refusal? = some e)
    : release (some observe) payload wire = ⟨.error e, [(payload, wire)]⟩ := by
  rw [release, h]

theorem release_outcome_eq_ok_iff {wire' : Text}
    : (release observer payload wire).outcome = .ok wire'
        ↔
      wire = wire' ∧ ∀ observe, observer = some observe →
        (release observer payload wire).observed = [(payload, wire)] ∧
          ∃ v, observe payload wire = .returned v ∧ v ≠ .bool false := by
  simp only [← Reaction.refusal?_eq_none_iff]
  cases observer with
  | none => simp [release]
  | some observe => cases h : (observe payload wire).refusal? <;> simp [release, h]

structure FailClosed (scheme : Scheme) (s : Signer) (observer : Option Observer) (t : Token)
    (done : Issuance) : Prop where
  released : ∀ wire, done.outcome = .ok wire
    ↔ ∃ payload, s.Sealed scheme t payload wire ∧ ∀ observe, observer = some observe →
        done.observed = [(payload, wire)] ∧ ∃ v, observe payload wire = .returned v ∧ v ≠ .bool false
  withheld : ∀ observe payload wire cause, observer = some observe →
    s.Sealed scheme t payload wire → (observe payload wire).Refuses cause →
      done.observed = [(payload, wire)] ∧ done.outcome = .error (.known (.issue (.notObserved cause)))
  interrupted : ∀ observe payload wire kind, observer = some observe →
    s.Sealed scheme t payload wire → observe payload wire = .interrupted kind →
      done.observed = [(payload, wire)] ∧ done.outcome = .error (.unknown (.interrupted kind))
  unseen : (∀ payload wire, ¬ s.Sealed scheme t payload wire) →
    done.observed = [] ∧ ∃ e, done.outcome = .error e

theorem failClosed_issue (scheme : Scheme) (s : Signer) (observer : Option Observer) (t : Token)
    : FailClosed scheme s observer t (s.issue scheme observer t) where
  released := by
    intro wire
    obtain ⟨hnot, e, hissue⟩ | ⟨payload, wire', hsealed, hissue⟩ := issue_cases scheme s observer t
    . rw [hissue]
      apply iff_of_false
      . exact nofun
      . rintro ⟨payload, hsealed, -⟩
        exact hnot payload wire hsealed
    . rw [hissue, release_outcome_eq_ok_iff]
      constructor
      . rintro ⟨rfl, hobserver⟩
        exact ⟨payload, hsealed, hobserver⟩
      . rintro ⟨payload', hsealed', hobserver⟩
        obtain ⟨rfl, rfl⟩ := hsealed.unique hsealed'
        exact ⟨rfl, hobserver⟩
  withheld := by
    rintro observe payload wire cause rfl hsealed hrefuses
    rw [hsealed.issue_eq, release_withheld hrefuses.refusal?]
    exact ⟨rfl, rfl⟩
  interrupted := by
    rintro observe payload wire kind rfl hsealed hinterrupted
    have hrefusal : (observe payload wire).refusal? = some (.unknown (.interrupted kind)) := by
      rw [hinterrupted]
      rfl
    rw [hsealed.issue_eq, release_withheld hrefusal]
    exact ⟨rfl, rfl⟩
  unseen := by
    intro hnot
    obtain ⟨e, hissue⟩ := issue_of_not_sealed hnot
    rw [hissue]
    exact ⟨rfl, e, rfl⟩

/-! ### Runs -/

def wires (done : List Issuance) : List Text :=
  done.filterMap fun i => i.outcome.toOption

def shown (done : List Issuance) : List (Bytes × Text) :=
  done.flatMap Issuance.observed

theorem wires_cons (i : Issuance) (done : List Issuance)
    : wires (i :: done) = i.outcome.toOption.toList ++ wires done := by
  unfold wires
  cases h : i.outcome.toOption <;> simp [h]

theorem shown_cons (i : Issuance) (done : List Issuance)
    : shown (i :: done) = i.observed ++ shown done := by
  simp [shown]

theorem length_run (scheme : Scheme) (s : Signer) (observer : Option Observer) (ts : List Token)
    : (s.run scheme observer ts).length = ts.length := by
  simp [run]

theorem run_cons (scheme : Scheme) (s : Signer) (observer : Option Observer) (t : Token)
    (ts : List Token)
    : s.run scheme observer (t :: ts) = s.issue scheme observer t :: s.run scheme observer ts := by
  rfl

theorem failClosed_run (scheme : Scheme) (s : Signer) (observer : Option Observer) (ts : List Token)
    : ∀ x ∈ ts.zip (s.run scheme observer ts), FailClosed scheme s observer x.1 x.2 := by
  induction ts with
  | nil => simp [run]
  | cons t ts ih =>
    rw [run_cons, List.zip_cons_cons, List.forall_mem_cons]
    exact ⟨failClosed_issue scheme s observer t, ih⟩

theorem release_sublist (observe : Observer) (payload : Bytes) (wire : Text)
    : (release (some observe) payload wire).outcome.toOption.toList.Sublist
        ((release (some observe) payload wire).observed.map Prod.snd) := by
  cases h : (observe payload wire).refusal? <;> simp [release, h, Except.toOption]

theorem wires_sublist_shown (scheme : Scheme) (s : Signer) (observe : Observer) (ts : List Token)
    : (wires (s.run scheme (some observe) ts)).Sublist
        ((shown (s.run scheme (some observe) ts)).map Prod.snd) := by
  induction ts with
  | nil => apply List.nil_sublist
  | cons t ts ih =>
    rw [run_cons, wires_cons, shown_cons, List.map_append]
    apply List.Sublist.append _ ih
    obtain ⟨-, e, hissue⟩ | ⟨payload, wire, -, hissue⟩ := issue_cases scheme s (some observe) t
    . rw [hissue]
      apply List.nil_sublist
    . rw [hissue]
      apply release_sublist

/-! ### Logging -/

theorem Issuance.exists_of_mem_records {done : Issuance} {r : LogRecord} (h : r ∈ done.records)
    : ∃ wire claims, r = issuedRecord wire claims := by
  obtain ⟨⟨payload, wire⟩, -, hlogged⟩ := List.mem_filterMap.1 h
  dsimp only at hlogged
  unfold logged at hlogged
  split at hlogged
  . cases hlogged
  . split at hlogged
    . cases hlogged
    . next claims _ =>
      cases hlogged
      exact ⟨wire, claims, rfl⟩

theorem Sealed.wire_ascii (h : s.Sealed scheme t payload wire) : ∀ c ∈ wire, c.val < 0x80 := by
  obtain ⟨sig, -, rfl⟩ := sign?_eq_some_iff.1 h.signed
  apply Compact.write_ascii

theorem Sealed.exists_claims (h : s.Sealed scheme t payload wire)
    : ∃ claims, Utf8.encode? claims = some payload ∧
        logged payload wire = .ok (issuedRecord wire claims) := by
  obtain ⟨-, -, hclaims⟩ := Token.encode_eq_ok_iff.1 h.encoded
  have hascii : wire.any (fun c => 0x80 ≤ c.val) = false := by
    simpa using h.wire_ascii
  refine ⟨_, hclaims, ?_⟩
  rw [logged, hascii, Utf8.decode?_of_encode? hclaims]
  rfl

theorem Sealed.refusal?_logging (h : s.Sealed scheme t payload wire)
    : (loggingObserver payload wire).refusal? = none := by
  obtain ⟨claims, -, hlogged⟩ := h.exists_claims
  rw [loggingObserver, hlogged]
  rfl

theorem loggingObserver_ne_interrupted (payload : Bytes) (wire : Text) (kind : String)
    : loggingObserver payload wire ≠ .interrupted kind := by
  unfold loggingObserver
  split <;> exact nofun

def recorded (done : List Issuance) : List LogRecord :=
  done.flatMap Issuance.records

theorem recorded_cons (i : Issuance) (done : List Issuance)
    : recorded (i :: done) = i.records ++ recorded done := by
  rfl

def RecordsOneOf (scheme : Scheme) (s : Signer) (ts : List Token) (r : LogRecord) (wire : Text) : Prop :=
  ∃ t ∈ ts, ∃ payload claims,
    s.Sealed scheme t payload wire ∧ Utf8.encode? claims = some payload ∧
      r = ⟨.info, "ectoken.issued", Text.ofString "Issued token sha256=" ++ digest wire
        ++ Text.ofString " claims=" ++ claims⟩

theorem Sealed.issue_logging (h : s.Sealed scheme t payload wire)
    : s.issue scheme (some loggingObserver) t = ⟨.ok wire, [(payload, wire)]⟩ := by
  rw [h.issue_eq, release, h.refusal?_logging]

theorem issue_logging (scheme : Scheme) (s : Signer) (t : Token)
    : s.issue scheme (some loggingObserver) t = s.issue scheme (some acceptAll) t := by
  by_cases h : ∃ payload wire, s.Sealed scheme t payload wire
  . obtain ⟨payload, wire, hsealed⟩ := h
    rw [hsealed.issue_logging, hsealed.issue_eq]
    rfl
  . -- Nothing is shown, so the observers make no difference.
    simp only [not_exists] at h
    obtain ⟨e, hissue⟩ := issue_of_not_sealed h
    rw [hissue, hissue]

theorem forall₂_records_issue {ts : List Token} (ht : t ∈ ts)
    : List.Forall₂ (RecordsOneOf scheme s ts) (s.issue scheme (some loggingObserver) t).records
        (s.issue scheme (some loggingObserver) t).outcome.toOption.toList := by
  obtain ⟨-, e, hissue⟩ | ⟨payload, wire, hsealed, -⟩ := issue_cases scheme s (some loggingObserver) t
  . rw [hissue]
    exact .nil
  . obtain ⟨claims, hclaims, hlogged⟩ := hsealed.exists_claims
    have hrecords : (⟨.ok wire, [(payload, wire)]⟩ : Issuance).records = [issuedRecord wire claims] := by
      rw [Issuance.records, List.filterMap_cons]
      dsimp only
      rw [hlogged]
      rfl
    rw [hsealed.issue_logging, hrecords]
    exact .cons ⟨t, ht, payload, claims, hsealed, hclaims, rfl⟩ .nil

theorem forall₂_recorded_run {ts' ts : List Token} (h : ts' ⊆ ts)
    : List.Forall₂ (RecordsOneOf scheme s ts) (recorded (s.run scheme (some loggingObserver) ts'))
        (wires (s.run scheme (some loggingObserver) ts')) := by
  induction ts' with
  | nil => exact .nil
  | cons t ts' ih =>
    rw [List.cons_subset] at h
    rw [run_cons, recorded_cons, wires_cons]
    exact List.rel_append (forall₂_records_issue h.1) (ih h.2)

theorem run_logging (scheme : Scheme) (s : Signer) (ts : List Token)
    : s.run scheme (some loggingObserver) ts = s.run scheme (some acceptAll) ts := by
  unfold run
  apply List.map_congr_left
  intro t _
  apply issue_logging

/--
What a run with an observer that logs leaves: for each wire one record, with a digest of the wire and
the claims that its payload encodes. The observer never withholds anything.
-/
structure Logs (scheme : Scheme) (s : Signer) (ts : List Token) (done : List Issuance) : Prop where
  length_eq : (recorded done).length = (wires done).length
  record : ∀ x ∈ (recorded done).zip (wires done), RecordsOneOf scheme s ts x.1 x.2
  accepting : done = s.run scheme (some acceptAll) ts

theorem logs_run (scheme : Scheme) (s : Signer) (ts : List Token)
    : Logs scheme s ts (s.run scheme (some loggingObserver) ts) := by
  obtain ⟨hlength, hrecord⟩ := List.forall₂_iff_zip.1 (forall₂_recorded_run (List.Subset.refl ts))
  exact ⟨hlength, fun x hx => hrecord hx, run_logging scheme s ts⟩

/--
Every call of a run fails closed, so no more wires leave than the observer is shown, and each of them
is among these. With an observer that logs there is one record for each wire.
-/
theorem run_failClosed (scheme : Scheme) (s : Signer) (ts : List Token)
    : (∀ observer, (s.run scheme observer ts).length = ts.length ∧
          ∀ x ∈ ts.zip (s.run scheme observer ts), FailClosed scheme s observer x.1 x.2) ∧
        (∀ observe,
          (wires (s.run scheme (some observe) ts)).Sublist
            ((shown (s.run scheme (some observe) ts)).map Prod.snd) ∧
          (wires (s.run scheme (some observe) ts)).length
            ≤ (shown (s.run scheme (some observe) ts)).length) ∧
        Logs scheme s ts (s.run scheme (some loggingObserver) ts) := by
  refine ⟨?_, ?_, logs_run scheme s ts⟩
  . intro observer
    exact ⟨length_run scheme s observer ts, failClosed_run scheme s observer ts⟩
  . intro observe
    have hsublist := wires_sublist_shown scheme s observe ts
    refine ⟨hsublist, ?_⟩
    have hlength := hsublist.length_le
    rwa [List.length_map] at hlength

theorem exists_sealed_bare
    : ∃ payload wire, least.Sealed (.ofKey least.key) (Token.mk 1 [] [] [] []) payload wire := by
  obtain ⟨payload, hencode, -⟩ := exists_encode_bare
  obtain ⟨wire, hsign, -⟩ := authenticate_sign? (Scheme.acceptsOwn_ofKey least.onCurve) payload
  exact ⟨payload, wire, hencode, hsign⟩

theorem run_failClosed_denied
    : ∃ payload wire done,
        least.Sealed (.ofKey least.key) (Token.mk 1 [] [] [] []) payload wire ∧
        least.run (.ofKey least.key) (some fun _ _ => .returned (.bool false))
          [Token.mk 1 [] [] [] []] = [done] ∧
        done.observed = [(payload, wire)] ∧
        done.outcome = .error (.known (.issue (.notObserved none))) := by
  obtain ⟨payload, wire, hsealed⟩ := exists_sealed_bare
  obtain ⟨hcalls, -, -⟩ := run_failClosed (.ofKey least.key) least [Token.mk 1 [] [] [] []]
  obtain ⟨-, hcall⟩ := hcalls (some fun _ _ => .returned (.bool false))
  refine ⟨payload, wire, _, hsealed, rfl, ?_⟩
  exact (hcall (_, _) List.mem_cons_self).withheld _ payload wire none rfl hsealed .denied

theorem exists_issue_interrupted
    : ∃ payload wire,
        least.Sealed (.ofKey least.key) (Token.mk 1 [] [] [] []) payload wire ∧
        least.issue (.ofKey least.key) (some fun _ _ => .interrupted "SystemExit") (Token.mk 1 [] [] [] [])
          = ⟨.error (.unknown (.interrupted "SystemExit")), [(payload, wire)]⟩ ∧
        (∀ cause, (least.issue (.ofKey least.key) (some fun _ _ => .interrupted "SystemExit")
          (Token.mk 1 [] [] [] [])).outcome ≠ .error (.known (.issue (.notObserved cause)))) ∧
        wires (least.run (.ofKey least.key) none [Token.mk 1 [] [] [] []]) = [wire] ∧
        shown (least.run (.ofKey least.key) none [Token.mk 1 [] [] [] []]) = [] := by
  obtain ⟨payload, wire, hsealed⟩ := exists_sealed_bare
  have hinterrupted : least.issue (.ofKey least.key) (some fun _ _ => .interrupted "SystemExit")
      (Token.mk 1 [] [] [] []) = ⟨.error (.unknown (.interrupted "SystemExit")), [(payload, wire)]⟩ :=
    hsealed.issue_eq
  have hunobserved : least.run (.ofKey least.key) none [Token.mk 1 [] [] [] []] = [⟨.ok wire, []⟩] := by
    rw [run_cons, hsealed.issue_eq]
    rfl
  refine ⟨payload, wire, hsealed, hinterrupted, ?_, ?_, ?_⟩
  . rw [hinterrupted]
    exact fun cause => nofun
  . rw [hunobserved]
    rfl
  . rw [hunobserved]
    rfl

end Signer

end SignedToken
