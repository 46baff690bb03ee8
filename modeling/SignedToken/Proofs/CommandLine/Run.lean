import SignedToken.Clock
import SignedToken.Proofs.CommandLine
import SignedToken.Proofs.CommandLine.Line
import SignedToken.Proofs.KeyStore.Report
import SignedToken.Proofs.KeyStore.RoundTrip

/-!
This module contains how runs of the program end on a disk. They end with a status, except for two
kinds of values that no error of the library stands for: bases that cannot be in a path, and surrogates
in the texts of a token. A time that is too long to be written is told by no clock.
-/

namespace SignedToken

theorem Clock.hasNumeral_now (nanoseconds : Int64) : hasNumeral (now nanoseconds) = true := by
  have hlow := nanoseconds.le_toInt
  have hhigh := nanoseconds.toInt_lt
  have hshort : (now nanoseconds).natAbs < 10 ^ 19 := by
    rw [now, millis, Int.fdiv_eq_ediv_of_nonneg _ (by decide)]
    omega
  have hlong : 10 ^ 19 ≤ 10 ^ maxNumeralDigits := Nat.pow_le_pow_right (by decide) (by decide)
  rw [hasNumeral, decide_eq_true_eq]
  exact Nat.lt_of_lt_of_le hshort hlong

namespace CommandLine

open SignedToken.Outcome

/--
A host whose clock stands still, for runs on a disk. No run reads the clock more than once.
-/
def Host.steady (now : Int) (secret : Curve → Option Nat) (scheme : Scheme) : Host (StateM Disk) where
  now := pure now
  secret c := pure (secret c)
  scheme := scheme

variable {now : Int} {secret : Curve → Option Nat} {scheme : Scheme} {settings : Settings}
  {disk : Disk} {base : Text}

/-! ### What commands come to -/

theorem issue_yields {username : Text} {groups : List Text} {lifetime : Option Int}
    : (issue (.steady now secret scheme) settings base username groups lifetime).Yields disk
        (((KeyStore.loadSigner base settings.profile).outcome disk).bind fun s =>
          (s.issue scheme (some Signer.loggingObserver)
            (.bare (now + lifetime.getD settings.lifetime * 1000) username groups)).outcome.bind
              fun wire => .ok [wire]) := by
  have htoken : (Token.expiringIn (.int (lifetime.getD settings.lifetime)) (.int now)
      (issuedClaims username groups)).mapError lifetimeFailure
        = .ok (.bare (now + lifetime.getD settings.lifetime * 1000) username groups) := by
    rw [issuedClaims, Token.expiringIn_eq_bare]
    rfl
  refine KeyStore.loadSigner_yields.self.bind fun s left => ?_
  apply Task.Yields.lift_pure_bind
  dsimp only [Host.steady]
  rw [htoken, Task.ofExcept, pure_bind]
  apply Task.Yields.logAll_bind
  exact (Task.yields_ofExcept _).bind fun wire left => Task.yields_pure [wire]

theorem verify_yields {wire : Text}
    : (verify (.steady now secret scheme) settings wire base).Yields disk
        (((KeyStore.loadVerifier base settings.profile).outcome disk).bind fun v =>
          (v.verify scheme now (.text wire)).bind fun t => (claimsLine t).bind fun line =>
            .ok [line]) := by
  refine KeyStore.loadVerifier_yields.self.bind fun v left => ?_
  apply Task.Yields.lift_pure_bind
  apply Task.Yields.logAll_bind
  refine (Task.yields_ofExcept _).bind fun t left => ?_
  exact (Task.yields_ofExcept _).bind fun line left => Task.yields_pure [line]

theorem issue_yields_of_signer {username : Text} {groups : List Text} {lifetime : Option Int}
    {s : Signer} {result : Except Failure Text}
    (hload : (KeyStore.loadSigner base settings.profile).outcome disk = .ok s)
    (hissue : (s.issue scheme (some Signer.loggingObserver)
      (.bare (now + lifetime.getD settings.lifetime * 1000) username groups)).outcome = result)
    : (execute (.steady now secret scheme) settings (.issue base username groups lifetime)).Yields disk
        (result.bind fun wire => .ok [wire]) := by
  have hyields : (issue (.steady now secret scheme) settings base username groups lifetime).Yields
    disk _ := issue_yields
  rw [hload] at hyields
  rw [← hissue]
  exact hyields

theorem verify_yields_of_verifier {wire : Text} {v : Verifier} {result : Except Failure Token}
    (hload : (KeyStore.loadVerifier base settings.profile).outcome disk = .ok v)
    (hverify : v.verify scheme now (.text wire) = result)
    : (execute (.steady now secret scheme) settings (.verify wire base)).Yields disk
        (result.bind fun t => (claimsLine t).bind fun line => .ok [line]) := by
  have hyields : (verify (.steady now secret scheme) settings wire base).Yields disk _ := verify_yields
  rw [hload] at hyields
  rw [← hverify]
  exact hyields

theorem exportJwk_yields
    : (exportJwk settings base).Yields disk
        (((KeyStore.loadJwk base settings.profile).outcome disk).bind fun jwk => .ok [jwk.render]) :=
  KeyStore.loadJwk_yields.self.bind fun jwk _ => Task.yields_pure [jwk.render]

/-! ### Failures that are not reported -/

def Escapes (now : Int) (secret : Curve → Option Nat) (settings : Settings) (disk : Disk)
    : Command → Prop
  | .generate base _ =>
    (KeyStore.newKey? (secret settings.profile.curve) settings.profile).isSome = true ∧
      ¬ ∀ c ∈ base, Path.IsNameable c
  | .issue base username groups lifetime =>
    (¬ ∀ c ∈ base, Path.IsNameable c) ∨
      (∃ s, (KeyStore.loadSigner base settings.profile).outcome disk = .ok s) ∧
        hasNumeral (now + lifetime.getD settings.lifetime * 1000) = true ∧
        ∃ t ∈ username :: groups, t.any CodePoint.isSurrogate = true
  | .verify _ base => ¬ ∀ c ∈ base, Path.IsNameable c
  | .exportJwk base => ¬ ∀ c ∈ base, Path.IsNameable c

theorem not_isUnknown_verify {v : Verifier} {wire : Text} (hnow : hasNumeral now = true)
    : ¬ IsUnknown (v.verify scheme now (.text wire)) := by
  unfold Verifier.verify
  cases hauthenticate : v.authenticate scheme (.text wire) with
  | error e => exact not_isUnknown_known _
  | ok t =>
    dsimp only
    by_cases hlt : t.expiration < now
    . rw [Verifier.checkExpiration_of_lt hlt (Verifier.hasNumeral_of_authenticate hauthenticate),
        if_pos hnow]
      exact not_isUnknown_known _
    . rw [Verifier.checkExpiration_eq_ok_iff.2 ⟨rfl, Int.not_lt.1 hlt⟩]
      exact not_isUnknown_ok t

theorem exists_claimsLine_of_verify {v : Verifier} {wire : Text} {t : Token}
    (h : v.verify scheme now (.text wire) = .ok t) : ∃ line, claimsLine t = .ok line :=
  exists_claimsLine (Verifier.isReceived_of_authenticate (Verifier.authenticate_of_verify h))

theorem isUnknown_generate_iff {withJwk : Bool}
    : IsUnknown ((generate (.steady now secret scheme) settings base withJwk).outcome disk)
        ↔
      Escapes now secret settings disk (.generate base withJwk) := by
  obtain ⟨outcome, records, disk', hon, hgeneration⟩ :=
    KeyStore.generate_cases (secret settings.profile.curve) base settings.profile [] disk
  rw [Escapes, ← hgeneration.isUnknown_iff]
  change IsUnknown ((KeyStore.generate (secret settings.profile.curve) base settings.profile
    >>= fun _ => if withJwk then (do
        let _ ← KeyStore.writeJwk base settings.profile
        pure [])
      else pure [] : Task (StateM Disk) (List Text)).on [] disk).1.1 ↔ _
  rw [Task.on_bind, hon]
  cases outcome with
  | error e => rw [isUnknown_error_iff, isUnknown_error_iff]
  | ok u =>
    apply iff_of_false _ (not_isUnknown_ok u)
    cases withJwk with
    | false => exact not_isUnknown_ok []
    | true =>
      -- Once the pair is written, its base is known to be one that can be in a path.
      have hwrite : ¬ IsUnknown ((KeyStore.writeJwk base settings.profile).on records disk').1.1 := by
        rw [KeyStore.isUnknown_writeJwk_iff]
        exact fun h => h hgeneration.isNameable
      dsimp only
      rw [if_pos rfl, Task.on_bind]
      rcases hresult : (KeyStore.writeJwk base settings.profile).on records disk'
        with ⟨⟨e | path, left⟩, disk''⟩
      . rw [hresult, isUnknown_error_iff] at hwrite
        dsimp only
        rwa [isUnknown_error_iff]
      . exact not_isUnknown_ok []

theorem isUnknown_issue_iff {s : Signer} {expiration : Int} {username : Text} {groups : List Text}
    : IsUnknown (s.issue scheme (some Signer.loggingObserver) (.bare expiration username groups)).outcome
        ↔
      hasNumeral expiration = true ∧ ∃ t ∈ username :: groups, t.any CodePoint.isSurrogate = true := by
  have hobserver : ∀ observe, some Signer.loggingObserver = some observe →
      ∀ payload wire kind, observe payload wire ≠ .interrupted kind := by
    rintro _ ⟨⟩
    exact Signer.loggingObserver_ne_interrupted
  rw [Signer.isUnknown_issue_iff hobserver, Token.encodesOrReports_bare_iff]
  simp only [Classical.not_imp, Classical.not_forall, Bool.not_eq_false]

theorem isUnknown_execute_iff (hnow : hasNumeral now = true) (c : Command)
    : IsUnknown ((execute (.steady now secret scheme) settings c).outcome disk)
        ↔
      Escapes now secret settings disk c := by
  cases c with
  | generate base withJwk => exact isUnknown_generate_iff
  | issue base username groups lifetime =>
    rw [execute, issue_yields.outcome_eq, isUnknown_bind_iff, KeyStore.isUnknown_loadSigner_iff, Escapes]
    apply or_congr_right
    rw [← exists_and_right]
    apply exists_congr
    intro s
    rw [isUnknown_bind_iff, isUnknown_issue_iff]
    apply and_congr_right
    intro hs
    apply or_iff_left
    rintro ⟨wire, -, h⟩
    exact not_isUnknown_ok _ h
  | verify wire base =>
    rw [execute, verify_yields.outcome_eq, isUnknown_bind_iff, KeyStore.isUnknown_loadVerifier_iff,
      Escapes]
    apply or_iff_left
    rintro ⟨v, -, h⟩
    obtain hverify | ⟨t, ht, hline⟩ := isUnknown_bind_iff.1 h
    . exact not_isUnknown_verify hnow hverify
    . obtain ⟨line, heq⟩ := exists_claimsLine_of_verify ht
      rw [heq] at hline
      exact not_isUnknown_ok _ hline
  | exportJwk base =>
    rw [execute, exportJwk_yields.outcome_eq, isUnknown_bind_iff, KeyStore.isUnknown_loadJwk_iff]
    apply or_iff_left
    rintro ⟨jwk, -, h⟩
    exact not_isUnknown_ok _ h

/-! ### Runs -/

namespace Outcome

inductive Reports : Outcome → Prop where
  | ended (e : Ending) : Reports (.ended e)
  | succeeded (output : List Text) (records : List LogRecord) : Reports (.finished 0 output records)
  | failed (records : List LogRecord) : Reports (.finished 1 [] records)

def ofResult (verbose : Bool) (result : Except Failure (List Text)) (records : List LogRecord)
    : Outcome :=
  match result with
  | .ok output => .finished 0 output (shown verbose records)
  | .error (.known e) => .finished 1 [] (shown verbose records ++ [failed e])
  | .error (.unknown cause) => .escaped cause (shown verbose records)

theorem reports_ofResult_iff {verbose : Bool} {result : Except Failure (List Text)}
    {records : List LogRecord} : (ofResult verbose result records).Reports ↔ ¬ IsUnknown result := by
  cases result with
  | ok output => exact iff_of_true (.succeeded output _) (not_isUnknown_ok output)
  | error e =>
    cases e with
    | known e => exact iff_of_true (.failed _) (not_isUnknown_known e)
    | unknown cause =>
      apply iff_of_false
      . intro h
        cases h
      . exact fun h => h ⟨cause, rfl⟩

end Outcome

section Run

variable {host : Host (StateM Disk)} {environment : List (Text × Text)} {args : List Text}

theorem run_of_settings_error {ds : List Defect} (h : Settings.ofEnvironment environment = .error ds)
    : run host environment args disk = (.finished 1 [] [settingsInvalid], disk) := by
  unfold run
  rw [h]
  rfl

theorem run_of_parse_error {e : Ending} (hsettings : Settings.ofEnvironment environment = .ok settings)
    (h : parse settings.keyPath args = .error e)
    : run host environment args disk = (.ended e, disk) := by
  unfold run
  rw [hsettings]
  dsimp only
  rw [h]
  rfl

theorem run_eq_of_parse (host : Host (StateM Disk)) (disk : Disk) {invocation : Invocation}
    (hsettings : Settings.ofEnvironment environment = .ok settings)
    (h : parse settings.keyPath args = .ok invocation)
    : run host environment args disk
        =
      (.ofResult invocation.verbose ((execute host settings invocation.command).outcome disk)
          ((execute host settings invocation.command).perform disk).1.2,
        ((execute host settings invocation.command).perform disk).2) := by
  unfold run
  rw [hsettings]
  dsimp only
  rw [h]
  dsimp only
  rw [Disk.bind_eq, Task.outcome]
  rcases (execute host settings invocation.command).perform disk with ⟨⟨result, records⟩, disk'⟩
  cases result with
  | ok output => rfl
  | error e =>
    cases e with
    | known e => rfl
    | unknown cause => rfl

theorem run_of_parse (host : Host (StateM Disk)) (disk : Disk) {invocation : Invocation}
    (hsettings : Settings.ofEnvironment environment = .ok settings)
    (h : parse settings.keyPath args = .ok invocation)
    : ∃ records, run host environment args disk
        =
      (.ofResult invocation.verbose ((execute host settings invocation.command).outcome disk) records,
        ((execute host settings invocation.command).perform disk).2) :=
  ⟨_, run_eq_of_parse host disk hsettings h⟩

theorem run_of_yields (host : Host (StateM Disk)) {c : Command} {result : Except Failure (List Text)}
    (hsettings : Settings.ofEnvironment environment = .ok settings)
    (hparse : parse settings.keyPath args = .ok ⟨false, c⟩)
    (h : (execute host settings c).Yields disk result)
    : ∃ records left, run host environment args disk
        =
      (.ofResult false result records, ⟨disk.directory, left⟩) := by
  obtain ⟨records, hrun⟩ := run_of_parse host disk hsettings hparse
  obtain ⟨records', left, hperform⟩ := h.perform
  refine ⟨records, left, ?_⟩
  rw [hrun, h.outcome_eq, hperform]

end Run

end CommandLine

end SignedToken
