import SignedToken.Proofs.CommandLine.Run
import SignedToken.Proofs.Signer.Transparency

/-!
This module contains the law of the program as a whole: where a pair was generated, a token that is
issued to a user is printed, and verifying what was printed tells who the user is for as long as the
token is good.
-/

namespace SignedToken

namespace CommandLine

open Arguments

variable (now : Int) (secret : Curve → Option Nat) (scheme : Scheme) {settings : Settings}
  {environment : List (Text × Text)} {p : Text} {disk disk' : Disk} {d : Directory} {n : Nat}

/-! ### Generating -/

theorem run_generate (hsettings : Settings.ofEnvironment environment = .ok settings) (hp : IsPlain p)
    {result : Except Failure Unit} {records : List LogRecord}
    (h : (KeyStore.generate (secret settings.profile.curve) p settings.profile
        : Task (StateM Disk) Unit).perform disk = ((result, records), disk'))
    : ∃ records', run (.steady now secret scheme) environment [CommandName.generate.text, p] disk
        =
      (.ofResult false (result.map fun _ => []) records', disk') := by
  have hexecute : (execute (.steady now secret scheme) settings (.generate p false)).perform disk
      = ((result.map fun _ => [], records), disk') := by
    change (KeyStore.generate (secret settings.profile.curve) p settings.profile
      >>= fun _ => (pure [] : Task (StateM Disk) (List Text))).on [] disk = _
    change (KeyStore.generate (secret settings.profile.curve) p settings.profile).on [] disk = _ at h
    rw [Task.on_bind, h]
    cases result with
    | error e => rfl
    | ok u => rfl
  obtain ⟨records', hrun⟩ := run_of_parse (.steady now secret scheme) disk hsettings (parse_generate hp)
  refine ⟨records', ?_⟩
  rw [hrun, Task.outcome, hexecute]

theorem exists_holdsPair_of_run {output : List Text} {records : List LogRecord}
    (hsettings : Settings.ofEnvironment environment = .ok settings) (hp : IsPlain p)
    (h : run (.steady now secret scheme) environment [CommandName.generate.text, p] disk
      = (.finished 0 output records, disk'))
    : ∃ n, secret settings.profile.curve = some n ∧
        KeyStore.HoldsPair disk'.directory p ⟨settings.profile.curve, n⟩ := by
  obtain ⟨result, records', disk'', hon, hgeneration⟩ :=
    KeyStore.generate_cases (secret settings.profile.curve) p settings.profile [] disk
  obtain ⟨records'', hrun⟩ := run_generate now secret scheme hsettings hp hon
  have hends := congrArg Prod.fst (h.symm.trans hrun)
  have hdisk := congrArg Prod.snd (h.symm.trans hrun)
  dsimp only at hends hdisk
  cases result with
  | error e => cases e <;> cases hends
  | ok u =>
    rw [hdisk]
    obtain ⟨k, hkey, hholds⟩ := hgeneration.holdsPair
    cases hsecret : secret settings.profile.curve with
    | none =>
      rw [hsecret] at hkey
      cases hkey
    | some n =>
      rw [hsecret] at hkey
      obtain ⟨rfl, -⟩ := KeyStore.newKey?_eq_some_iff.1 hkey
      exact ⟨n, rfl, hholds⟩

/-! ### Issuing -/

theorem isPlain_write (p : Profile) (payload signature : Bytes)
    : IsPlain (Compact.write (Utf8.encodeAny (Header.write p)) payload signature) := by
  -- Wires start with a letter, as their headers start with a brace.
  obtain ⟨rest, hrest⟩ : ∃ rest, Base64Url.encode (Utf8.encodeAny (Header.write p))
      = CodePoint.ofChar 'e' :: rest := by
    cases p <;> exact ⟨_, rfl⟩
  rw [Compact.write, Compact.signedText, hrest]
  exact fun h => absurd (Option.some.inj h) (by decide)

section Token

variable {expiration : Int} {username : Text} {groups : List Text}
  (hexpiration : hasNumeral expiration = true)
  (htexts : ∀ t ∈ username :: groups, t.any CodePoint.isSurrogate = false)
include hexpiration htexts

theorem exists_issue_bare {s : Signer} (hscheme : scheme.AcceptsOwn s.profile s.key)
    : ∃ wire, (s.issue scheme (some Signer.loggingObserver) (.bare expiration username groups)).outcome
          = .ok wire ∧
        IsPlain wire ∧
        s.verifier.authenticate scheme (.text wire) = .ok (.bare expiration username groups) := by
  obtain ⟨payload, hencode, hdecode⟩ := Token.exists_payload_bare hexpiration htexts
  obtain ⟨wire, hsign, hauthenticate⟩ := Signer.authenticate_sign? hscheme payload
  rw [hdecode] at hauthenticate
  have hsealed : s.Sealed scheme (.bare expiration username groups) payload wire := ⟨hencode, hsign⟩
  refine ⟨wire, ?_, ?_, hauthenticate⟩
  . rw [hsealed.issue_logging]
  . obtain ⟨sig, -, rfl⟩ := Signer.sign?_eq_some_iff.1 hsign
    exact isPlain_write _ _ _

/-! ### Verifying -/

/--
What is to be told of the token of a user: its claims while it is good, and nothing afterwards.
-/
inductive Tells (expiration : Int) (username : Text) (groups : List Text) (now : Int)
    : Outcome → Prop where
  | valid {line : Text} {records : List LogRecord} (hnow : now ≤ expiration)
      (hline : ∀ d : Json.Dialect, 2 ≤ d.maxDepth →
        Json.read? d line = some (Token.bareJson expiration username groups))
    : Tells expiration username groups now (.finished 0 [line] records)
  | expired {records : List LogRecord} (hnow : expiration < now)
    : Tells expiration username groups now (.finished 1 [] records)

theorem run_verify {v : Verifier} {wire : Text}
    (hsettings : Settings.ofEnvironment environment = .ok settings) (hp : IsPlain p)
    (hwire : IsPlain wire)
    (hload : (KeyStore.loadVerifier p settings.profile).outcome disk = .ok v)
    (hauthenticate : v.authenticate scheme (.text wire) = .ok (.bare expiration username groups))
    : ∃ outcome left,
        run (.steady now secret scheme) environment [CommandName.verify.text, wire, p] disk
          = (outcome, ⟨disk.directory, left⟩) ∧
        (Tells expiration username groups now outcome
          ↔
        (expiration < now → hasNumeral now = true)) := by
  have hparse : parse settings.keyPath [CommandName.verify.text, wire, p] = .ok ⟨false, .verify wire p⟩ :=
    parse_verify hwire hp
  have hverify : v.verify scheme now (.text wire)
      = Verifier.checkExpiration (.bare expiration username groups) now := by
    rw [Verifier.verify, hauthenticate]
  obtain ⟨records, left, hrun⟩ := run_of_yields (.steady now secret scheme) hsettings hparse
    (verify_yields_of_verifier hload hverify)
  refine ⟨_, left, hrun, ?_⟩
  by_cases hlt : expiration < now
  . rw [Verifier.checkExpiration_of_lt (t := .bare expiration username groups) hlt hexpiration]
    cases hnow : hasNumeral now with
    | true => exact iff_of_true (.expired hlt) fun _ => rfl
    | false =>
      apply iff_of_false _ fun h => absurd (h hlt) Bool.false_ne_true
      intro htells
      cases htells
  . obtain ⟨line, hline, hread⟩ := exists_claimsLine_bare hexpiration htexts
    rw [Verifier.checkExpiration_eq_ok_iff.2 ⟨rfl, Int.not_lt.1 hlt⟩]
    dsimp only [Except.bind]
    rw [hline]
    exact iff_of_true (.valid (Int.not_lt.1 hlt) hread) fun h => absurd h hlt

end Token

theorem exists_verify_issue_run {username : Text} {groups : List Text} {lifetime : Option Text}
    {seconds : Option Int} (hsettings : Settings.ofEnvironment environment = .ok settings)
    (hp : IsPlain p) (hholds : KeyStore.HoldsPair d p ⟨settings.profile.curve, n⟩)
    (hscheme : scheme.AcceptsOwn settings.profile ⟨settings.profile.curve, n⟩)
    (htexts : ∀ t ∈ username :: groups, t.any CodePoint.isSurrogate = false)
    (hlifetime : ReadsLifetime lifetime seconds)
    (hexpiration : hasNumeral (now + 1000 * seconds.getD settings.lifetime) = true)
    : ∃ wire records left,
        run (.steady now secret scheme) environment (issueArguments p username groups lifetime)
            (Disk.sound d)
          = (.finished 0 [wire] records, ⟨d, left⟩) ∧
        ∀ t₁, ∃ outcome left',
          run (.steady t₁ secret scheme) environment [CommandName.verify.text, wire, p] (Disk.sound d)
            = (outcome, ⟨d, left'⟩) ∧
          (Tells (now + 1000 * seconds.getD settings.lifetime) username groups t₁ outcome
            ↔
          (now + 1000 * seconds.getD settings.lifetime < t₁ → hasNumeral t₁ = true)) := by
  obtain ⟨s, hs⟩ : ∃ s : Signer, s = ⟨settings.profile, ⟨settings.profile.curve, n⟩, rfl⟩ := ⟨_, rfl⟩
  have hsigner : (KeyStore.loadSigner p settings.profile).outcome (Disk.sound d) = .ok s := by
    rw [hs]
    exact hholds.loadSigner_outcome rfl
  have hverifier : (KeyStore.loadVerifier p settings.profile).outcome (Disk.sound d)
      = .ok s.verifier := by
    rw [hs]
    exact hholds.loadVerifier_outcome (PrivateKey.publicKey_curve _)
  have haccepts : scheme.AcceptsOwn s.profile s.key := by
    rw [hs]
    exact hscheme
  obtain ⟨wire, hissue, hwire, hauthenticate⟩ := exists_issue_bare scheme hexpiration htexts haccepts
  rw [Int.mul_comm] at hissue
  obtain ⟨records, left, hrun⟩ := run_of_yields (.steady now secret scheme) hsettings
    (parse_issue hp hlifetime) (issue_yields_of_signer hsigner hissue)
  refine ⟨wire, _, left, hrun, fun t₁ => ?_⟩
  exact run_verify t₁ secret scheme hexpiration htexts hsettings hp hwire hverifier hauthenticate

/--
Where a pair was generated, a token for a user is printed as one wire, and verifying this wire tells
who the user is until the token expires, and nothing from then on, at every time that a clock tells. The
same holds of all other times that can be written.
-/
theorem verify_issue_generate_iff (username : Text) (groups : List Text) {lifetime : Option Text}
    {seconds : Option Int} {output : List Text} {records : List LogRecord}
    (hsettings : Settings.ofEnvironment environment = .ok settings) (hp : IsPlain p)
    (hgenerate : run (.steady now secret scheme) environment [CommandName.generate.text, p] disk
      = (.finished 0 output records, disk'))
    (hscheme : ∀ n, secret settings.profile.curve = some n →
      scheme.AcceptsOwn settings.profile ⟨settings.profile.curve, n⟩)
    (htexts : ∀ t ∈ username :: groups, t.any CodePoint.isSurrogate = false)
    (hlifetime : ReadsLifetime lifetime seconds) (t₀ : Int)
    (hexpiration : hasNumeral (t₀ + 1000 * seconds.getD settings.lifetime) = true)
    : ∃ wire records' left,
        run (.steady t₀ secret scheme) environment (issueArguments p username groups lifetime)
            (Disk.sound disk'.directory)
          = (.finished 0 [wire] records', ⟨disk'.directory, left⟩) ∧
        ∀ t₁, ∃ outcome left',
          run (.steady t₁ secret scheme) environment [CommandName.verify.text, wire, p]
              (Disk.sound disk'.directory)
            = (outcome, ⟨disk'.directory, left'⟩) ∧
          (∀ nanoseconds, t₁ = Clock.now nanoseconds →
            Tells (t₀ + 1000 * seconds.getD settings.lifetime) username groups t₁ outcome) ∧
          (Tells (t₀ + 1000 * seconds.getD settings.lifetime) username groups t₁ outcome
            ↔
          (t₀ + 1000 * seconds.getD settings.lifetime < t₁ → hasNumeral t₁ = true)) := by
  obtain ⟨n, hsecret, hholds⟩ := exists_holdsPair_of_run now secret scheme hsettings hp hgenerate
  obtain ⟨wire, records', left, hissue, hverify⟩ := exists_verify_issue_run t₀ secret scheme hsettings hp
    hholds (hscheme n hsecret) htexts hlifetime hexpiration
  refine ⟨wire, records', left, hissue, fun t₁ => ?_⟩
  obtain ⟨outcome, left', hrun, htells⟩ := hverify t₁
  refine ⟨outcome, left', hrun, ?_, htells⟩
  rintro nanoseconds rfl
  exact htells.2 fun _ => Clock.hasNumeral_now nanoseconds

theorem exists_run_generate_in_empty (now : Int)
    : ∃ records disk',
        run (.steady now (fun _ => some 1) (.ofKey ⟨.secp256r1, 1⟩)) []
            [CommandName.generate.text, Text.ofString "k"] (Disk.sound ⟨[], []⟩)
          = (.finished 0 [] records, disk') ∧
        KeyStore.HoldsPair disk'.directory (Text.ofString "k") ⟨.secp256r1, 1⟩ := by
  have hsettings : Settings.ofEnvironment [] = .ok .default := rfl
  obtain ⟨records, disk', hpair⟩ := KeyStore.exists_generate_in_empty
  obtain ⟨records', hrun⟩ := run_generate now (fun _ => some 1) (.ofKey ⟨.secp256r1, 1⟩) hsettings
    (by decide) hpair
  exact ⟨_, disk', hrun, KeyStore.holdsPair_of_generate hpair⟩

theorem verify_issue_generate_at_once
    : ∃ (disk disk' : Disk) (records records' : List LogRecord) (wire : Text),
        run (.steady 7 (fun _ => some 1) (.ofKey ⟨.secp256r1, 1⟩)) []
            [CommandName.generate.text, Text.ofString "k"] disk
          = (.finished 0 [] records, disk') ∧
        (run (.steady 7 (fun _ => some 1) (.ofKey ⟨.secp256r1, 1⟩)) []
            (issueArguments (Text.ofString "k") (Text.ofString "u") [Text.ofString "g"]
              (some (Text.ofString "0"))) (Disk.sound disk'.directory)).1
          = .finished 0 [wire] records' ∧
        ∀ nanoseconds,
          Tells 7 (Text.ofString "u") [Text.ofString "g"] (Clock.now nanoseconds)
            (run (.steady (Clock.now nanoseconds) (fun _ => some 1) (.ofKey ⟨.secp256r1, 1⟩)) []
              [CommandName.verify.text, wire, Text.ofString "k"] (Disk.sound disk'.directory)).1 := by
  have hsettings : Settings.ofEnvironment [] = .ok .default := rfl
  have hlifetime : ReadsLifetime (some (Text.ofString "0")) (some 0) := .given (by decide)
  have hscheme : ∀ n, (fun _ : Curve => some 1) Settings.default.profile.curve = some n →
      (Scheme.ofKey ⟨.secp256r1, 1⟩).AcceptsOwn Settings.default.profile
        ⟨Settings.default.profile.curve, n⟩ := by
    rintro n ⟨⟩
    exact Scheme.acceptsOwn_ofKey rfl
  obtain ⟨records, disk', hgenerate, -⟩ := exists_run_generate_in_empty 7
  obtain ⟨wire, records', left, hissue, hverify⟩ := verify_issue_generate_iff 7 (fun _ => some 1)
    (.ofKey ⟨.secp256r1, 1⟩) (Text.ofString "u") [Text.ofString "g"] hsettings (by decide) hgenerate
    hscheme (by decide) hlifetime 7 (Text.hasNumeral_iff.2 (by decide))
  refine ⟨_, disk', records, records', wire, hgenerate, congrArg Prod.fst hissue, fun nanoseconds => ?_⟩
  obtain ⟨outcome, left', hrun, htells, -⟩ := hverify (Clock.now nanoseconds)
  rw [hrun]
  exact htells nanoseconds rfl

end CommandLine

end SignedToken
