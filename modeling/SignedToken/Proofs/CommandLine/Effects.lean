import SignedToken.Proofs.CommandLine.Run
import SignedToken.Proofs.Jwk

/-!
This module contains what a run of the program leaves behind. Only a command that makes keys touches
files, a failure is the one record of its kind and prints nothing, and what a command prints is a
single line, whatever texts its token has.
-/

namespace SignedToken

/-! ### The records of a key store -/

namespace KeyStore

variable {P : LogRecord → Prop} {half : KeyHalf} {base : Text} {p : Profile}

theorem checkPath_leaves (target : Path) : (checkPath target : Task (StateM Disk) Unit).Leaves P := by
  unfold checkPath
  split
  . exact Task.leaves_pure ()
  . exact Task.leaves_throw _

theorem replaceFile_leaves (target : Path) (mode : Nat) (content : Bytes)
    : (replaceFile target mode content : Task (StateM Disk) Unit).Leaves P := by
  refine (checkPath_leaves target).bind fun _ => (Task.leaves_lift _).bind fun created => ?_
  cases created with
  | error e => exact Task.leaves_throw _
  | ok fresh =>
    refine (Task.leaves_lift _).bind fun filled => ?_
    cases filled with
    | ok u => exact Task.leaves_pure u
    | error e => exact (Task.leaves_lift _).bind fun _ => Task.leaves_throw _

theorem generate_leaves (secret : Option Nat) (h : P (generated p base))
    : (generate secret base p : Task (StateM Disk) Unit).Leaves P := by
  unfold generate
  split
  . exact Task.leaves_throw _
  . exact (replaceFile_leaves _ _ _).bind fun _ => (replaceFile_leaves _ _ _).bind fun _ =>
      Task.leaves_log h

theorem load_leaves (h : P (loaded half (path half base)))
    : (load half base : Task (StateM Disk) AnyKey).Leaves P := by
  refine (checkPath_leaves _).bind fun _ => (Task.leaves_lift _).bind fun content => ?_
  cases content with
  | error e => exact Task.leaves_throw _
  | ok content =>
    dsimp only
    split
    . exact Task.leaves_throw _
    . exact (Task.leaves_log h).bind fun _ => Task.leaves_pure _

theorem loadPrivate_leaves (h : P (loaded .privateHalf (path .privateHalf base)))
    : (loadPrivate base p : Task (StateM Disk) _).Leaves P :=
  (load_leaves h).bind fun _ => Task.leaves_ofKeyExcept _

theorem loadPublic_leaves (h : P (loaded .publicHalf (path .publicHalf base)))
    : (loadPublic base p : Task (StateM Disk) _).Leaves P :=
  (load_leaves h).bind fun _ => Task.leaves_ofKeyExcept _

theorem writeJwk_leaves (h : P (loaded .publicHalf (path .publicHalf base)))
    : (writeJwk base p : Task (StateM Disk) Path).Leaves P :=
  ((loadPublic_leaves h).bind fun _ => Task.leaves_pure _).bind fun _ =>
    (replaceFile_leaves _ _ _).bind fun _ => Task.leaves_pure _

end KeyStore

/-! ### Lines -/

theorem Signer.Sealed.isPlainAscii_of_mem {scheme : Scheme} {s : Signer} {t : Token} {payload : Bytes}
    {wire : Text} (h : s.Sealed scheme t payload wire) : ∀ c ∈ wire, c.isPlainAscii = true := by
  obtain ⟨sig, -, rfl⟩ := Signer.sign?_eq_some_iff.1 h.signed
  apply Compact.isPlainAscii_of_mem_write

namespace CommandLine

variable {host : Host (StateM Disk)} {settings : Settings} {base : Text}

def IsLine (t : Text) : Prop :=
  ∀ c ∈ t, c.isPlainAscii = true

theorem isLine_of_claimsLine {t : Token} {line : Text} (h : claimsLine t = .ok line) : IsLine line := by
  unfold claimsLine at h
  split at h
  . next line' hwrite =>
    cases h
    rw [ClaimValue.write] at hwrite
    obtain ⟨j, -, rfl⟩ := Outcome.map_eq_ok_iff.1 hwrite
    exact Json.isPlainAscii_of_mem_write rfl rfl rfl
  . cases h

/-! ### What commands print -/

def IsOneLine (output : List Text) : Prop :=
  ∃ line, output = [line] ∧ IsLine line

theorem generate_returns {withJwk : Bool}
    : (generate host settings base withJwk).Returns (· = []) := by
  refine Task.returns_bind fun _ => Task.returns_bind fun _ => ?_
  cases withJwk with
  | true => exact Task.returns_bind fun _ => Task.returns_pure rfl
  | false => exact Task.returns_pure rfl

theorem issue_returns {username : Text} {groups : List Text} {lifetime : Option Int}
    : (issue host settings base username groups lifetime).Returns IsOneLine := by
  refine Task.returns_bind fun s => Task.returns_bind fun _ => Task.returns_bind fun t =>
    Task.returns_bind fun _ => (Task.returns_ofExcept _).bind fun wire hwire => ?_
  obtain ⟨payload, hsealed, -⟩ := ((Signer.failClosed_issue _ s _ t).released wire).1 hwire
  exact Task.returns_pure ⟨wire, rfl, hsealed.isPlainAscii_of_mem⟩

theorem verify_returns {wire : Text} : (verify host settings wire base).Returns IsOneLine := by
  refine Task.returns_bind fun _ => Task.returns_bind fun _ => Task.returns_bind fun _ =>
    Task.returns_bind fun _ => (Task.returns_ofExcept _).bind fun line hline => ?_
  exact Task.returns_pure ⟨line, rfl, isLine_of_claimsLine hline⟩

theorem exportJwk_returns : (exportJwk settings base).Returns IsOneLine := by
  have hjwk : (KeyStore.loadJwk base settings.profile : Task (StateM Disk) Jwk).Returns
      fun jwk => ∃ k, jwk = .ofPublic settings.profile k :=
    Task.returns_bind fun k => Task.returns_pure ⟨k.val, rfl⟩
  refine hjwk.bind ?_
  rintro jwk ⟨k, rfl⟩
  exact Task.returns_pure ⟨_, rfl, Jwk.isPlainAscii_of_mem_render settings.profile k⟩

def makesKeys : Command → Bool
  | .generate .. => true
  | _ => false

theorem execute_returns (c : Command)
    : (execute host settings c).Returns fun output =>
        if makesKeys c then output = [] else IsOneLine output := by
  cases c with
  | generate base withJwk => exact generate_returns
  | issue base username groups lifetime => exact issue_returns
  | verify wire base => exact verify_returns
  | exportJwk base => exact exportJwk_returns

/-! ### The records of commands -/

def IsQuiet (r : LogRecord) : Prop :=
  r.level ≠ .error

theorem isQuiet_of_mem_records {result : Except Failure Token}
    : ∀ r ∈ Verifier.records result, IsQuiet r := by
  unfold Verifier.records IsQuiet
  split <;> simp

theorem isQuiet_of_mem_issued {done : Signer.Issuance} : ∀ r ∈ done.records, IsQuiet r := by
  intro r hr
  obtain ⟨wire, claims, rfl⟩ := Signer.Issuance.exists_of_mem_records hr
  exact nofun

theorem generate_leaves {withJwk : Bool}
    : (generate host settings base withJwk).Leaves IsQuiet := by
  refine (Task.leaves_lift _).bind fun secret => (KeyStore.generate_leaves secret nofun).bind fun _ => ?_
  cases withJwk with
  | true => exact (KeyStore.writeJwk_leaves nofun).bind fun _ => Task.leaves_pure _
  | false => exact Task.leaves_pure _

theorem issue_leaves {username : Text} {groups : List Text} {lifetime : Option Int}
    : (issue host settings base username groups lifetime).Leaves IsQuiet := by
  refine ((KeyStore.loadPrivate_leaves nofun).bind fun _ => Task.leaves_pure _).bind fun s =>
    (Task.leaves_lift _).bind fun _ => (Task.leaves_ofExcept _).bind fun t =>
      (Task.leaves_logAll isQuiet_of_mem_issued).bind fun _ => (Task.leaves_ofExcept _).bind fun _ =>
        Task.leaves_pure _

theorem verify_leaves {wire : Text} : (verify host settings wire base).Leaves IsQuiet :=
  ((KeyStore.loadPublic_leaves nofun).bind fun _ => Task.leaves_pure _).bind fun _ =>
    (Task.leaves_lift _).bind fun _ => (Task.leaves_logAll isQuiet_of_mem_records).bind fun _ =>
      (Task.leaves_ofExcept _).bind fun _ => (Task.leaves_ofExcept _).bind fun _ => Task.leaves_pure _

theorem exportJwk_leaves : (exportJwk settings base : Task (StateM Disk) _).Leaves IsQuiet :=
  ((KeyStore.loadPublic_leaves nofun).bind fun _ => Task.leaves_pure _).bind fun _ => Task.leaves_pure _

theorem execute_leaves (c : Command) : (execute host settings c).Leaves IsQuiet := by
  cases c with
  | generate base withJwk => exact generate_leaves
  | issue base username groups lifetime => exact issue_leaves
  | verify wire base => exact verify_leaves
  | exportJwk base => exact exportJwk_leaves

/-! ### Runs -/

theorem execute_yields {now : Int} {secret : Curve → Option Nat} {scheme : Scheme} {disk : Disk}
    {c : Command} (h : makesKeys c = false)
    : ∃ result, (execute (.steady now secret scheme) settings c).Yields disk result := by
  cases c with
  | generate base withJwk => cases h
  | issue base username groups lifetime => exact ⟨_, issue_yields⟩
  | verify wire base => exact ⟨_, verify_yields⟩
  | exportJwk base => exact ⟨_, exportJwk_yields⟩

def failures (records : List LogRecord) : Nat :=
  records.countP (·.level == .error)

theorem failures_shown {verbose : Bool} {records : List LogRecord} (h : ∀ r ∈ records, IsQuiet r)
    : failures (shown verbose records) = 0 := by
  have hshown : ∀ r ∈ shown verbose records, r ∈ records := by
    unfold shown
    split
    . exact fun r hr => hr
    . exact fun r hr => (List.mem_filter.1 hr).1
  rw [failures, List.countP_eq_zero]
  intro r hr
  rw [beq_iff_eq]
  exact h r (hshown r hr)

def AsksFor (environment : List (Text × Text)) (args : List Text) (c : Command) : Prop :=
  ∃ settings invocation, Settings.ofEnvironment environment = .ok settings ∧
    parse settings.keyPath args = .ok invocation ∧ invocation.command = c

/--
What the status of a run stands for: with one, a single failure is in the log and nothing is printed; with
zero, a command was carried out that has printed a line, or nothing if it has made keys.
-/
structure Signals (asked : Command → Prop) (status : Nat) (output : List Text) (records : List LogRecord)
    : Prop where
  zero_or_one : status = 0 ∨ status = 1
  failed : status = 1 → output = [] ∧ failures records = 1
  succeeded : status = 0 → ∃ c, asked c ∧ if makesKeys c then output = [] else IsOneLine output

variable {asked : Command → Prop} {status : Nat} {output : List Text} {records : List LogRecord}

theorem signals_failure {message : Text} (h : failures records = 0)
    : Signals asked 1 [] (records ++ [errorRecord message]) where
  zero_or_one := .inr rfl
  failed := by
    intro _
    refine ⟨rfl, ?_⟩
    rw [failures, List.countP_append, ← failures, h]
    rfl
  succeeded := nofun

theorem signals_ofResult {verbose : Bool} {result : Except Failure (List Text)} {c : Command}
    {left : List LogRecord} (hasked : asked c) (hleft : ∀ r ∈ left, IsQuiet r)
    (hresult : ∀ output, result = .ok output → if makesKeys c then output = [] else IsOneLine output)
    (h : Outcome.ofResult verbose result left = .finished status output records)
    : Signals asked status output records := by
  cases result with
  | ok _ =>
    cases h
    exact ⟨.inl rfl, nofun, fun _ => ⟨c, hasked, hresult _ rfl⟩⟩
  | error e =>
    cases e with
    | known e =>
      cases h
      exact signals_failure (failures_shown hleft)
    | unknown cause => cases h

theorem run_cases (host : Host (StateM Disk)) (environment : List (Text × Text)) (args : List Text)
    (disk : Disk)
    : run host environment args disk = (.finished 1 [] [settingsInvalid], disk) ∨
        (∃ e, run host environment args disk = (.ended e, disk)) ∨
        ∃ settings invocation, Settings.ofEnvironment environment = .ok settings ∧
          parse settings.keyPath args = .ok invocation ∧
          run host environment args disk
            =
          (.ofResult invocation.verbose ((execute host settings invocation.command).outcome disk)
              ((execute host settings invocation.command).perform disk).1.2,
            ((execute host settings invocation.command).perform disk).2) := by
  cases hsettings : Settings.ofEnvironment environment with
  | error ds => exact .inl (run_of_settings_error hsettings)
  | ok settings =>
    refine .inr ?_
    cases hparse : parse settings.keyPath args with
    | error e => exact .inl ⟨e, run_of_parse_error hsettings hparse⟩
    | ok invocation =>
      exact .inr ⟨settings, invocation, rfl, hparse, run_eq_of_parse host disk hsettings hparse⟩

/--
Invalid settings end every run at once. Otherwise files are touched by a command that makes keys and by
nothing else, and whatever run ends with a status ends as the status says.
-/
theorem run_effects (now : Int) (secret : Curve → Option Nat) (scheme : Scheme)
    (environment : List (Text × Text)) (args : List Text) (disk : Disk)
    : (∀ ds, Settings.ofEnvironment environment = .error ds →
          run (.steady now secret scheme) environment args disk
            = (.finished 1 [] [settingsInvalid], disk)) ∧
        (∀ e, (run (.steady now secret scheme) environment args disk).1 = .ended e →
          (run (.steady now secret scheme) environment args disk).2 = disk) ∧
        (∀ c, AsksFor environment args c → makesKeys c = false →
          (run (.steady now secret scheme) environment args disk).2.directory = disk.directory) ∧
        ∀ status output records,
          (run (.steady now secret scheme) environment args disk).1
              = .finished status output records →
            Signals (AsksFor environment args) status output records := by
  refine ⟨fun ds => run_of_settings_error, ?_, ?_, ?_⟩
  . intro e he
    obtain hrun | ⟨e', hrun⟩ | ⟨settings, invocation, -, -, hrun⟩ :=
      run_cases (.steady now secret scheme) environment args disk
    . rw [hrun]
    . rw [hrun]
    . -- A command that is carried out ends with a status, or by a failure that passes through.
      rw [hrun] at he
      unfold Outcome.ofResult at he
      split at he <;> cases he
  . rintro c ⟨settings, invocation, hsettings, hparse, rfl⟩ hlooks
    obtain ⟨result, hyields⟩ := execute_yields hlooks
    obtain ⟨records, left, hperform⟩ := hyields.perform
    rw [run_eq_of_parse _ disk hsettings hparse, hperform]
  . intro status output records hfinished
    obtain hrun | ⟨e, hrun⟩ | ⟨settings, invocation, hsettings, hparse, hrun⟩ :=
      run_cases (.steady now secret scheme) environment args disk
    . rw [hrun] at hfinished
      cases hfinished
      exact ⟨.inr rfl, fun _ => ⟨rfl, rfl⟩, nofun⟩
    . rw [hrun] at hfinished
      cases hfinished
    . rw [hrun] at hfinished
      exact signals_ofResult ⟨settings, invocation, hsettings, hparse, rfl⟩
        ((execute_leaves invocation.command).perform disk)
        (fun output => (execute_returns invocation.command).of_outcome) hfinished

end CommandLine

end SignedToken
