import SignedToken.Proofs.CommandLine.Effects
import SignedToken.Proofs.KeyStore.Jwk

/-!
This module contains the three ways to the JSON form of a public key: of a key that is at hand, as a line
that a run prints, and in a file beside the key. They have the same text, and where there is no such key
all of them fail with the same error and leave nothing behind.
-/

namespace SignedToken

namespace CommandLine

open Arguments

variable {p : Profile} {base text : Text} {disk : Disk}

/-! ### Runs that export a key -/

def AsksForKey (p : Profile) (base : Text) (environment : List (Text × Text)) (args : List Text)
    (verbose : Bool) : Prop :=
  ∃ settings, Settings.ofEnvironment environment = .ok settings ∧ settings.profile = p ∧
    parse settings.keyPath args = .ok ⟨verbose, .exportJwk base⟩

theorem parse_exportJwk_alone (keyPath : Text)
    : parse keyPath [CommandName.exportJwk.text] = .ok ⟨false, .exportJwk keyPath⟩ := by
  have hwords : CommandName.exportJwk.grammar.words [] = .ok [] := rfl
  have hread : CommandName.exportJwk.grammar.read [] = ⟨[(.base, [])], [], none⟩ := by
    rw [Grammar.read, hwords]
    dsimp only
    rw [readWords_eq]
    rfl
  exact parse_eq (List.forall_mem_nil _) (readCommand_eq hread rfl fun _ => rfl)

theorem exists_asksForKey (p : Profile) (base : Text)
    : ∃ environment args, AsksForKey p base environment args false := by
  have hsettings : Settings.ofEnvironment
      [(Text.ofString "ECTOKEN_KEY_PATH", base),
        (Text.ofString "ECTOKEN_ALGORITHM", Text.ofString p.algorithm)]
      = .ok ⟨base, p, Settings.default.lifetime⟩ := by
    cases p <;> rfl
  exact ⟨_, _, _, hsettings, rfl, parse_exportJwk_alone base⟩

theorem run_of_asksForKey {environment : List (Text × Text)} {args : List Text} {verbose : Bool}
    (now : Int) (secret : Curve → Option Nat) (scheme : Scheme) (disk : Disk)
    (h : AsksForKey p base environment args verbose)
    : ∃ records, (run (.steady now secret scheme) environment args disk).1
        =
      .ofResult verbose (((KeyStore.loadPublic base p).outcome disk).map fun k =>
        [(Jwk.ofPublic p k.val).render]) records := by
  obtain ⟨settings, hsettings, rfl, hparse⟩ := h
  obtain ⟨records, hrun⟩ := run_of_parse (.steady now secret scheme) disk hsettings hparse
  have hexport : (execute (.steady now secret scheme) settings (.exportJwk base)).outcome disk = _ :=
    exportJwk_yields.outcome_eq
  refine ⟨records, ?_⟩
  rw [hrun, hexport, KeyStore.loadJwk_yields.outcome_eq, KeyStore.loadPublic_yields.outcome_eq]
  cases KeyStore.loadingPublic base settings.profile disk with
  | error e => rfl
  | ok key => rfl

def Prints (p : Profile) (base : Text) (disk : Disk) (text : Text) : Prop :=
  ∀ now secret scheme environment args verbose, AsksForKey p base environment args verbose →
    ∃ records, (run (.steady now secret scheme) environment args disk).1 = .finished 0 [text] records

theorem prints_of_loadPublic {key : { k : PublicKey // k.curve = p.curve }}
    (h : (KeyStore.loadPublic base p).outcome disk = .ok key)
    : Prints p base disk (Jwk.ofPublic p key.val).render := by
  intro now secret scheme environment args verbose hasks
  obtain ⟨records, hrun⟩ := run_of_asksForKey now secret scheme disk hasks
  rw [h] at hrun
  exact ⟨_, hrun⟩

/-! ### The ways to a text -/

/--
That the text of a key is what runs print and what is written, where nothing is in the way of writing it.
The key is still there afterwards.
-/
structure Exports (p : Profile) (base : Text) (disk : Disk) (text : Text) : Prop where
  printed : Prints p base disk text
  written : ∀ path records disk',
    (KeyStore.writeJwk base p : Task (StateM Disk) Path).perform disk = ((.ok path, records), disk') →
      path = KeyStore.jwkPath base ∧
      (∃ content, disk'.directory.nodeAt path = .ok (some (.file 0o644 content)) ∧
        Utf8.decode? content = some text) ∧
      Prints p base (Disk.sound disk'.directory) text
  writable : disk.faults = [] → disk.directory.Accepts (KeyStore.jwkPath base) →
    (∃ made, disk.directory.createBeside (KeyStore.jwkPath base) = .ok made) →
      ∃ records disk', (KeyStore.writeJwk base p : Task (StateM Disk) Path).perform disk
        =
      ((.ok (KeyStore.jwkPath base), records), disk')

/--
That runs which ask for a key end with a failure, and that writing it fails alike and changes nothing.
-/
structure Refuses (p : Profile) (base : Text) (disk : Disk) (e : Failure) : Prop where
  printed : ∀ now secret scheme environment args verbose, AsksForKey p base environment args verbose →
    ∃ records, (run (.steady now secret scheme) environment args disk).1
      = .ofResult verbose (.error e) records
  written : ∃ records disk',
    (KeyStore.writeJwk base p : Task (StateM Disk) Path).perform disk = ((.error e, records), disk') ∧
      disk'.directory = disk.directory

theorem exports_of_loadPublic {key : { k : PublicKey // k.curve = p.curve }}
    (h : (KeyStore.loadPublic base p).outcome disk = .ok key)
    : Exports p base disk (Jwk.ofPublic p key.val).render := by
  obtain ⟨result, records, disk', hwrite, hreplacement⟩ := KeyStore.writeJwk_of_loadPublic h
  refine ⟨prints_of_loadPublic h, ?_, ?_⟩
  . intro path records' disk'' hwritten
    rw [hwrite] at hwritten
    cases result with
    | error e => cases hwritten
    | ok u =>
      cases hwritten
      exact ⟨rfl, ⟨_, hreplacement.nodeAt_of_ok, Jwk.decode?_encodeAny_render p key.val⟩,
        prints_of_loadPublic (hreplacement.loadPublic_outcome h)⟩
  . intro hfaults haccepts hfresh
    rw [hfaults] at hreplacement
    have hpath := KeyStore.pathFault?_jwkPath_of_loading (KeyStore.loading_of_loadPublic h)
    rw [hreplacement.eq_ok hpath hfresh haccepts] at hwrite
    exact ⟨records, disk', hwrite⟩

theorem refuses_of_loadPublic {e : Failure} (h : (KeyStore.loadPublic base p).outcome disk = .error e)
    : Refuses p base disk e where
  printed := by
    intro now secret scheme environment args verbose hasks
    obtain ⟨records, hrun⟩ := run_of_asksForKey now secret scheme disk hasks
    rw [h] at hrun
    exact ⟨records, hrun⟩
  written := by
    have hjwk : (KeyStore.loadJwk base p).outcome disk = .error e := by
      rw [KeyStore.loadPublic_yields.outcome_eq] at h
      rw [KeyStore.loadJwk_yields.outcome_eq, h]
      rfl
    obtain ⟨outcome, records, disk', hon, hcases⟩ := KeyStore.writeJwk_cases base p [] disk
    rw [hjwk] at hcases
    obtain ⟨e', ⟨⟩, rfl, hkept⟩ | ⟨jwk, left, result, ⟨⟩, -⟩ := hcases
    exact ⟨records, disk', hon, hkept⟩

/--
The JSON form of a key tells its coordinates in the width of the profile, so that the key is recovered from
the text and no other key of the profile has this text. The text of the key that is loaded from a base is
the line that is printed for it and what is written beside it. A key of another curve or kind has no JSON
form, be it at hand or in a file, and none is printed or written for it.
-/
theorem export_lossless (p : Profile)
    : (∀ k : PublicKey, k.curve = p.curve → k.IsOnCurve →
        ∃ j, Jwk.ofKey (.ecPublic k) p = .ok j ∧ j.Tells p k ∧
          j.x.length = Base64Url.textLength p.coordinateSize ∧
          j.y.length = Base64Url.textLength p.coordinateSize ∧
          ∀ d : Json.Dialect, 1 ≤ d.maxDepth → Jwk.readKey? d j.render = some k) ∧
      (∀ (k k' : PublicKey) (j j' : Jwk), k.IsOnCurve → k'.IsOnCurve →
        Jwk.ofKey (.ecPublic k) p = .ok j → Jwk.ofKey (.ecPublic k') p = .ok j' →
          (j.render = j'.render ↔ k = k')) ∧
      (∀ k : AnyKey, (∀ key, k = .ecPublic key → key.curve ≠ p.curve) →
        ∃ e, Jwk.ofKey k p = .error e ∧ e.title = "KeyTypeError" ∧
          ∀ base disk, KeyStore.loading .publicHalf base disk = .ok k →
            Refuses p base disk (KeyStore.keyFailure e)) ∧
      ∀ base disk,
        (∃ environment args, AsksForKey p base environment args false) ∧
        (∀ key, (KeyStore.loadPublic base p).outcome disk = .ok key →
          key.val.IsOnCurve ∧
            ∃ j, Jwk.ofKey (.ecPublic key.val) p = .ok j ∧ Exports p base disk j.render) ∧
        ∀ e, (KeyStore.loadPublic base p).outcome disk = .error e → Refuses p base disk e := by
  refine ⟨?_, ?_, ?_, fun base disk => ⟨exists_asksForKey p base, ?_, fun e => refuses_of_loadPublic⟩⟩
  . intro k hcurve h
    have htells := Jwk.tells_ofPublic hcurve h
    exact ⟨_, Jwk.ofKey_eq_ok_iff.2 ⟨k, rfl, hcurve, rfl⟩, htells, htells.x.length_eq, htells.y.length_eq,
      fun d => htells.readKey?_render hcurve h⟩
  . intro k k' j j' h h' hj hj'
    obtain ⟨_, ⟨⟩, hcurve, rfl⟩ := Jwk.ofKey_eq_ok_iff.1 hj
    obtain ⟨_, ⟨⟩, hcurve', rfl⟩ := Jwk.ofKey_eq_ok_iff.1 hj'
    exact Jwk.render_ofPublic_inj hcurve h hcurve' h'
  . intro k hother
    obtain ⟨e, he, htitle⟩ := Jwk.exists_ofKey_eq_error hother
    exact ⟨e, he, htitle, fun base disk hloading =>
      refuses_of_loadPublic (KeyStore.loadPublic_outcome_of_ofKey hloading he)⟩
  . intro key hload
    exact ⟨KeyStore.isOnCurve_of_loadPublic hload, _,
      Jwk.ofKey_eq_ok_iff.2 ⟨key.val, rfl, key.property, rfl⟩, exports_of_loadPublic hload⟩

end CommandLine

end SignedToken
