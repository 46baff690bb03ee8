import SignedToken.Proofs.Jwk
import SignedToken.Proofs.KeyStore.Effects
import SignedToken.Proofs.KeyStore.Profiles

/-!
This module contains the JSON form of a public key in a file: it is put beside the key as a whole, and the
key is the same afterwards. No other key than one on the curve of the profile has such a form.
-/

namespace SignedToken

/-! ### Keys at hand -/

namespace Jwk

variable {p : Profile}

theorem ofKey_eq_ok_iff {k : AnyKey} {j : Jwk}
    : ofKey k p = .ok j ↔ ∃ key : PublicKey, k = .ecPublic key ∧ key.curve = p.curve ∧ j = ofPublic p key := by
  rw [ofKey, Outcome.map_eq_ok_iff]
  constructor
  . rintro ⟨key, hkey, rfl⟩
    exact ⟨key.val, AnyKey.toPublic_eq_ok_iff.1 hkey, key.property, rfl⟩
  . rintro ⟨key, hk, hcurve, rfl⟩
    exact ⟨⟨key, hcurve⟩, AnyKey.toPublic_eq_ok_iff.2 hk, rfl⟩

theorem title_of_ofKey {k : AnyKey} {e : KeyError} (h : ofKey k p = .error e)
    : e.title = "KeyTypeError" :=
  AnyKey.title_of_toPublic (Outcome.map_eq_error_iff.1 h)

theorem exists_ofKey_eq_error {k : AnyKey} (h : ∀ key, k = .ecPublic key → key.curve ≠ p.curve)
    : ∃ e, ofKey k p = .error e ∧ e.title = "KeyTypeError" := by
  cases hresult : ofKey k p with
  | error e => exact ⟨e, rfl, title_of_ofKey hresult⟩
  | ok j =>
    obtain ⟨key, hk, hcurve, -⟩ := ofKey_eq_ok_iff.1 hresult
    exact absurd hcurve (h key hk)

end Jwk

/-! ### Keys in files -/

namespace Directory

theorem read_eq_of_nodeAt_eq {d d' : Directory} {p : Path} (h : d'.nodeAt p = d.nodeAt p)
    : d'.read p = d.read p := by
  unfold nodeAt at h
  unfold read file
  cases hplace : d.locate p with
  | error e =>
    cases hplace' : d'.locate p with
    | error e' =>
      rw [hplace, hplace'] at h
      cases h
      rfl
    | ok place' =>
      rw [hplace, hplace'] at h
      cases h
  | ok place =>
    cases hplace' : d'.locate p with
    | error e' =>
      rw [hplace, hplace'] at h
      cases h
    | ok place' =>
      rw [hplace, hplace'] at h
      injection h with hnode
      dsimp only [bind, Except.bind]
      rw [hnode]
      split <;> rfl

end Directory

namespace KeyStore

open Directory

variable {disk disk' : Disk} {half : KeyHalf} {base : Text} {p : Profile} {k : AnyKey}
  {mode : Nat} {content : Bytes}

theorem Replacement.nodeAt_half (half : KeyHalf)
    (h : Replacement (jwkPath base) mode content disk (.ok ()) disk')
    : disk'.directory.nodeAt (path half base) = disk.directory.nodeAt (path half base) := by
  obtain ⟨folder, stem, hpaths⟩ := Path.exists_ofText_append base
  have hjwk : jwkPath base = folder.child (stem ++ Text.ofString ".jwk") :=
    hpaths _ (by decide) (by decide)
  have hhalf : path half base = folder.child (half.fileName stem) :=
    hpaths _ half.slash_not_mem_suffix (Nat.le_of_lt half.two_lt_length_suffix)
  have hname : stem ++ Text.ofString ".jwk" ≠ Path.above := by
    intro heq
    have hlength := congrArg List.length heq
    rw [List.length_append] at hlength
    exact absurd hlength (by change stem.length + 4 ≠ 2; omega)
  have hne : half.fileName stem ≠ stem ++ Text.ofString ".jwk" := by
    rw [KeyHalf.fileName, ne_eq, List.append_cancel_left_eq]
    cases half <;> decide
  rw [hjwk] at h
  rw [hhalf]
  cases h with
  | done hpath hfresh hgoal hnode =>
    exact nodeAt_put_sibling hgoal hnode hname KeyHalf.fileName_ne_above hne

theorem IsStored.sound (h : IsStored disk half base content)
    : IsStored (Disk.sound disk.directory) half base content where
  path := h.path
  read := by
    have hread := h.read
    unfold Disk.reading at hread
    rw [Disk.reading_sound]
    cases hfault : disk.fault? 0 with
    | some e =>
      rw [hfault] at hread
      cases hread
    | none =>
      rw [hfault] at hread
      exact hread

theorem loading_sound_of_ok (h : loading half base disk = .ok k)
    : loading half base (Disk.sound disk.directory) = .ok k := by
  obtain ⟨_, hstored, hfile⟩ := loading_eq_ok_iff.1 h
  exact hstored.sound.loading_eq hfile

theorem loading_eq_of_nodeAt_eq {d d' : Directory}
    (h : d'.nodeAt (path half base) = d.nodeAt (path half base))
    : loading half base (Disk.sound d') = loading half base (Disk.sound d) := by
  unfold loading
  rw [Disk.reading_sound, Disk.reading_sound, read_eq_of_nodeAt_eq h]

theorem load_on_of_loading (h : loading half base disk = .ok k) (records : List LogRecord)
    : ∃ left, (load half base).on records disk
        =
      ((.ok k, left), ⟨disk.directory, disk.faults.tail⟩) := by
  obtain ⟨_, hstored, hfile⟩ := loading_eq_ok_iff.1 h
  unfold load checkPath
  dsimp only
  rw [hstored.path, Task.on_bind, Task.on_pure]
  dsimp only
  rw [Task.on_bind, Task.on_lift, Disk.read_eq, hstored.read]
  dsimp only
  rw [hfile]
  exact ⟨_, rfl⟩

theorem loading_of_loadPublic {key : { k : PublicKey // k.curve = p.curve }}
    (h : (loadPublic base p).outcome disk = .ok key)
    : loading .publicHalf base disk = .ok (.ecPublic key.val) := by
  rw [loadPublic_yields.outcome_eq, loadingPublic] at h
  cases hloading : loading .publicHalf base disk with
  | error e =>
    rw [hloading] at h
    cases h
  | ok k =>
    rw [hloading] at h
    rw [AnyKey.toPublic_eq_ok_iff.1 (Outcome.mapError_eq_ok_iff.1 h)]

theorem isOnCurve_of_loadPublic {key : { k : PublicKey // k.curve = p.curve }}
    (h : (loadPublic base p).outcome disk = .ok key) : key.val.IsOnCurve := by
  cases isHalf_of_loading (loading_of_loadPublic h) with
  | ecPublic honCurve => exact honCurve

theorem loadPublic_outcome_of_ofKey {e : KeyError} (h : loading .publicHalf base disk = .ok k)
    (he : Jwk.ofKey k p = .error e) : (loadPublic base p).outcome disk = .error (keyFailure e) := by
  rw [loadPublic_yields.outcome_eq, loadingPublic, h]
  dsimp only [Except.bind]
  rw [Outcome.map_eq_error_iff.1 he]
  rfl

theorem pathFault?_jwkPath_of_loading (h : loading half base disk = .ok k)
    : pathFault? (jwkPath base) = none := by
  obtain ⟨_, hstored, -⟩ := loading_eq_ok_iff.1 h
  exact pathFault?_jwkPath_eq_none_iff.2 (pathFault?_path_eq_none_iff.1 hstored.path)

/-! ### Writing -/

namespace Replacement

theorem eq_ok {target : Path} {d : Directory} {result : Except Failure Unit}
    (h : Replacement target mode content (Disk.sound d) result disk') (hpath : pathFault? target = none)
    (hfresh : ∃ made, d.createBeside target = .ok made) (haccepts : d.Accepts target)
    : result = .ok () := by
  cases h with
  | done => rfl
  | refused hpath' =>
    rw [hpath] at hpath'
    cases hpath'
  | failed hpath' hcause =>
    obtain ⟨j, hj, hfault⟩ := hcause hfresh haccepts
    cases hfault

theorem loadPublic_outcome {left : List (Option FileError)} {key : { k : PublicKey // k.curve = p.curve }}
    (h : Replacement (jwkPath base) mode content ⟨disk.directory, left⟩ (.ok ()) disk')
    (hload : (loadPublic base p).outcome disk = .ok key)
    : (loadPublic base p).outcome (Disk.sound disk'.directory) = .ok key := by
  have hloading := loading_sound_of_ok (loading_of_loadPublic hload)
  rw [← loading_eq_of_nodeAt_eq (h.nodeAt_half .publicHalf)] at hloading
  exact loadPublic_outcome_of_loading hloading key.property

end Replacement

theorem writeJwk_of_loadPublic {key : { k : PublicKey // k.curve = p.curve }}
    (h : (loadPublic base p).outcome disk = .ok key)
    : ∃ result records disk',
        (writeJwk base p : Task (StateM Disk) Path).perform disk
          = ((result.map fun _ => jwkPath base, records), disk') ∧
        Replacement (jwkPath base) KeyHalf.publicHalf.mode
          (Utf8.encodeAny (Jwk.ofPublic p key.val).render) ⟨disk.directory, disk.faults.tail⟩ result
          disk' := by
  obtain ⟨left, hload⟩ := load_on_of_loading (loading_of_loadPublic h) []
  have hjwk : (loadJwk base p).on [] disk
      = ((.ok (Jwk.ofPublic p key.val), left), ⟨disk.directory, disk.faults.tail⟩) := by
    unfold loadJwk loadPublic
    rw [Task.on_bind, Task.on_bind, hload]
    dsimp only
    rw [AnyKey.toPublic_eq_ok_iff.2 rfl]
    rfl
  obtain ⟨result, disk', hreplace, hreplacement⟩ := replaceFile_cases (jwkPath base)
    KeyHalf.publicHalf.mode (Utf8.encodeAny (Jwk.ofPublic p key.val).render) left
    ⟨disk.directory, disk.faults.tail⟩
  refine ⟨result, left, disk', ?_, hreplacement⟩
  change (writeJwk base p).on [] disk = _
  unfold writeJwk
  rw [Task.on_bind, hjwk]
  dsimp only
  rw [Task.on_bind, hreplace]
  cases result with
  | error e => rfl
  | ok _ => rfl

end KeyStore

end SignedToken
