import SignedToken.Proofs.Curve.Ecdsa
import SignedToken.Proofs.Key.Contents
import SignedToken.Proofs.KeyStore.Loading
import SignedToken.Proofs.Outcome

/-!
This module contains that a key file serves one profile at most. What a file holds is read without a
look at the profile; only then a single gate decides, so files that cannot be loaded fail alike under
all profiles, and no signer or verifier comes by a key of another curve or of the other half.
-/

namespace SignedToken

/-! ### The gate -/

namespace AnyKey

variable {k : AnyKey} {p : Profile}

def curve? : AnyKey → Option Curve
  | ecPrivate k => some k.curve
  | ecPublic k => some k.curve
  | other _ => none

theorem title_of_toPrivate {e : KeyError}
    (h : k.toPrivate p = .error e) : e.title = "KeyTypeError" := by
  unfold toPrivate at h
  split at h
  . split at h
    . cases h
    . cases h
      rfl
  . cases h
    rfl

theorem title_of_toPublic {e : KeyError}
    (h : k.toPublic p = .error e) : e.title = "KeyTypeError" := by
  unfold toPublic at h
  split at h
  . split at h
    . cases h
    . cases h
      rfl
  . cases h
    rfl

theorem toPrivate_eq_ok_iff {key : { k : PrivateKey // k.curve = p.curve }}
    : k.toPrivate p = .ok key ↔ k = .ecPrivate key.val := by
  constructor
  . intro h
    unfold toPrivate at h
    split at h
    . split at h
      . cases h
        rfl
      . cases h
    . cases h
  . rintro rfl
    exact dif_pos key.property

theorem toPublic_eq_ok_iff {key : { k : PublicKey // k.curve = p.curve }}
    : k.toPublic p = .ok key ↔ k = .ecPublic key.val := by
  constructor
  . intro h
    unfold toPublic at h
    split at h
    . split at h
      . cases h
        rfl
      . cases h
    . cases h
  . rintro rfl
    exact dif_pos key.property

def gate (half : KeyHalf) (p : Profile) (k : AnyKey) : Except KeyError AnyKey :=
  match half with
  | .privateHalf => (k.toPrivate p).map fun k => .ecPrivate k.val
  | .publicHalf => (k.toPublic p).map fun k => .ecPublic k.val

theorem title_of_gate {half : KeyHalf} {e : KeyError} (h : k.gate half p = .error e)
    : e.title = "KeyTypeError" := by
  cases half with
  | privateHalf => exact title_of_toPrivate (Outcome.map_eq_error_iff.1 h)
  | publicHalf => exact title_of_toPublic (Outcome.map_eq_error_iff.1 h)

theorem gate_eq_ok_iff {half : KeyHalf} {k' : AnyKey} (h : k.IsHalf half)
    : k.gate half p = .ok k' ↔ k = k' ∧ k.curve? = some p.curve := by
  cases h with
  | ecPrivate hk =>
    simp only [gate, Outcome.map_eq_ok_iff, toPrivate_eq_ok_iff, ecPrivate.injEq, curve?,
      Option.some_inj]
    constructor
    . rintro ⟨key, rfl, rfl⟩
      exact ⟨rfl, key.property⟩
    . rintro ⟨rfl, hcurve⟩
      exact ⟨⟨_, hcurve⟩, rfl, rfl⟩
  | ecPublic hk =>
    simp only [gate, Outcome.map_eq_ok_iff, toPublic_eq_ok_iff, ecPublic.injEq, curve?,
      Option.some_inj]
    constructor
    . rintro ⟨key, rfl, rfl⟩
      exact ⟨rfl, key.property⟩
    . rintro ⟨rfl, hcurve⟩
      exact ⟨⟨_, hcurve⟩, rfl, rfl⟩
  | other half kind => cases half <;> exact iff_of_false nofun nofun

end AnyKey

/-! ### Loading -/

namespace KeyStore

variable {disk : Disk} {half : KeyHalf} {base : Text} {p q : Profile} {k : AnyKey}

def loadedUnder (p : Profile) (half : KeyHalf) (base : Text) (disk : Disk) : Except Failure AnyKey :=
  match half with
  | .privateHalf => ((loadPrivate base p).outcome disk).map fun k => .ecPrivate k.val
  | .publicHalf => ((loadPublic base p).outcome disk).map fun k => .ecPublic k.val

def IsMistyped (result : Except Failure AnyKey) : Prop :=
  ∃ e, result = .error (keyFailure e) ∧ e.title = "KeyTypeError"

theorem loadedUnder_eq
    : loadedUnder p half base disk
        =
      (loading half base disk).bind fun k => (k.gate half p).mapError keyFailure := by
  cases half with
  | privateHalf =>
    rw [loadedUnder, loadPrivate_yields.outcome_eq, loadingPrivate]
    cases loading .privateHalf base disk with
    | error e => rfl
    | ok k => exact Outcome.map_mapError _ _ _
  | publicHalf =>
    rw [loadedUnder, loadPublic_yields.outcome_eq, loadingPublic]
    cases loading .publicHalf base disk with
    | error e => rfl
    | ok k => exact Outcome.map_mapError _ _ _

theorem isHalf_of_ofFile? {content : Bytes} (h : half.ofFile? content = some k) : k.IsHalf half := by
  cases half with
  | privateHalf => exact AnyKey.isHalf_of_ofPrivateFile? h
  | publicHalf => exact AnyKey.isHalf_of_ofPublicFile? h

theorem isHalf_of_loading (h : loading half base disk = .ok k) : k.IsHalf half := by
  obtain ⟨_, -, hfile⟩ := loading_eq_ok_iff.1 h
  exact isHalf_of_ofFile? hfile

theorem loadedUnder_of_error {e : Failure} (h : loading half base disk = .error e)
    : loadedUnder p half base disk = .error e := by
  rw [loadedUnder_eq, h]
  rfl

theorem loadedUnder_of_ok (h : loading half base disk = .ok k)
    : loadedUnder p half base disk = (k.gate half p).mapError keyFailure := by
  rw [loadedUnder_eq, h]
  rfl

theorem loadedUnder_eq_ok_iff {k' : AnyKey} (h : loading half base disk = .ok k)
    : loadedUnder p half base disk = .ok k' ↔ k = k' ∧ k.curve? = some p.curve := by
  rw [loadedUnder_of_ok h, Outcome.mapError_eq_ok_iff, AnyKey.gate_eq_ok_iff (isHalf_of_loading h)]

theorem title_of_loadedUnder {e : KeyError} (h : loading half base disk = .ok k)
    (hload : loadedUnder p half base disk = .error (keyFailure e)) : e.title = "KeyTypeError" := by
  rw [loadedUnder_of_ok h] at hload
  cases hgate : k.gate half p with
  | ok k' =>
    rw [hgate] at hload
    cases hload
  | error e' =>
    rw [hgate] at hload
    cases hload
    exact AnyKey.title_of_gate hgate

theorem isMistyped_of_ne (h : loading half base disk = .ok k) (hcurve : k.curve? ≠ some p.curve)
    : IsMistyped (loadedUnder p half base disk) := by
  cases hgate : k.gate half p with
  | ok k' => exact absurd ((AnyKey.gate_eq_ok_iff (isHalf_of_loading h)).1 hgate).2 hcurve
  | error e =>
    rw [loadedUnder_of_ok h, hgate]
    exact ⟨e, rfl, AnyKey.title_of_gate hgate⟩

structure ServesOneProfile (half : KeyHalf) (base : Text) (disk : Disk) : Prop where
  loaded : ∀ p k, loadedUnder p half base disk = .ok k →
    k.IsHalf half ∧ k.curve? = some p.curve ∧
      ∀ q, q ≠ p → IsMistyped (loadedUnder q half base disk)
  unloaded : ∀ p e, loadedUnder p half base disk = .error (keyFailure e) → e.title = "KeyLoadError" →
    ∀ q, loadedUnder q half base disk = .error (keyFailure e)
  useless : ∀ content k, pathFault? (path half base) = none →
    disk.reading (path half base) = .ok content → half.ofFile? content = some k →
    (∀ p : Profile, k.curve? ≠ some p.curve) → ∀ p, IsMistyped (loadedUnder p half base disk)

theorem servesOneProfile (half : KeyHalf) (base : Text) (disk : Disk)
    : ServesOneProfile half base disk where
  loaded := by
    intro p k hload
    cases hloading : loading half base disk with
    | error e =>
      rw [loadedUnder_of_error hloading] at hload
      cases hload
    | ok k' =>
      obtain ⟨rfl, hcurve⟩ := (loadedUnder_eq_ok_iff hloading).1 hload
      refine ⟨isHalf_of_loading hloading, hcurve, ?_⟩
      intro q hq
      apply isMistyped_of_ne hloading
      rw [hcurve, ne_eq, Option.some_inj]
      exact fun heq => hq (Profile.curve_inj heq.symm)
  unloaded := by
    intro p e hload htitle q
    cases hloading : loading half base disk with
    | error e' =>
      rw [loadedUnder_of_error hloading] at hload ⊢
      exact hload
    | ok k =>
      rw [title_of_loadedUnder hloading hload] at htitle
      exact absurd htitle (by decide)
  useless := by
    intro content k hpath hread hfile hcurve p
    have hstored : IsStored disk half base content := ⟨hpath, hread⟩
    exact isMistyped_of_ne (hstored.loading_eq hfile) (hcurve p)

end KeyStore

/-! ### Signers and verifiers -/

theorem Signer.ofKey_eq_ok_iff {k : AnyKey} {p : Profile} {s : Signer}
    : Signer.ofKey k p = .ok s ↔ s.profile = p ∧ k = .ecPrivate s.key := by
  rw [ofKey, Outcome.map_eq_ok_iff]
  constructor
  . rintro ⟨key, hkey, rfl⟩
    exact ⟨rfl, AnyKey.toPrivate_eq_ok_iff.1 hkey⟩
  . rintro ⟨rfl, hk⟩
    exact ⟨⟨s.key, s.onCurve⟩, AnyKey.toPrivate_eq_ok_iff.2 hk, rfl⟩

theorem Verifier.ofKey_eq_ok_iff {k : AnyKey} {p : Profile} {v : Verifier}
    : Verifier.ofKey k p = .ok v ↔ v.profile = p ∧ k = .ecPublic v.key := by
  rw [ofKey, Outcome.map_eq_ok_iff]
  constructor
  . rintro ⟨key, hkey, rfl⟩
    exact ⟨rfl, AnyKey.toPublic_eq_ok_iff.1 hkey⟩
  . rintro ⟨rfl, hk⟩
    exact ⟨⟨v.key, v.onCurve⟩, AnyKey.toPublic_eq_ok_iff.2 hk, rfl⟩

namespace KeyStore

theorem loadSigner_outcome_eq_ok {s : Signer} (h : (loadSigner base p).outcome disk = .ok s)
    : s.profile = p ∧ loadedUnder p .privateHalf base disk = .ok (.ecPrivate s.key) := by
  rw [loadSigner_yields.outcome_eq] at h
  rw [loadedUnder, loadPrivate_yields.outcome_eq]
  obtain ⟨key, hkey, rfl⟩ := Outcome.map_eq_ok_iff.1 h
  rw [hkey]
  exact ⟨rfl, rfl⟩

theorem loadVerifier_outcome_eq_ok {v : Verifier} (h : (loadVerifier base p).outcome disk = .ok v)
    : v.profile = p ∧ loadedUnder p .publicHalf base disk = .ok (.ecPublic v.key) := by
  rw [loadVerifier_yields.outcome_eq] at h
  rw [loadedUnder, loadPublic_yields.outcome_eq]
  obtain ⟨key, hkey, rfl⟩ := Outcome.map_eq_ok_iff.1 h
  rw [hkey]
  exact ⟨rfl, rfl⟩

/--
A key file serves one profile at most, and what goes wrong goes wrong alike under all of them. A
signer or a verifier has a key of the right half and on the curve of its profile, whether the key was
handed in or comes from a file; every other key that is handed in is of the wrong type.
-/
theorem loads_under_one_profile (disk : Disk) (base : Text)
    : (∀ half, ServesOneProfile half base disk) ∧
      (∀ k p,
        (∀ s, Signer.ofKey k p = .ok s ↔
          s.profile = p ∧ k = .ecPrivate s.key ∧ s.key.curve = p.curve) ∧
        (∀ e, Signer.ofKey k p = .error e → e.title = "KeyTypeError") ∧
        (∀ v, Verifier.ofKey k p = .ok v ↔
          v.profile = p ∧ k = .ecPublic v.key ∧ v.key.curve = p.curve) ∧
        ∀ e, Verifier.ofKey k p = .error e → e.title = "KeyTypeError") ∧
      ∀ p,
        (∀ s, (loadSigner base p).outcome disk = .ok s →
          s.profile = p ∧ s.key.curve = p.curve ∧
            loadedUnder p .privateHalf base disk = .ok (.ecPrivate s.key)) ∧
        ∀ v, (loadVerifier base p).outcome disk = .ok v →
          v.profile = p ∧ v.key.curve = p.curve ∧
            loadedUnder p .publicHalf base disk = .ok (.ecPublic v.key) := by
  refine ⟨fun half => servesOneProfile half base disk, fun k p => ⟨?_, ?_, ?_, ?_⟩, fun p => ⟨?_, ?_⟩⟩
  . intro s
    rw [Signer.ofKey_eq_ok_iff]
    constructor
    . rintro ⟨rfl, hk⟩
      exact ⟨rfl, hk, s.onCurve⟩
    . rintro ⟨hp, hk, -⟩
      exact ⟨hp, hk⟩
  . intro e h
    exact AnyKey.title_of_toPrivate (Outcome.map_eq_error_iff.1 h)
  . intro v
    rw [Verifier.ofKey_eq_ok_iff]
    constructor
    . rintro ⟨rfl, hk⟩
      exact ⟨rfl, hk, v.onCurve⟩
    . rintro ⟨hp, hk, -⟩
      exact ⟨hp, hk⟩
  . intro e h
    exact AnyKey.title_of_toPublic (Outcome.map_eq_error_iff.1 h)
  . intro s h
    obtain ⟨rfl, hload⟩ := loadSigner_outcome_eq_ok h
    exact ⟨rfl, s.onCurve, hload⟩
  . intro v h
    obtain ⟨rfl, hload⟩ := loadVerifier_outcome_eq_ok h
    exact ⟨rfl, v.onCurve, hload⟩

end KeyStore

end SignedToken
