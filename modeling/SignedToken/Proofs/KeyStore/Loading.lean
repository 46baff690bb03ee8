import SignedToken.KeyStore
import SignedToken.Proofs.Directory.Steps

/-!
This module contains what loading a key comes to on a disk. No load makes or changes a file, whether
it ends with a key or not.
-/

namespace SignedToken

namespace KeyStore

variable {disk : Disk} {half : KeyHalf} {base : Text} {p : Profile}

def loading (half : KeyHalf) (base : Text) (disk : Disk) : Except Failure AnyKey :=
  match pathFault? (path half base) with
  | some cause => .error (.unknown cause)
  | none =>
    match disk.reading (path half base) with
    | .error e => .error (.known (.key (.unreadable (path half base) e)))
    | .ok content =>
      match half.ofFile? content with
      | none => .error (.known (.key (.undecodable half (path half base))))
      | some k => .ok k

theorem load_yields : (load half base).Yields disk (loading half base disk) := by
  intro records
  unfold load checkPath loading
  dsimp only
  cases pathFault? (path half base) with
  | some cause =>
    rw [Task.on_bind, Task.on_throw]
    exact ⟨_, _, rfl⟩
  | none =>
    rw [Task.on_bind, Task.on_pure]
    dsimp only
    rw [Task.on_bind, Task.on_lift, Disk.read_eq]
    cases disk.reading (path half base) with
    | error e => exact ⟨_, _, rfl⟩
    | ok content =>
      dsimp only
      cases half.ofFile? content with
      | none => exact ⟨_, _, rfl⟩
      | some k => exact ⟨_, _, rfl⟩

structure IsStored (disk : Disk) (half : KeyHalf) (base : Text) (content : Bytes) : Prop where
  path : pathFault? (KeyStore.path half base) = none
  read : disk.reading (KeyStore.path half base) = .ok content

theorem loading_eq_ok_iff {k : AnyKey}
    : loading half base disk = .ok k
        ↔
      ∃ content, IsStored disk half base content ∧ half.ofFile? content = some k := by
  constructor
  . intro h
    unfold loading at h
    split at h
    . cases h
    . next hpath =>
      split at h
      . cases h
      . next content hread =>
        split at h
        . cases h
        . next hfile =>
          cases h
          exact ⟨content, ⟨hpath, hread⟩, hfile⟩
  . rintro ⟨content, ⟨hpath, hread⟩, hfile⟩
    rw [loading, hpath, hread]
    dsimp only
    rw [hfile]

theorem IsStored.loading_eq {content : Bytes} {k : AnyKey} (h : IsStored disk half base content)
    (hfile : half.ofFile? content = some k) : loading half base disk = .ok k :=
  loading_eq_ok_iff.2 ⟨content, h, hfile⟩

def keyFailure (e : KeyError) : Failure :=
  .known (.key e)

def loadingPrivate (base : Text) (p : Profile) (disk : Disk)
    : Except Failure { k : PrivateKey // k.curve = p.curve } :=
  (loading .privateHalf base disk).bind fun k => (k.toPrivate p).mapError keyFailure

def loadingPublic (base : Text) (p : Profile) (disk : Disk)
    : Except Failure { k : PublicKey // k.curve = p.curve } :=
  (loading .publicHalf base disk).bind fun k => (k.toPublic p).mapError keyFailure

theorem loadPrivate_yields : (loadPrivate base p).Yields disk (loadingPrivate base p disk) :=
  load_yields.bind fun _ _ => Task.yields_ofKeyExcept _

theorem loadPublic_yields : (loadPublic base p).Yields disk (loadingPublic base p disk) :=
  load_yields.bind fun _ _ => Task.yields_ofKeyExcept _

theorem loadPrivate_outcome_of_loading {k : PrivateKey}
    (h : loading .privateHalf base disk = .ok (.ecPrivate k)) (hcurve : k.curve = p.curve)
    : (loadPrivate base p).outcome disk = .ok ⟨k, hcurve⟩ := by
  rw [loadPrivate_yields.outcome_eq, loadingPrivate, h]
  dsimp only [Except.bind]
  rw [AnyKey.toPrivate, dif_pos hcurve]
  rfl

theorem loadPublic_outcome_of_loading {k : PublicKey}
    (h : loading .publicHalf base disk = .ok (.ecPublic k)) (hcurve : k.curve = p.curve)
    : (loadPublic base p).outcome disk = .ok ⟨k, hcurve⟩ := by
  rw [loadPublic_yields.outcome_eq, loadingPublic, h]
  dsimp only [Except.bind]
  rw [AnyKey.toPublic, dif_pos hcurve]
  rfl

theorem loadSigner_yields
    : (loadSigner base p).Yields disk ((loadingPrivate base p disk).map (Signer.ofPrivate p)) :=
  loadPrivate_yields.bind fun k _ => Task.yields_pure (Signer.ofPrivate p k)

theorem loadVerifier_yields
    : (loadVerifier base p).Yields disk ((loadingPublic base p disk).map (Verifier.ofPublic p)) :=
  loadPublic_yields.bind fun k _ => Task.yields_pure (Verifier.ofPublic p k)

theorem loadJwk_yields
    : (loadJwk base p).Yields disk
        ((loadingPublic base p disk).map fun k => Jwk.ofPublic p k.val) :=
  loadPublic_yields.bind fun k _ => Task.yields_pure (Jwk.ofPublic p k.val)

end KeyStore

end SignedToken
