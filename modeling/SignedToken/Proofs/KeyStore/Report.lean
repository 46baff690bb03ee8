import SignedToken.Proofs.Error
import SignedToken.Proofs.KeyStore.Effects

/-!
This module contains which failures of key files are reported as such. All are, whatever the files are
like and whichever steps on them fail, as long as there can be files with such names at all.
-/

namespace SignedToken

namespace KeyStore

open Outcome

variable {half : KeyHalf} {base : Text} {p : Profile} {secret : Option Nat} {disk disk' : Disk}

/-! ### Loading -/

theorem isUnknown_loading_iff
    : IsUnknown (loading half base disk) ↔ ¬ ∀ c ∈ base, Path.IsNameable c := by
  rw [← pathFault?_path_eq_none_iff, loading]
  cases pathFault? (path half base) with
  | some cause => exact iff_of_true ⟨cause, rfl⟩ (Option.some_ne_none cause)
  | none =>
    apply iff_of_false _ fun h => h rfl
    cases disk.reading (path half base) with
    | error e => exact not_isUnknown_known _
    | ok content =>
      dsimp only
      cases half.ofFile? content with
      | none => exact not_isUnknown_known _
      | some k => exact not_isUnknown_ok k

theorem isUnknown_loadingPrivate_iff
    : IsUnknown (loadingPrivate base p disk) ↔ ¬ ∀ c ∈ base, Path.IsNameable c := by
  rw [loadingPrivate, isUnknown_bind_iff, isUnknown_loading_iff]
  apply or_iff_left
  rintro ⟨k, -, h⟩
  exact not_isUnknown_mapError _ h

theorem isUnknown_loadingPublic_iff
    : IsUnknown (loadingPublic base p disk) ↔ ¬ ∀ c ∈ base, Path.IsNameable c := by
  rw [loadingPublic, isUnknown_bind_iff, isUnknown_loading_iff]
  apply or_iff_left
  rintro ⟨k, -, h⟩
  exact not_isUnknown_mapError _ h

theorem isUnknown_loadSigner_iff
    : IsUnknown ((loadSigner base p).outcome disk) ↔ ¬ ∀ c ∈ base, Path.IsNameable c := by
  rw [loadSigner_yields.outcome_eq, isUnknown_map_iff, isUnknown_loadingPrivate_iff]

theorem isUnknown_loadVerifier_iff
    : IsUnknown ((loadVerifier base p).outcome disk) ↔ ¬ ∀ c ∈ base, Path.IsNameable c := by
  rw [loadVerifier_yields.outcome_eq, isUnknown_map_iff, isUnknown_loadingPublic_iff]

theorem isUnknown_loadJwk_iff
    : IsUnknown ((loadJwk base p).outcome disk) ↔ ¬ ∀ c ∈ base, Path.IsNameable c := by
  rw [loadJwk_yields.outcome_eq, isUnknown_map_iff, isUnknown_loadingPublic_iff]

/-! ### Writing -/

theorem Replacement.isUnknown_iff {target : Path} {mode : Nat} {content : Bytes}
    {outcome : Except Failure Unit} (h : Replacement target mode content disk outcome disk')
    : IsUnknown outcome ↔ pathFault? target ≠ none := by
  cases h with
  | done hpath hfresh hgoal hnode => exact iff_of_false (not_isUnknown_ok ()) fun hne => hne hpath
  | refused hpath =>
    rw [hpath]
    exact iff_of_true ⟨_, rfl⟩ nofun
  | failed hpath hcause => exact iff_of_false (not_isUnknown_known _) fun hne => hne hpath

theorem Generation.isNameable (h : Generation secret base p disk (.ok ()) disk')
    : ∀ c ∈ base, Path.IsNameable c := by
  cases h with
  | done hkey hprivate hpublic => exact pathFault?_path_eq_none_iff.1 hprivate.pathFault?_of_ok

theorem Generation.isUnknown_iff {outcome : Except Failure Unit}
    (h : Generation secret base p disk outcome disk')
    : IsUnknown outcome
        ↔
      (newKey? secret p).isSome = true ∧ ¬ ∀ c ∈ base, Path.IsNameable c := by
  cases h with
  | keyFailed hkey =>
    rw [hkey]
    exact iff_of_false (not_isUnknown_known _) fun hkey => nomatch hkey.1
  | privateFailed hkey hprivate =>
    rw [hprivate.isUnknown_iff, hkey, ne_eq, pathFault?_path_eq_none_iff]
    exact (and_iff_right rfl).symm
  | publicFailed hkey hprivate hpublic =>
    rw [hpublic.isUnknown_iff, hkey, ne_eq, pathFault?_path_eq_none_iff]
    exact (and_iff_right rfl).symm
  | done hkey hprivate hpublic =>
    apply iff_of_false (not_isUnknown_ok ())
    exact fun h => h.2 (pathFault?_path_eq_none_iff.1 hprivate.pathFault?_of_ok)

theorem isUnknown_writeJwk_iff (records : List LogRecord)
    : IsUnknown ((writeJwk base p).on records disk).1.1 ↔ ¬ ∀ c ∈ base, Path.IsNameable c := by
  obtain ⟨outcome, records', disk', hon, hcases⟩ := writeJwk_cases base p records disk
  rw [hon]
  obtain ⟨e, hload, rfl, -⟩ | ⟨jwk, left, result, -, hreplacement, rfl⟩ := hcases
  . rw [isUnknown_error_iff, ← @isUnknown_loadJwk_iff base p disk, hload, isUnknown_error_iff]
  . rw [isUnknown_map_iff, hreplacement.isUnknown_iff, ne_eq, pathFault?_jwkPath_eq_none_iff]

end KeyStore

end SignedToken
