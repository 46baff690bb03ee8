import SignedToken.Key.File
import SignedToken.Proofs.Key.Ec

/-!
This module contains what can be read from key files: a key of the half that the file is for, with a
secret in the range of its curve or a point on it, or a key of a kind that is of no use here.
-/

namespace SignedToken

namespace PrivateKey

theorem inRange_of_ofParts? {c : Curve} {secret : Bytes} {point : Option Bytes} {k : PrivateKey}
    (h : ofParts? c secret point = some k) : k.inRange = true := by
  unfold ofParts? at h
  dsimp only at h
  split at h
  . next hfit =>
    split at h
    . cases h
      exact hfit.2
    . split at h
      . cases h
        exact hfit.2
      . cases h
  . cases h

theorem inRange_of_ofOctets? {outer : Option Der.Element} {b : Bytes} {k : PrivateKey}
    (h : ofOctets? outer b = some k) : k.inRange = true := by
  unfold ofOctets? at h
  simp only [Option.bind_eq_bind, Option.bind_eq_some_iff] at h
  obtain ⟨parts, -, h⟩ := h
  split at h
  . rw [Option.bind_eq_some_iff] at h
    obtain ⟨optional, -, h⟩ := h
    simp only [Option.bind_eq_some_iff] at h
    obtain ⟨parameter, -, c, -, h⟩ := h
    split at h
    . exact inRange_of_ofParts? h
    . cases h
  . cases h

end PrivateKey

theorem PublicKey.isOnCurve_of_ofOctets? {c : Curve} {b : Bytes} {k : PublicKey}
    (h : ofOctets? c b = some k) : k.IsOnCurve := by
  obtain ⟨point, -, hpoint⟩ := Option.bind_eq_some_iff.1 h
  unfold ofPoint? at hpoint
  split at hpoint
  . cases hpoint
  . split at hpoint
    . next hcontains =>
      cases hpoint
      exact hcontains
    . cases hpoint

namespace AnyKey

/--
The keys that there may be in the file of one half of a pair. A point is on its curve, and a secret
is in the range of its curve.
-/
inductive IsHalf : KeyHalf → AnyKey → Prop where
  | ecPrivate {k : PrivateKey} (h : k.inRange = true) : IsHalf .privateHalf (.ecPrivate k)
  | ecPublic {k : PublicKey} (h : k.IsOnCurve) : IsHalf .publicHalf (.ecPublic k)
  | other (half : KeyHalf) (kind : String) : IsHalf half (.other kind)

variable {b : Bytes} {k : AnyKey}

theorem isHalf_of_map_other {half : KeyHalf} {kind : Option String} (h : kind.map other = some k)
    : k.IsHalf half := by
  obtain ⟨kind, -, rfl⟩ := Option.map_eq_some_iff.1 h
  exact .other half kind

theorem isHalf_of_ofSec1? (h : ofSec1? b = some k) : k.IsHalf .privateHalf := by
  obtain ⟨k, hk, rfl⟩ := Option.map_eq_some_iff.1 h
  exact .ecPrivate (PrivateKey.inRange_of_ofOctets? hk)

theorem isHalf_of_ofPkcs8? (h : ofPkcs8? b = some k) : k.IsHalf .privateHalf := by
  unfold ofPkcs8? at h
  simp only [Option.bind_eq_bind, Option.bind_eq_some_iff] at h
  obtain ⟨parts, -, h⟩ := h
  split at h
  . simp only [Option.bind_eq_some_iff] at h
    obtain ⟨name, -, h⟩ := h
    split at h
    . split at h
      . rw [Option.bind_eq_some_iff] at h
        obtain ⟨outer, -, h⟩ := h
        obtain ⟨k, hk, rfl⟩ := Option.map_eq_some_iff.1 h
        exact .ecPrivate (PrivateKey.inRange_of_ofOctets? hk)
      . exact isHalf_of_map_other h
    . cases h
  . cases h

theorem isHalf_of_ofSpki? (h : ofSpki? b = some k) : k.IsHalf .publicHalf := by
  unfold ofSpki? at h
  simp only [Option.bind_eq_bind, Option.bind_eq_some_iff] at h
  obtain ⟨parts, -, h⟩ := h
  split at h
  . simp only [Option.bind_eq_some_iff] at h
    obtain ⟨name, -, h⟩ := h
    split at h
    . rw [Option.bind_eq_some_iff] at h
      obtain ⟨octets, -, h⟩ := h
      split at h
      . simp only [Option.bind_eq_some_iff] at h
        obtain ⟨parameter, -, c, -, h⟩ := h
        obtain ⟨k, hk, rfl⟩ := Option.map_eq_some_iff.1 h
        exact .ecPublic (PublicKey.isOnCurve_of_ofOctets? hk)
      . exact isHalf_of_map_other h
    . cases h
  . cases h

theorem isHalf_of_ofPrivateArmour? (h : ofPrivateArmour? b = some k) : k.IsHalf .privateHalf := by
  unfold ofPrivateArmour? at h
  simp only [Option.bind_eq_bind, Option.bind_eq_some_iff] at h
  obtain ⟨blocks, -, block, -, h⟩ := h
  split at h
  . cases h
  . split at h
    . exact isHalf_of_ofPkcs8? h
    . split at h
      . exact isHalf_of_ofSec1? h
      . split at h
        . exact isHalf_of_map_other h
        . split at h
          . exact isHalf_of_map_other h
          . cases h

theorem isHalf_of_ofPublicArmour? (h : ofPublicArmour? b = some k) : k.IsHalf .publicHalf := by
  unfold ofPublicArmour? at h
  simp only [Option.bind_eq_bind, Option.bind_eq_some_iff] at h
  obtain ⟨block, -, h⟩ := h
  split at h
  . exact isHalf_of_ofSpki? h
  . split at h
    . exact isHalf_of_map_other h
    . cases h

theorem isHalf_of_ofPrivateFile? (h : ofPrivateFile? b = some k) : k.IsHalf .privateHalf := by
  unfold ofPrivateFile? at h
  split at h
  . exact isHalf_of_ofPrivateArmour? h
  . simp only [Option.orElse_eq_orElse, Option.orElse_eq_or, Option.or_eq_some_iff] at h
    obtain hpkcs8 | ⟨-, hsec1 | ⟨-, hrsa | ⟨-, hdsa⟩⟩⟩ := h
    . exact isHalf_of_ofPkcs8? hpkcs8
    . exact isHalf_of_ofSec1? hsec1
    . exact isHalf_of_map_other hrsa
    . exact isHalf_of_map_other hdsa

theorem isHalf_of_ofPublicFile? (h : ofPublicFile? b = some k) : k.IsHalf .publicHalf := by
  unfold ofPublicFile? at h
  split at h
  . exact isHalf_of_ofPublicArmour? h
  . simp only [Option.orElse_eq_orElse, Option.orElse_eq_or, Option.or_eq_some_iff] at h
    obtain hspki | ⟨-, hrsa⟩ := h
    . exact isHalf_of_ofSpki? hspki
    . exact isHalf_of_map_other hrsa

end AnyKey

end SignedToken
