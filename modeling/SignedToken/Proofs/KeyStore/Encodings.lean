import SignedToken.Proofs.Key.Encodings
import SignedToken.Proofs.KeyStore.Loading

/-!
This module contains that all encodings of a key load as that key, for every profile and every secret in
the range of its curve. Every such secret has a point, so both halves of a pair can be written.
-/

namespace SignedToken.KeyStore

variable {p : Profile} {armoured : Bool} {content : Bytes} {disk : Disk} {base : Text}

theorem exists_loadPrivate_of_inFile {k : PrivateKey} (hcurve : k.curve = p.curve)
    (hsound : k.isSound = true) (hfile : k.InFile armoured content)
    (hstored : IsStored disk .privateHalf base content)
    : ∃ key, (loadPrivate base p).outcome disk = .ok key ∧ key.val = k := by
  have hloading : loading .privateHalf base disk = .ok (.ecPrivate k) :=
    hstored.loading_eq (hfile.ofPrivateFile?_eq hcurve hsound)
  exact ⟨_, loadPrivate_outcome_of_loading hloading hcurve, rfl⟩

theorem exists_loadPublic_of_inFile {k : PublicKey} (hcurve : k.curve = p.curve)
    (h : k.IsOnCurve) (hfile : k.InFile armoured content)
    (hstored : IsStored disk .publicHalf base content)
    : ∃ key, (loadPublic base p).outcome disk = .ok key ∧ key.val = k := by
  have hloading : loading .publicHalf base disk = .ok (.ecPublic k) :=
    hstored.loading_eq (hfile.ofPublicFile?_eq hcurve h)
  exact ⟨_, loadPublic_outcome_of_loading hloading hcurve, rfl⟩

/--
All encodings of a key load as that key. The private half is the secret, and the public half its point,
which is never the one at infinity. No structure is sent to the reader of armour, and no armour to the
reader of structures.
-/
theorem load_encodings (p : Profile) {d : Nat} (hpos : 1 ≤ d) (hlt : d < p.curve.params.n)
    : (∀ armoured content, (PrivateKey.mk p.curve d).InFile armoured content →
        KeyFile.isArmoured content = armoured ∧
        ∀ disk base, IsStored disk .privateHalf base content →
          ∃ key, (loadPrivate base p).outcome disk = .ok key ∧ key.val = ⟨p.curve, d⟩) ∧
      (∃ x y, p.curve.mul d p.curve.generator = .affine x y ∧
        ∀ armoured content, (PublicKey.mk p.curve x y).InFile armoured content →
          KeyFile.isArmoured content = armoured ∧
          ∀ disk base, IsStored disk .publicHalf base content →
            ∃ key, (loadPublic base p).outcome disk = .ok key ∧ key.val = ⟨p.curve, x, y⟩) ∧
      (∀ content k, AnyKey.ofPrivateDer? content = some k ∨ AnyKey.ofPublicDer? content = some k →
        KeyFile.isArmoured content = false) ∧
      ∀ content, KeyFile.StartsBlock content → KeyFile.isArmoured content = true := by
  have hsound := p.isSound_iff.2 ⟨hpos, hlt⟩
  obtain ⟨x, y, hmul, hcontains⟩ := p.exists_mul_generator hpos hlt
  have honCurve : (PublicKey.mk p.curve x y).IsOnCurve := hcontains
  refine ⟨?_, ⟨x, y, hmul, ?_⟩, ?_, fun _ hstart => hstart.isArmoured_eq⟩
  . intro armoured content hfile
    exact ⟨hfile.isArmoured_eq rfl hsound, fun _ _ => exists_loadPrivate_of_inFile rfl hsound hfile⟩
  . intro armoured content hfile
    exact ⟨hfile.isArmoured_eq rfl honCurve, fun _ _ => exists_loadPublic_of_inFile rfl honCurve hfile⟩
  . rintro content k (hprivate | hpublic)
    . exact AnyKey.isArmoured_of_ofPrivateDer? hprivate
    . exact AnyKey.isArmoured_of_ofPublicDer? hpublic

theorem load_encodings_one
    : ∃ d : Directory,
        (∃ key, (loadPrivate (Text.ofString "k") .es256).outcome (Disk.sound d) = .ok key ∧
          key.val = ⟨.secp256r1, 1⟩) ∧
        ∃ key, (loadPublic (Text.ofString "k") .es256).outcome (Disk.sound d) = .ok key ∧
          key.val.point = Curve.secp256r1.mul 1 Curve.secp256r1.generator := by
  have hlt : 1 < Profile.es256.curve.params.n := by decide
  have hload := load_encodings .es256 (Nat.le_refl 1) hlt
  obtain ⟨hprivate, ⟨x, y, hmul, hpublic⟩, -⟩ := hload
  have hsound := Profile.es256.isSound_iff.2 ⟨Nat.le_refl 1, hlt⟩
  obtain ⟨d, hd⟩ : ∃ d, d = Directory.mk []
      [([Text.ofString "k.priv"], .file 0o600 ((PrivateKey.mk .secp256r1 1).toFile .sec1 false)),
        ([Text.ofString "k.pub"], .file 0o644 ((PublicKey.mk .secp256r1 x y).toFile true))] := ⟨_, rfl⟩
  have hstored : IsStored (Disk.sound d) .privateHalf (Text.ofString "k")
      ((PrivateKey.mk .secp256r1 1).toFile .sec1 false) := ⟨rfl, by rw [hd]; rfl⟩
  have hstored' : IsStored (Disk.sound d) .publicHalf (Text.ofString "k")
      ((PublicKey.mk .secp256r1 x y).toFile true) := ⟨rfl, by rw [hd]; rfl⟩
  obtain ⟨key, hkey, hval⟩ := (hpublic _ _ (PublicKey.inFile_toFile _ true)).2 _ _ hstored'
  refine ⟨d, (hprivate _ _ (PrivateKey.inFile_toFile hsound .sec1 false)).2 _ _ hstored, key, hkey, ?_⟩
  rw [hval]
  exact hmul.symm

end SignedToken.KeyStore
