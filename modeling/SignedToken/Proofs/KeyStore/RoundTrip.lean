import SignedToken.Proofs.Curve.Ecdsa
import SignedToken.Proofs.Key.File
import SignedToken.Proofs.KeyStore.Effects

/-!
This module contains that a pair that was generated is loaded again: the private key with its secret,
the public key with its point, and neither under another profile. A verifier is the same whether it
comes from the public half or from the signer of the private one.
-/

namespace SignedToken

theorem Directory.read_eq_ok_of_nodeAt {d : Directory} {p : Path} {mode : Nat} {content : Bytes}
    (h : d.nodeAt p = .ok (some (.file mode content))) : d.read p = .ok content := by
  unfold nodeAt at h
  cases hplace : d.locate p with
  | error e =>
    rw [hplace] at h
    cases h
  | ok place =>
    rw [hplace] at h
    injection h with hnode
    rw [read, file_eq_ok hplace hnode]
    rfl

namespace KeyHalf

def fileOf (k : PrivateKey) : KeyHalf → Bytes
  | privateHalf => k.toFile .pkcs8 true
  | publicHalf => k.publicKey.toFile true

def keyOf (k : PrivateKey) : KeyHalf → AnyKey
  | privateHalf => .ecPrivate k
  | publicHalf => .ecPublic k.publicKey

theorem ofFile?_fileOf {k : PrivateKey} (h : k.isSound = true)
    : ∀ half : KeyHalf, half.ofFile? (half.fileOf k) = some (half.keyOf k)
  | privateHalf => AnyKey.ofPrivateFile?_toFile h
  | publicHalf => AnyKey.ofPublicFile?_toFile (PrivateKey.isOnCurve_publicKey h)

end KeyHalf

namespace KeyStore

open Directory

variable {secret : Option Nat} {base : Text} {p : Profile} {k : PrivateKey} {d : Directory}
  {disk disk' : Disk} {records : List LogRecord}

structure HoldsPair (d : Directory) (base : Text) (k : PrivateKey) : Prop where
  sound : k.isSound = true
  path : ∀ half, pathFault? (path half base) = none
  read : ∀ half, d.read (KeyStore.path half base) = .ok (half.fileOf k)

/-! ### Writing -/

theorem newKey?_eq_some_iff {d : Nat}
    : newKey? (some d) p = some k ↔ k = ⟨p.curve, d⟩ ∧ k.isSound = true := by
  rw [newKey?, Option.filter_eq_some_iff, Option.map_some, Option.some_inj, eq_comm]

theorem Generation.holdsPair (h : Generation secret base p disk (.ok ()) disk')
    : ∃ k, newKey? secret p = some k ∧ HoldsPair disk'.directory base k := by
  obtain ⟨n, hn, hreceives⟩ := h.receives
  cases h with
  | @done k between disk' hkey hprivate hpublic =>
    have hsound : k.isSound = true := (Option.filter_eq_some_iff.1 hkey).2
    have hfirst := hreceives.first
    rw [hn rfl, List.take_length] at hfirst
    unfold pairFiles at hfirst
    rw [hkey, List.forall_mem_cons, List.forall_mem_singleton] at hfirst
    refine ⟨k, hkey, hsound, fun half => ?_, fun half => ?_⟩
    . cases half with
      | privateHalf => exact hprivate.pathFault?_of_ok
      | publicHalf => exact hpublic.pathFault?_of_ok
    . cases half with
      | privateHalf => exact read_eq_ok_of_nodeAt hfirst.1
      | publicHalf => exact read_eq_ok_of_nodeAt hfirst.2

theorem holdsPair_of_generate {d : Nat}
    (h : (generate (some d) base p : Task (StateM Disk) Unit).perform disk = ((.ok (), records), disk'))
    : HoldsPair disk'.directory base ⟨p.curve, d⟩ := by
  obtain ⟨outcome, records', disk'', hon, hgeneration⟩ := generate_cases (some d) base p [] disk
  cases h.symm.trans hon
  obtain ⟨k, hkey, hholds⟩ := hgeneration.holdsPair
  rw [(newKey?_eq_some_iff.1 hkey).1] at hholds
  exact hholds

theorem exists_generate_ok (hkey : newKey? secret p = some k)
    (hpath : pathFault? (path .privateHalf base) = none)
    (hfresh : ∃ made, d.createBeside (path .privateHalf base) = .ok made)
    (hprivate : d.Accepts (path .privateHalf base))
    (hpublic : d.nodeAt (path .publicHalf base) ≠ .ok (some .folder))
    (hnodes : d.nodes.length + 1 < freshCount)
    : ∃ records disk', (generate secret base p : Task (StateM Disk) Unit).perform (Disk.sound d)
        =
      ((.ok (), records), disk') := by
  obtain ⟨outcome, records, disk', hon, hgeneration⟩ := generate_cases secret base p [] (Disk.sound d)
  cases hgeneration with
  | keyFailed hnone =>
    rw [hkey] at hnone
    cases hnone
  | privateFailed hkey' hreplacement =>
    cases hreplacement with
    | refused hpath' =>
      rw [hpath] at hpath'
      cases hpath'
    | failed hpath' hcause =>
      obtain ⟨j, hj, hfault⟩ := hcause hfresh hprivate
      cases hfault
  | publicFailed hkey' hreplacement hreplacement' =>
    obtain ⟨cause, -, hreason⟩ := hreplacement.exists_fault_of_public hreplacement'
    obtain hfolder | ⟨j, hj, hfault⟩ | hfull := hreason
    . exact absurd hfolder hpublic
    . cases hfault
    . exact absurd hnodes (Nat.not_lt_of_le hfull)
  | done hkey' hreplacement hreplacement' => exact ⟨records, disk', hon⟩

theorem exists_generate_in_empty
    : ∃ records disk', (generate (some 1) (Text.ofString "k") .es256 : Task (StateM Disk) Unit).perform
          (Disk.sound ⟨[], []⟩)
        =
      ((.ok (), records), disk') := by
  have hkey : newKey? (some 1) .es256 = some ⟨.secp256r1, 1⟩ := by decide +kernel
  obtain ⟨d, hd⟩ : ∃ d, d = Directory.mk [] [] := ⟨_, rfl⟩
  have haccepts : d.Accepts (path .privateHalf (Text.ofString "k")) :=
    ⟨[Text.ofString "k.priv"], by rw [hd]; rfl, by rw [hd]; decide⟩
  have hpublic : d.nodeAt (path .publicHalf (Text.ofString "k")) ≠ .ok (some .folder) := by
    have hnone : d.nodeAt (path .publicHalf (Text.ofString "k")) = .ok none := by
      rw [hd]
      rfl
    rw [hnone]
    exact nofun
  have hnodes : d.nodes.length + 1 < freshCount := by
    rw [hd]
    decide
  rw [← hd]
  exact exists_generate_ok hkey rfl ⟨_, by rw [hd]; rfl⟩ haccepts hpublic hnodes

/-! ### Reading -/

namespace HoldsPair

variable (h : HoldsPair d base k)

include h

theorem isStored (half : KeyHalf) : IsStored (Disk.sound d) half base (half.fileOf k) :=
  ⟨h.path half, (Disk.reading_sound _).trans (h.read half)⟩

theorem loading_eq (half : KeyHalf) : loading half base (Disk.sound d) = .ok (half.keyOf k) :=
  (h.isStored half).loading_eq (KeyHalf.ofFile?_fileOf h.sound half)

theorem loadPrivate_outcome (hcurve : k.curve = p.curve)
    : (loadPrivate base p).outcome (Disk.sound d) = .ok ⟨k, hcurve⟩ :=
  loadPrivate_outcome_of_loading (h.loading_eq .privateHalf) hcurve

theorem loadPublic_outcome (hcurve : k.publicKey.curve = p.curve)
    : (loadPublic base p).outcome (Disk.sound d) = .ok ⟨k.publicKey, hcurve⟩ :=
  loadPublic_outcome_of_loading (h.loading_eq .publicHalf) hcurve

theorem loadSigner_outcome (hcurve : k.curve = p.curve)
    : (loadSigner base p).outcome (Disk.sound d) = .ok ⟨p, k, hcurve⟩ := by
  have hload := h.loadPrivate_outcome hcurve
  rw [loadPrivate_yields.outcome_eq] at hload
  rw [loadSigner_yields.outcome_eq, hload]
  rfl

theorem loadVerifier_outcome (hcurve : k.publicKey.curve = p.curve)
    : (loadVerifier base p).outcome (Disk.sound d) = .ok ⟨p, k.publicKey, hcurve⟩ := by
  have hload := h.loadPublic_outcome hcurve
  rw [loadPublic_yields.outcome_eq] at hload
  rw [loadVerifier_yields.outcome_eq, hload]
  rfl

theorem loadPrivate_outcome_of_ne (hcurve : k.curve ≠ p.curve)
    : (loadPrivate base p).outcome (Disk.sound d)
        =
      .error (.known (.key (.wrongCurve p.curve k.curve))) := by
  rw [loadPrivate_yields.outcome_eq, loadingPrivate, h.loading_eq]
  dsimp only [Except.bind]
  rw [KeyHalf.keyOf, AnyKey.toPrivate, dif_neg hcurve]
  rfl

theorem loadPublic_outcome_of_ne (hcurve : k.curve ≠ p.curve)
    : (loadPublic base p).outcome (Disk.sound d)
        =
      .error (.known (.key (.wrongCurve p.curve k.curve))) := by
  have hcurve' : k.publicKey.curve ≠ p.curve := by rwa [PrivateKey.publicKey_curve]
  rw [loadPublic_yields.outcome_eq, loadingPublic, h.loading_eq]
  dsimp only [Except.bind]
  rw [KeyHalf.keyOf, AnyKey.toPublic, dif_neg hcurve', PrivateKey.publicKey_curve]
  rfl

end HoldsPair

/--
After a pair is generated its halves are loaded as the key with the secret and the key of its point;
under every other profile they are of the wrong curve. The verifier of the signer and the one of the
public half answer all wires alike, whatever the clock shows.
-/
theorem load_generate {d : Nat}
    (h : (generate (some d) base p : Task (StateM Disk) Unit).perform disk = ((.ok (), records), disk'))
    : 1 ≤ d ∧ d < p.curve.params.n ∧
      (∃ key, (loadPrivate base p).outcome (Disk.sound disk'.directory) = .ok key ∧
        key.val = ⟨p.curve, d⟩) ∧
      (∃ key, (loadPublic base p).outcome (Disk.sound disk'.directory) = .ok key ∧
        key.val.point = p.curve.mul d p.curve.generator) ∧
      (∀ q, q ≠ p →
        (loadPrivate base q).outcome (Disk.sound disk'.directory)
          = .error (.known (.key (.wrongCurve q.curve p.curve))) ∧
        (loadPublic base q).outcome (Disk.sound disk'.directory)
          = .error (.known (.key (.wrongCurve q.curve p.curve)))) ∧
      ∃ signer verifier,
        (loadSigner base p).outcome (Disk.sound disk'.directory) = .ok signer ∧
        (loadVerifier base p).outcome (Disk.sound disk'.directory) = .ok verifier ∧
        ∀ scheme clock reads wires,
          signer.verifier.run scheme clock reads wires = verifier.run scheme clock reads wires := by
  have hholds := holdsPair_of_generate h
  have hrange := hholds.sound
  rw [PrivateKey.isSound, Bool.and_eq_true, PrivateKey.inRange, Bool.and_eq_true, decide_eq_true_eq,
    decide_eq_true_eq] at hrange
  have hcurve : (PrivateKey.mk p.curve d).publicKey.curve = p.curve := PrivateKey.publicKey_curve _
  refine ⟨hrange.1.1, hrange.1.2, ⟨_, hholds.loadPrivate_outcome rfl, rfl⟩,
    ⟨_, hholds.loadPublic_outcome hcurve, PrivateKey.point_publicKey hholds.sound⟩, ?_,
    ⟨_, _, hholds.loadSigner_outcome rfl, hholds.loadVerifier_outcome hcurve, fun _ _ _ _ => rfl⟩⟩
  intro q hq
  have hother : p.curve ≠ q.curve := fun heq => hq (Profile.curve_inj heq.symm)
  exact ⟨hholds.loadPrivate_outcome_of_ne hother, hholds.loadPublic_outcome_of_ne hother⟩

theorem load_generate_one
    : ∃ (disk disk' : Disk) (records : List LogRecord),
        (generate (some 1) (Text.ofString "k") .es256 : Task (StateM Disk) Unit).perform disk
          = ((.ok (), records), disk') ∧
        ∃ key, (loadPublic (Text.ofString "k") .es256).outcome (Disk.sound disk'.directory) = .ok key ∧
          key.val.point = Curve.secp256r1.mul 1 Curve.secp256r1.generator := by
  obtain ⟨records, disk', h⟩ := exists_generate_in_empty
  exact ⟨_, disk', records, h, (load_generate h).2.2.2.1⟩

end KeyStore

end SignedToken
