import SignedToken.Proofs.KeyStore.Paths
import SignedToken.Proofs.KeyStore.Replacement

/-!
This module contains what is in the place of a key pair after a generation that failed. The halves are
replaced one after the other, so it depends on which of them could not be.
-/

namespace SignedToken

namespace KeyStore

open Directory

variable {secret : Option Nat} {base : Text} {p : Profile} {disk disk' : Disk}
  {records : List LogRecord}

def unwritten (half : KeyHalf) (base : Text) (cause : FileError) : Failure :=
  .known (.key (.unwritable (path half base) cause))

theorem unwritten_private_ne {cause cause' : FileError}
    : unwritten .privateHalf base cause ≠ unwritten .publicHalf base cause' := by
  intro h
  injection h with h
  injection h with h
  injection h with h
  exact path_public_ne_private h.symm

/-! ### One half after the other -/

namespace Replacement

variable {target : Path} {mode : Nat} {content : Bytes}

theorem nodeAt_other {half other : KeyHalf} (hne : other ≠ half)
    (h : Replacement (path half base) mode content disk (.ok ()) disk')
    : disk'.directory.nodeAt (path other base) = disk.directory.nodeAt (path other base) := by
  obtain ⟨folder, stem, hpaths⟩ := exists_path_eq base
  rw [hpaths] at h ⊢
  cases h with
  | done hpath hfresh hgoal hnode =>
    exact nodeAt_put_sibling hgoal hnode KeyHalf.fileName_ne_above
      KeyHalf.fileName_ne_above (KeyHalf.fileName_ne hne)

theorem exists_fault_of_public {mode' : Nat} {content' : Bytes} {e : Failure} {between : Disk}
    (hprivate : Replacement (path .privateHalf base) mode content disk (.ok ()) between)
    (hpublic : Replacement (path .publicHalf base) mode' content' between (.error e) disk')
    : ∃ cause, e = unwritten .publicHalf base cause ∧
        (disk.directory.nodeAt (path .publicHalf base) = .ok (some .folder) ∨
          (∃ j < 5, disk.fault? (5 + j) = some cause) ∨
          freshCount ≤ disk.directory.nodes.length + 1) := by
  have hsibling : between.directory.nodeAt (path .publicHalf base)
      = disk.directory.nodeAt (path .publicHalf base) := hprivate.nodeAt_other (by decide)
  unfold unwritten
  obtain ⟨folder, stem, hpaths⟩ := exists_path_eq base
  rw [hpaths] at hprivate hpublic hsibling ⊢
  cases hprivate with
  | @done goal hpath hfresh hgoal hnode =>
    have hsame : SameFolders disk.directory (disk.directory.put goal (.file mode content)) :=
      sameFolders_put_file hnode
    cases hpublic with
    | refused hpath' =>
      rw [pathFault?_child_eq_none_iff.2 (pathFault?_child_eq_none_iff.1 hpath)] at hpath'
      cases hpath'
    | failed hpath' hcause =>
      refine ⟨_, rfl, ?_⟩
      by_cases hfolder : disk.directory.nodeAt
          (folder.child (KeyHalf.publicHalf.fileName stem)) = .ok (some .folder)
      . exact .inl hfolder
      . by_cases hnodes : freshCount ≤ disk.directory.nodes.length + 1
        . exact .inr (.inr hnodes)
        . have hlength : (disk.directory.put goal (.file mode content)).nodes.length < freshCount :=
            Nat.lt_of_le_of_lt Entries.length_put_le (Nat.lt_of_not_le hnodes)
          obtain ⟨made, hmade⟩ := hfresh
          obtain ⟨goal', hgoal'⟩ := exists_locate_public hsame hpath hgoal
          have haccepts : (disk.directory.put goal (.file mode content)).Accepts
              (folder.child (KeyHalf.publicHalf.fileName stem)) := by
            refine ⟨goal', hgoal', fun hnode' => hfolder ?_⟩
            rw [← hsibling, nodeAt, hgoal', ← hnode']
            rfl
          obtain ⟨j, hj, hfault⟩ :=
            hcause (exists_createBeside_public hsame hpath hlength hmade) haccepts
          rw [Disk.fault?, List.getElem?_drop] at hfault
          exact .inr (.inl ⟨j, hj, hfault⟩)

end Replacement

/-! ### Generation -/

def privateNode (k : PrivateKey) : Node :=
  .file KeyHalf.privateHalf.mode (k.toFile .pkcs8 true)

inductive Generation (secret : Option Nat) (base : Text) (p : Profile) (disk : Disk)
    : Except Failure Unit → Disk → Prop where
  | keyFailed (hkey : newKey? secret p = none)
    : Generation secret base p disk (.error (.known (.key (.notGenerated p.curve)))) disk
  | privateFailed {k : PrivateKey} {e : Failure} {disk' : Disk} (hkey : newKey? secret p = some k)
      (hprivate : Replacement (path .privateHalf base) KeyHalf.privateHalf.mode (k.toFile .pkcs8 true)
        disk (.error e) disk')
    : Generation secret base p disk (.error e) disk'
  | publicFailed {k : PrivateKey} {between : Disk} {e : Failure} {disk' : Disk}
      (hkey : newKey? secret p = some k)
      (hprivate : Replacement (path .privateHalf base) KeyHalf.privateHalf.mode (k.toFile .pkcs8 true)
        disk (.ok ()) between)
      (hpublic : Replacement (path .publicHalf base) KeyHalf.publicHalf.mode (k.publicKey.toFile true)
        between (.error e) disk')
    : Generation secret base p disk (.error e) disk'
  | done {k : PrivateKey} {between disk' : Disk} (hkey : newKey? secret p = some k)
      (hprivate : Replacement (path .privateHalf base) KeyHalf.privateHalf.mode (k.toFile .pkcs8 true)
        disk (.ok ()) between)
      (hpublic : Replacement (path .publicHalf base) KeyHalf.publicHalf.mode (k.publicKey.toFile true)
        between (.ok ()) disk')
    : Generation secret base p disk (.ok ()) disk'

theorem generate_cases (secret : Option Nat) (base : Text) (p : Profile) (records : List LogRecord)
    (disk : Disk)
    : ∃ outcome records' disk', (generate secret base p).on records disk = ((outcome, records'), disk') ∧
        Generation secret base p disk outcome disk' := by
  unfold generate
  cases hkey : newKey? secret p with
  | none => exact ⟨_, _, _, rfl, .keyFailed hkey⟩
  | some k =>
    obtain ⟨outcome, between, hprivate, hprivate'⟩ := replaceFile_cases (path .privateHalf base)
      KeyHalf.privateHalf.mode (k.toFile .pkcs8 true) records disk
    dsimp only
    rw [Task.on_bind, hprivate]
    cases outcome with
    | error e => exact ⟨_, _, _, rfl, .privateFailed hkey hprivate'⟩
    | ok _ =>
      obtain ⟨outcome, disk', hpublic, hpublic'⟩ := replaceFile_cases (path .publicHalf base)
        KeyHalf.publicHalf.mode (k.publicKey.toFile true) records between
      dsimp only
      rw [Task.on_bind, hpublic]
      cases outcome with
      | error e => exact ⟨_, _, _, rfl, .publicFailed hkey hprivate' hpublic'⟩
      | ok _ => exact ⟨_, _, _, rfl, .done hkey hprivate' hpublic'⟩

theorem Generation.error_cases {e : Failure} (h : Generation secret base p disk (.error e) disk')
    : (disk'.directory = disk.directory ∧
        ∀ cause, e ≠ unwritten .publicHalf base cause) ∨
      ∃ k cause, newKey? secret p = some k ∧
        e = unwritten .publicHalf base cause ∧
        disk'.directory.nodeAt (path .privateHalf base) = .ok (some (privateNode k)) ∧
        disk'.directory.nodeAt (path .publicHalf base)
          = disk.directory.nodeAt (path .publicHalf base) ∧
        (disk.directory.nodeAt (path .publicHalf base) = .ok (some .folder) ∨
          (∃ j < 5, disk.fault? (5 + j) = some cause) ∨
          freshCount ≤ disk.directory.nodes.length + 1) := by
  cases h with
  | keyFailed hkey => exact .inl ⟨rfl, nofun⟩
  | privateFailed hkey hprivate =>
    refine .inl ⟨hprivate.directory_of_error, fun cause he => ?_⟩
    cases hprivate with
    | refused hpath => cases he
    | failed hpath hcause => exact unwritten_private_ne he
  | publicFailed hkey hprivate hpublic =>
    obtain ⟨cause, he, hreason⟩ := hprivate.exists_fault_of_public hpublic
    refine .inr ⟨_, cause, hkey, he, ?_, ?_, hreason⟩
    . rw [hpublic.directory_of_error]
      exact hprivate.nodeAt_of_ok
    . rw [hpublic.directory_of_error]
      exact hprivate.nodeAt_other (by decide)

/-! ### Folders in the place of a half -/

theorem exists_generate_privateFailed {k : PrivateKey} (disk : Disk) (hkey : newKey? secret p = some k)
    (hpath : pathFault? (path .privateHalf base) = none)
    (hfolder : disk.directory.nodeAt (path .privateHalf base) = .ok (some .folder))
    : ∃ cause records disk',
        (generate secret base p : Task (StateM Disk) Unit).perform disk
          =
        ((.error (unwritten .privateHalf base cause), records), disk') := by
  have hnot := not_accepts_of_folder hfolder
  obtain ⟨outcome, records', disk', hon, hgeneration⟩ := generate_cases secret base p [] disk
  cases hgeneration with
  | keyFailed hnone =>
    rw [hkey] at hnone
    cases hnone
  | privateFailed hkey' hprivate =>
    cases hprivate with
    | refused hpath' =>
      rw [hpath] at hpath'
      cases hpath'
    | failed hpath' hcause => exact ⟨_, _, _, hon⟩
  | publicFailed hkey' hprivate hpublic => exact absurd hprivate.accepts_of_ok hnot
  | done hkey' hprivate hpublic => exact absurd hprivate.accepts_of_ok hnot

theorem exists_generate_publicFailed {k : PrivateKey} {d : Directory}
    (hkey : newKey? secret p = some k) (hpath : pathFault? (path .privateHalf base) = none)
    (hfresh : ∃ made, d.createBeside (path .privateHalf base) = .ok made)
    (haccepts : d.Accepts (path .privateHalf base))
    (hfolder : d.nodeAt (path .publicHalf base) = .ok (some .folder))
    : ∃ cause records disk',
        (generate secret base p : Task (StateM Disk) Unit).perform (Disk.sound d)
          =
        ((.error (unwritten .publicHalf base cause), records), disk') ∧
        disk'.directory.nodeAt (path .privateHalf base) = .ok (some (privateNode k)) := by
  obtain ⟨outcome, records', disk', hon, hgeneration⟩ :=
    generate_cases secret base p [] (Disk.sound d)
  cases hgeneration with
  | keyFailed hnone =>
    rw [hkey] at hnone
    cases hnone
  | privateFailed hkey' hprivate =>
    cases hprivate with
    | refused hpath' =>
      rw [hpath] at hpath'
      cases hpath'
    | failed hpath' hcause =>
      obtain ⟨j, hj, hfault⟩ := hcause hfresh haccepts
      cases hfault
  | publicFailed hkey' hprivate hpublic =>
    obtain ⟨cause, rfl, -⟩ := hprivate.exists_fault_of_public hpublic
    cases hkey.symm.trans hkey'
    refine ⟨_, _, _, hon, ?_⟩
    rw [hpublic.directory_of_error]
    exact hprivate.nodeAt_of_ok
  | done hkey' hprivate hpublic =>
    have hfolder' := (hprivate.nodeAt_other (by decide)).trans hfolder
    exact absurd hpublic.accepts_of_ok (not_accepts_of_folder hfolder')

/-! ### What a failure leaves behind -/

/--
A generation that fails leaves the place of the pair as it was just if the failure is not one of
writing the public half, or the new private key is the one that was there. Apart from that failure the
whole directory stays. With it the private half is the new one already and what is in the place of the
public half stays; this takes a folder in that place, a step that fails or a folder without a free name.
-/
theorem generate_unchanged_iff {e : Failure}
    (h : (generate secret base p : Task (StateM Disk) Unit).perform disk = ((.error e, records), disk'))
    : ((∀ half, disk'.directory.nodeAt (path half base) = disk.directory.nodeAt (path half base))
          ↔
        (∀ cause, e ≠ unwritten .publicHalf base cause) ∨
          ∃ k, newKey? secret p = some k ∧
            disk.directory.nodeAt (path .privateHalf base) = .ok (some (privateNode k))) ∧
      ((∀ cause, e ≠ unwritten .publicHalf base cause) →
        disk'.directory = disk.directory) ∧
      ∀ cause, e = unwritten .publicHalf base cause →
        (∃ k, newKey? secret p = some k ∧
          disk'.directory.nodeAt (path .privateHalf base) = .ok (some (privateNode k))) ∧
        disk'.directory.nodeAt (path .publicHalf base)
          = disk.directory.nodeAt (path .publicHalf base) ∧
        (disk.directory.nodeAt (path .publicHalf base) = .ok (some .folder) ∨
          (∃ j < 5, disk.fault? (5 + j) = some cause) ∨
          freshCount ≤ disk.directory.nodes.length + 1) := by
  obtain ⟨outcome, records', disk'', hon, hgeneration⟩ := generate_cases secret base p [] disk
  cases h.symm.trans hon
  cases hgeneration.error_cases with
  | inl hkept =>
    obtain ⟨hkept, hother⟩ := hkept
    refine ⟨iff_of_true ?_ (.inl hother), fun _ => hkept, ?_⟩
    . exact fun half => by rw [hkept]
    . exact fun cause he => absurd he (hother cause)
  | inr hhalf =>
    obtain ⟨k, cause, hkey, rfl, hprivate, hpublic, hreason⟩ := hhalf
    refine ⟨?_, fun hother => absurd rfl (hother cause), ?_⟩
    . constructor
      . exact fun hsame => .inr ⟨k, hkey, by rw [← hsame, hprivate]⟩
      . rintro (hother | ⟨k', hkey', hold⟩) half
        . exact absurd rfl (hother cause)
        . cases hkey.symm.trans hkey'
          cases half with
          | privateHalf => rw [hprivate, hold]
          | publicHalf => exact hpublic
    . intro cause' he
      cases he
      exact ⟨⟨k, hkey, hprivate⟩, hpublic, hreason⟩

theorem generate_unchanged_folder
    : ∃ (disk disk' : Disk) (e : Failure) (records : List LogRecord),
        disk.directory.nodeAt (path .privateHalf (Text.ofString "k")) = .ok (some .folder) ∧
        disk.directory.nodeAt (path .publicHalf (Text.ofString "k"))
          = .ok (some (.file 0o644 [0x78])) ∧
        (generate (some 1) (Text.ofString "k") .es256 : Task (StateM Disk) Unit).perform disk
          = ((.error e, records), disk') ∧
        ∀ half, disk'.directory.nodeAt (path half (Text.ofString "k"))
          = disk.directory.nodeAt (path half (Text.ofString "k")) := by
  obtain ⟨disk, hdisk⟩ : ∃ disk, disk = Disk.sound ⟨[],
      [([Text.ofString "k.priv"], .folder), ([Text.ofString "k.pub"], .file 0o644 [0x78])]⟩ := ⟨_, rfl⟩
  have hkey : newKey? (some 1) .es256 = some ⟨.secp256r1, 1⟩ := by decide +kernel
  have hfolder : disk.directory.nodeAt (path .privateHalf (Text.ofString "k")) = .ok (some .folder) := by
    rw [hdisk]
    rfl
  obtain ⟨cause, records, disk', h⟩ := exists_generate_privateFailed disk hkey rfl hfolder
  refine ⟨disk, disk', _, records, hfolder, by rw [hdisk]; rfl, h, ?_⟩
  exact (generate_unchanged_iff h).1.2 (.inl fun cause' => unwritten_private_ne)

theorem exists_generate_half_replaced
    : ∃ (disk disk' : Disk) (e : Failure) (records : List LogRecord),
        disk.directory.nodeAt (path .privateHalf (Text.ofString "k"))
          = .ok (some (.file 0o640 [0x78])) ∧
        disk.directory.nodeAt (path .publicHalf (Text.ofString "k")) = .ok (some .folder) ∧
        (generate (some 1) (Text.ofString "k") .es256 : Task (StateM Disk) Unit).perform disk
          = ((.error e, records), disk') ∧
        disk'.directory.nodeAt (path .privateHalf (Text.ofString "k"))
          ≠ disk.directory.nodeAt (path .privateHalf (Text.ofString "k")) := by
  obtain ⟨d, hd⟩ : ∃ d, d = Directory.mk []
      [([Text.ofString "k.priv"], .file 0o640 [0x78]), ([Text.ofString "k.pub"], .folder)] := ⟨_, rfl⟩
  have hkey : newKey? (some 1) .es256 = some ⟨.secp256r1, 1⟩ := by decide +kernel
  have hold : d.nodeAt (path .privateHalf (Text.ofString "k")) = .ok (some (.file 0o640 [0x78])) := by
    rw [hd]
    rfl
  have hfolder : d.nodeAt (path .publicHalf (Text.ofString "k")) = .ok (some .folder) := by
    rw [hd]
    rfl
  have haccepts : d.Accepts (path .privateHalf (Text.ofString "k")) :=
    ⟨[Text.ofString "k.priv"], by rw [hd]; rfl, by rw [hd]; decide⟩
  obtain ⟨cause, records, disk', h, hnew⟩ :=
    exists_generate_publicFailed hkey rfl ⟨_, by rw [hd]; rfl⟩ haccepts hfolder
  refine ⟨Disk.sound d, disk', _, records, hold, hfolder, h, ?_⟩
  rw [hnew, Disk.sound, hold]
  intro hsame
  injection hsame with hsame
  injection hsame with hsame
  cases hsame

end KeyStore

end SignedToken
