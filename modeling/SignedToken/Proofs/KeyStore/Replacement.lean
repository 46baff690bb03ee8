import SignedToken.KeyStore
import SignedToken.Proofs.Directory.Fresh
import SignedToken.Proofs.Directory.Steps

/-!
This module contains that a file is replaced as a whole or not at all. Up to the last step all that
happens to the directory is that a fresh file comes into it, and on a failure this file goes again.
-/

namespace SignedToken

namespace Directory

variable {d : Directory} {p fresh target : Path} {place : List Text} {mode : Nat} {content : Bytes}

def Accepts (d : Directory) (target : Path) : Prop :=
  ∃ goal, d.locate target = .ok goal ∧ d.node? goal ≠ some .folder

theorem SameFolders.accepts {d' : Directory} (hsame : SameFolders d d') (h : d.Accepts target)
    : d'.Accepts target := by
  obtain ⟨goal, hgoal, hnode⟩ := h
  exact ⟨goal, hsame.locate hgoal, fun hfolder => hnode ((hsame.folder goal).1 hfolder)⟩

theorem not_accepts_of_folder (h : d.nodeAt target = .ok (some .folder)) : ¬ d.Accepts target := by
  rintro ⟨goal, hgoal, hnode⟩
  rw [nodeAt, hgoal] at h
  injection h with h
  exact hnode h

section File

variable (hfile : d.file p = .ok (place, mode, content))

include hfile

theorem setMode_of_file (mode' : Nat)
    : d.setMode p mode' = .ok (d.put place (.file mode' content)) := by
  rw [setMode, hfile]
  rfl

theorem write_of_file (content' : Bytes)
    : d.write p content' = .ok (d.put place (.file mode content')) := by
  rw [write, hfile]
  rfl

theorem remove_of_file : d.remove p = .ok (d.erase place) := by
  rw [remove, hfile]
  rfl

theorem rename_of_file {goal : List Text} (hgoal : d.locate target = .ok goal)
    (hnode : d.node? goal ≠ some .folder)
    : d.rename p target = .ok ((d.erase place).put goal (.file mode content)) := by
  rw [rename, hfile]
  dsimp only [bind, Except.bind]
  rw [hgoal]
  dsimp only
  split
  . next h => exact absurd h hnode
  . rfl

theorem accepts_of_rename {d' : Directory} (h : d.rename p target = .ok d') : d.Accepts target := by
  rw [rename, hfile] at h
  dsimp only [bind, Except.bind] at h
  cases hgoal : d.locate target with
  | error e =>
    rw [hgoal] at h
    cases h
  | ok goal =>
    rw [hgoal] at h
    dsimp only at h
    split at h
    . cases h
    . next hnode => exact ⟨goal, hgoal, hnode⟩

end File

theorem file_put (hfresh : d.locate fresh = .ok place) (hfree : d.node? place = none) (mode : Nat)
    (content : Bytes)
    : (d.put place (.file mode content)).file fresh = .ok (place, mode, content) := by
  have hnot : d.node? place ≠ some .folder := by simp [hfree]
  exact file_eq_ok ((sameFolders_put_file hnot).locate hfresh) (node?_put_self (ne_nil_of_node? hnot))

theorem rename_put {goal : List Text} (hfresh : d.locate fresh = .ok place)
    (hfree : d.node? place = none) (hgoal : d.locate target = .ok goal)
    (hnode : d.node? goal ≠ some .folder) (mode : Nat) (content : Bytes)
    : (d.put place (.file mode content)).rename fresh target
        =
      .ok (d.put goal (.file mode content)) := by
  have hsame : SameFolders d (d.put place (.file mode content)) :=
    sameFolders_put_file (by simp [hfree])
  have hnode' : (d.put place (.file mode content)).node? goal ≠ some .folder := fun hfolder =>
    hnode ((hsame.folder goal).1 hfolder)
  rw [rename_of_file (file_put hfresh hfree mode content) (hsame.locate hgoal) hnode',
    erase_put hfree]

theorem exists_rename_put_error (hfresh : d.locate fresh = .ok place)
    (hfree : d.node? place = none) (htarget : ¬ d.Accepts target) (mode : Nat) (content : Bytes)
    : ∃ e, (d.put place (.file mode content)).rename fresh target = .error e := by
  have hsame : SameFolders d (d.put place (.file mode content)) :=
    sameFolders_put_file (by simp [hfree])
  cases hresult : (d.put place (.file mode content)).rename fresh target with
  | ok d' =>
    have haccepts := accepts_of_rename (file_put hfresh hfree mode content) hresult
    exact absurd (hsame.symm.accepts haccepts) htarget
  | error e => exact ⟨e, rfl⟩

end Directory

namespace KeyStore

open Directory

variable {d : Directory} {fresh target : Path} {place : List Text} {mode : Nat} {content : Bytes}
  {faults : List (Option FileError)} {k : Nat}

theorem fill_eq
    : (fill fresh target mode content : ExceptT FileError (StateM Disk) Unit)
        =
      (do
        ExceptT.mk (Disk.change (·.setMode fresh mode))
        ExceptT.mk (Disk.change (·.write fresh content))
        ExceptT.mk (Disk.change fun d => (d.file fresh).map fun _ => d)
        ExceptT.mk (Disk.change (·.rename fresh target))) := rfl

theorem fill_cases (target : Path) (mode : Nat) (content : Bytes) (faults : List (Option FileError))
    (k : Nat) (hfresh : d.locate fresh = .ok place) (hfree : d.node? place = none) (m : Nat) (c : Bytes)
    : (∃ goal, d.locate target = .ok goal ∧ d.node? goal ≠ some .folder ∧
        Disk.carryOut (fill fresh target mode content) ⟨d.put place (.file m c), faults.drop k⟩
          =
        (.ok (), ⟨d.put goal (.file mode content), faults.drop (k + 4)⟩)) ∨
      ∃ e m' c' left,
        Disk.carryOut (fill fresh target mode content) ⟨d.put place (.file m c), faults.drop k⟩
          =
        (.error e, ⟨d.put place (.file m' c'), left⟩) ∧
        (d.Accepts target → ∃ j < 4, faults[k + j]?.join = some e) := by
  have hfile := file_put hfresh hfree
  rw [fill_eq]
  cases hsetMode : faults[k]?.join with
  | some e =>
    rw [Disk.carryOut_bind_of_fault hsetMode]
    exact .inr ⟨e, _, _, _, rfl, fun _ => ⟨0, by decide, hsetMode⟩⟩
  | none =>
    rw [Disk.carryOut_bind_of_ok hsetMode (setMode_of_file (hfile m c) mode), put_put]
    cases hwrite : faults[k + 1]?.join with
    | some e =>
      rw [Disk.carryOut_bind_of_fault hwrite]
      exact .inr ⟨e, _, _, _, rfl, fun _ => ⟨1, by decide, hwrite⟩⟩
    | none =>
      rw [Disk.carryOut_bind_of_ok hwrite (write_of_file (hfile mode c) content), put_put]
      cases hsync : faults[k + 2]?.join with
      | some e =>
        rw [Disk.carryOut_bind_of_fault hsync]
        exact .inr ⟨e, _, _, _, rfl, fun _ => ⟨2, by decide, hsync⟩⟩
      | none =>
        rw [Disk.carryOut_bind_of_ok hsync (by rw [hfile mode content]; rfl), Disk.carryOut_change]
        cases hrename : faults[k + 3]?.join with
        | some e =>
          rw [Disk.change_of_fault hrename]
          exact .inr ⟨e, _, _, _, rfl, fun _ => ⟨3, by decide, hrename⟩⟩
        | none =>
          by_cases haccepts : d.Accepts target
          . obtain ⟨goal, hgoal, hnode⟩ := haccepts
            have hresult := rename_put hfresh hfree hgoal hnode mode content
            rw [Disk.change_of_ok hrename hresult]
            exact .inl ⟨goal, hgoal, hnode, rfl⟩
          . obtain ⟨e, hresult⟩ := exists_rename_put_error hfresh hfree haccepts mode content
            rw [Disk.change_of_error hrename hresult]
            exact .inr ⟨e, _, _, _, rfl, fun h => absurd h haccepts⟩

/--
What the replacement of a file comes to on a disk: the target has the new content, or the directory is
the one that it was. A failure has its reason in the path, in a step that is made to fail, in the
folder, where no fresh file can be made, or in the target.
-/
inductive Replacement (target : Path) (mode : Nat) (content : Bytes) (disk : Disk)
    : Except Failure Unit → Disk → Prop where
  | done {goal : List Text} (hpath : pathFault? target = none)
      (hfresh : ∃ made, disk.directory.createBeside target = .ok made)
      (hgoal : disk.directory.locate target = .ok goal)
      (hnode : disk.directory.node? goal ≠ some .folder)
    : Replacement target mode content disk (.ok ())
        ⟨disk.directory.put goal (.file mode content), disk.faults.drop 5⟩
  | refused {cause : Uncaught} (hpath : pathFault? target = some cause)
    : Replacement target mode content disk (.error (.unknown cause)) disk
  | failed {cause : FileError} {left : List (Option FileError)} (hpath : pathFault? target = none)
      (hcause : (∃ made, disk.directory.createBeside target = .ok made) →
        disk.directory.Accepts target → ∃ j < 5, disk.fault? j = some cause)
    : Replacement target mode content disk (.error (.known (.key (.unwritable target cause))))
        ⟨disk.directory, left⟩

theorem replaceFile_on (hpath : pathFault? target = none) (records : List LogRecord) (disk : Disk)
    : (replaceFile target mode content).on records disk
        =
      match Disk.step (·.createBeside target) disk with
      | (.error e, disk) => ((.error (.known (.key (.unwritable target e))), records), disk)
      | (.ok fresh, disk) =>
        match Disk.carryOut (fill fresh target mode content) disk with
        | (.ok _, disk) => ((.ok (), records), disk)
        | (.error e, disk) =>
          ((.error (.known (.key (.unwritable target e))), records),
            ((FileSteps.remove fresh : StateM Disk _) disk).2) := by
  have hcreate : (FileSteps.createFresh target.parent.straight
      (Path.dot :: (target.name ++ [Path.dot])) : StateM Disk _)
        =
      Disk.step (·.createBeside target) := rfl
  unfold replaceFile checkPath
  rw [hpath, Task.on_bind, Task.on_pure]
  dsimp only
  rw [Task.on_bind, Task.on_lift, hcreate]
  rcases Disk.step (·.createBeside target) disk with ⟨e | fresh, disk⟩
  . rfl
  . dsimp only
    rw [Task.on_bind, Task.on_lift, ← Disk.carryOut]
    rcases Disk.carryOut (fill fresh target mode content) disk with ⟨e | _, disk⟩
    . rfl
    . rfl

theorem replaceFile_cases (target : Path) (mode : Nat) (content : Bytes) (records : List LogRecord)
    (disk : Disk)
    : ∃ outcome disk',
        (replaceFile target mode content).on records disk = ((outcome, records), disk') ∧
          Replacement target mode content disk outcome disk' := by
  obtain ⟨d, faults⟩ := disk
  cases hpath : pathFault? target with
  | some cause =>
    refine ⟨_, _, ?_, .refused hpath⟩
    unfold replaceFile checkPath
    rw [hpath, Task.on_bind, Task.on_throw]
  | none =>
    rw [replaceFile_on hpath]
    cases hfault : faults[0]?.join with
    | some e =>
      have hstep := Disk.step_of_fault (d := d) (f := (·.createBeside target)) hfault
      rw [List.drop_zero] at hstep
      rw [hstep]
      exact ⟨_, _, rfl, .failed hpath fun _ _ => ⟨0, by decide, hfault⟩⟩
    | none =>
      cases hcreate : d.createBeside target with
      | error e =>
        have hstep := Disk.step_of_error (f := (·.createBeside target)) hfault hcreate
        rw [List.drop_zero] at hstep
        rw [hstep]
        refine ⟨_, _, rfl, .failed hpath ?_⟩
        rintro ⟨made, hmade⟩
        rw [hcreate] at hmade
        cases hmade
      | ok made =>
        obtain ⟨fresh, d'⟩ := made
        obtain ⟨i, place, -, hfresh, hfree, rfl⟩ := createFresh_eq_ok hcreate
        have hstep := Disk.step_of_ok (f := (·.createBeside target)) hfault hcreate
        rw [List.drop_zero] at hstep
        rw [hstep]
        dsimp only
        cases fill_cases target mode content faults 1 hfresh hfree 0o600 [] with
        | inl hdone =>
          obtain ⟨goal, hgoal, hnode, hfill⟩ := hdone
          rw [hfill]
          exact ⟨_, _, rfl, .done hpath ⟨_, hcreate⟩ hgoal hnode⟩
        | inr hfailed =>
          obtain ⟨e, m, c, left, hfill, hcause⟩ := hfailed
          have hremove := remove_of_file (file_put hfresh hfree m c)
          rw [erase_put hfree] at hremove
          rw [hfill]
          dsimp only
          rw [Disk.remove_of_ok hremove]
          refine ⟨_, _, rfl, .failed hpath fun _ haccepts => ?_⟩
          obtain ⟨j, hj, hfault⟩ := hcause haccepts
          exact ⟨1 + j, by omega, hfault⟩

namespace Replacement

variable {disk disk' : Disk}

theorem directory_of_error {e : Failure} (h : Replacement target mode content disk (.error e) disk')
    : disk'.directory = disk.directory := by
  cases h with
  | refused hpath => rfl
  | failed hpath hcause => rfl

theorem pathFault?_of_ok (h : Replacement target mode content disk (.ok ()) disk')
    : pathFault? target = none := by
  cases h with
  | done hpath hfresh hgoal hnode => exact hpath

theorem nodeAt_of_ok (h : Replacement target mode content disk (.ok ()) disk')
    : disk'.directory.nodeAt target = .ok (some (.file mode content)) := by
  cases h with
  | done hpath hfresh hgoal hnode => exact nodeAt_put_self hgoal hnode

theorem accepts_of_ok (h : Replacement target mode content disk (.ok ()) disk')
    : disk.directory.Accepts target := by
  cases h with
  | done hpath hfresh hgoal hnode => exact ⟨_, hgoal, hnode⟩

end Replacement

end KeyStore

end SignedToken
