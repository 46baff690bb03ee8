import SignedToken.Proofs.KeyStore.Generation
import SignedToken.Proofs.KeyStore.Loading

/-!
This module contains all that the writing of key files does to a directory, whatever happens on the
way: files are put in place as a whole and one after the other, and nothing else is different
afterwards.
-/

namespace SignedToken

namespace Directory

variable {d between d' : Directory} {files : List (Path × Node)} {file : Path × Node} {n : Nat}

/--
That so many of some files have been put in place, and nothing else has happened. What a path of the
other files leads to is the same as before, be it a file, a folder, or nothing.
-/
structure Receives (d : Directory) (files : List (Path × Node)) (n : Nat) (d' : Directory)
    : Prop where
  bound : n ≤ files.length
  none : n = 0 → d' = d
  folders : SameFolders d d'
  others : ∀ place, (∀ file ∈ files, d.locate file.1 ≠ .ok place) → d'.node? place = d.node? place
  first : ∀ file ∈ files.take n, d'.nodeAt file.1 = .ok (some file.2)
  rest : ∀ file ∈ files.drop n, d'.nodeAt file.1 = d.nodeAt file.1

namespace Receives

theorem refl (d : Directory) (files : List (Path × Node)) : Receives d files 0 d where
  bound := Nat.zero_le _
  none _ := rfl
  folders := ⟨rfl, fun _ => Iff.rfl⟩
  others _ _ := rfl
  first := nofun
  rest _ _ := rfl

theorem put {target : Path} {goal : List Text} {mode : Nat} {content : Bytes}
    (hgoal : d.locate target = .ok goal) (hnode : d.node? goal ≠ some .folder)
    : Receives d [(target, .file mode content)] 1 (d.put goal (.file mode content)) where
  bound := Nat.le_refl _
  none := nofun
  folders := sameFolders_put_file hnode
  others place hplace := by
    apply node?_put_of_ne
    rintro rfl
    exact hplace _ List.mem_cons_self hgoal
  first := by
    intro file hfile
    cases List.mem_singleton.1 hfile
    exact nodeAt_put_self hgoal hnode
  rest := nofun

theorem nodeAt_eq {p : Path} {place : List Text} (h : Receives d files n d')
    (hplace : d.locate p = .ok place) (hfree : ∀ file ∈ files, d.locate file.1 ≠ .ok place)
    : d'.nodeAt p = d.nodeAt p := by
  rw [nodeAt, nodeAt, h.folders.locate hplace, hplace]
  exact congrArg Except.ok (h.others place hfree)

theorem cons (hfirst : Receives d [file] 1 between) (hrest : Receives between files n d')
    (hdistinct : ∀ place, d.locate file.1 = .ok place → ∀ other ∈ files, d.locate other.1 ≠ .ok place)
    (hkept : ∀ other ∈ files, between.nodeAt other.1 = d.nodeAt other.1)
    : Receives d (file :: files) (n + 1) d' where
  bound := Nat.succ_le_succ hrest.bound
  none := nofun
  folders :=
    ⟨hrest.folders.home.trans hfirst.folders.home,
      fun place => (hrest.folders.folder place).trans (hfirst.folders.folder place)⟩
  others place hplace := by
    rw [List.forall_mem_cons] at hplace
    have hbefore : between.node? place = d.node? place := by
      apply hfirst.others
      intro other hother
      rw [List.mem_singleton.1 hother]
      exact hplace.1
    rw [← hbefore]
    apply hrest.others
    intro other hother hlocate
    exact hplace.2 other hother (hfirst.folders.symm.locate hlocate)
  first := by
    rw [List.take_succ_cons, List.forall_mem_cons]
    refine ⟨?_, hrest.first⟩
    have hnew : between.nodeAt file.1 = .ok (some file.2) := hfirst.first file List.mem_cons_self
    rw [← hnew]
    obtain ⟨place, hplace⟩ : ∃ place, between.locate file.1 = .ok place := by
      cases hlocate : between.locate file.1 with
      | ok place => exact ⟨place, rfl⟩
      | error e =>
        rw [nodeAt, hlocate] at hnew
        cases hnew
    have hbefore : d.locate file.1 = .ok place := hfirst.folders.symm.locate hplace
    apply hrest.nodeAt_eq hplace
    intro other hother hlocate
    exact hdistinct place hbefore other hother (hfirst.folders.symm.locate hlocate)
  rest other hother := by
    rw [List.drop_succ_cons] at hother
    rw [hrest.rest other hother, hkept other (List.mem_of_mem_drop hother)]

end Receives

theorem locate_sibling_ne {p : Path} {name other : Text} {place : List Text}
    (hname : name ≠ Path.above) (hother : other ≠ Path.above) (hne : other ≠ name)
    (h : d.locate (p.child name) = .ok place) : d.locate (p.child other) ≠ .ok place := by
  obtain ⟨there, hleads, -, -, rfl⟩ := leads_of_locate_child h
  rw [locate_child_of_leads hleads, after_of_ne hname]
  split
  . exact nofun
  . split
    . exact nofun
    . rw [after_of_ne hother, ne_eq, Except.ok.injEq]
      simpa using hne

end Directory

namespace KeyStore

open Directory

variable {base : Text} {p : Profile} {disk disk' : Disk} {secret : Option Nat}

theorem Replacement.receives {target : Path} {mode : Nat} {content : Bytes}
    (h : Replacement target mode content disk (.ok ()) disk')
    : disk.directory.Receives [(target, .file mode content)] 1 disk'.directory := by
  cases h with
  | done hpath hfresh hgoal hnode => exact .put hgoal hnode

theorem locate_half_ne {d : Directory} {half other : KeyHalf} {place : List Text} (hne : other ≠ half)
    (h : d.locate (path half base) = .ok place) : d.locate (path other base) ≠ .ok place := by
  obtain ⟨folder, stem, hpaths⟩ := exists_path_eq base
  rw [hpaths] at h ⊢
  exact locate_sibling_ne KeyHalf.fileName_ne_above KeyHalf.fileName_ne_above
    (KeyHalf.fileName_ne hne) h

def pairFiles (secret : Option Nat) (base : Text) (p : Profile) : List (Path × Node) :=
  match newKey? secret p with
  | none => []
  | some k =>
    [(path .privateHalf base, .file 0o600 (k.toFile .pkcs8 true)),
      (path .publicHalf base, .file 0o644 (k.publicKey.toFile true))]

theorem Generation.receives {outcome : Except Failure Unit}
    (h : Generation secret base p disk outcome disk')
    : ∃ n, (outcome.isOk = true → n = (pairFiles secret base p).length) ∧
        disk.directory.Receives (pairFiles secret base p) n disk'.directory := by
  unfold pairFiles
  cases h with
  | keyFailed hkey => exact ⟨0, nofun, .refl _ _⟩
  | privateFailed hkey hprivate =>
    rw [hprivate.directory_of_error]
    exact ⟨0, nofun, .refl _ _⟩
  | publicFailed hkey hprivate hpublic =>
    rw [hkey, hpublic.directory_of_error]
    refine ⟨1, nofun, hprivate.receives.cons (.refl _ _) ?_ ?_⟩
    . exact fun place hplace => List.forall_mem_singleton.2 (locate_half_ne (by decide) hplace)
    . exact List.forall_mem_singleton.2 (hprivate.nodeAt_other (by decide))
  | done hkey hprivate hpublic =>
    rw [hkey]
    refine ⟨2, fun _ => rfl, hprivate.receives.cons hpublic.receives ?_ ?_⟩
    . exact fun place hplace => List.forall_mem_singleton.2 (locate_half_ne (by decide) hplace)
    . exact List.forall_mem_singleton.2 (hprivate.nodeAt_other (by decide))

def jwkFiles (base : Text) (p : Profile) (disk : Disk) : List (Path × Node) :=
  match (loadJwk base p).outcome disk with
  | .error _ => []
  | .ok jwk => [(jwkPath base, .file 0o644 (Utf8.encodeAny jwk.render))]

theorem writeJwk_cases (base : Text) (p : Profile) (records : List LogRecord) (disk : Disk)
    : ∃ outcome records' disk', (writeJwk base p).on records disk = ((outcome, records'), disk') ∧
        ((∃ e, (loadJwk base p).outcome disk = .error e ∧ outcome = .error e ∧
            disk'.directory = disk.directory) ∨
          ∃ jwk left result, (loadJwk base p).outcome disk = .ok jwk ∧
            Replacement (jwkPath base) KeyHalf.publicHalf.mode (Utf8.encodeAny jwk.render)
              ⟨disk.directory, left⟩ result disk' ∧
            outcome = result.map fun _ => jwkPath base) := by
  have hyields : (loadJwk base p).Yields disk _ := loadJwk_yields
  obtain ⟨between, left, hload⟩ := hyields records
  rw [hyields.outcome_eq]
  unfold writeJwk
  rw [Task.on_bind, hload]
  cases (loadingPublic base p disk).map fun k => Jwk.ofPublic p k.val with
  | error e => exact ⟨_, _, _, rfl, .inl ⟨e, rfl, rfl, rfl⟩⟩
  | ok jwk =>
    obtain ⟨result, disk', hreplace, hreplacement⟩ := replaceFile_cases (jwkPath base)
      KeyHalf.publicHalf.mode (Utf8.encodeAny jwk.render) between ⟨disk.directory, left⟩
    dsimp only
    rw [Task.on_bind, hreplace]
    cases result with
    | error e => exact ⟨_, _, _, rfl, .inr ⟨jwk, left, _, rfl, hreplacement, rfl⟩⟩
    | ok _ => exact ⟨_, _, _, rfl, .inr ⟨jwk, left, _, rfl, hreplacement, rfl⟩⟩

theorem writeJwk_receives (base : Text) (p : Profile) (disk : Disk)
    : ∃ outcome records disk' n,
        (writeJwk base p : Task (StateM Disk) Path).perform disk = ((outcome, records), disk') ∧
          (outcome.isOk = true → n = (jwkFiles base p disk).length) ∧
          disk.directory.Receives (jwkFiles base p disk) n disk'.directory := by
  unfold jwkFiles
  obtain ⟨outcome, records, disk', hon, hcases⟩ := writeJwk_cases base p [] disk
  obtain ⟨e, hload, rfl, hkept⟩ | ⟨jwk, left, result, hload, hreplacement, rfl⟩ := hcases
  . rw [hload]
    refine ⟨_, records, disk', 0, hon, nofun, ?_⟩
    rw [hkept]
    exact .refl _ _
  . rw [hload]
    cases result with
    | error e =>
      refine ⟨_, records, disk', 0, hon, nofun, ?_⟩
      rw [hreplacement.directory_of_error]
      exact .refl _ _
    | ok _ => exact ⟨_, records, disk', 1, hon, fun _ => rfl, hreplacement.receives⟩

/--
Generating a pair and writing a JSON form put whole files with fixed modes in place, the private half
before the public one, and do nothing else to a directory, whatever it is like and whichever steps fail;
if they succeed, then all of the files are in place.
-/
theorem generate_writeJwk_whole (base : Text) (p : Profile) (disk : Disk)
    : (∀ secret, ∃ outcome records disk' n,
        (generate secret base p : Task (StateM Disk) Unit).perform disk
          = ((outcome, records), disk') ∧
        (outcome.isOk = true → n = (pairFiles secret base p).length) ∧
        disk.directory.Receives (pairFiles secret base p) n disk'.directory) ∧
      ∃ outcome records disk' n,
        (writeJwk base p : Task (StateM Disk) Path).perform disk = ((outcome, records), disk') ∧
        (outcome.isOk = true → n = (jwkFiles base p disk).length) ∧
        disk.directory.Receives (jwkFiles base p disk) n disk'.directory := by
  refine ⟨fun secret => ?_, writeJwk_receives base p disk⟩
  obtain ⟨outcome, records, disk', hon, hgeneration⟩ := generate_cases secret base p [] disk
  obtain ⟨n, hn, hreceives⟩ := hgeneration.receives
  exact ⟨outcome, records, disk', n, hon, hn, hreceives⟩

end KeyStore

end SignedToken
