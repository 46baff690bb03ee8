import SignedToken.Proofs.Directory.Fresh
import SignedToken.KeyStore

/-!
This module contains the paths of a key pair. The halves are siblings, and the name of the public half
is the shorter one, so whatever has room for the private half has room for the public one.
-/

namespace SignedToken

namespace KeyHalf

theorem slash_not_mem_suffix : ∀ half : KeyHalf, Path.slash ∉ Text.ofString half.suffix
  | .privateHalf => by decide
  | .publicHalf => by decide

theorem two_lt_length_suffix : ∀ half : KeyHalf, 2 < (Text.ofString half.suffix).length
  | .privateHalf => by decide
  | .publicHalf => by decide

theorem ascii_suffix (half : KeyHalf) : ∀ c ∈ Text.ofString half.suffix, c.val < 0x80 := by
  have hall : (Text.ofString half.suffix).all fun c => c.val < 0x80 := by
    cases half with
    | privateHalf => decide
    | publicHalf => decide
  simpa using hall

theorem isNameable_suffix (half : KeyHalf) : ∀ c ∈ Text.ofString half.suffix, Path.IsNameable c := by
  have hall : (Text.ofString half.suffix).all fun c => c.val != 0 := by
    cases half with
    | privateHalf => decide
    | publicHalf => decide
  intro c hc
  exact Path.isNameable_of_ascii (half.ascii_suffix c hc) (bne_iff_ne.1 (List.all_eq_true.1 hall c hc))

def fileName (half : KeyHalf) (stem : Text) : Text :=
  stem ++ Text.ofString half.suffix

variable {half : KeyHalf} {stem : Text}

theorem fileName_ne_above : half.fileName stem ≠ Path.above := by
  intro h
  have hlength := congrArg List.length h
  have habove : Path.above.length = 2 := by decide
  have hsuffix := half.two_lt_length_suffix
  rw [fileName, List.length_append] at hlength
  omega

theorem fileName_ne {other : KeyHalf} (hne : other ≠ half)
    : other.fileName stem ≠ half.fileName stem := by
  rw [fileName, fileName, ne_eq, List.append_cancel_left_eq]
  cases half with
  | privateHalf =>
    cases other with
    | privateHalf => exact absurd rfl hne
    | publicHalf => decide
  | publicHalf =>
    cases other with
    | privateHalf => decide
    | publicHalf => exact absurd rfl hne

theorem isSome_encode?_fileName (hstem : (Path.encode? stem).isSome = true)
    : (Path.encode? (half.fileName stem)).isSome = true := by
  rw [fileName, Path.isSome_encode?_append_iff, Path.encode?_of_ascii half.ascii_suffix]
  exact ⟨hstem, rfl⟩

theorem size_fileName_public_le (hstem : (Path.encode? stem).isSome = true)
    : Path.size (publicHalf.fileName stem) ≤ Path.size (privateHalf.fileName stem) := by
  rw [fileName, fileName, Path.size_append_of_ascii hstem publicHalf.ascii_suffix,
    Path.size_append_of_ascii hstem privateHalf.ascii_suffix]
  exact Nat.add_le_add_left (by decide) _

end KeyHalf

namespace KeyStore

open Directory

variable {folder : Path} {stem base : Text} {half : KeyHalf}

theorem exists_path_eq (base : Text)
    : ∃ (folder : Path) (stem : Text), ∀ half, path half base = folder.child (half.fileName stem) := by
  obtain ⟨folder, stem, h⟩ := Path.exists_ofText_append base
  exact ⟨folder, stem, fun half => h _ half.slash_not_mem_suffix (Nat.le_of_lt half.two_lt_length_suffix)⟩

theorem path_public_ne_private : path .publicHalf base ≠ path .privateHalf base := by
  obtain ⟨folder, stem, hpaths⟩ := exists_path_eq base
  intro h
  have hname := congrArg Path.name h
  rw [hpaths, hpaths, Path.name_child, Path.name_child] at hname
  exact KeyHalf.fileName_ne (by decide) hname

theorem pathFault?_eq_none_iff {p : Path}
    : pathFault? p = none ↔ ∀ c ∈ p.toText, Path.IsNameable c := by
  rw [Path.forall_isNameable_iff, pathFault?]
  cases Path.encode? p.toText with
  | none => exact iff_of_false nofun nofun
  | some octets =>
    dsimp only
    by_cases hzero : 0 ∈ octets
    . rw [if_pos (List.contains_iff_mem.2 hzero)]
      apply iff_of_false nofun
      rintro ⟨_, hsame, hnone⟩
      cases hsame
      exact hnone hzero
    . rw [if_neg fun hcontains => hzero (List.contains_iff_mem.1 hcontains)]
      exact iff_of_true rfl ⟨octets, rfl, hzero⟩

theorem pathFault?_ofText_append_eq_none_iff {ending : Text} (h : ∀ c ∈ ending, Path.IsNameable c)
    : pathFault? (Path.ofText (base ++ ending)) = none ↔ ∀ c ∈ base, Path.IsNameable c := by
  have hascii : ∀ c : CodePoint, c.val < 0x80 ∧ c.val ≠ 0 → Path.IsNameable c := fun c hc =>
    Path.isNameable_of_ascii hc.1 hc.2
  rw [pathFault?_eq_none_iff,
    Path.forall_mem_toText_ofText_iff (hascii _ (by decide)) (hascii _ (by decide)),
    List.forall_mem_append, and_iff_left h]

theorem pathFault?_path_eq_none_iff
    : pathFault? (path half base) = none ↔ ∀ c ∈ base, Path.IsNameable c :=
  pathFault?_ofText_append_eq_none_iff half.isNameable_suffix

theorem pathFault?_jwkPath_eq_none_iff
    : pathFault? (jwkPath base) = none ↔ ∀ c ∈ base, Path.IsNameable c := by
  have hall : (Text.ofString ".jwk").all fun c => c.val < 0x80 && c.val != 0 := by decide
  apply pathFault?_ofText_append_eq_none_iff
  intro c hc
  have hc := List.all_eq_true.1 hall c hc
  rw [Bool.and_eq_true, decide_eq_true_eq, bne_iff_ne] at hc
  exact Path.isNameable_of_ascii hc.1 hc.2

theorem pathFault?_child_eq_none_iff
    : pathFault? (folder.child (half.fileName stem)) = none
        ↔
      ∀ c ∈ folder.lead ++ stem, Path.IsNameable c := by
  rw [pathFault?_eq_none_iff, Path.toText_child, KeyHalf.fileName, ← List.append_assoc,
    List.forall_mem_append, and_iff_left half.isNameable_suffix]

section Private

variable {d d' : Directory} (hsame : SameFolders d d')
  (hpath : pathFault? (folder.child (KeyHalf.privateHalf.fileName stem)) = none)

include hpath

theorem isSome_encode?_of_pathFault?
    : (Path.encode? folder.lead).isSome = true ∧ (Path.encode? stem).isSome = true := by
  obtain ⟨octets, hoctets, -⟩ := Path.forall_isNameable_iff.1 (pathFault?_child_eq_none_iff.1 hpath)
  rw [← Path.isSome_encode?_append_iff, hoctets]
  rfl

include hsame

theorem exists_locate_public {goal : List Text}
    (h : d.locate (folder.child (KeyHalf.privateHalf.fileName stem)) = .ok goal)
    : ∃ goal', d'.locate (folder.child (KeyHalf.publicHalf.fileName stem)) = .ok goal' := by
  obtain ⟨hlead, hstem⟩ := isSome_encode?_of_pathFault? hpath
  exact exists_locate_of_size_le hsame hlead (KeyHalf.isSome_encode?_fileName hstem)
    (KeyHalf.isSome_encode?_fileName hstem) (KeyHalf.size_fileName_public_le hstem) h

theorem exists_createBeside_public (hnodes : d'.nodes.length < freshCount) {made : Path × Directory}
    (h : d.createBeside (folder.child (KeyHalf.privateHalf.fileName stem)) = .ok made)
    : ∃ made', d'.createBeside (folder.child (KeyHalf.publicHalf.fileName stem)) = .ok made' := by
  obtain ⟨hlead, hstem⟩ := isSome_encode?_of_pathFault? hpath
  exact exists_createBeside_of_size_le hsame hnodes hlead (KeyHalf.isSome_encode?_fileName hstem)
    (KeyHalf.isSome_encode?_fileName hstem) (KeyHalf.size_fileName_public_le hstem) h

end Private

end KeyStore

end SignedToken
