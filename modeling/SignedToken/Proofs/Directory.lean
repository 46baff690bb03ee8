import SignedToken.Directory
import SignedToken.Proofs.Entries

/-!
This module contains the laws of directories: what a single change leaves as it was, and which places
paths lead to. The way to a place only depends on the folders, so files come and go without a
difference to it.
-/

namespace SignedToken

namespace Directory

variable {d d' : Directory} {p : Path} {place : List Text} {n : Node}

theorem node?_of_ne_nil (h : place ≠ []) : d.node? place = Entries.get? place d.nodes := by
  rw [node?, if_neg (by simpa using h)]

theorem ne_nil_of_node? (h : d.node? place ≠ some .folder) : place ≠ [] := by
  rintro rfl
  exact h rfl

theorem node?_put_self (h : place ≠ []) : (d.put place n).node? place = some n := by
  rw [node?_of_ne_nil h, put, Entries.get?_put_self]

theorem node?_put_of_ne {other : List Text} (h : other ≠ place)
    : (d.put place n).node? other = d.node? other := by
  unfold node? put
  rw [Entries.get?_put_of_ne h]

theorem put_put (n' : Node) : (d.put place n).put place n' = d.put place n' := by
  simp [put]

theorem erase_put (h : d.node? place = none) : (d.put place n).erase place = d := by
  have hplace : place ≠ [] := ne_nil_of_node? (d := d) (by simp [h])
  rw [node?_of_ne_nil hplace, Entries.get?_eq_none_iff] at h
  rw [erase, put, Entries.erase_put h]

/-! ### The way to a place -/

def after (here : List Text) (name : Text) : List Text :=
  if name = Path.above then here.dropLast else here ++ [name]

theorem after_of_ne {here : List Text} {name : Text} (h : name ≠ Path.above)
    : after here name = here ++ [name] :=
  if_neg h

inductive Leads (d : Directory) : List Text → List Text → List Text → Prop where
  | here {here : List Text} : Leads d here [] here
  | step {here there : List Text} {name : Text} {rest : List Text}
      (hsize : Path.size name ≤ maxNameSize)
      (hfolder : d.node? (after here name) = some .folder)
      (hrest : Leads d (after here name) rest there) : Leads d here (name :: rest) there

theorem walk_of_leads {here there : List Text} {names : List Text} (h : d.Leads here names there)
    (name : Text)
    : d.walk here (names ++ [name])
        =
      if maxNameSize < Path.size name then .error .nameTooLong else .ok (after there name) := by
  induction h with
  | here => rfl
  | @step here there first rest hsize hfolder hrest ih =>
    have hrest : (rest ++ [name]).isEmpty = false := by simp
    rw [List.cons_append, walk, if_neg (Nat.not_lt_of_le hsize)]
    dsimp only
    rw [if_neg (by simp [hrest]), ← after, hfolder]
    exact ih

theorem leads_of_walk {here : List Text} {names : List Text} {name : Text}
    (h : d.walk here (names ++ [name]) = .ok place)
    : ∃ there, d.Leads here names there ∧ Path.size name ≤ maxNameSize ∧ place = after there name := by
  induction names generalizing here with
  | nil =>
    rw [List.nil_append, walk] at h
    split at h
    . cases h
    . next hsize =>
      cases h
      exact ⟨here, .here, Nat.le_of_not_lt hsize, rfl⟩
  | cons first rest ih =>
    have hrest : (rest ++ [name]).isEmpty = false := by simp
    rw [List.cons_append, walk] at h
    split at h
    . cases h
    . next hsize =>
      dsimp only at h
      rw [if_neg (by simp [hrest]), ← after] at h
      cases hnode : d.node? (after here first) with
      | none =>
        rw [hnode] at h
        cases h
      | some n =>
        rw [hnode] at h
        cases n with
        | file mode content => cases h
        | folder =>
          obtain ⟨there, hleads, hname, hplace⟩ := ih h
          exact ⟨there, .step (Nat.le_of_not_lt hsize) hnode hleads, hname, hplace⟩

/-! ### Directories with the same folders -/

structure SameFolders (d d' : Directory) : Prop where
  home : d'.home = d.home
  folder : ∀ place, d'.node? place = some .folder ↔ d.node? place = some .folder

theorem sameFolders_put_file {mode : Nat} {content : Bytes} (h : d.node? place ≠ some .folder)
    : SameFolders d (d.put place (.file mode content)) := by
  refine ⟨rfl, fun other => ?_⟩
  by_cases hother : other = place
  . rw [hother, node?_put_self (ne_nil_of_node? h)]
    exact iff_of_false nofun h
  . rw [node?_put_of_ne hother]

theorem SameFolders.leads (hsame : SameFolders d d') {here there names : List Text}
    (h : d.Leads here names there) : d'.Leads here names there := by
  induction h with
  | here => exact .here
  | step hsize hfolder _ ih => exact .step hsize ((hsame.folder _).2 hfolder) ih

theorem SameFolders.symm (h : SameFolders d d') : SameFolders d' d :=
  ⟨h.home.symm, fun place => (h.folder place).symm⟩

def origin (d : Directory) (p : Path) : List Text :=
  if p.root.isEmpty then d.home else []

theorem locate_child_of_leads {there : List Text} (h : d.Leads (d.origin p) p.names there)
    (name : Text)
    : d.locate (p.child name)
        =
      if maxPathSize < Path.size (p.child name).toText then .error .nameTooLong
      else if maxNameSize < Path.size name then .error .nameTooLong
      else .ok (after there name) := by
  unfold locate
  split
  . rfl
  . exact walk_of_leads h name

theorem leads_of_locate_child {name : Text} (h : d.locate (p.child name) = .ok place)
    : ∃ there, d.Leads (d.origin p) p.names there ∧ Path.size (p.child name).toText ≤ maxPathSize ∧
        Path.size name ≤ maxNameSize ∧ place = after there name := by
  unfold locate at h
  split at h
  . cases h
  . next hsize =>
    obtain ⟨there, hleads, hname, hplace⟩ := leads_of_walk h
    exact ⟨there, hleads, Nat.le_of_not_lt hsize, hname, hplace⟩

theorem SameFolders.locate (hsame : SameFolders d d') (h : d.locate p = .ok place)
    : d'.locate p = .ok place := by
  unfold Directory.locate at h ⊢
  rw [hsame.home]
  split at h
  . cases h
  . next hsize =>
    rw [if_neg hsize]
    obtain hnames | ⟨names, name, hnames⟩ := List.eq_nil_or_concat p.names
    . rw [hnames] at h ⊢
      exact h
    . rw [hnames, List.concat_eq_append] at h ⊢
      obtain ⟨there, hleads, hname, rfl⟩ := leads_of_walk h
      rw [walk_of_leads (hsame.leads hleads), if_neg (Nat.not_lt_of_le hname)]

/-! ### Single changes -/

theorem file_eq_ok {mode : Nat} {content : Bytes} (hplace : d.locate p = .ok place)
    (hfile : d.node? place = some (.file mode content)) : d.file p = .ok (place, mode, content) := by
  rw [file, hplace]
  dsimp only [bind, Except.bind]
  rw [hfile]
  rfl

theorem createFresh_eq_ok {parent : Path} {start : Text} {fresh : Path}
    (h : d.createFresh parent start = .ok (fresh, d'))
    : ∃ i place, fresh = parent.child (start ++ freshEnd i) ∧ d.locate fresh = .ok place ∧
        d.node? place = none ∧ d' = d.put place (.file 0o600 []) := by
  have hgo : ∀ fuel i, createFresh.go d parent start fuel i = .ok (fresh, d') →
      ∃ i place, fresh = parent.child (start ++ freshEnd i) ∧ d.locate fresh = .ok place ∧
        d.node? place = none ∧ d' = d.put place (.file 0o600 []) := by
    intro fuel
    induction fuel with
    | zero => exact nofun
    | succ fuel ih =>
      intro i h
      rw [createFresh.go] at h
      dsimp only [bind, Except.bind] at h
      cases hlocate : d.locate (parent.child (start ++ freshEnd i)) with
      | error e =>
        rw [hlocate] at h
        cases h
      | ok place =>
        rw [hlocate] at h
        dsimp only at h
        cases hnode : d.node? place with
        | some n =>
          rw [hnode] at h
          exact ih (i + 1) h
        | none =>
          rw [hnode] at h
          cases h
          exact ⟨i, place, rfl, hlocate, hnode, rfl⟩
  exact hgo _ _ h

/-! ### What is at the end of a path -/

def nodeAt (d : Directory) (p : Path) : Except FileError (Option Node) :=
  (d.locate p).map d.node?

theorem nodeAt_put_self {goal : List Text} {mode : Nat} {content : Bytes}
    (hgoal : d.locate p = .ok goal) (hnode : d.node? goal ≠ some .folder)
    : (d.put goal (.file mode content)).nodeAt p = .ok (some (.file mode content)) := by
  rw [nodeAt, (sameFolders_put_file hnode).locate hgoal, ← node?_put_self (ne_nil_of_node? hnode)]
  rfl

theorem nodeAt_put_sibling {goal : List Text} {name other : Text} {mode : Nat} {content : Bytes}
    (hgoal : d.locate (p.child name) = .ok goal) (hnode : d.node? goal ≠ some .folder)
    (hname : name ≠ Path.above) (hother : other ≠ Path.above) (hne : other ≠ name)
    : (d.put goal (.file mode content)).nodeAt (p.child other) = d.nodeAt (p.child other) := by
  obtain ⟨there, hleads, -, -, rfl⟩ := leads_of_locate_child hgoal
  have hleads' : (d.put (after there name) (.file mode content)).Leads (d.origin p) p.names there :=
    (sameFolders_put_file hnode).leads hleads
  unfold nodeAt
  rw [locate_child_of_leads hleads, locate_child_of_leads hleads']
  split
  . rfl
  . split
    . rfl
    . have hplaces : after there other ≠ after there name := by
        rw [after_of_ne hother, after_of_ne hname]
        simpa using hne
      exact congrArg Except.ok (node?_put_of_ne hplaces)

end Directory

end SignedToken
