import SignedToken.Proofs.Directory
import SignedToken.Proofs.Directory.Path
import SignedToken.Proofs.Text.Decimal

/-!
This module contains when a file of a fresh name can be made: the folder has to be there and the name
must not be too long. There are more names than nodes, so one of them is not taken.
-/

namespace SignedToken.Directory

variable {d d' : Directory} {parent : Path} {start : Text}

theorem exists_locate_of_size_le {p : Path} {name other : Text} {place : List Text}
    (hsame : SameFolders d d') (hlead : (Path.encode? p.lead).isSome = true)
    (hname : (Path.encode? name).isSome = true) (hother : (Path.encode? other).isSome = true)
    (hle : Path.size other ≤ Path.size name) (h : d.locate (p.child name) = .ok place)
    : ∃ place', d'.locate (p.child other) = .ok place' := by
  obtain ⟨there, hleads, hpath, hsize, -⟩ := leads_of_locate_child h
  have horigin : d'.origin p = d.origin p := by rw [origin, origin, hsame.home]
  rw [Path.toText_child, Path.size_append hlead hname] at hpath
  rw [locate_child_of_leads (horigin ▸ hsame.leads hleads), Path.toText_child,
    Path.size_append hlead hother, if_neg (by omega), if_neg (by omega)]
  exact ⟨_, rfl⟩

/-! ### Fresh names -/

def freshCount : Nat := 16 ^ 8

theorem freshEnd_inj {i j : Nat} (h : freshEnd i = freshEnd j) : i = j :=
  Text.hexOfNatPadded_inj h

theorem length_freshEnd {i : Nat} (h : i < freshCount) : (freshEnd i).length = 8 :=
  Text.length_hexOfNatPadded (by decide) h

theorem le_length_freshEnd (i : Nat) : 8 ≤ (freshEnd i).length :=
  Text.le_length_hexOfNatPadded 8 i

theorem ascii_freshEnd {i : Nat} : ∀ c ∈ freshEnd i, c.val < 0x80 :=
  Text.val_lt_of_mem_hexOfNatPadded

theorem getLast?_of_locate_fresh {i : Nat} {place : List Text}
    (h : d.locate (parent.child (start ++ freshEnd i)) = .ok place)
    : place.getLast? = some (start ++ freshEnd i) := by
  have hne : start ++ freshEnd i ≠ Path.above := by
    intro habove
    have hlength := congrArg List.length habove
    have hshort : Path.above.length = 2 := by decide
    have hlong := le_length_freshEnd i
    rw [List.length_append] at hlength
    omega
  obtain ⟨there, -, -, -, rfl⟩ := leads_of_locate_child h
  rw [after_of_ne hne, List.getLast?_concat]

theorem createFresh.go_eq_ok_or_taken (fuel i : Nat)
    (hlocate : ∀ j < i + fuel, ∃ place, d.locate (parent.child (start ++ freshEnd j)) = .ok place)
    : (∃ made, go d parent start fuel i = .ok made) ∨
        ∀ j, i ≤ j → j < i + fuel → some (start ++ freshEnd j) ∈ d.nodes.map (·.1.getLast?) := by
  induction fuel generalizing i with
  | zero => exact .inr fun j hi hj => by omega
  | succ fuel ih =>
    obtain ⟨place, hplace⟩ := hlocate i (by omega)
    rw [go]
    dsimp only [bind, Except.bind]
    rw [hplace]
    dsimp only
    cases hnode : d.node? place with
    | none => exact .inl ⟨_, rfl⟩
    | some n =>
      have hmem : some (start ++ freshEnd i) ∈ d.nodes.map (·.1.getLast?) := by
        have hlast := getLast?_of_locate_fresh hplace
        have hne : place ≠ [] := by
          rintro rfl
          cases hlast
        have hplaces : place ∈ d.nodes.map (·.1) := by
          apply Classical.not_not.1
          intro hnot
          rw [node?_of_ne_nil hne, Entries.get?_eq_none_iff.2 hnot] at hnode
          cases hnode
        obtain ⟨e, he, rfl⟩ := List.mem_map.1 hplaces
        exact List.mem_map.2 ⟨e, he, hlast⟩
      cases ih (i + 1) fun j hj => hlocate j (by omega) with
      | inl hmade => exact .inl hmade
      | inr htaken =>
        refine .inr fun j hi hj => ?_
        by_cases heq : i = j
        . exact heq ▸ hmem
        . exact htaken j (by omega) (by omega)

theorem exists_createFresh (hnodes : d.nodes.length < freshCount)
    (hlocate : ∀ i < freshCount, ∃ place, d.locate (parent.child (start ++ freshEnd i)) = .ok place)
    : ∃ made, d.createFresh parent start = .ok made := by
  have hgo := createFresh.go_eq_ok_or_taken (d.nodes.length + 1) 0 fun j hj => hlocate j (by omega)
  refine hgo.resolve_right fun htaken => ?_
  -- The names that were tried are one more than the nodes.
  let tried := (List.range (d.nodes.length + 1)).map fun j => some (start ++ freshEnd j)
  have hnodup : tried.Nodup := by
    rw [List.Nodup, List.pairwise_map]
    refine List.nodup_range.imp fun hne heq => hne ?_
    rw [Option.some_inj, List.append_cancel_left_eq] at heq
    exact freshEnd_inj heq
  have hsubset : tried ⊆ d.nodes.map (·.1.getLast?) := by
    intro name hname
    obtain ⟨j, hj, rfl⟩ := List.mem_map.1 hname
    rw [List.mem_range] at hj
    exact htaken j (Nat.zero_le j) (by omega)
  have hlength := hnodup.length_le_of_subset hsubset
  simp only [tried, List.length_map, List.length_range] at hlength
  omega

theorem exists_createFresh_of_size_le {start' : Text} {made : Path × Directory}
    (hsame : SameFolders d d') (hnodes : d'.nodes.length < freshCount)
    (hlead : (Path.encode? parent.lead).isSome = true)
    (hstart : (Path.encode? start).isSome = true) (hstart' : (Path.encode? start').isSome = true)
    (hle : Path.size start' ≤ Path.size start) (h : d.createFresh parent start = .ok made)
    : ∃ made', d'.createFresh parent start' = .ok made' := by
  have hend : ∀ i, (Path.encode? (freshEnd i)).isSome = true := fun i => by
    rw [Path.encode?_of_ascii ascii_freshEnd]
    rfl
  obtain ⟨i, place, hfresh, hlocate, -, -⟩ := createFresh_eq_ok h
  rw [hfresh] at hlocate
  refine exists_createFresh hnodes fun j hj => exists_locate_of_size_le hsame hlead
    (Path.isSome_encode?_append_iff.2 ⟨hstart, hend i⟩)
    (Path.isSome_encode?_append_iff.2 ⟨hstart', hend j⟩) ?_ hlocate
  have hlong := le_length_freshEnd i
  have hshort := length_freshEnd hj
  rw [Path.size_append_of_ascii hstart ascii_freshEnd, Path.size_append_of_ascii hstart' ascii_freshEnd]
  omega

/-! ### Files beside others -/

def freshStart (name : Text) : Text :=
  Path.dot :: (name ++ [Path.dot])

def createBeside (d : Directory) (target : Path) : Except FileError (Path × Directory) :=
  d.createFresh target.parent.straight (freshStart target.name)

theorem freshStart_encode? {name : Text} {octets : Bytes} (h : Path.encode? name = some octets)
    : Path.encode? (freshStart name) = some (0x2E :: (octets ++ [0x2E])) := by
  rw [freshStart, Path.encode?_cons, Path.encode?_append, h]
  rfl

theorem exists_createBeside_of_size_le {p : Path} {name other : Text} {made : Path × Directory}
    (hsame : SameFolders d d') (hnodes : d'.nodes.length < freshCount)
    (hlead : (Path.encode? p.lead).isSome = true) (hname : (Path.encode? name).isSome = true)
    (hother : (Path.encode? other).isSome = true) (hle : Path.size other ≤ Path.size name)
    (h : d.createBeside (p.child name) = .ok made)
    : ∃ made', d'.createBeside (p.child other) = .ok made' := by
  obtain ⟨a, ha⟩ := Option.isSome_iff_exists.1 hname
  obtain ⟨b, hb⟩ := Option.isSome_iff_exists.1 hother
  have ha' := freshStart_encode? ha
  have hb' := freshStart_encode? hb
  unfold createBeside at h ⊢
  rw [Path.name_child, Path.parent_child] at h ⊢
  refine exists_createFresh_of_size_le hsame hnodes (Path.isSome_encode?_lead_straight hlead)
    (by rw [ha']; rfl) (by rw [hb']; rfl) ?_ h
  simp only [Path.size, ha, hb, ha', hb', Option.getD_some, List.length_cons, List.length_append,
    List.length_nil] at hle ⊢
  omega

end SignedToken.Directory
