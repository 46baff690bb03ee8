import SignedToken.Proofs.Json.Accepted

/-!
This module contains the laws of written JSON texts: they are of the grammar, so the reader takes each
of them back to its value as long as that is not nested too deeply.
-/

namespace SignedToken.Json

open Reader

structure Style.Separates (s : Style) : Prop where
  item : ∃ blanks, s.itemSeparator = comma :: blanks ∧ ∀ c ∈ blanks, isSpace c = true
  name : ∃ blanks, s.nameSeparator = colon :: blanks ∧ ∀ c ∈ blanks, isSpace c = true

theorem Style.canonical_separates : Style.canonical.Separates where
  item := ⟨[], rfl, by simp⟩
  name := ⟨[], rfl, by simp⟩

theorem Style.line_separates : Style.line.Separates where
  item := ⟨[0x20], rfl, List.forall_mem_singleton.2 rfl⟩
  name := ⟨[0x20], rfl, List.forall_mem_singleton.2 rfl⟩

/--
What is read back of a written text: integers that have a numeral, and texts as far as their
surrogates are not written as escapes.
-/
structure Readable (asciiOnly : Bool) (j : Json) : Prop where
  numeral : ∀ n, Within (.int n) j → hasNumeral n = true
  legible : asciiOnly = true → j.IsLegible

section Parts

variable {asciiOnly : Bool}

theorem Readable.item {items : List Json} (h : Readable asciiOnly (.array items)) {x : Json}
    (hx : x ∈ items) : Readable asciiOnly x where
  numeral := fun n hn => h.numeral n (.item hx hn)
  legible := fun ha => isLegible_array_iff.1 (h.legible ha) x hx

theorem Readable.member {members : List (Text × Json)} (h : Readable asciiOnly (.object members))
    {m : Text × Json} (hm : m ∈ members) : Readable asciiOnly m.2 where
  numeral := fun n hn => h.numeral n (.member hm hn)
  legible := fun ha => (isLegible_object_iff.1 (h.legible ha) m hm).2

end Parts

section Containers

variable {s : Style}

def padded {blanks : Text} (h : IsBlank blanks) (t : Text) : Padded :=
  ⟨blanks, t, [], h, isBlank_nil⟩

theorem padded_whole {blanks : Text} (h : IsBlank blanks) (t : Text)
    : (padded h t).whole = blanks ++ t := by
  rw [Padded.whole, padded, List.append_nil]

theorem valueText_array (hs : s.Separates) {items : List Json}
    (h : ∀ x ∈ items, ValueText x (x.write s)) : ValueText (.array items) (write s (.array items)) := by
  obtain ⟨blanks, hsep, (hblanks : IsBlank blanks)⟩ := hs.item
  rw [write, bracketed, writeItems_eq_map, hsep]
  cases items with
  | nil => exact .emptyArray isBlank_nil
  | cons x xs =>
    have harray := @ValueText.array
      ((x, padded isBlank_nil (x.write s)) :: xs.map fun y => (y, padded hblanks (y.write s)))
      (List.cons_ne_nil _ _) ?_
    . have hwhole : xs.map ((·.2.whole) ∘ fun y => (y, padded hblanks (y.write s)))
          = xs.map ((blanks ++ ·) ∘ write s) :=
        List.map_congr_left fun y _ => padded_whole hblanks (y.write s)
      have hid : xs.map ((·.1) ∘ fun y => (y, padded hblanks (y.write s))) = xs := List.map_id xs
      rw [List.map_cons, List.map_cons, List.map_map, List.map_map, padded_whole, hwhole, hid] at harray
      rw [List.map_cons, Text.join_cons_separator, List.map_map]
      exact harray
    . rw [List.forall_mem_cons] at h ⊢
      exact ⟨h.1, List.forall_mem_map.2 h.2⟩

def writtenMember (s : Style) {lead blanks : Text} (hlead : IsBlank lead) (hblanks : IsBlank blanks)
    (m : Text × Json) : WrittenMember where
  name := m.1
  nameText := padded hlead (quoted s.asciiOnly m.1)
  value := m.2
  valueText := padded hblanks (m.2.write s)

theorem valueText_object (hs : s.Separates) {members : List (Text × Json)}
    (hnames : ∀ m ∈ members, s.asciiOnly = true → m.1.any CodePoint.isSurrogate = false)
    (h : ∀ m ∈ members, ValueText m.2 (m.2.write s))
    : ValueText (.object members) (write s (.object members)) := by
  obtain ⟨blanks, hsep, (hblanks : IsBlank blanks)⟩ := hs.item
  obtain ⟨nameBlanks, hcolon, (hnameBlanks : IsBlank nameBlanks)⟩ := hs.name
  rw [write, braced, writeMembers_eq_map, hsep]
  cases members with
  | nil => exact .emptyObject isBlank_nil
  | cons m ms =>
    have hwhole : ∀ {lead : Text} (hlead : IsBlank lead) (n : Text × Json),
        (writtenMember s hlead hnameBlanks n).whole
          = lead ++ (quoted s.asciiOnly n.1 ++ s.nameSeparator ++ n.2.write s) := by
      intro lead hlead n
      simp [WrittenMember.whole, writtenMember, padded_whole hlead, padded_whole hnameBlanks, hcolon]
    have hobject := @ValueText.object
      (writtenMember s isBlank_nil hnameBlanks m :: ms.map (writtenMember s hblanks hnameBlanks))
      (List.cons_ne_nil _ _) ?_ ?_
    . have hwholes : ms.map ((·.whole) ∘ writtenMember s hblanks hnameBlanks)
          = ms.map ((blanks ++ ·) ∘ fun n => quoted s.asciiOnly n.1 ++ s.nameSeparator ++ n.2.write s) :=
        List.map_congr_left fun n _ => hwhole hblanks n
      have hid : ms.map ((fun n => (n.name, n.value)) ∘ writtenMember s hblanks hnameBlanks) = ms :=
        List.map_id ms
      rw [List.map_cons, List.map_cons, List.map_map, List.map_map, hwhole, hwholes, hid] at hobject
      rw [List.map_cons, Text.join_cons_separator, List.map_map]
      exact hobject
    . rw [List.forall_mem_cons] at hnames ⊢
      exact ⟨quotedText_quoted hnames.1,
        List.forall_mem_map.2 fun n hn => quotedText_quoted (hnames.2 n hn)⟩
    . rw [List.forall_mem_cons] at h ⊢
      exact ⟨h.1, List.forall_mem_map.2 h.2⟩

end Containers

theorem valueText_write {s : Style} (hs : s.Separates) {j : Json} (hj : Readable s.asciiOnly j)
    : ValueText j (j.write s) := by
  induction j with
  | null => exact .null
  | bool b =>
    cases b with
    | true => exact .true
    | false => exact .false
  | int n => exact valueText_ofInt (hj.numeral n .self)
  | float x => exact valueText_render x
  | text t => exact .text (quotedText_quoted fun ha => hj.legible ha _ .self)
  | array items ih => exact valueText_array hs fun x hx => ih x hx (hj.item hx)
  | object members ih =>
    exact valueText_object hs
      (fun m hm ha => (isLegible_object_iff.1 (hj.legible ha) m hm).1)
      fun m hm => ih m hm (hj.member hm)

theorem read?_write (d : Dialect) {s : Style} (hs : s.Separates) {j : Json}
    (hj : Readable s.asciiOnly j)
    : read? d (j.write s) = if j.nesting d.countsEmpty ≤ d.maxDepth then some j else none :=
  read?_of_hasText d ⟨padded isBlank_nil (j.write s), (padded_whole isBlank_nil _).symm,
    valueText_write hs hj⟩

theorem write_inj {s : Style} (hs : s.Separates) {j k : Json} (hj : Readable s.asciiOnly j)
    (hk : Readable s.asciiOnly k) (h : j.write s = k.write s) : j = k := by
  -- A reader that is as deep as both values reads each of them back.
  have hread : ∀ {i : Json}, Readable s.asciiOnly i →
      i.nesting false ≤ max (j.nesting false) (k.nesting false) →
        read? ⟨false, max (j.nesting false) (k.nesting false), false, false⟩ (i.write s) = some i := by
    intro i hi hdepth
    rw [read?_write _ hs hi, if_pos hdepth]
  have hleft := hread hj (Nat.le_max_left _ _)
  rw [h, hread hk (Nat.le_max_right _ _)] at hleft
  exact (Option.some_inj.1 hleft).symm

end SignedToken.Json
