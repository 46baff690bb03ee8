import SignedToken.Directory.Path
import SignedToken.Proofs.Text.Pieces
import SignedToken.Proofs.Text.Utf8

/-!
This module contains the laws of paths: how long the path to a name in a folder is, and that a path
without its detours is made of the same names.
-/

namespace SignedToken.Path

theorem encode?_cons (c : CodePoint) (t : Text)
    : encode? (c :: t) = (encodeCodePoint? c).bind fun a => (encode? t).map (a ++ ·) := by
  unfold encode?
  rw [List.mapM_cons]
  cases encodeCodePoint? c with
  | none => rfl
  | some a =>
    cases t.mapM encodeCodePoint? with
    | none => rfl
    | some bs => rfl

theorem encode?_append (s t : Text)
    : encode? (s ++ t) = (encode? s).bind fun a => (encode? t).map (a ++ ·) := by
  induction s with
  | nil =>
    change encode? t = (some []).bind _
    simp
  | cons c s ih =>
    rw [List.cons_append, encode?_cons, encode?_cons, ih]
    cases encodeCodePoint? c with
    | none => rfl
    | some a =>
      cases encode? s with
      | none => rfl
      | some b =>
        cases encode? t with
        | none => rfl
        | some b' => exact congrArg some (List.append_assoc a b b').symm

theorem isSome_encode?_append_iff {s t : Text}
    : (encode? (s ++ t)).isSome = true ↔ (encode? s).isSome = true ∧ (encode? t).isSome = true := by
  rw [encode?_append]
  cases encode? s with
  | none => simp
  | some a => simp

theorem size_append {s t : Text} (hs : (encode? s).isSome = true) (ht : (encode? t).isSome = true)
    : size (s ++ t) = size s + size t := by
  obtain ⟨a, ha⟩ := Option.isSome_iff_exists.1 hs
  obtain ⟨b, hb⟩ := Option.isSome_iff_exists.1 ht
  rw [size, size, size, encode?_append, ha, hb]
  exact List.length_append

theorem encodeCodePoint?_of_ascii {c : CodePoint} (h : c.val < 0x80)
    : encodeCodePoint? c = some [c.val.toUInt8] := by
  have hsurrogate : c.isSurrogate = false := by
    simp [CodePoint.isSurrogate]
    omega
  rw [encodeCodePoint?, if_neg (by omega), Utf8.encode?]
  simp [hsurrogate, Utf8.encodeAny, Utf8.encodeCodePoint, h]

theorem encode?_of_ascii {t : Text} (h : ∀ c ∈ t, c.val < 0x80)
    : encode? t = some (t.map fun c => c.val.toUInt8) := by
  induction t with
  | nil => rfl
  | cons c t ih =>
    rw [List.forall_mem_cons] at h
    rw [encode?_cons, encodeCodePoint?_of_ascii h.1, ih h.2]
    rfl

theorem size_append_of_ascii {s t : Text} (hs : (encode? s).isSome = true)
    (ht : ∀ c ∈ t, c.val < 0x80) : size (s ++ t) = size s + t.length := by
  have henc := encode?_of_ascii ht
  rw [size_append hs (by rw [henc]; rfl), size, size, henc]
  simp

/-! ### The path to a name in a folder -/

def lead (p : Path) : Text :=
  if p.names = [] then p.root else p.root ++ (Text.join [slash] p.names ++ [slash])

@[simp]
theorem name_child (p : Path) (name : Text) : (p.child name).name = name := by
  simp [Path.name, child]

@[simp]
theorem parent_child (p : Path) (name : Text) : (p.child name).parent = p := by
  simp [parent, child]

theorem toText_child (p : Path) (name : Text) : (p.child name).toText = p.lead ++ name := by
  have hnames : (p.child name).names.isEmpty = false := by simp [child]
  rw [toText, if_neg (by simp [hnames])]
  unfold child lead
  split
  . next h => simp [h]
  . next h => simp [Text.join_append_singleton h]

theorem isSome_encode?_join_iff {names : List Text}
    : (encode? (Text.join [slash] names)).isSome = true
        ↔
      ∀ name ∈ names, (encode? name).isSome = true := by
  induction names with
  | nil => exact iff_of_true rfl nofun
  | cons first rest ih =>
    rw [List.forall_mem_cons]
    cases rest with
    | nil => simp
    | cons next rest =>
      have hslash : (encode? [slash]).isSome = true := rfl
      rw [Text.join_cons_cons, isSome_encode?_append_iff, isSome_encode?_append_iff, ih]
      simp only [hslash, true_and]

theorem isSome_encode?_lead_iff {p : Path}
    : (encode? p.lead).isSome = true
        ↔
      (encode? p.root).isSome = true ∧ ∀ name ∈ p.names, (encode? name).isSome = true := by
  have hslash : (encode? [slash]).isSome = true := rfl
  unfold lead
  split
  . next h => simp [h]
  . rw [isSome_encode?_append_iff, isSome_encode?_append_iff, isSome_encode?_join_iff]
    simp only [hslash, and_true]

/-! ### Paths that are written -/

theorem rootOf_append (t : Text) {s : Text} (hs : slash ∉ s) : rootOf (t ++ s) = rootOf t := by
  have htake : (t ++ s).takeWhile (· == slash) = t.takeWhile (· == slash) := by
    rw [List.takeWhile_append]
    split
    . next h =>
      have hnone : s.takeWhile (· == slash) = [] := by
        cases s with
        | nil => rfl
        | cons c s =>
          rw [List.takeWhile_cons_of_neg]
          intro hc
          exact hs (beq_iff_eq.1 hc ▸ List.mem_cons_self)
      rw [hnone, List.append_nil]
      exact ((List.takeWhile_sublist _).eq_of_length h).symm
    . rfl
  rw [rootOf, htake, rootOf]

theorem exists_ofText_append (t : Text)
    : ∃ p stem, ∀ s, slash ∉ s → 2 ≤ s.length → ofText (t ++ s) = child p (stem ++ s) := by
  obtain ⟨pieces, stem, hsplit⟩ := Text.exists_splitOn_append slash t
  refine ⟨⟨rootOf t, pieces.filter fun name => !name.isEmpty && name != [dot]⟩, stem, ?_⟩
  intro s hs hlength
  have hname : (!(stem ++ s).isEmpty && stem ++ s != [dot]) = true := by
    have hlong : 2 ≤ (stem ++ s).length := by
      rw [List.length_append]
      omega
    simp only [Bool.and_eq_true, Bool.not_eq_true', List.isEmpty_eq_false_iff, bne_iff_ne]
    constructor
    . rintro h
      rw [h] at hlong
      exact absurd hlong (by decide)
    . rintro h
      rw [h] at hlong
      exact absurd hlong (by decide)
  rw [ofText, rootOf_append t hs, hsplit s hs, List.filter_append, List.filter_cons, if_pos hname]
  rfl

/-! ### Code points that a path can have -/

/--
Whether a code point can stand in the path of a file: it is not the zero that ends a path, and not a
surrogate other than those that stand for octets.
-/
def IsNameable (c : CodePoint) : Prop :=
  c.val ≠ 0 ∧ (c.isSurrogate = true → 0xDC80 ≤ c.val ∧ c.val ≤ 0xDCFF)

theorem isNameable_of_ascii {c : CodePoint} (h : c.val < 0x80) (hne : c.val ≠ 0) : IsNameable c := by
  refine ⟨hne, fun hsurrogate => ?_⟩
  simp only [CodePoint.isSurrogate, Bool.and_eq_true, decide_eq_true_eq] at hsurrogate
  omega

theorem isNameable_iff {c : CodePoint}
    : IsNameable c ↔ ∃ octets, encodeCodePoint? c = some octets ∧ 0 ∉ octets := by
  unfold IsNameable encodeCodePoint?
  split
  . next hoctet =>
    have hne : (0 : UInt8) ≠ (c.val - 0xDC00).toUInt8 := by
      intro h
      have hnat := congrArg UInt8.toNat h
      rw [Utf8.toNat_toUInt8 (by omega), UInt8.toNat_zero] at hnat
      omega
    exact iff_of_true ⟨by omega, fun _ => hoctet⟩ ⟨_, rfl, by simpa using hne⟩
  . next hoctet =>
    rw [Utf8.encode?, List.any_cons, List.any_nil, Bool.or_false]
    cases hsurrogate : c.isSurrogate with
    | true =>
      apply iff_of_false
      . exact fun h => hoctet (h.2 rfl)
      . rintro ⟨_, h, -⟩
        cases h
    | false =>
      have hzero : 0 ∈ Utf8.encodeAny [c] ↔ c.val = 0 := by
        rw [Utf8.encodeAny, List.flatMap_singleton]
        exact Utf8.zero_mem_encodeCodePoint_iff
      rw [if_neg Bool.false_ne_true]
      constructor
      . intro h
        exact ⟨_, rfl, fun hmem => h.1 (hzero.1 hmem)⟩
      . rintro ⟨octets, hoctets, h⟩
        cases hoctets
        exact ⟨fun hval => h (hzero.2 hval), fun htrue => absurd htrue Bool.false_ne_true⟩

theorem forall_isNameable_iff {t : Text}
    : (∀ c ∈ t, IsNameable c) ↔ ∃ octets, encode? t = some octets ∧ 0 ∉ octets := by
  induction t with
  | nil => exact iff_of_true nofun ⟨[], rfl, List.not_mem_nil⟩
  | cons c t ih =>
    rw [List.forall_mem_cons, ih, isNameable_iff, encode?_cons]
    constructor
    . rintro ⟨⟨a, ha, hazero⟩, b, hb, hbzero⟩
      refine ⟨a ++ b, by rw [ha, hb]; rfl, ?_⟩
      rw [List.mem_append, not_or]
      exact ⟨hazero, hbzero⟩
    . rintro ⟨octets, h, hzero⟩
      obtain ⟨a, ha, h⟩ := Option.bind_eq_some_iff.1 h
      obtain ⟨b, hb, rfl⟩ := Option.map_eq_some_iff.1 h
      rw [List.mem_append, not_or] at hzero
      exact ⟨⟨a, ha, hzero.1⟩, b, hb, hzero.2⟩

theorem forall_mem_toText_ofText_iff {P : CodePoint → Prop} {t : Text} (hslash : P slash)
    (hdot : P dot) : (∀ c ∈ (ofText t).toText, P c) ↔ ∀ c ∈ t, P c := by
  have hsep : ∀ c ∈ [slash], P c := List.forall_mem_singleton.2 hslash
  have hroot : ∀ c ∈ rootOf t, P c := by
    unfold rootOf
    split
    . exact nofun
    . exact List.forall_mem_cons.2 ⟨hslash, hsep⟩
    . exact hsep
  have hnames : (∀ name ∈ (ofText t).names, ∀ c ∈ name, P c) ↔ ∀ c ∈ t, P c := by
    rw [← Text.join_splitOn slash t, Text.forall_mem_join_iff hsep, Text.join_splitOn]
    constructor
    . intro h piece hpiece
      by_cases hname : (!piece.isEmpty && piece != [dot]) = true
      . exact h piece (List.mem_filter.2 ⟨hpiece, hname⟩)
      . rw [Bool.not_eq_true, Bool.and_eq_false_iff, Bool.not_eq_false', List.isEmpty_iff,
          bne_eq_false_iff_eq] at hname
        obtain rfl | rfl := hname
        . exact nofun
        . exact List.forall_mem_singleton.2 hdot
    . exact fun h name hname => h name (List.mem_filter.1 hname).1
  rw [← hnames, toText]
  split
  . next hempty =>
    rw [Bool.and_eq_true, List.isEmpty_iff, List.isEmpty_iff] at hempty
    rw [hempty.2]
    exact iff_of_true (List.forall_mem_singleton.2 hdot) nofun
  . rw [List.forall_mem_append, Text.forall_mem_join_iff hsep]
    exact and_iff_right hroot

/-! ### Paths without detours -/

theorem mem_step {rooted : Bool} {way : List Text} {name n : Text} (h : n ∈ step rooted way name)
    : n = name ∨ n ∈ way := by
  unfold step at h
  split at h
  . exact (List.mem_append.1 h).symm.imp_left List.mem_singleton.1
  . next hname =>
    -- A step up that is kept is the name itself.
    have habove : name = above := Classical.not_not.1 hname
    split at h
    . split at h
      . cases h
      . exact .inl ((List.mem_singleton.1 h).trans habove.symm)
    . split at h
      . exact (List.mem_append.1 h).symm.imp_left fun h => (List.mem_singleton.1 h).trans habove.symm
      . exact .inr ((List.dropLast_sublist way).subset h)

theorem mem_names_straight {p : Path} {n : Text} (h : n ∈ p.straight.names) : n ∈ p.names := by
  have hfoldl : ∀ (names way : List Text),
      n ∈ names.foldl (step (!p.root.isEmpty)) way → n ∈ way ∨ n ∈ names := by
    intro names
    induction names with
    | nil => exact fun way h => .inl h
    | cons name names ih =>
      intro way h
      rw [List.mem_cons]
      cases ih _ h with
      | inl h => exact (mem_step h).symm.imp_right .inl
      | inr h => exact .inr (.inr h)
  exact (hfoldl _ _ h).resolve_left List.not_mem_nil

theorem isSome_encode?_lead_straight {p : Path} (h : (encode? p.lead).isSome = true)
    : (encode? p.straight.lead).isSome = true := by
  rw [isSome_encode?_lead_iff] at h ⊢
  exact ⟨h.1, fun name hname => h.2 name (mem_names_straight hname)⟩

end SignedToken.Path
