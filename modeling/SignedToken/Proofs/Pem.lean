import SignedToken.Pem
import SignedToken.Proofs.Base64

/-!
This module contains the laws of the parts of text armour: marks are found behind octets that do not
look like them, and what a written block is made of. No octet of its data looks like a mark, and no line
of it is empty.
-/

namespace SignedToken.Pem

/-! ### Marks -/

section Marks

variable {m : UInt8} {more before rest : Bytes}

theorem readUntil?.go_mark (whole seen expected rest : Bytes)
    : go whole seen expected (expected ++ rest)
        =
      some (((expected.reverse ++ seen).drop whole.length).reverse, rest) := by
  induction expected generalizing seen with
  | nil => cases rest <;> rfl
  | cons x expected ih =>
    rw [List.cons_append, go, if_pos rfl, ih]
    simp

theorem readUntil?.go_before (hm : m ∉ before) (seen : Bytes)
    : go (m :: more) seen (m :: more) (before ++ rest)
        =
      go (m :: more) (before.reverse ++ seen) (m :: more) rest := by
  induction before generalizing seen with
  | nil => rfl
  | cons x before ih =>
    rw [List.mem_cons, not_or] at hm
    rw [List.cons_append, go, if_neg (Ne.symm hm.1), ih hm.2]
    simp

theorem readUntil?_append (hm : m ∉ before)
    : readUntil? (m :: more) (before ++ ((m :: more) ++ rest)) = some (before, rest) := by
  rw [readUntil?, readUntil?.go_before hm, readUntil?.go_mark, List.append_nil]
  have hlength : (m :: more).length = (m :: more).reverse.length := by rw [List.length_reverse]
  rw [hlength, List.drop_left, List.reverse_reverse]

theorem readUntil?_eq_none (hm : m ∉ before) : readUntil? (m :: more) before = none := by
  have hgo : readUntil?.go (m :: more) [] (m :: more) (before ++ [])
      = readUntil?.go (m :: more) (before.reverse ++ []) (m :: more) [] := readUntil?.go_before hm []
  rw [List.append_nil] at hgo
  rw [readUntil?, hgo]
  rfl

theorem cutAt?_eq_none_iff {b : Bytes} : cutAt? (m :: more) b = none ↔ ¬ (m :: more) <:+: b := by
  have hgo : ∀ seen, cutAt?.go (m :: more) seen b = none ↔ ¬ (m :: more) <:+: b := by
    induction b with
    | nil => simp [cutAt?.go]
    | cons x b ih =>
      intro seen
      rw [cutAt?.go, List.infix_cons_iff, not_or, ← List.isPrefixOf_iff_prefix]
      cases (m :: more).isPrefixOf (x :: b) <;> simp [ih]
  exact hgo []

end Marks

/-! ### Lines -/

section Lines

variable {lines : List Bytes}

def unlines (lines : List Bytes) : Bytes :=
  lines.flatMap fun line => line ++ [0xA]

theorem filter_unlines {P : UInt8 → Bool} (hfeed : P 0xA = false)
    (h : ∀ x ∈ lines.flatten, P x = true) : (unlines lines).filter P = lines.flatten := by
  induction lines with
  | nil => rfl
  | cons line lines ih =>
    rw [List.flatten_cons, List.forall_mem_append] at h
    rw [unlines, List.flatMap_cons, ← unlines, List.filter_append, List.filter_append, ih h.2,
      List.filter_eq_self.2 h.1]
    simp [hfeed]

theorem mem_unlines {x : UInt8} (h : x ∈ unlines lines) : x ∈ lines.flatten ∨ x = 0xA := by
  obtain ⟨line, hline, hx⟩ := List.mem_flatMap.1 h
  cases List.mem_append.1 hx with
  | inl hmem => exact .inl (List.mem_flatten.2 ⟨line, hline, hmem⟩)
  | inr hmem => exact .inr (List.mem_singleton.1 hmem)

theorem cutAt?.go_line {line rest : Bytes} (hline : 0xA ∉ line)
    (hrest : List.isPrefixOf [0xA] rest = false) (seen : Bytes)
    : go [0xA, 0xA] seen (line ++ 0xA :: rest)
        =
      go [0xA, 0xA] (0xA :: (line.reverse ++ seen)) rest := by
  induction line generalizing seen with
  | nil =>
    have hprefix : List.isPrefixOf [0xA, 0xA] (0xA :: rest) = false := by
      simpa [List.isPrefixOf] using hrest
    rw [List.nil_append, go, hprefix]
    rfl
  | cons x line ih =>
    rw [List.mem_cons, not_or] at hline
    have hprefix : List.isPrefixOf [0xA, 0xA] (x :: (line ++ 0xA :: rest)) = false := by
      simp [List.isPrefixOf, hline.1]
    rw [List.cons_append, go, hprefix]
    simpa using ih hline.2 (x :: seen)

theorem cutAt?_unlines (hne : ∀ line ∈ lines, line ≠ []) (h : ∀ line ∈ lines, 0xA ∉ line)
    : cutAt? [0xA, 0xA] (unlines lines) = none := by
  have hgo : ∀ seen, cutAt?.go [0xA, 0xA] seen (unlines lines) = none := by
    induction lines with
    | nil => exact fun _ => rfl
    | cons line lines ih =>
      rw [List.forall_mem_cons] at hne h
      intro seen
      have hrest : List.isPrefixOf [0xA] (unlines lines) = false := by
        cases lines with
        | nil => rfl
        | cons next lines =>
          rw [List.forall_mem_cons] at hne h
          cases next with
          | nil => exact absurd rfl hne.2.1
          | cons x next =>
            have hx : x ≠ 0xA := fun hx => h.2.1 (hx ▸ List.mem_cons_self)
            simp [unlines, List.isPrefixOf, Ne.symm hx]
      rw [unlines, List.flatMap_cons, ← unlines, List.append_assoc, List.singleton_append,
        cutAt?.go_line h.1 hrest]
      exact ih hne.2 h.2 _
  exact hgo []

theorem wrap.go_spec {fuel : Nat} {t : Text} (hfuel : t.length ≤ fuel)
    : (go fuel t).flatten = t ∧ ∀ line ∈ go fuel t, line ≠ [] := by
  induction fuel generalizing t with
  | zero =>
    rw [List.eq_nil_of_length_eq_zero (Nat.le_zero.1 hfuel)]
    exact ⟨rfl, nofun⟩
  | succ fuel ih =>
    rw [go]
    split
    . next h => exact ⟨(List.isEmpty_iff.1 h).symm, nofun⟩
    . next h =>
      have hne : t ≠ [] := fun hnil => h (List.isEmpty_iff.2 hnil)
      have hlength : 0 < t.length := List.length_pos_iff.2 hne
      obtain ⟨hflatten, hlines⟩ := ih (t := t.drop 64) (by rw [List.length_drop]; omega)
      constructor
      . rw [List.flatten_cons, hflatten, List.take_append_drop]
      . rw [List.forall_mem_cons]
        refine ⟨fun hnil => ?_, hlines⟩
        have htake := congrArg List.length hnil
        rw [List.length_take, List.length_nil] at htake
        omega

theorem wrap_flatten (t : Text) : (wrap t).flatten = t :=
  (wrap.go_spec (Nat.le_refl _)).1

theorem ne_nil_of_mem_wrap {t line : Text} (h : line ∈ wrap t) : line ≠ [] :=
  (wrap.go_spec (Nat.le_refl _)).2 line h

end Lines

/-! ### Blocks -/

section Blocks

variable {label : String} {data : Bytes}

def dataLines (data : Bytes) : List Bytes :=
  (wrap (Base64.encodePadded Base64.standard data)).map Utf8.encodeAny

theorem dataLines_flatten (data : Bytes)
    : (dataLines data).flatten = Utf8.encodeAny (Base64.encodePadded Base64.standard data) := by
  rw [dataLines, ← Utf8.encodeAny_flatten, wrap_flatten]

theorem ne_nil_of_mem_dataLines {line : Bytes} (h : line ∈ dataLines data) : line ≠ [] := by
  obtain ⟨t, ht, rfl⟩ := List.mem_map.1 h
  exact Utf8.encodeAny_ne_nil (ne_nil_of_mem_wrap ht)

theorem ascii_append (s t : String) : ascii (s ++ t) = ascii s ++ ascii t := by
  unfold ascii Text.ofString
  rw [String.toList_append, List.map_append, Utf8.encodeAny_append]

theorem encodeAny_flatMap_line (lines : List Text)
    : Utf8.encodeAny (lines.flatMap fun line => line ++ [0xA])
        =
      unlines (lines.map Utf8.encodeAny) := by
  induction lines with
  | nil => rfl
  | cons line lines ih =>
    rw [List.flatMap_cons, Utf8.encodeAny_append, Utf8.encodeAny_append, ih]
    rfl

theorem write_eq (label : String) (data : Bytes)
    : write label data
        =
      beginMark ++ (ascii label ++ (tailMark ++ (0xA :: (unlines (dataLines data)
        ++ (endMark ++ (ascii label ++ (tailMark ++ [0xA]))))))) := by
  have hfirst : Utf8.encodeAny (Text.ofString ("-----BEGIN " ++ label ++ "-----"))
      =
    beginMark ++ (ascii label ++ tailMark) := by
    rw [← ascii, ascii_append, ascii_append, List.append_assoc, beginMark, tailMark]
  have hlast : Utf8.encodeAny (Text.ofString ("-----END " ++ label ++ "-----"))
      =
    endMark ++ (ascii label ++ tailMark) := by
    rw [← ascii, ascii_append, ascii_append, List.append_assoc, endMark, tailMark]
  have hparts : unlines ((beginMark ++ (ascii label ++ tailMark))
        :: (dataLines data ++ [endMark ++ (ascii label ++ tailMark)]))
      =
    beginMark ++ (ascii label ++ (tailMark ++ (0xA :: (unlines (dataLines data)
      ++ (endMark ++ (ascii label ++ (tailMark ++ [0xA]))))))) := by
    simp [unlines]
  rw [← hparts, write]
  rw [encodeAny_flatMap_line, List.map_cons, List.map_append, hfirst, List.map_singleton, hlast]
  rfl

theorem forall_mem_dataLines_flatten {P : UInt8 → Bool}
    (h : ((List.range 64).map Base64.standard.digit).all (fun c => P c.val.toUInt8) = true)
    (hpad : P Base64.padOctet = true) (data : Bytes) : ∀ x ∈ (dataLines data).flatten, P x = true := by
  rw [dataLines_flatten]
  exact Base64.forall_mem_encodeAny h hpad data

end Blocks

end SignedToken.Pem
