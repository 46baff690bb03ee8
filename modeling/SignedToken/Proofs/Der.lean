import SignedToken.Der
import SignedToken.Proofs.Octets

/-!
This module contains that the reader of the distinguished encoding takes what is written back to its
elements, as long as no content is longer than a length can tell.
-/

namespace SignedToken.Der

/-! ### Lengths -/

@[simp]
theorem length_minimalOctets (n : Nat) : (minimalOctets n).length = (n.log2 + 8) / 8 :=
  Octets.length_ofNat _ n

theorem two_pow_eq (k : Nat) : 256 ^ k = 2 ^ (8 * k) := by
  rw [Nat.pow_mul]

theorem lt_pow_log2 (n : Nat) : n < 256 ^ ((n.log2 + 8) / 8) := by
  rw [two_pow_eq]
  calc
    n < 2 ^ (n.log2 + 1) := Nat.lt_log2_self
    _ ≤ 2 ^ (8 * ((n.log2 + 8) / 8)) := Nat.pow_le_pow_right (by decide) (by omega)

theorem pow_log2_le {n : Nat} (h : n ≠ 0) : 256 ^ ((n.log2 + 8) / 8 - 1) ≤ n := by
  rw [two_pow_eq]
  calc
    2 ^ (8 * ((n.log2 + 8) / 8 - 1)) ≤ 2 ^ n.log2 := Nat.pow_le_pow_right (by decide) (by omega)
    _ ≤ n := Nat.log2_self_le h

theorem toNat_minimalOctets (n : Nat) : Octets.toNat (minimalOctets n) = n :=
  Octets.toNat_ofNat (lt_pow_log2 n)

def maxLength : Nat := 256 ^ 4

theorem lt_maxLength {n : Nat} (h : n < 0x10000) : n < maxLength :=
  Nat.lt_trans h (by decide)

theorem log2_lt_of_lt {n : Nat} (h : n < maxLength) : (n.log2 + 8) / 8 ≤ 4 := by
  by_cases hn : n = 0
  . rw [hn]
    decide
  . have hlog : n.log2 < 32 := (Nat.log2_lt hn).2 h
    omega

theorem splitAt?_append (a b : Bytes) : splitAt? a.length (a ++ b) = some (a, b) := by
  rw [splitAt?, if_pos (by simp), List.take_left, List.drop_left]

theorem readLength?_writeLength {n : Nat} (h : n < maxLength) (rest : Bytes)
    : readLength? (writeLength n ++ rest) = some (n, rest) := by
  unfold writeLength
  split
  . next hshort =>
    have htoNat : n.toUInt8.toNat = n := Nat.mod_eq_of_lt (by omega)
    have hlt : n.toUInt8 < 0x80 := by
      rw [UInt8.lt_iff_toNat_lt, htoNat]
      exact hshort
    rw [List.singleton_append, readLength?, if_pos hlt, htoNat]
  . next hlong =>
    have hle := log2_lt_of_lt h
    have hpos : 0 < (n.log2 + 8) / 8 := by omega
    have htoNat : (0x80 + (minimalOctets n).length).toUInt8.toNat = 0x80 + (n.log2 + 8) / 8 := by
      rw [length_minimalOctets]
      exact Nat.mod_eq_of_lt (by omega)
    have hlt : ¬ (0x80 + (minimalOctets n).length).toUInt8 < 0x80 := by
      rw [UInt8.lt_iff_toNat_lt, htoNat]
      exact Nat.not_lt_of_le (Nat.le_add_right _ _)
    have hshortest : ¬ (n < 0x80 ∨ n < 256 ^ ((n.log2 + 8) / 8 - 1)) :=
      not_or.2 ⟨hlong, Nat.not_lt_of_le (pow_log2_le (by omega))⟩
    dsimp only
    rw [List.cons_append, readLength?, if_neg hlt]
    dsimp only
    rw [htoNat, Nat.add_sub_cancel_left, if_neg (by omega), ← length_minimalOctets, splitAt?_append]
    dsimp only
    rw [toNat_minimalOctets, length_minimalOctets, if_neg hshortest]

theorem length_writeLength_le {n : Nat} (h : n < maxLength) : (writeLength n).length ≤ 5 := by
  have hle := log2_lt_of_lt h
  unfold writeLength
  split
  . exact Nat.le_of_ble_eq_true rfl
  . dsimp only
    rw [List.length_cons, length_minimalOctets]
    omega

theorem length_write_le {content : Bytes} (h : content.length < maxLength) (tag : UInt8)
    : (write tag content).length ≤ content.length + 6 := by
  have hlength := length_writeLength_le h
  rw [write, List.length_cons, List.length_append]
  omega

/-! ### Elements -/

namespace Element

def encode (e : Element) : Bytes := write e.tag e.content

structure Fits (e : Element) : Prop where
  tag : e.tag &&& 0x1F ≠ 0x1F
  content : e.content.length < maxLength

theorem Fits.of_lt {tag : UInt8} {content : Bytes} (htag : tag &&& 0x1F ≠ 0x1F)
    (h : content.length < 0x10000) : Fits ⟨tag, content⟩ :=
  ⟨htag, lt_maxLength h⟩

end Element

theorem element?_encode {e : Element} (h : e.Fits) (rest : Bytes)
    : element? (e.encode ++ rest) = some (e, rest) := by
  rw [Element.encode, write, List.cons_append, element?, if_neg h.tag, List.append_assoc,
    readLength?_writeLength h.content]
  dsimp only
  rw [splitAt?_append]
  rfl

theorem elements?.go_encode {es : List Element} (h : ∀ e ∈ es, e.Fits) {fuel : Nat}
    (hfuel : es.length ≤ fuel) : go fuel (es.flatMap Element.encode) = some es := by
  induction es generalizing fuel with
  | nil => cases fuel <;> rfl
  | cons e es ih =>
    rw [List.forall_mem_cons] at h
    cases fuel with
    | zero => cases hfuel
    | succ fuel =>
      have helement := element?_encode h.1 (es.flatMap Element.encode)
      rw [List.flatMap_cons, go, helement]
      . dsimp only
        rw [ih h.2 (Nat.le_of_succ_le_succ hfuel)]
        rfl
      . exact nofun

theorem length_le_flatMap_encode (es : List Element) : es.length ≤ (es.flatMap Element.encode).length := by
  induction es with
  | nil => exact Nat.le_refl _
  | cons e es ih =>
    rw [List.flatMap_cons, List.length_append, List.length_cons, Element.encode, write, List.length_cons]
    omega

theorem elements?_encode {es : List Element} (h : ∀ e ∈ es, e.Fits)
    : elements? (es.flatMap Element.encode) = some es :=
  elements?.go_encode h (length_le_flatMap_encode es)

theorem sole?_write {tag : UInt8} {content : Bytes} (h : Element.Fits ⟨tag, content⟩)
    : sole? tag (write tag content) = some content := by
  have helements : elements? ([Element.mk tag content].flatMap Element.encode) = some [⟨tag, content⟩] :=
    elements?_encode (List.forall_mem_singleton.2 h)
  rw [List.flatMap_singleton, Element.encode] at helements
  rw [sole?, helements]
  exact if_pos rfl

def room : List Element → Nat
  | [] => 0
  | e :: es => e.content.length + 6 + room es

theorem room_append (es fs : List Element) : room (es ++ fs) = room es + room fs := by
  induction es with
  | nil => exact (Nat.zero_add _).symm
  | cons e es ih =>
    rw [List.cons_append, room, room, ih]
    omega

theorem length_flatMap_encode_le {es : List Element} (h : ∀ e ∈ es, e.Fits)
    : (es.flatMap Element.encode).length ≤ room es := by
  induction es with
  | nil => exact Nat.le_refl _
  | cons e es ih =>
    rw [List.forall_mem_cons] at h
    rw [List.flatMap_cons, List.length_append, room]
    exact Nat.add_le_add (length_write_le h.1.content e.tag) (ih h.2)

theorem flatMap_encode_lt {es : List Element} (h : ∀ e ∈ es, e.Fits) (hroom : room es < 0x10000)
    : (es.flatMap Element.encode).length < maxLength :=
  lt_maxLength (Nat.lt_of_le_of_lt (length_flatMap_encode_le h) hroom)

theorem sequence?_encode {es : List Element} (h : ∀ e ∈ es, e.Fits)
    (hlength : (es.flatMap Element.encode).length < maxLength)
    : sequence? (write sequenceTag (es.flatMap Element.encode)) = some es := by
  have htag : sequenceTag &&& 0x1F ≠ 0x1F := by decide
  have hsole : sole? sequenceTag (write sequenceTag (es.flatMap Element.encode))
      = some (es.flatMap Element.encode) := sole?_write ⟨htag, hlength⟩
  rw [sequence?, hsole]
  exact elements?_encode h

/-! ### Starts -/

theorem tag_of_element? {x : UInt8} {b rest : Bytes} {e : Element}
    (h : element? (x :: b) = some (e, rest)) : e.tag = x := by
  rw [element?] at h
  split at h
  . cases h
  . split at h
    . cases h
    . obtain ⟨parts, -, heq⟩ := Option.map_eq_some_iff.1 h
      cases heq
      rfl

theorem head?_of_elements? {b : Bytes} {e : Element} {es : List Element}
    (h : elements? b = some (e :: es)) : b.head? = some e.tag := by
  cases b with
  | nil => cases h
  | cons x b =>
    rw [elements?, List.length_cons, elements?.go] at h
    . split at h
      . cases h
      . next helement =>
        obtain ⟨es', -, heq⟩ := Option.map_eq_some_iff.1 h
        cases heq
        rw [tag_of_element? helement, List.head?_cons]
    . exact nofun

theorem head?_of_sequence? {b : Bytes} {es : List Element} (h : sequence? b = some es)
    : b.head? = some sequenceTag := by
  obtain ⟨content, hsole, -⟩ := Option.bind_eq_some_iff.1 h
  unfold sole? at hsole
  split at hsole
  . next helements =>
    split at hsole
    . next htag => rw [head?_of_elements? helements, htag]
    . cases hsole
  . cases hsole

end SignedToken.Der
