import SignedToken.Proofs.Json.Sound
import SignedToken.Proofs.Json.Written

/-!
This module contains what characters the text of a JSON value consists of: plain ASCII, and what the
texts in the value have if it is not escaped. So a value without lone surrogates has a text without
any, which has a UTF-8 form.
-/

namespace SignedToken.Json

/-! ### Numbers -/

theorem isPlainAscii_of_mem_ofNat {n : Nat} {c : CodePoint} (h : c ∈ Text.ofNat n)
    : c.isPlainAscii = true :=
  CodePoint.isPlainAscii_of_isDigit (Text.isDigit_of_mem_ofNat c h)

theorem isPlainAscii_of_mem_ofInt {n : Int} {c : CodePoint} (h : c ∈ Text.ofInt n)
    : c.isPlainAscii = true := by
  unfold Text.ofInt at h
  split at h
  . cases List.mem_cons.1 h with
    | inl heq =>
      rw [heq]
      rfl
    | inr h => exact isPlainAscii_of_mem_ofNat h
  . exact isPlainAscii_of_mem_ofNat h

theorem isPlainAscii_of_mem_zeros {k : Nat} {c : CodePoint}
    (h : c ∈ List.replicate k FloatLayout.digitZero) : c.isPlainAscii = true := by
  rw [List.eq_of_mem_replicate h]
  rfl

theorem isPlainAscii_of_mem_renderExponent {e : Int} {c : CodePoint}
    (h : c ∈ FloatLayout.json.renderExponent e) : c.isPlainAscii = true := by
  unfold FloatLayout.renderExponent at h
  simp only [List.mem_cons, List.mem_append] at h
  rcases h with rfl | rfl | h | h
  . rfl
  . split <;> rfl
  . exact isPlainAscii_of_mem_zeros h
  . exact isPlainAscii_of_mem_ofNat h

theorem isPlainAscii_of_mem_renderMagnitude {m : Magnitude} {c : CodePoint}
    (h : c ∈ FloatLayout.json.renderMagnitude m) : c.isPlainAscii = true := by
  have hpoint : ∀ {c}, c = FloatLayout.decimalPoint → c.isPlainAscii = true := by
    rintro c rfl
    rfl
  have hzero : ∀ {c}, c = FloatLayout.digitZero → c.isPlainAscii = true := by
    rintro c rfl
    rfl
  have hdigits : ∀ {c}, c ∈ Text.ofNat m.shortest.digits → c.isPlainAscii = true :=
    isPlainAscii_of_mem_ofNat
  unfold FloatLayout.renderMagnitude at h
  dsimp only at h
  generalize (if m.shortest.digits = 0 then (1 : Int) else _) = point at h
  split at h
  . split at h
    . simp only [List.mem_cons, List.mem_append] at h
      rcases h with h | h | h | h
      . exact hzero h
      . exact hpoint h
      . exact isPlainAscii_of_mem_zeros h
      . exact hdigits h
    split at h
    . simp only [List.mem_cons, List.mem_append, List.not_mem_nil, or_false] at h
      rcases h with (h | h) | h | h
      . exact hdigits h
      . exact isPlainAscii_of_mem_zeros h
      . exact hpoint h
      . exact hzero h
    . simp only [List.mem_cons, List.mem_append] at h
      rcases h with h | h | h
      . exact hdigits (List.mem_of_mem_take h)
      . exact hpoint h
      . exact hdigits (List.mem_of_mem_drop h)
  . simp only [List.mem_append] at h
    rcases h with (h | h) | h
    . exact hdigits (List.mem_of_mem_take h)
    . split at h
      . cases h
      . cases List.mem_cons.1 h with
        | inl h => exact hpoint h
        | inr h => exact hdigits (List.mem_of_mem_drop h)
    . exact isPlainAscii_of_mem_renderExponent h

theorem isPlainAscii_of_mem_render {x : Binary64} {c : CodePoint}
    (h : c ∈ FloatLayout.json.render x) : c.isPlainAscii = true := by
  have hname : ∀ {name : Text} {c}, name.all CodePoint.isPlainAscii = true → c ∈ name →
      c.isPlainAscii = true :=
    fun hname hc => List.all_eq_true.1 hname _ hc
  have hsign : ∀ {negative : Bool} {c},
      c ∈ (if negative then [FloatLayout.minus] else []) → c.isPlainAscii = true := by
    intro negative c hc
    cases negative with
    | false => cases hc
    | true =>
      rw [List.mem_singleton.1 hc]
      rfl
  cases x with
  | nan => exact hname rfl h
  | infinite negative =>
    cases List.mem_append.1 h with
    | inl h => exact hsign h
    | inr h => exact hname rfl h
  | finite negative m =>
    cases List.mem_append.1 h with
    | inl h => exact hsign h
    | inr h => exact isPlainAscii_of_mem_renderMagnitude h

/-! ### Texts -/

theorem all_isPlainAscii_unitEscape {n : Nat} (h : n < 0x10000)
    : (unitEscape n).all CodePoint.isPlainAscii = true := by
  have hdigit : ∀ d < 16, (CodePoint.ofChar d.digitChar).isPlainAscii = true := by
    decide
  rw [unitEscape, Text.hexOfNatPadded_four h, List.all_append]
  simp only [List.map_cons, List.map_nil, List.all_cons, List.all_nil]
  rw [hdigit _ (by omega), hdigit _ (by omega), hdigit _ (by omega), hdigit _ (by omega)]
  rfl

section Characters

variable {P : CodePoint → Prop} (hplain : ∀ c : CodePoint, c.isPlainAscii = true → P c)

include hplain

theorem forall_mem_of_all_isPlainAscii {t : Text} (h : t.all CodePoint.isPlainAscii = true)
    : ∀ c ∈ t, P c :=
  fun c hc => hplain c (List.all_eq_true.1 h c hc)

theorem forall_mem_escape {asciiOnly : Bool} {c : CodePoint} (h : asciiOnly = false → P c)
    : ∀ x ∈ escape asciiOnly c, P x := by
  have hlt := c.isLt
  have hunit : ∀ {n}, n < 0x10000 → ∀ x ∈ unitEscape n, P x :=
    fun hn => forall_mem_of_all_isPlainAscii hplain (all_isPlainAscii_unitEscape hn)
  unfold escape
  dsimp only
  split
  . next hmarked =>
    rw [List.forall_mem_cons, List.forall_mem_singleton]
    exact ⟨hplain _ rfl, hplain c (by rw [CodePoint.isPlainAscii_iff]; omega)⟩
  iterate 5
    split
    . exact forall_mem_of_all_isPlainAscii hplain rfl
  split
  . exact hunit (by omega)
  split
  . split
    . exact hunit (by omega)
    . rw [List.forall_mem_append]
      exact ⟨hunit (by omega), hunit (by omega)⟩
  . next hnot =>
    rw [List.forall_mem_singleton]
    cases asciiOnly with
    | false => exact h rfl
    | true =>
      rw [Bool.true_and, decide_eq_true_eq] at hnot
      exact hplain c (by rw [CodePoint.isPlainAscii_iff]; omega)

theorem forall_mem_quoted {asciiOnly : Bool} {t : Text} (h : asciiOnly = false → ∀ c ∈ t, P c)
    : ∀ c ∈ quoted asciiOnly t, P c := by
  rw [quoted, List.forall_mem_cons, List.forall_mem_append, List.forall_mem_singleton]
  refine ⟨hplain _ rfl, ?_, hplain _ rfl⟩
  intro x hx
  obtain ⟨c, hc, hx⟩ := List.mem_flatMap.1 hx
  exact forall_mem_escape hplain (fun hall => h hall c hc) x hx

/-! ### Values -/

def ownTexts : Json → List Text
  | text t => [t]
  | object members => members.map Prod.fst
  | _ => []

theorem forall_mem_write {s : Style} (hitem : ∀ c ∈ s.itemSeparator, P c)
    (hname : ∀ c ∈ s.nameSeparator, P c) {j : Json}
    (h : s.asciiOnly = false → ∀ x, Within x j → ∀ t ∈ x.ownTexts, ∀ c ∈ t, P c)
    : ∀ c ∈ j.write s, P c := by
  induction j with
  | null => exact forall_mem_of_all_isPlainAscii hplain rfl
  | bool b => cases b <;> exact forall_mem_of_all_isPlainAscii hplain rfl
  | int n => exact fun c hc => hplain c (isPlainAscii_of_mem_ofInt hc)
  | float x => exact fun c hc => hplain c (isPlainAscii_of_mem_render hc)
  | text t => exact forall_mem_quoted hplain fun hall => h hall _ .self t List.mem_cons_self
  | array items ih =>
    rw [write, bracketed, List.forall_mem_cons, List.forall_mem_append, List.forall_mem_singleton,
      writeItems_eq_map, Text.forall_mem_join_iff hitem, List.forall_mem_map]
    refine ⟨hplain _ rfl, fun x hx => ?_, hplain _ rfl⟩
    exact ih x hx fun hall y hy => h hall y (.item hx hy)
  | object members ih =>
    rw [write, braced, List.forall_mem_cons, List.forall_mem_append, List.forall_mem_singleton,
      writeMembers_eq_map, Text.forall_mem_join_iff hitem, List.forall_mem_map]
    refine ⟨hplain _ rfl, fun m hm => ?_, hplain _ rfl⟩
    rw [List.forall_mem_append, List.forall_mem_append]
    refine ⟨⟨forall_mem_quoted hplain fun hall => ?_, hname⟩, ?_⟩
    . exact h hall _ .self m.1 (List.mem_map_of_mem hm)
    . exact ih m hm fun hall y hy => h hall y (.member hm hy)

end Characters

theorem isPlainAscii_of_mem_write {s : Style} (hall : s.asciiOnly = true)
    (hitem : s.itemSeparator.all CodePoint.isPlainAscii = true)
    (hname : s.nameSeparator.all CodePoint.isPlainAscii = true) {j : Json}
    : ∀ c ∈ j.write s, c.isPlainAscii = true := by
  apply forall_mem_write fun c hc => hc
  . exact List.all_eq_true.1 hitem
  . exact List.all_eq_true.1 hname
  . rw [hall]
    exact nofun

theorem Style.Separates.isSurrogate_eq_false {s : Style} (hs : s.Separates)
    : (∀ c ∈ s.itemSeparator, c.isSurrogate = false) ∧
      ∀ c ∈ s.nameSeparator, c.isSurrogate = false := by
  have hblanks : ∀ {blanks : Text}, (∀ c ∈ blanks, Reader.isSpace c = true) →
      ∀ c ∈ blanks, c.isSurrogate = false := by
    intro blanks h c hc
    have hspace := h c hc
    simp only [Reader.isSpace, Bool.or_eq_true, beq_iff_eq] at hspace
    rw [CodePoint.isSurrogate_eq_false_iff]
    omega
  obtain ⟨⟨itemBlanks, hitem, hitemBlanks⟩, ⟨nameBlanks, hname, hnameBlanks⟩⟩ := hs
  rw [hitem, hname, List.forall_mem_cons, List.forall_mem_cons]
  exact ⟨⟨rfl, hblanks hitemBlanks⟩, rfl, hblanks hnameBlanks⟩

theorem legibleNode_iff {x : Json}
    : x.legibleNode ↔ ∀ t ∈ x.ownTexts, ∀ c ∈ t, c.isSurrogate = false := by
  cases x <;> simp [legibleNode, ownTexts]

theorem any_isSurrogate_write {s : Style} (hs : s.Separates) {j : Json} (h : j.IsLegible)
    : (j.write s).any CodePoint.isSurrogate = false := by
  have hwrite : ∀ c ∈ j.write s, c.isSurrogate = false := by
    apply forall_mem_write fun c => CodePoint.isSurrogate_of_isPlainAscii
    . exact hs.isSurrogate_eq_false.1
    . exact hs.isSurrogate_eq_false.2
    . exact fun _ x hx => legibleNode_iff.1 (h x hx)
  simpa using hwrite

end SignedToken.Json
