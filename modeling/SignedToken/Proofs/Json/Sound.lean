import SignedToken.Json.Reader
import SignedToken.Proofs.Json
import SignedToken.Proofs.Text.Decimal

/-!
This module contains what the values of JSON texts are like: they are nested within the bound of
their reader, their integers have numerals, and their texts have no surrogates of their own.
-/

namespace SignedToken.Json

namespace Reader

/-! ### Texts -/

/--
Whether a text that was read has no surrogates if the text it was read from has none. It may have
some all the same where the dialect lets escapes stand for lone ones.
-/
def LegibleIn (d : Dialect) (source t : Text) : Prop :=
  d.loneSurrogates = false → source.any CodePoint.isSurrogate = false →
    t.any CodePoint.isSurrogate = false

theorem LegibleIn.mono {d : Dialect} {source s t : Text} (h : LegibleIn d s t) (hs : s <:+ source)
    : LegibleIn d source t :=
  fun hlone hsource => h hlone (Text.any_isSurrogate_of_suffix hs hsource)

theorem shortEscape?_not_isSurrogate {c e : CodePoint} (h : shortEscape? e = some c)
    : c.isSurrogate = false := by
  unfold shortEscape? at h
  split at h
  . injection h with h
    subst h
    rw [CodePoint.isSurrogate_eq_false_iff]
    omega
  repeat
    split at h
    . injection h with h
      subst h
      rfl
  cases h

def PlainLegible (ps : List Piece) : Prop :=
  ∀ c, Piece.plain c ∈ ps → c.isSurrogate = false

theorem pieces?_sound {read ps : List Piece} {t rest : Text} (h : pieces? read t = some (ps, rest))
    : rest <:+ t ∧
      (PlainLegible read → t.any CodePoint.isSurrogate = false → PlainLegible ps) := by
  have hcons : ∀ {read : List Piece} {c : CodePoint}, PlainLegible read → c.isSurrogate = false →
      PlainLegible (.plain c :: read) := by
    intro read c hread hc d hd
    cases List.mem_cons.1 hd with
    | inl heq =>
      cases heq
      exact hc
    | inr hmem => exact hread d hmem
  -- Only what stands for itself is looked at: escaped units are put together later.
  fun_induction pieces? read t with
  | case2 read c t hquote =>
    cases h
    refine ⟨List.suffix_cons c rest, fun hread _ d hd => hread d (List.mem_reverse.1 hd)⟩
  | case4 read c t hquote hcontrol hescape ih =>
    obtain ⟨hsuffix, hlegible⟩ := ih h
    refine ⟨hsuffix.trans (List.suffix_cons c t), fun hread ht => ?_⟩
    rw [List.any_cons, Bool.or_eq_false_iff] at ht
    exact hlegible (hcons hread ht.1) ht.2
  | case6 read c hquote hcontrol hescape e he a b c₁ d t n hunit ih =>
    obtain ⟨hsuffix, hlegible⟩ := ih h
    refine ⟨hsuffix.trans ⟨[c, e, a, b, c₁, d], rfl⟩, fun hread ht => ?_⟩
    apply hlegible
    . intro f hf
      cases List.mem_cons.1 hf with
      | inl heq => cases heq
      | inr hmem => exact hread f hmem
    . simp only [List.any_cons, Bool.or_eq_false_iff] at ht
      exact ht.2.2.2.2.2.2
  | case9 read c hquote hcontrol hescape e t he c₁ hshort ih =>
    obtain ⟨hsuffix, hlegible⟩ := ih h
    refine ⟨hsuffix.trans ⟨[c, e], rfl⟩, fun hread ht => ?_⟩
    simp only [List.any_cons, Bool.or_eq_false_iff] at ht
    exact hlegible (hcons hread (shortEscape?_not_isSurrogate hshort)) ht.2.2
  | case1 | case3 | case5 | case7 | case8 | case10 => cases h

theorem joinPieces_not_isSurrogate {read u : Text} {ps : List Piece}
    (hread : read.any CodePoint.isSurrogate = false) (hps : PlainLegible ps)
    (h : joinPieces false read ps = some u) : u.any CodePoint.isSurrogate = false := by
  have hcons : ∀ {read : Text} {c : CodePoint}, read.any CodePoint.isSurrogate = false →
      ¬ (0xD800 ≤ c.val ∧ c.val < 0xE000) → (c :: read).any CodePoint.isSurrogate = false := by
    intro read c hread hc
    rw [List.any_cons, hread, Bool.or_false]
    rw [CodePoint.isSurrogate_eq_false_iff]
    omega
  fun_induction joinPieces false read ps with
  | case1 read =>
    cases h
    simpa using hread
  | case2 read c rest ih =>
    apply ih _ (fun d hd => hps d (List.mem_cons_of_mem _ hd)) h
    rw [List.any_cons, hread, hps c List.mem_cons_self]
    rfl
  | case3 read n hn m rest hpair pair ih =>
    apply ih (hcons hread _) _ h
    . dsimp only [pair]
      omega
    . exact fun d hd => hps d (List.mem_cons_of_mem _ (List.mem_cons_of_mem _ hd))
  | case8 read n rest c hn ih =>
    exact ih (hcons hread hn) (fun d hd => hps d (List.mem_cons_of_mem _ hd)) h
  | case4 | case6 => contradiction
  | case5 | case7 => cases h

theorem quoted?_sound {d : Dialect} {t u rest : Text} (h : quoted? d t = some (u, rest))
    : rest <:+ t ∧ LegibleIn d t u := by
  unfold quoted? at h
  split at h
  . next ps rest' hpieces =>
    obtain ⟨hsuffix, hlegible⟩ := pieces?_sound hpieces
    cases hjoin : joinPieces d.loneSurrogates [] ps with
    | none => simp [hjoin] at h
    | some u' =>
      simp only [hjoin, Option.map_some, Option.some_inj, Prod.mk.injEq] at h
      obtain ⟨rfl, rfl⟩ := h
      refine ⟨hsuffix, fun hlone ht => ?_⟩
      rw [hlone] at hjoin
      refine joinPieces_not_isSurrogate rfl (hlegible ?_ ht) hjoin
      intro c hc
      cases hc
  . cases h

/-! ### Numbers and names -/

theorem digits_suffix (t : Text) : (digits t).2 <:+ t := List.dropWhile_suffix _

theorem isDigit_of_mem_digits {t : Text} : ∀ c ∈ (digits t).1, c.isDigit = true :=
  List.all_eq_true.1 List.all_takeWhile

theorem after?_suffix {s t rest : Text} (h : after? s t = some rest) : rest <:+ t := by
  fun_induction after? s t with
  | case1 t =>
    cases h
    exact List.suffix_refl rest
  | case2 => cases h
  | case3 s d t ih => exact (ih h).trans (List.suffix_cons d t)
  | case4 => cases h

theorem integerPart?_sound {t whole rest : Text} (h : integerPart? t = some (whole, rest))
    : rest <:+ t ∧ ∀ c ∈ whole, c.isDigit = true := by
  unfold integerPart? at h
  split at h
  . cases h
  . next c t' =>
    split at h
    . next hzero =>
      cases h
      refine ⟨List.suffix_cons c rest, ?_⟩
      simp [CodePoint.isDigit_iff, hzero]
    . split at h
      . injection h with h
        have hsuffix := digits_suffix (c :: t')
        have hdigits := isDigit_of_mem_digits (t := c :: t')
        rw [h] at hsuffix hdigits
        exact ⟨hsuffix, hdigits⟩
      . cases h

theorem fractionPart?_suffix {t rest : Text} {fraction : Option Text}
    (h : fractionPart? t = some (fraction, rest)) : rest <:+ t := by
  unfold fractionPart? at h
  split at h
  . next c t' =>
    split at h
    . have hsuffix := digits_suffix t'
      generalize digits t' = p at h hsuffix
      obtain ⟨ds, rest'⟩ := p
      dsimp only at h
      split at h
      . cases h
      . cases h
        exact hsuffix.trans (List.suffix_cons c t')
    . cases h
      exact List.suffix_refl _
  . cases h
    exact List.suffix_refl _

theorem cutSign_suffix (t : Text) : (Text.cutSign t).2 <:+ t := by
  unfold Text.cutSign
  split
  . next c t' =>
    split
    . exact List.suffix_cons c t'
    . split
      . exact List.suffix_cons c t'
      . exact List.suffix_refl _
  . exact List.suffix_refl _

theorem exponentPart?_suffix {t rest : Text} {exponent : Option Int}
    (h : exponentPart? t = some (exponent, rest)) : rest <:+ t := by
  unfold exponentPart? at h
  split at h
  . next c t' =>
    split at h
    . have hsign := cutSign_suffix t'
      have hsuffix := digits_suffix (Text.cutSign t').2
      dsimp only at h
      generalize digits (Text.cutSign t').2 = p at h hsuffix
      obtain ⟨ds, rest'⟩ := p
      dsimp only at h
      split at h
      . cases h
      . cases h
        exact (hsuffix.trans hsign).trans (List.suffix_cons c t')
    . cases h
      exact List.suffix_refl _
  . cases h
    exact List.suffix_refl _

def IsScalar : Json → Prop
  | .null | .bool _ | .float _ => True
  | .int n => hasNumeral n = true
  | .text _ | .array _ | .object _ => False

theorem numberValue?_sound {d : Dialect} {negative : Bool} {whole : Text} {fraction : Option Text}
    {exponent : Option Int} {j : Json} (hwhole : ∀ c ∈ whole, c.isDigit = true)
    (h : numberValue? d negative whole fraction exponent = some j) : IsScalar j := by
  unfold numberValue? at h
  dsimp only at h
  split at h
  . cases h
  . next hlength =>
    split at h
    . next hinteger =>
      cases h
      rw [hinteger, Bool.true_or, Bool.true_and, decide_eq_true_eq, Nat.not_lt] at hlength
      have habs : (if negative then -(Text.digitsValue whole : Int)
          else Text.digitsValue whole).natAbs = Text.digitsValue whole := by
        cases negative <;> simp
      rw [IsScalar, hasNumeral, decide_eq_true_eq, habs]
      exact Nat.lt_of_lt_of_le (Text.digitsValue_lt hwhole)
        (Nat.pow_le_pow_right (by decide) hlength)
    . cases h
      trivial

theorem number?_sound {d : Dialect} {t rest : Text} {j : Json} (h : number? d t = some (j, rest))
    : rest <:+ t ∧ IsScalar j := by
  unfold number? at h
  split at h
  next negative t' hsign =>
  have hsuffix : t' <:+ t := by
    split at hsign
    . next c t'' =>
      split at hsign
      . cases hsign
        exact List.suffix_cons c t'
      . cases hsign
        exact List.suffix_refl _
    . cases hsign
      exact List.suffix_refl _
  split at h
  . next hafter =>
    cases h
    exact ⟨(after?_suffix hafter).trans hsuffix, trivial⟩
  . split at h
    . cases h
    . next hwhole =>
      split at h
      . cases h
      . next hfraction =>
        split at h
        . cases h
        . next hexponent =>
          obtain ⟨hrest, hdigits⟩ := integerPart?_sound hwhole
          have hrest' := (exponentPart?_suffix hexponent).trans
            ((fractionPart?_suffix hfraction).trans (hrest.trans hsuffix))
          rw [Option.map_eq_some_iff] at h
          obtain ⟨j', hvalue, heq⟩ := h
          cases heq
          exact ⟨hrest', numberValue?_sound hdigits hvalue⟩

theorem named?_sound {t rest : Text} {j : Json} (h : named? t = some (j, rest))
    : rest <:+ t ∧ IsScalar j := by
  unfold named? at h
  split at h
  . next hafter =>
    cases h
    exact ⟨after?_suffix hafter, trivial⟩
  . split at h
    . next hafter =>
      cases h
      exact ⟨after?_suffix hafter, trivial⟩
    . split at h
      . next hafter =>
        cases h
        exact ⟨after?_suffix hafter, trivial⟩
      . rw [Option.map_eq_some_iff] at h
        obtain ⟨rest', hafter, heq⟩ := h
        cases heq
        exact ⟨after?_suffix hafter, trivial⟩

/-! ### Values -/

structure Sound (d : Dialect) (source : Text) (depth : Nat) (j : Json) : Prop where
  nesting : j.nesting d.countsEmpty ≤ depth
  numeral : ∀ n, Within (.int n) j → hasNumeral n = true
  legible : d.loneSurrogates = false → source.any CodePoint.isSurrogate = false → j.IsLegible

section Sound

variable {d : Dialect} {source : Text} {depth : Nat} {j : Json}

theorem Sound.mono {s : Text} (h : Sound d s depth j) (hs : s <:+ source)
    : Sound d source depth j where
  nesting := h.nesting
  numeral := h.numeral
  legible := fun hlone hsource => h.legible hlone (Text.any_isSurrogate_of_suffix hs hsource)

theorem sound_text {t : Text} (ht : LegibleIn d source t) : Sound d source depth (.text t) where
  nesting := Nat.zero_le depth
  numeral := by
    rintro n (_ | _)
  legible := by
    rintro hlone hsource _ (_ | _)
    exact ht hlone hsource

theorem sound_of_isScalar (h : IsScalar j) : Sound d source depth j := by
  cases j with
  | text | array | object => cases h
  | int m =>
    constructor
    . exact Nat.zero_le depth
    . rintro n (_ | _)
      exact h
    . rintro _ _ _ (_ | _)
      trivial
  | null | bool | float =>
    constructor
    . exact Nat.zero_le depth
    . rintro n (_ | _)
    . rintro _ _ _ (_ | _)
      trivial

theorem nesting_array_le {c : Bool} {items : List Json} {depth : Nat}
    (hempty : items = [] → c = true → 0 < depth) (hne : items ≠ [] → 0 < depth)
    (h : ∀ x ∈ items, x.nesting c ≤ depth - 1) : (Json.array items).nesting c ≤ depth := by
  rw [Json.nesting]
  split
  . exact Nat.zero_le depth
  . next hcounts =>
    have hpos : 0 < depth := by
      cases items with
      | nil => exact hempty rfl (by simpa using hcounts)
      | cons x items => exact hne (by simp)
    have := nestingItems_le_iff.2 h
    omega

theorem nesting_object_le {c : Bool} {members : List (Text × Json)} {depth : Nat}
    (hempty : members = [] → c = true → 0 < depth) (hne : members ≠ [] → 0 < depth)
    (h : ∀ m ∈ members, m.2.nesting c ≤ depth - 1) : (Json.object members).nesting c ≤ depth := by
  rw [Json.nesting]
  split
  . exact Nat.zero_le depth
  . next hcounts =>
    have hpos : 0 < depth := by
      cases members with
      | nil => exact hempty rfl (by simpa using hcounts)
      | cons m members => exact hne (by simp)
    have := nestingMembers_le_iff.2 h
    omega

theorem sound_array {items : List Json} (hempty : items = [] → d.countsEmpty = true → 0 < depth)
    (hne : items ≠ [] → 0 < depth) (h : ∀ x ∈ items, Sound d source (depth - 1) x)
    : Sound d source depth (.array items) where
  nesting := nesting_array_le hempty hne fun x hx => (h x hx).nesting
  numeral := by
    rintro n (_ | ⟨hx, hn⟩ | _)
    exact (h _ hx).numeral n hn
  legible := fun hlone hsource =>
    isLegible_array_iff.2 fun x hx => (h x hx).legible hlone hsource

theorem sound_object {members : List (Text × Json)}
    (hempty : members = [] → d.countsEmpty = true → 0 < depth) (hne : members ≠ [] → 0 < depth)
    (h : ∀ m ∈ members, LegibleIn d source m.1 ∧ Sound d source (depth - 1) m.2)
    : Sound d source depth (.object members) where
  nesting := nesting_object_le hempty hne fun m hm => (h m hm).2.nesting
  numeral := by
    rintro n (_ | _ | ⟨hm, hn⟩)
    exact (h _ hm).2.numeral n hn
  legible := fun hlone hsource => isLegible_object_iff.2 fun m hm =>
    ⟨(h m hm).1 hlone hsource, (h m hm).2.legible hlone hsource⟩

end Sound

/-! ### The reader -/

section Reader

variable {d : Dialect}

theorem skipSpace_suffix (t : Text) : skipSpace t <:+ t := List.dropWhile_suffix _

structure SoundAt (d : Dialect) (fuel : Nat) : Prop where
  value : ∀ depth t j rest, value? d depth t fuel = some (j, rest) →
    rest <:+ t ∧ Sound d t depth j
  items : ∀ depth read t items rest, items? d depth read t fuel = some (items, rest) →
    rest <:+ t ∧ ∃ more, more ≠ [] ∧ items = read.reverse ++ more ∧ ∀ x ∈ more, Sound d t depth x
  members : ∀ depth read t members rest, members? d depth read t fuel = some (members, rest) →
    rest <:+ t ∧ ∃ more, more ≠ [] ∧ members = read.reverse ++ more ∧
      ∀ m ∈ more, LegibleIn d t m.1 ∧ Sound d t depth m.2

theorem SoundAt.items_succ {fuel : Nat} (ih : SoundAt d fuel) {depth : Nat} {read items : List Json}
    {t rest : Text} (h : items? d depth read t (fuel + 1) = some (items, rest))
    : rest <:+ t ∧ ∃ more, more ≠ [] ∧ items = read.reverse ++ more ∧
        ∀ x ∈ more, Sound d t depth x := by
  rw [items?] at h
  split at h
  . cases h
  . next x t₁ hx =>
    obtain ⟨hsuffix, hsound⟩ := ih.value depth t x t₁ hx
    have hskip := skipSpace_suffix t₁
    split at h
    . cases h
    . next c t₂ heq =>
      rw [heq] at hskip
      have hrest := ((List.suffix_cons c t₂).trans hskip).trans hsuffix
      split at h
      . cases h
        exact ⟨hrest, [x], by simp, by simp, by simpa using hsound⟩
      . split at h
        . have hmore := (skipSpace_suffix t₂).trans hrest
          obtain ⟨hsuffix', more, hne, rfl, hall⟩ := ih.items depth _ _ items rest h
          refine ⟨hsuffix'.trans hmore, x :: more, by simp, by simp, ?_⟩
          rw [List.forall_mem_cons]
          exact ⟨hsound, fun y hy => (hall y hy).mono hmore⟩
        . cases h

theorem SoundAt.members_succ {fuel : Nat} (ih : SoundAt d fuel) {depth : Nat}
    {read members : List (Text × Json)} {t rest : Text}
    (h : members? d depth read t (fuel + 1) = some (members, rest))
    : rest <:+ t ∧ ∃ more, more ≠ [] ∧ members = read.reverse ++ more ∧
        ∀ m ∈ more, LegibleIn d t m.1 ∧ Sound d t depth m.2 := by
  rw [members?.eq_def] at h
  dsimp only at h
  split at h
  . cases h
  . next q t₁ =>
    split at h
    . cases h
    . split at h
      . cases h
      . next name t₂ hname =>
        obtain ⟨hquoted, hlegible⟩ := quoted?_sound hname
        have hlegible := hlegible.mono (List.suffix_cons q t₁)
        have hcolon := (skipSpace_suffix t₂).trans (hquoted.trans (List.suffix_cons q t₁))
        split at h
        . cases h
        . next c t₃ heq =>
          rw [heq] at hcolon
          split at h
          . cases h
          . have hvalue := (skipSpace_suffix t₃).trans ((List.suffix_cons c t₃).trans hcolon)
            split at h
            . cases h
            . next x t₄ hx =>
              obtain ⟨hsuffix, hsound⟩ := ih.value depth _ x t₄ hx
              have hsound := hsound.mono hvalue
              have hskip := (skipSpace_suffix t₄).trans (hsuffix.trans hvalue)
              split at h
              . cases h
              . next c' t₅ heq' =>
                rw [heq'] at hskip
                have hrest := (List.suffix_cons c' t₅).trans hskip
                split at h
                . cases h
                  exact ⟨hrest, [(name, x)], by simp, by simp,
                    List.forall_mem_singleton.2 ⟨hlegible, hsound⟩⟩
                . split at h
                  . have hmore := (skipSpace_suffix t₅).trans hrest
                    obtain ⟨hsuffix', more, hne, rfl, hall⟩ := ih.members depth _ _ members rest h
                    refine ⟨hsuffix'.trans hmore, (name, x) :: more, by simp, by simp, ?_⟩
                    rw [List.forall_mem_cons]
                    exact ⟨⟨hlegible, hsound⟩, fun m hm =>
                      ⟨(hall m hm).1.mono hmore, (hall m hm).2.mono hmore⟩⟩
                  . cases h

theorem SoundAt.array {fuel : Nat} (ih : SoundAt d fuel) {depth : Nat} {t t' rest : Text}
    {items : List Json} (ht : t' <:+ t) (hdepth : depth ≠ 0)
    (h : items? d (depth - 1) [] t' fuel = some (items, rest))
    : rest <:+ t ∧ Sound d t depth (.array items) := by
  obtain ⟨hsuffix, more, hne, rfl, hall⟩ := ih.items _ _ _ _ _ h
  refine ⟨hsuffix.trans ht, sound_array ?_ ?_ fun x hx => (hall x hx).mono ht⟩
  . exact fun hnil => absurd hnil hne
  . exact fun _ => Nat.pos_of_ne_zero hdepth

theorem SoundAt.object {fuel : Nat} (ih : SoundAt d fuel) {depth : Nat} {t t' rest : Text}
    {members : List (Text × Json)} (ht : t' <:+ t) (hdepth : depth ≠ 0)
    (h : members? d (depth - 1) [] t' fuel = some (members, rest))
    : rest <:+ t ∧ Sound d t depth (.object members) := by
  obtain ⟨hsuffix, more, hne, rfl, hall⟩ := ih.members _ _ _ _ _ h
  refine ⟨hsuffix.trans ht, sound_object ?_ ?_ fun m hm => ?_⟩
  . exact fun hnil => absurd hnil hne
  . exact fun _ => Nat.pos_of_ne_zero hdepth
  . exact ⟨(hall m hm).1.mono ht, (hall m hm).2.mono ht⟩

theorem SoundAt.value_succ {fuel : Nat} (ih : SoundAt d fuel) {depth : Nat} {t rest : Text}
    {j : Json} (h : value? d depth t (fuel + 1) = some (j, rest))
    : rest <:+ t ∧ Sound d t depth j := by
  rw [value?.eq_def] at h
  dsimp only at h
  split at h
  . cases h
  next c t₁ =>
  have hcons := List.suffix_cons c t₁
  have hskip := (skipSpace_suffix t₁).trans hcons
  -- An empty container is read only where the dialect does not count it or there is depth left.
  have hcounted : ¬ (decide (depth = 0) && d.countsEmpty) = true → d.countsEmpty = true →
      0 < depth := by
    intro hempty hcounts
    rw [hcounts, Bool.and_true, decide_eq_true_eq] at hempty
    exact Nat.pos_of_ne_zero hempty
  split at h
  . rw [Option.map_eq_some_iff] at h
    obtain ⟨⟨u, rest'⟩, hquoted, heq⟩ := h
    cases heq
    obtain ⟨hsuffix, hlegible⟩ := quoted?_sound hquoted
    exact ⟨hsuffix.trans hcons, sound_text (hlegible.mono hcons)⟩
  split at h
  . split at h
    . split at h
      . cases h
      . next hempty =>
        cases h
        exact ⟨(List.drop_suffix 1 _).trans hskip,
          sound_array (fun _ => hcounted hempty) (by simp) (by simp)⟩
    . split at h
      . cases h
      . next hdepth =>
        rw [Option.map_eq_some_iff] at h
        obtain ⟨⟨items, rest'⟩, hitems, heq⟩ := h
        cases heq
        exact ih.array hskip hdepth hitems
  split at h
  . split at h
    . split at h
      . cases h
      . next hempty =>
        cases h
        exact ⟨(List.drop_suffix 1 _).trans hskip,
          sound_object (fun _ => hcounted hempty) (by simp) (by simp)⟩
    . split at h
      . cases h
      . next hdepth =>
        rw [Option.map_eq_some_iff] at h
        obtain ⟨⟨members, rest'⟩, hmembers, heq⟩ := h
        cases heq
        exact ih.object hskip hdepth hmembers
  split at h
  . next found hnamed =>
    cases h
    obtain ⟨hsuffix, hscalar⟩ := named?_sound hnamed
    exact ⟨hsuffix, sound_of_isScalar hscalar⟩
  . obtain ⟨hsuffix, hscalar⟩ := number?_sound h
    exact ⟨hsuffix, sound_of_isScalar hscalar⟩

theorem soundAt (d : Dialect) (fuel : Nat) : SoundAt d fuel := by
  -- The three readers call each other with one unit of fuel less, so they are taken together.
  induction fuel with
  | zero =>
    constructor
    . intro depth t j rest h
      cases h
    . intro depth read t items rest h
      cases h
    . intro depth read t members rest h
      cases h
  | succ fuel ih =>
    exact ⟨fun _ _ _ _ => ih.value_succ, fun _ _ _ _ _ => ih.items_succ,
      fun _ _ _ _ _ => ih.members_succ⟩

end Reader

end Reader

theorem read?_sound {d : Dialect} {t : Text} {j : Json} (h : read? d t = some j)
    : Reader.Sound d t d.maxDepth j := by
  unfold read? at h
  split at h
  . next x rest hvalue =>
    split at h
    . cases h
      exact ((Reader.soundAt d _).value _ _ _ _ hvalue).2.mono (Reader.skipSpace_suffix t)
    . cases h
  . cases h

end SignedToken.Json
