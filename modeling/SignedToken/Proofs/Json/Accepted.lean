import SignedToken.Proofs.Json
import SignedToken.Proofs.Json.Number
import SignedToken.Proofs.Json.Quoted
import SignedToken.Proofs.Text.Pieces

/-!
This module contains the law that the reader accepts every JSON text, whatever the blanks and the
escapes in it: it takes the text to its value as long as that is not nested too deeply.
-/

namespace SignedToken.Json

namespace Reader

/-! ### Blanks -/

theorem skipSpace_cons {c : CodePoint} (h : isSpace c = false) (t : Text)
    : skipSpace (c :: t) = c :: t := by
  simp [skipSpace, h]

theorem skipSpace_append {blanks : Text} (h : IsBlank blanks) (t : Text)
    : skipSpace (blanks ++ t) = skipSpace t := by
  unfold skipSpace
  rw [List.dropWhile_append_of_pos h]

theorem stopsNumber_append {blanks rest : Text} (h : IsBlank blanks) (hrest : StopsNumber rest)
    : StopsNumber (blanks ++ rest) := by
  cases blanks with
  | nil => exact hrest
  | cons c t =>
    have hc := h c List.mem_cons_self
    apply stopsNumber_cons
    simp only [isSpace, Bool.or_eq_true, beq_iff_eq] at hc
    rw [← Bool.not_eq_true, CodePoint.isDigit_iff]
    omega

theorem stopsNumber_mark {c : CodePoint} (hc : c ∈ [comma, closeBracket, closeBrace]) (t : Text)
    : StopsNumber (c :: t) := by
  apply stopsNumber_cons
  simp only [List.mem_cons, List.not_mem_nil, or_false] at hc
  rcases hc with rfl | rfl | rfl <;> decide

/-! ### The first character -/

def StartsValue (t : Text) : Prop :=
  ∃ c s, t = c :: s ∧ isSpace c = false ∧ c ≠ closeBracket

theorem skipSpace_whole {p : Padded} (h : StartsValue p.text) (rest : Text)
    : skipSpace (p.whole ++ rest) = p.text ++ (p.after ++ rest) := by
  obtain ⟨c, s, heq, hc, -⟩ := h
  rw [Padded.whole, List.append_assoc, List.append_assoc, skipSpace_append p.isBlank_before, heq,
    List.cons_append, skipSpace_cons hc]

theorem startsValue_quotedText {t s : Text} (h : QuotedText t s) : StartsValue s := by
  obtain ⟨s', rfl, -⟩ := quoted?_of_quotedText h
  exact ⟨_, _, rfl, rfl, by decide⟩

def StartsNumber (c : CodePoint) : Prop :=
  c.isDigit = true ∨ c = FloatLayout.minus ∨ c = CodePoint.ofChar 'I'

instance : DecidablePred StartsNumber :=
  fun _ => inferInstanceAs (Decidable (_ ∨ _ ∨ _))

theorem StartsNumber.ne {c d : CodePoint} (h : StartsNumber c) (hd : ¬ StartsNumber d) : c ≠ d := by
  rintro rfl
  exact hd h

theorem StartsNumber.isSpace_eq_false {c : CodePoint} (h : StartsNumber c) : isSpace c = false := by
  have hne : ∀ d : CodePoint, ¬ StartsNumber d → ¬ c.val = d.val :=
    fun d hd heq => h.ne hd (Fin.ext heq)
  have h20 := hne 0x20 (by decide)
  have h9 := hne 0x9 (by decide)
  have hA := hne 0xA (by decide)
  have hD := hne 0xD (by decide)
  simp only [isSpace, Bool.or_eq_false_iff, beq_eq_false_iff_ne]
  exact ⟨⟨⟨h20, h9⟩, hA⟩, hD⟩

theorem named?_of_startsNumber {c : CodePoint} (h : StartsNumber c) (t : Text)
    : named? (c :: t) = none := by
  have hafter : ∀ d s, ¬ StartsNumber d → after? (d :: s) (c :: t) = none :=
    fun d s hd => after?_of_ne (h.ne hd).symm s t
  have hnull : after? (Text.ofString "null") (c :: t) = none := hafter _ _ (by decide)
  have htrue : after? (Text.ofString "true") (c :: t) = none := hafter _ _ (by decide)
  have hfalse : after? (Text.ofString "false") (c :: t) = none := hafter _ _ (by decide)
  have hnan : after? (Text.ofString "NaN") (c :: t) = none := hafter _ _ (by decide)
  simp only [named?, hnull, htrue, hfalse, hnan, Option.map_none]

theorem value?_number (d : Dialect) {c : CodePoint} (h : StartsNumber c) (depth fuel : Nat)
    (t : Text) : value? d depth (c :: t) (fuel + 1) = number? d (c :: t) := by
  have hquote : c ≠ quote := h.ne (by decide)
  have hbracket : c ≠ openBracket := h.ne (by decide)
  have hbrace : c ≠ openBrace := h.ne (by decide)
  rw [value?]
  simp only [if_neg hquote, if_neg hbracket, if_neg hbrace, named?_of_startsNumber h]

theorem exists_whole_eq_cons (negative : Bool) {whole : Text} (h : IsWhole whole) (t : Text)
    : ∃ c s, signText negative ++ (whole ++ t) = c :: s ∧ StartsNumber c := by
  cases negative with
  | true => exact ⟨_, _, rfl, .inr (.inl rfl)⟩
  | false =>
    cases whole with
    | nil => exact absurd rfl h.ne_nil
    | cons c s => exact ⟨c, _, rfl, .inl (h.digits c List.mem_cons_self)⟩

/-! ### Values -/

structure ReadAs (d : Dialect) (j : Json) (t : Text) : Prop where
  starts : StartsValue t
  value : ∀ depth fuel rest, StopsNumber rest → 2 * t.length ≤ fuel →
    value? d depth (t ++ rest) fuel
      = if j.nesting d.countsEmpty ≤ depth then some (j, rest) else none

section Containers

variable {d : Dialect}

theorem readAs_of_step {j : Json} {t : Text} (hstarts : StartsValue t)
    (hnesting : j.nesting d.countsEmpty = 0)
    (h : ∀ depth fuel rest, StopsNumber rest →
      value? d depth (t ++ rest) (fuel + 1) = some (j, rest)) : ReadAs d j t := by
  refine ⟨hstarts, fun depth fuel rest hrest hfuel => ?_⟩
  obtain ⟨c, s, heq, -⟩ := hstarts
  obtain ⟨fuel, rfl⟩ : ∃ n, fuel = n + 1 := by
    rw [heq, List.length_cons] at hfuel
    exact ⟨fuel - 1, by omega⟩
  rw [h depth fuel rest hrest, hnesting, if_pos (Nat.zero_le depth)]

theorem readAs_of_number {j : Json} {t : Text} (hstart : ∃ c s, t = c :: s ∧ StartsNumber c)
    (hnesting : j.nesting d.countsEmpty = 0)
    (h : ∀ rest, StopsNumber rest → number? d (t ++ rest) = some (j, rest)) : ReadAs d j t := by
  obtain ⟨c, s, rfl, hc⟩ := hstart
  refine readAs_of_step ⟨c, s, rfl, hc.isSpace_eq_false, hc.ne (by decide)⟩ hnesting ?_
  intro depth fuel rest hrest
  rw [List.cons_append, value?_number d hc]
  exact h rest hrest

theorem readAs_quotedText {t s : Text} (h : QuotedText t s) : ReadAs d (.text t) s := by
  refine readAs_of_step (startsValue_quotedText h) rfl fun depth fuel rest _ => ?_
  obtain ⟨s', rfl, hquoted⟩ := quoted?_of_quotedText h
  rw [List.cons_append, value?]
  simp [hquoted]

/-! ### Arrays -/

theorem items?_item {x : Json} {p : Padded} (h : ReadAs d x p.text) {depth fuel : Nat}
    (read : List Json) {c : CodePoint} (hc : c = comma ∨ c = closeBracket) (rest : Text)
    (hfuel : 2 * p.text.length ≤ fuel)
    : items? d depth read (p.text ++ (p.after ++ c :: rest)) (fuel + 1)
        =
      if x.nesting d.countsEmpty ≤ depth then
        if c = closeBracket then some ((x :: read).reverse, rest)
        else items? d depth (x :: read) (skipSpace rest) fuel
      else none := by
  have hmark : StopsNumber (c :: rest) := by
    apply stopsNumber_mark
    rcases hc with rfl | rfl <;> simp
  have hspace : isSpace c = false := by
    rcases hc with rfl | rfl <;> rfl
  rw [items?, h.value depth fuel _ (stopsNumber_append p.isBlank_after hmark) hfuel]
  by_cases hdepth : x.nesting d.countsEmpty ≤ depth
  . rw [if_pos hdepth, if_pos hdepth]
    dsimp only
    rw [skipSpace_append p.isBlank_after, skipSpace_cons hspace]
    dsimp only
    split
    . rfl
    . next hne => rw [if_pos (hc.resolve_right hne)]
  . rw [if_neg hdepth, if_neg hdepth]

theorem items?_join {p : Json × Padded} {ps : List (Json × Padded)}
    (h : ∀ q ∈ p :: ps, ReadAs d q.1 q.2.text) (depth fuel : Nat) (read : List Json) (rest : Text)
    (hfuel : 2 * (Text.join [comma] ((p :: ps).map (·.2.whole))).length < fuel)
    : items? d depth read
        (skipSpace (Text.join [comma] ((p :: ps).map (·.2.whole)) ++ closeBracket :: rest)) fuel
        =
      if nestingItems d.countsEmpty ((p :: ps).map (·.1)) ≤ depth then
        some (read.reverse ++ (p :: ps).map (·.1), rest)
      else none := by
  have hne : comma ≠ closeBracket := by decide
  -- The reader of items is called with at least one of them in front of it, so the induction is on
  -- those behind the first one.
  induction ps generalizing p read fuel with
  | nil =>
    obtain ⟨fuel, rfl⟩ : ∃ n, fuel = n + 1 := ⟨fuel - 1, by omega⟩
    have hp := h p List.mem_cons_self
    have hlength := p.2.length_text_le
    simp only [List.map_cons, List.map_nil, Text.join_singleton] at hfuel
    rw [List.map_cons, List.map_nil, Text.join_singleton, skipSpace_whole hp.starts,
      items?_item hp read (.inr rfl) rest (by omega), if_pos rfl]
    simp [nestingItems]
  | cons q ps ih =>
    obtain ⟨fuel, rfl⟩ : ∃ n, fuel = n + 1 := ⟨fuel - 1, by omega⟩
    have hp := h p List.mem_cons_self
    have hjoin : Text.join [comma] ((p :: q :: ps).map (·.2.whole))
        = p.2.whole ++ comma :: Text.join [comma] ((q :: ps).map (·.2.whole)) := by
      simp
    have hmax : nestingItems d.countsEmpty ((p :: q :: ps).map (·.1)) ≤ depth
        ↔ p.1.nesting d.countsEmpty ≤ depth ∧
          nestingItems d.countsEmpty ((q :: ps).map (·.1)) ≤ depth := by
      rw [List.map_cons, nestingItems, Nat.max_le]
    have hlength := p.2.length_text_le
    rw [hjoin] at hfuel ⊢
    simp only [List.length_append, List.length_cons] at hfuel
    rw [List.append_assoc, List.cons_append, skipSpace_whole hp.starts,
      items?_item hp read (.inl rfl) _ (by omega), if_neg hne,
      ih (fun r hr => h r (List.mem_cons_of_mem p hr)) fuel (p.1 :: read) (by omega)]
    simp only [hmax]
    by_cases hdepth : p.1.nesting d.countsEmpty ≤ depth
    . simp [hdepth]
    . simp [hdepth]

theorem readAs_emptyArray {blanks : Text} (h : IsBlank blanks)
    : ReadAs d (.array []) (openBracket :: (blanks ++ [closeBracket])) := by
  refine ⟨⟨_, _, rfl, rfl, by decide⟩, fun depth fuel rest hrest hfuel => ?_⟩
  obtain ⟨fuel, rfl⟩ : ∃ n, fuel = n + 1 := by
    rw [List.length_cons] at hfuel
    exact ⟨fuel - 1, by omega⟩
  have hne : openBracket ≠ quote := by decide
  have hskip : skipSpace (blanks ++ [closeBracket] ++ rest) = closeBracket :: rest := by
    rw [List.append_assoc, skipSpace_append h]
    rfl
  rw [List.cons_append, value?]
  simp only [if_neg hne, if_true, hskip, List.head?_cons]
  -- Whether an empty container needs depth that is left is up to the dialect.
  cases d.countsEmpty with
  | false => simp [nesting]
  | true => cases depth <;> simp [nesting, nestingItems]

theorem readAs_array {ps : List (Json × Padded)} (hne : ps ≠ [])
    (h : ∀ p ∈ ps, ReadAs d p.1 p.2.text)
    : ReadAs d (.array (ps.map (·.1)))
        (openBracket :: (Text.join [comma] (ps.map (·.2.whole)) ++ [closeBracket])) := by
  refine ⟨⟨_, _, rfl, rfl, by decide⟩, fun depth fuel rest hrest hfuel => ?_⟩
  rw [List.length_cons, List.length_append, List.length_singleton] at hfuel
  obtain ⟨fuel, rfl⟩ : ∃ n, fuel = n + 1 := ⟨fuel - 1, by omega⟩
  obtain ⟨p, ps, rfl⟩ := List.exists_cons_of_ne_nil hne
  have hquote : openBracket ≠ quote := by decide
  have hhead : (skipSpace (Text.join [comma] ((p :: ps).map (·.2.whole))
      ++ closeBracket :: rest)).head? ≠ some closeBracket := by
    have hstarts := (h p List.mem_cons_self).starts
    obtain ⟨more, hmore⟩ := Text.exists_join_cons_eq_append [comma] p.2.whole (ps.map (·.2.whole))
    obtain ⟨c, s, heq, -, hc⟩ := id hstarts
    rw [List.map_cons, hmore, List.append_assoc, skipSpace_whole hstarts, heq]
    simpa using hc
  have hnesting : nesting d.countsEmpty (.array ((p :: ps).map (·.1)))
      = nestingItems d.countsEmpty ((p :: ps).map (·.1)) + 1 := by
    simp [nesting]
  rw [List.cons_append, List.append_assoc, List.singleton_append, value?]
  simp only [if_neg hquote, if_true, if_neg hhead]
  rw [hnesting]
  cases depth with
  | zero => simp
  | succ depth =>
    rw [if_neg (Nat.succ_ne_zero depth), Nat.add_sub_cancel,
      items?_join h depth fuel [] rest (by omega)]
    by_cases hdepth : nestingItems d.countsEmpty ((p :: ps).map (·.1)) ≤ depth
    . rw [if_pos hdepth, if_pos (Nat.succ_le_succ hdepth)]
      rfl
    . rw [if_neg hdepth, if_neg (fun hle => hdepth (Nat.le_of_succ_le_succ hle))]
      rfl

/-! ### Objects -/

theorem skipSpace_member {m : WrittenMember} (h : QuotedText m.name m.nameText.text) (rest : Text)
    : skipSpace (m.whole ++ rest)
        =
      m.nameText.text ++ (m.nameText.after ++ colon :: (m.valueText.whole ++ rest)) := by
  rw [WrittenMember.whole, List.append_assoc, skipSpace_whole (startsValue_quotedText h)]
  rfl

theorem members?_member {m : WrittenMember} (hname : QuotedText m.name m.nameText.text)
    (h : ReadAs d m.value m.valueText.text) {depth fuel : Nat} (read : List (Text × Json))
    {c : CodePoint} (hc : c = comma ∨ c = closeBrace) (rest : Text)
    (hfuel : 2 * m.valueText.text.length ≤ fuel)
    : members? d depth read
        (m.nameText.text ++ (m.nameText.after ++ colon :: (m.valueText.whole ++ c :: rest))) (fuel + 1)
        =
      if m.value.nesting d.countsEmpty ≤ depth then
        if c = closeBrace then some (((m.name, m.value) :: read).reverse, rest)
        else members? d depth ((m.name, m.value) :: read) (skipSpace rest) fuel
      else none := by
  have hmark : StopsNumber (c :: rest) := by
    apply stopsNumber_mark
    rcases hc with rfl | rfl <;> simp
  have hspace : isSpace c = false := by
    rcases hc with rfl | rfl <;> rfl
  have hcolon : skipSpace (m.nameText.after ++ colon :: (m.valueText.whole ++ c :: rest))
      = colon :: (m.valueText.whole ++ c :: rest) := by
    rw [skipSpace_append m.nameText.isBlank_after]
    rfl
  obtain ⟨s, hs, hquoted⟩ := quoted?_of_quotedText hname
  rw [hs, List.cons_append, members?]
  simp only [ne_eq, not_true_eq_false, if_false, hquoted, hcolon, skipSpace_whole h.starts]
  rw [h.value depth fuel _ (stopsNumber_append m.valueText.isBlank_after hmark) hfuel]
  by_cases hdepth : m.value.nesting d.countsEmpty ≤ depth
  . rw [if_pos hdepth, if_pos hdepth]
    dsimp only
    rw [skipSpace_append m.valueText.isBlank_after, skipSpace_cons hspace]
    dsimp only
    split
    . rfl
    . next hne => rw [if_pos (hc.resolve_right hne)]
  . rw [if_neg hdepth, if_neg hdepth]

theorem members?_join {m : WrittenMember} {ms : List WrittenMember}
    (hname : ∀ n ∈ m :: ms, QuotedText n.name n.nameText.text)
    (h : ∀ n ∈ m :: ms, ReadAs d n.value n.valueText.text) (depth fuel : Nat)
    (read : List (Text × Json)) (rest : Text)
    (hfuel : 2 * (Text.join [comma] ((m :: ms).map (·.whole))).length < fuel)
    : members? d depth read
        (skipSpace (Text.join [comma] ((m :: ms).map (·.whole)) ++ closeBrace :: rest)) fuel
        =
      if nestingMembers d.countsEmpty ((m :: ms).map fun n => (n.name, n.value)) ≤ depth then
        some (read.reverse ++ (m :: ms).map fun n => (n.name, n.value), rest)
      else none := by
  have hne : comma ≠ closeBrace := by decide
  have hlength : ∀ n : WrittenMember, n.valueText.text.length ≤ n.whole.length := by
    intro n
    have := n.valueText.length_text_le
    simp only [WrittenMember.whole, List.length_append, List.length_cons]
    omega
  induction ms generalizing m read fuel with
  | nil =>
    obtain ⟨fuel, rfl⟩ : ∃ n, fuel = n + 1 := ⟨fuel - 1, by omega⟩
    have hm := hname m List.mem_cons_self
    have := hlength m
    simp only [List.map_cons, List.map_nil, Text.join_singleton] at hfuel
    rw [List.map_cons, List.map_nil, Text.join_singleton, skipSpace_member hm,
      members?_member hm (h m List.mem_cons_self) read (.inr rfl) rest (by omega), if_pos rfl]
    simp [nestingMembers]
  | cons n ms ih =>
    obtain ⟨fuel, rfl⟩ : ∃ n, fuel = n + 1 := ⟨fuel - 1, by omega⟩
    have hm := hname m List.mem_cons_self
    have hjoin : Text.join [comma] ((m :: n :: ms).map (·.whole))
        = m.whole ++ comma :: Text.join [comma] ((n :: ms).map (·.whole)) := by
      simp
    have hmax : nestingMembers d.countsEmpty ((m :: n :: ms).map fun n => (n.name, n.value)) ≤ depth
        ↔ m.value.nesting d.countsEmpty ≤ depth ∧
          nestingMembers d.countsEmpty ((n :: ms).map fun n => (n.name, n.value)) ≤ depth := by
      rw [List.map_cons, nestingMembers, Nat.max_le]
    have := hlength m
    rw [hjoin] at hfuel ⊢
    simp only [List.length_append, List.length_cons] at hfuel
    rw [List.append_assoc, List.cons_append, skipSpace_member hm,
      members?_member hm (h m List.mem_cons_self) read (.inl rfl) _ (by omega), if_neg hne,
      ih (fun k hk => hname k (List.mem_cons_of_mem m hk))
        (fun k hk => h k (List.mem_cons_of_mem m hk)) fuel ((m.name, m.value) :: read) (by omega)]
    simp only [hmax]
    by_cases hdepth : m.value.nesting d.countsEmpty ≤ depth
    . simp [hdepth]
    . simp [hdepth]

theorem readAs_emptyObject {blanks : Text} (h : IsBlank blanks)
    : ReadAs d (.object []) (openBrace :: (blanks ++ [closeBrace])) := by
  refine ⟨⟨_, _, rfl, rfl, by decide⟩, fun depth fuel rest hrest hfuel => ?_⟩
  obtain ⟨fuel, rfl⟩ : ∃ n, fuel = n + 1 := by
    rw [List.length_cons] at hfuel
    exact ⟨fuel - 1, by omega⟩
  have hne : openBrace ≠ quote ∧ openBrace ≠ openBracket := by decide
  have hskip : skipSpace (blanks ++ [closeBrace] ++ rest) = closeBrace :: rest := by
    rw [List.append_assoc, skipSpace_append h]
    rfl
  rw [List.cons_append, value?]
  simp only [if_neg hne.1, if_neg hne.2, if_true, hskip, List.head?_cons]
  cases d.countsEmpty with
  | false => simp [nesting]
  | true => cases depth <;> simp [nesting, nestingMembers]

theorem readAs_object {ms : List WrittenMember} (hne : ms ≠ [])
    (hname : ∀ m ∈ ms, QuotedText m.name m.nameText.text)
    (h : ∀ m ∈ ms, ReadAs d m.value m.valueText.text)
    : ReadAs d (.object (ms.map fun m => (m.name, m.value)))
        (openBrace :: (Text.join [comma] (ms.map (·.whole)) ++ [closeBrace])) := by
  refine ⟨⟨_, _, rfl, rfl, by decide⟩, fun depth fuel rest hrest hfuel => ?_⟩
  rw [List.length_cons, List.length_append, List.length_singleton] at hfuel
  obtain ⟨fuel, rfl⟩ : ∃ n, fuel = n + 1 := ⟨fuel - 1, by omega⟩
  obtain ⟨m, ms, rfl⟩ := List.exists_cons_of_ne_nil hne
  have hmarks : openBrace ≠ quote ∧ openBrace ≠ openBracket := by decide
  have hhead : (skipSpace (Text.join [comma] ((m :: ms).map (·.whole)) ++ closeBrace :: rest)).head?
      ≠ some closeBrace := by
    have hm := hname m List.mem_cons_self
    obtain ⟨more, hmore⟩ := Text.exists_join_cons_eq_append [comma] m.whole (ms.map (·.whole))
    obtain ⟨s, hs, -⟩ := quoted?_of_quotedText hm
    rw [List.map_cons, hmore, List.append_assoc, skipSpace_member hm, hs, List.cons_append,
      List.head?_cons]
    decide
  have hnesting : nesting d.countsEmpty (.object ((m :: ms).map fun m => (m.name, m.value)))
      = nestingMembers d.countsEmpty ((m :: ms).map fun m => (m.name, m.value)) + 1 := by
    simp [nesting]
  rw [List.cons_append, List.append_assoc, List.singleton_append, value?]
  simp only [if_neg hmarks.1, if_neg hmarks.2, if_true, if_neg hhead]
  rw [hnesting]
  cases depth with
  | zero => simp
  | succ depth =>
    rw [if_neg (Nat.succ_ne_zero depth), Nat.add_sub_cancel,
      members?_join hname h depth fuel [] rest (by omega)]
    by_cases hdepth
        : nestingMembers d.countsEmpty ((m :: ms).map fun m => (m.name, m.value)) ≤ depth
    . rw [if_pos hdepth, if_pos (Nat.succ_le_succ hdepth)]
      rfl
    . rw [if_neg hdepth, if_neg (fun hle => hdepth (Nat.le_of_succ_le_succ hle))]
      rfl

end Containers

theorem readAs_valueText (d : Dialect) {j : Json} {t : Text} (h : ValueText j t) : ReadAs d j t := by
  induction h with
  | null | true | false | nan =>
    exact readAs_of_step ⟨_, _, rfl, rfl, by decide⟩ rfl fun _ _ _ _ => rfl
  | @int negative whole hwhole hlength =>
    -- Numbers are the only values without a mark at their end; here what follows has to stop them.
    have hstart := exists_whole_eq_cons negative hwhole []
    rw [List.append_nil] at hstart
    exact readAs_of_number hstart rfl fun rest hrest => number?_whole d negative hwhole hlength hrest
  | float hdecimal =>
    refine readAs_of_number ?_ rfl fun rest hrest => number?_decimal d _ hdecimal hrest
    cases hdecimal with
    | decimal hwhole => exact exists_whole_eq_cons _ hwhole _
  | @infinite negative =>
    refine readAs_of_number ?_ rfl fun rest _ => number?_infinite d negative rest
    cases negative with
    | true => exact ⟨_, _, rfl, .inr (.inl rfl)⟩
    | false => exact ⟨_, _, rfl, .inr (.inr rfl)⟩
  | text hquoted => exact readAs_quotedText hquoted
  | emptyArray hblank => exact readAs_emptyArray hblank
  | array hne _ ih => exact readAs_array hne ih
  | emptyObject hblank => exact readAs_emptyObject hblank
  | object hne hname _ ih => exact readAs_object hne hname ih

end Reader

theorem read?_of_hasText (d : Dialect) {j : Json} {t : Text} (h : j.HasText t)
    : read? d t = if j.nesting d.countsEmpty ≤ d.maxDepth then some j else none := by
  obtain ⟨p, rfl, htext⟩ := h
  have hread := Reader.readAs_valueText d htext
  have hskip := Reader.skipSpace_whole hread.starts []
  have hafter : Reader.skipSpace p.after = [] := by
    have := Reader.skipSpace_append p.isBlank_after []
    rwa [List.append_nil] at this
  have hlength := p.length_text_le
  have hstop : Reader.StopsNumber p.after := by
    have := Reader.stopsNumber_append p.isBlank_after Reader.stopsNumber_nil
    rwa [List.append_nil] at this
  rw [List.append_nil, List.append_nil] at hskip
  unfold read?
  rw [hskip, hread.value d.maxDepth _ p.after hstop (by omega)]
  by_cases hdepth : j.nesting d.countsEmpty ≤ d.maxDepth
  . simp [hdepth, hafter]
  . simp [hdepth]

end SignedToken.Json
