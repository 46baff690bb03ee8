import SignedToken.Arguments
import SignedToken.Proofs.Text.Decimal
import SignedToken.Proofs.Text.Pieces

/-!
This module contains how an argument list of the usual form is read: values for all positions, and then
long flags with their values attached. Such a list is read without misuse, whatever the values are.
-/

namespace SignedToken

theorem Text.cutAt?_append {sep : CodePoint} {a : Text} (h : sep ∉ a) (t : Text)
    : cutAt? sep (a ++ sep :: t) = some (a, t) := by
  have hall : ∀ c ∈ a, (c != sep) = true := by
    intro c hc
    rw [bne_iff_ne]
    rintro rfl
    exact h hc
  have hstop : ¬ (sep != sep) = true := by simp
  rw [cutAt?, List.dropWhile_append_of_pos hall, List.takeWhile_append_of_pos hall,
    List.dropWhile_cons_of_neg (p := (· != sep)) hstop,
    List.takeWhile_cons_of_neg (p := (· != sep)) hstop, List.append_nil]

namespace Arguments

variable {σ : Type} {g : Grammar σ} {t name value : Text} {f : Flag σ}

/-! ### Kinds of arguments -/

def IsPlain (t : Text) : Prop :=
  t.head? ≠ some hyphen

instance : Decidable (IsPlain t) :=
  inferInstanceAs (Decidable (t.head? ≠ some hyphen))

theorem IsPlain.ne_separator (h : IsPlain t) : t ≠ separator := by
  rintro rfl
  exact h rfl

theorem IsPlain.kindOf (h : IsPlain t) : g.kindOf t = .ok .value := by
  cases t with
  | nil => rfl
  | cons c rest =>
    have hc : c ≠ hyphen := by
      rintro rfl
      exact h rfl
    rw [Grammar.kindOf, if_pos hc]

structure IsLongName (name : Text) : Prop where
  long : ∃ c rest, name = hyphen :: hyphen :: c :: rest
  noEquals : equalsSign ∉ name

def assignment (name value : Text) : Text :=
  name ++ equalsSign :: value

theorem assignment_ne_separator (hname : IsLongName name) : assignment name value ≠ separator := by
  obtain ⟨c, rest, rfl⟩ := hname.long
  intro h
  injection h with _ h
  injection h with _ h
  cases h

def Grammar.HasNames (g : Grammar σ) : Prop :=
  ∀ f ∈ g.flags, ∀ name ∈ f.names, equalsSign ∉ name

theorem Grammar.HasNames.flagNamed?_assignment (h : g.HasNames)
    : g.flagNamed? (assignment name value) = none := by
  rw [Grammar.flagNamed?, List.find?_eq_none]
  intro f hf hcontains
  rw [List.contains_iff_mem] at hcontains
  exact h f hf _ hcontains (List.mem_append_right _ List.mem_cons_self)

section Assignment

variable (hg : g.HasNames) (hname : IsLongName name)
include hg hname

theorem kindOf_assignment
    : g.kindOf (assignment name value)
        =
      match g.flagNamed? name with
      | some f => .ok (.flag f (some ⟨false, value⟩))
      | none =>
        match g.candidates (assignment name value) with
        | [(_, kind)] => .ok kind
        | [] =>
          if isNegativeNumber (assignment name value)
              || (assignment name value).contains (CodePoint.ofChar ' ') then .ok .value
          else .ok .unknownFlag
        | several => .error (.ambiguous (assignment name value) (several.map (·.1))) := by
  have hcut := Text.cutAt?_append hname.noEquals value
  have hwhole : g.flagNamed? (assignment name value) = none := hg.flagNamed?_assignment
  obtain ⟨c, rest, rfl⟩ := hname.long
  unfold Grammar.kindOf assignment at *
  rw [hcut]
  simp only [List.cons_append, ne_eq, not_true_eq_false, if_false] at hwhole ⊢
  rw [hwhole]
  simp only [List.isEmpty_cons, Bool.false_eq_true, if_false, Option.bind_some]
  cases g.flagNamed? (hyphen :: hyphen :: c :: rest) with
  | some f => rfl
  | none => rfl

theorem exists_kindOf_assignment (h : ∀ f ∈ g.flags, ∀ n ∈ f.names, n.startsWith name = false)
    : ∃ kind, g.kindOf (assignment name value) = .ok kind := by
  have hnamed : g.flagNamed? name = none := by
    rw [Grammar.flagNamed?, List.find?_eq_none]
    intro f hf hcontains
    rw [List.contains_iff_mem] at hcontains
    have hself : name.startsWith name = true := List.isPrefixOf_iff_prefix.2 (List.prefix_refl name)
    rw [h f hf name hcontains] at hself
    cases hself
  have hcandidates : g.candidates (assignment name value) = [] := by
    have hcut := Text.cutAt?_append hname.noEquals value
    have hlong : (assignment name value).startsWith separator = true := by
      obtain ⟨c, rest, rfl⟩ := hname.long
      rfl
    unfold Grammar.candidates
    rw [if_pos hlong, assignment, hcut, List.map_eq_nil_iff, List.filter_eq_nil_iff]
    intro p hp
    obtain ⟨f, hf, hp⟩ := List.mem_flatMap.1 hp
    obtain ⟨n, hn, rfl⟩ := List.mem_map.1 hp
    rw [Bool.not_eq_true]
    exact h f hf n hn
  rw [kindOf_assignment hg hname, hnamed]
  dsimp only
  rw [hcandidates]
  dsimp only
  split
  . exact ⟨_, rfl⟩
  . exact ⟨_, rfl⟩

end Assignment

/-! ### Words -/

theorem words_cons {kind : Kind σ} {rest : List Text} {ws : List (Word σ)} (hne : t ≠ separator)
    (hkind : g.kindOf t = .ok kind) (hrest : g.words rest = .ok ws)
    : g.words (t :: rest) = .ok (⟨t, kind⟩ :: ws) := by
  rw [Grammar.words, if_neg hne, hkind, hrest]
  rfl

theorem exists_words {args : List Text}
    (h : ∀ t ∈ args, t ≠ separator ∧ ∃ kind, g.kindOf t = .ok kind)
    : ∃ ws, g.words args = .ok ws ∧ ws.map Word.text = args := by
  induction args with
  | nil => exact ⟨[], rfl, rfl⟩
  | cons t rest ih =>
    rw [List.forall_mem_cons] at h
    obtain ⟨⟨hne, kind, hkind⟩, hrest⟩ := h
    obtain ⟨ws, hws, htexts⟩ := ih hrest
    exact ⟨_, words_cons hne hkind hws, by rw [List.map_cons, htexts]⟩

theorem words_plain_append {ts rest : List Text} {ws : List (Word σ)} (hts : ∀ t ∈ ts, IsPlain t)
    (hrest : g.words rest = .ok ws)
    : g.words (ts ++ rest) = .ok (ts.map (Word.mk · .value) ++ ws) := by
  induction ts with
  | nil => exact hrest
  | cons t ts ih =>
    rw [List.forall_mem_cons] at hts
    exact words_cons hts.1.ne_separator hts.1.kindOf (ih hts.2)

structure Given (σ : Type) where
  flag : Flag σ
  name : Text
  value : Text

namespace Given

structure IsOf (a : Given σ) (g : Grammar σ) : Prop where
  long : IsLongName a.name
  named : g.flagNamed? a.name = some a.flag
  takesValue : a.flag.takesValue = true

def argument (a : Given σ) : Text :=
  assignment a.name a.value

def word (a : Given σ) : Word σ :=
  ⟨a.argument, .flag a.flag (some ⟨false, a.value⟩)⟩

end Given

theorem words_given {as : List (Given σ)} (hg : g.HasNames) (has : ∀ a ∈ as, a.IsOf g)
    : g.words (as.map Given.argument) = .ok (as.map Given.word) := by
  induction as with
  | nil => rfl
  | cons a as ih =>
    rw [List.forall_mem_cons] at has
    apply words_cons (assignment_ne_separator has.1.long) _ (ih has.2)
    rw [kindOf_assignment hg has.1.long, has.1.named]

/-! ### Readings -/

namespace Reading

@[simp]
theorem give_nil (r : Reading σ) : r.give [] = r := rfl

end Reading

def readNext (g : Grammar σ) (ps : List (Position σ)) : List (Word σ) → Reading σ
  | [] => ⟨[], [], none⟩
  | w :: rest =>
    match w.kind with
    | .flag f attached =>
      match g.clusterOf f w.text attached with
      | .error e => .stop e
      | .ok c =>
        match c.waiting with
        | none => ((g.readWords ps rest).leave c.spare).give c.given
        | some f =>
          match rest with
          | ⟨v, .value⟩ :: after =>
            ((g.readWords ps after).leave c.spare).give (c.given ++ [(f.slot, [v])])
          | _ => .stop (.valueMissing f.title)
    | _ => (g.readWords ps rest).leave [w.text]

theorem readWords_eq (ps : List (Position σ)) (ws : List (Word σ))
    : g.readWords ps ws
        =
      (((readNext g (fillFront ps ws).2.1 ((fillFront ps ws).2.2.dropWhile fun w => !w.isFlag)).leave
        (((fillFront ps ws).2.2.takeWhile fun w => !w.isFlag).map (·.text))).give
          (fillFront ps ws).1) := by
  rw [Grammar.readWords]
  dsimp only
  split
  . next h =>
    rw [h]
    rfl
  . next w rest h =>
    have hnext : readNext g (fillFront ps ws).2.1
        ((fillFront ps ws).2.2.dropWhile fun w => !w.isFlag)
          = readNext g (fillFront ps ws).2.1 (w :: rest) := by rw [h]
    rw [hnext, readNext]
    obtain ⟨text, kind⟩ := w
    cases kind with
    | flag f attached =>
      dsimp only
      cases g.clusterOf f text attached with
      | error e => rfl
      | ok c =>
        dsimp only
        cases c.waiting with
        | none => rfl
        | some f =>
          cases rest with
          | nil => rfl
          | cons next after =>
            obtain ⟨v, kind⟩ := next
            cases kind <;> rfl
    | _ => rfl

def StartsFree (ws : List (Word σ)) : Prop :=
  ws.takeWhile Word.isSeparator = []

theorem take?_value {a : Arity} {ws : List (Word σ)} (ha : a ≠ .rest) (ht : t ≠ separator)
    (hws : StartsFree ws) : a.take? (⟨t, .value⟩ :: ws) = some ([t], ws) := by
  have herase : [t].erase separator = [t] := List.erase_of_not_mem (by simpa using ht.symm)
  have hdrop : ws.dropWhile Word.isSeparator = ws := by
    have happend := List.takeWhile_append_dropWhile (p := Word.isSeparator) (l := ws)
    rwa [hws, List.nil_append] at happend
  cases a with
  | rest => exact absurd rfl ha
  | _ =>
    change some ((([Word.mk t .value] ++ ws.takeWhile Word.isSeparator).map Word.text).erase separator,
      ws.dropWhile Word.isSeparator) = _
    rw [hws, hdrop, List.append_nil, List.map_singleton, herase]

theorem fillPositions_values {ps : List (Position σ)} {ts : List Text} {ws : List (Word σ)}
    (hps : ∀ p ∈ ps, p.arity ≠ .rest) (hlength : ps.length = ts.length)
    (hts : ∀ t ∈ ts, t ≠ separator) (hws : StartsFree ws)
    : fillPositions ps (ts.map (Word.mk · .value) ++ ws)
        =
      (List.zipWith (fun p t => (p.slot, [t])) ps ts, [], ws) := by
  induction ps generalizing ts with
  | nil =>
    rw [List.eq_nil_of_length_eq_zero hlength.symm]
    rfl
  | cons p ps ih =>
    cases ts with
    | nil => cases hlength
    | cons t ts =>
      rw [List.forall_mem_cons] at hps hts
      have hfree : StartsFree (ts.map (Word.mk · .value) ++ ws) := by
        cases ts with
        | nil => exact hws
        | cons t ts => rfl
      rw [List.map_cons, List.cons_append, fillPositions, take?_value hps.1 hts.1 hfree]
      dsimp only
      rw [ih hps.2 (Nat.succ.inj hlength) hts.2]
      rfl

theorem readWords_of_filled {ps : List (Position σ)} {ws rest : List (Word σ)}
    {given : List (σ × List Text)} (h : fillFront ps ws = (given, [], rest))
    : g.readWords ps ws = (g.readWords [] rest).give given := by
  have hrest : fillFront ([] : List (Position σ)) rest = ([], [], rest) := by
    rw [fillFront, fillPositions]
    split <;> rfl
  rw [readWords_eq, h, readWords_eq [] rest, hrest, Reading.give_nil]

theorem Given.IsOf.clusterOf {a : Given σ} (h : a.IsOf g)
    : g.clusterOf a.flag t (some ⟨false, a.value⟩)
        =
      .ok ⟨[(a.flag.slot, [a.value])], [], none⟩ := by
  unfold Grammar.clusterOf
  dsimp only
  cases a.value with
  | nil => rw [Grammar.cluster, if_pos h.takesValue]
  | cons c value => rw [Grammar.cluster, if_pos h.takesValue]

theorem readWords_given {as : List (Given σ)} (has : ∀ a ∈ as, a.IsOf g)
    : g.readWords [] (as.map Given.word) = ⟨as.map fun a => (a.flag.slot, [a.value]), [], none⟩ := by
  induction as with
  | nil =>
    rw [List.map_nil, readWords_eq]
    rfl
  | cons a as ih =>
    rw [List.forall_mem_cons] at has
    have hnext : g.readWords [] ((a :: as).map Given.word)
        = readNext g [] (a.word :: as.map Given.word) := readWords_eq _ _
    rw [hnext, readNext, Given.word]
    dsimp only
    rw [has.1.clusterOf]
    dsimp only
    rw [ih has.2]
    rfl

theorem read_values_given (ts : List Text) (as : List (Given σ)) (hg : g.HasNames)
    (hps : ∀ p ∈ g.positions, p.arity ≠ .rest) (hlength : g.positions.length = ts.length)
    (hts : ∀ t ∈ ts, IsPlain t) (has : ∀ a ∈ as, a.IsOf g)
    : g.read (ts ++ as.map Given.argument)
        =
      ⟨List.zipWith (fun p t => (p.slot, [t])) g.positions ts
          ++ as.map fun a => (a.flag.slot, [a.value]), [], none⟩ := by
  have hwords := words_plain_append hts (words_given hg has)
  have hfree : StartsFree (as.map Given.word) := by
    cases as with
    | nil => rfl
    | cons a as => rfl
  have hfilled := fillPositions_values hps hlength (fun t ht => (hts t ht).ne_separator) hfree
  have hfront : fillFront g.positions (ts.map (Word.mk · .value) ++ as.map Given.word)
      = (List.zipWith (fun p t => (p.slot, [t])) g.positions ts, [], as.map Given.word) := by
    cases ts with
    | nil =>
      rw [List.eq_nil_of_length_eq_zero hlength, fillFront]
      split <;> rfl
    | cons t ts => exact hfilled
  rw [Grammar.read, hwords]
  dsimp only
  rw [readWords_of_filled hfront, readWords_given has]
  rfl

/-! ### Integers -/

theorem isBlank_of_isDigit {c : CodePoint} (h : c.isDigit = true) : c.isBlank = false := by
  rw [CodePoint.isDigit_iff] at h
  simp only [CodePoint.isBlank, Bool.or_eq_false_iff, Bool.and_eq_false_iff, decide_eq_false_iff_not,
    beq_eq_false_iff_ne]
  omega

theorem trim_of_forall (h : ∀ c ∈ t, c.isBlank = false) : t.trim = t := by
  have hdrop : ∀ u : Text, (∀ c ∈ u, c.isBlank = false) → u.dropWhile CodePoint.isBlank = u := by
    intro u hu
    cases u with
    | nil => rfl
    | cons c u => rw [List.dropWhile_cons_of_neg (by simp [hu])]
  have hreverse : ∀ c ∈ t.reverse, c.isBlank = false := fun c hc => h c (List.mem_reverse.1 hc)
  rw [Text.trim, Text.dropEndWhile, hdrop t h, hdrop _ hreverse, List.reverse_reverse]

theorem digitValue?_of_isDigit {c : CodePoint} (h : c.isDigit = true)
    : c.digitValue? = some (c.val - 0x30) := by
  rw [CodePoint.isDigit_iff] at h
  rw [CodePoint.digitValue?, CodePoint.zeroDigits, List.find?_cons_of_pos]
  . rfl
  . simp
    omega

theorem groupedDigits?_of_isDigit (h : ∀ c ∈ t, c.isDigit = true) (hne : t ≠ [])
    : Text.groupedDigits? CodePoint.digitValue? t = some (t.map fun c => c.val - 0x30) := by
  have hunderscore : Text.underscore ∉ t := fun hmem => absurd (h _ hmem) (by decide)
  have hvalues : t.mapM CodePoint.digitValue? = some (t.map fun c => c.val - 0x30) := by
    clear hne hunderscore
    induction t with
    | nil => rfl
    | cons c t ih =>
      rw [List.forall_mem_cons] at h
      rw [List.mapM_cons, digitValue?_of_isDigit h.1, ih h.2]
      rfl
  have hempty : t.isEmpty = false := by simpa using hne
  rw [Text.groupedDigits?, Text.splitOn_of_not_mem hunderscore, List.mapM_cons, hempty,
    if_neg Bool.false_ne_true, hvalues]
  simp

theorem cutSign_ofInt (n : Int) : Text.cutSign (Text.ofInt n) = (decide (n < 0), Text.ofNat n.natAbs) := by
  unfold Text.ofInt
  by_cases hn : n < 0
  . rw [if_pos hn, decide_eq_true hn]
    rfl
  . rw [if_neg hn, decide_eq_false hn]
    cases hdigits : Text.ofNat n.natAbs with
    | nil => exact absurd hdigits (Text.ofNat_ne_nil _)
    | cons c t =>
      have hc : c.isDigit = true :=
        Text.isDigit_of_mem_ofNat c (by rw [hdigits]; exact List.mem_cons_self)
      have hminus : c ≠ CodePoint.ofChar '-' := by
        rintro rfl
        exact absurd hc (by decide)
      have hplus : c ≠ CodePoint.ofChar '+' := by
        rintro rfl
        exact absurd hc (by decide)
      rw [Text.cutSign, if_neg hminus, if_neg hplus]

theorem integer?_ofInt {n : Int} (h : hasNumeral n = true) : integer? (Text.ofInt n) = some n := by
  have hdigits : ∀ c ∈ Text.ofNat n.natAbs, c.isDigit = true := Text.isDigit_of_mem_ofNat
  have hblank : ∀ c ∈ Text.ofInt n, c.isBlank = false := by
    intro c hc
    unfold Text.ofInt at hc
    split at hc
    . cases List.mem_cons.1 hc with
      | inl heq =>
        rw [heq]
        decide
      | inr hmem => exact isBlank_of_isDigit (hdigits c hmem)
    . exact isBlank_of_isDigit (hdigits c hc)
  have hvalue : Text.signedValue (decide (n < 0)) ((Text.ofNat n.natAbs).map fun c => c.val - 0x30)
      = n := by
    have hnat := Text.digitsValue_ofNat n.natAbs
    rw [Text.digitsValue] at hnat
    rw [Text.signedValue, List.foldl_map, hnat]
    split
    . next hneg =>
      rw [decide_eq_true_eq] at hneg
      omega
    . next hneg =>
      rw [decide_eq_true_eq] at hneg
      omega
  rw [integer?, trim_of_forall hblank, cutSign_ofInt]
  dsimp only
  rw [groupedDigits?_of_isDigit hdigits (Text.ofNat_ne_nil _)]
  dsimp only
  rw [List.length_map, if_pos (Text.hasNumeral_iff.1 h), hvalue]

end Arguments

end SignedToken
