import SignedToken.Entries

/-!
This module contains the laws of association lists: no two keys of a list that was put together are
the same, of entries with one key the last one counts, and a list whose keys differ anyway is left as
it is.
-/

namespace SignedToken.Entries

theorem sizeOf_snd_lt_of_mem [SizeOf α] [SizeOf β] {e : α × β} {entries : List (α × β)}
    (h : e ∈ entries) : sizeOf e.2 < sizeOf entries := by
  obtain ⟨k, v⟩ := e
  have hmem := List.sizeOf_lt_of_mem h
  simp only [Prod.mk.sizeOf_spec] at hmem ⊢
  omega

theorem eq_of_mem_of_nodup {e f : α × β} {entries : List (α × β)}
    (hnodup : (entries.map (·.1)).Nodup) (he : e ∈ entries) (hf : f ∈ entries) (h : e.1 = f.1)
    : e = f := by
  induction entries with
  | nil => cases he
  | cons g rest ih =>
    rw [List.map_cons, List.nodup_cons] at hnodup
    cases List.mem_cons.1 he with
    | inl heg =>
      cases List.mem_cons.1 hf with
      | inl hfg => rw [heg, hfg]
      | inr hf =>
        rw [← heg, h] at hnodup
        exact absurd (List.mem_map_of_mem hf) hnodup.1
    | inr he =>
      cases List.mem_cons.1 hf with
      | inl hfg =>
        rw [← hfg, ← h] at hnodup
        exact absurd (List.mem_map_of_mem he) hnodup.1
      | inr hf => exact ih hnodup.2 he hf

theorem get?_eq_some_iff [BEq α] [LawfulBEq α] {key : α} {value : β} {entries : List (α × β)}
    (hnodup : (entries.map (·.1)).Nodup) : get? key entries = some value ↔ (key, value) ∈ entries := by
  unfold get?
  rw [Option.map_eq_some_iff]
  constructor
  . rintro ⟨e, he, rfl⟩
    have hkey : e.1 = key := by simpa using List.find?_some he
    rw [← hkey]
    exact List.mem_of_find?_eq_some he
  . intro hmem
    cases hfind : entries.find? (·.1 == key) with
    | none =>
      have := List.find?_eq_none.1 hfind _ hmem
      simp at this
    | some e =>
      have hkey : e.1 = key := by simpa using List.find?_some hfind
      refine ⟨e, rfl, ?_⟩
      rw [eq_of_mem_of_nodup hnodup (List.mem_of_find?_eq_some hfind) hmem hkey]

theorem exists_pairs {R : β → γ → Prop} {es : List (α × β)} {fs : List (α × γ)}
    (hnodup : (es.map (·.1)).Nodup) (hlength : es.length = fs.length)
    (h : ∀ e ∈ es, ∃ f ∈ fs, e.1 = f.1 ∧ R e.2 f.2)
    : ∃ ps : List (α × β × γ), es = (ps.map fun p => (p.1, p.2.1)) ∧
        fs.Perm (ps.map fun p => (p.1, p.2.2)) ∧ ∀ p ∈ ps, R p.2.1 p.2.2 := by
  induction es generalizing fs with
  | nil =>
    cases List.eq_nil_of_length_eq_zero hlength.symm
    exact ⟨[], rfl, .nil, by simp⟩
  | cons e es ih =>
    rw [List.map_cons, List.nodup_cons] at hnodup
    rw [List.forall_mem_cons] at h
    obtain ⟨⟨f, hf, hkey, hR⟩, hrest⟩ := h
    obtain ⟨before, behind, rfl⟩ := List.append_of_mem hf
    have hperm : (before ++ f :: behind).Perm (f :: (before ++ behind)) := List.perm_middle
    -- The partners of the other entries have other keys, so they are not the one that is taken away.
    have hothers : ∀ e' ∈ es, ∃ f' ∈ before ++ behind, e'.1 = f'.1 ∧ R e'.2 f'.2 := by
      intro e' he'
      obtain ⟨f', hf', hkey', hR'⟩ := hrest e' he'
      refine ⟨f', (List.mem_cons.1 (hperm.mem_iff.1 hf')).resolve_left ?_, hkey', hR'⟩
      rintro rfl
      exact hnodup.1 (hkey.trans hkey'.symm ▸ List.mem_map_of_mem he')
    have hlength' : es.length = (before ++ behind).length := by
      have := hperm.length_eq
      simp only [List.length_cons] at hlength this
      omega
    obtain ⟨ps, rfl, hps, hall⟩ := ih hnodup.2 hlength' hothers
    refine ⟨(e.1, e.2, f.2) :: ps, rfl, ?_, List.forall_mem_cons.2 ⟨hR, hall⟩⟩
    have hcons := hps.cons f
    rw [List.map_cons, hkey]
    exact hperm.trans hcons

/-! ### Halves of pairs -/

section Halves

variable {es fs : List α} {ps : List π} {f g : π → α} {h : α → β}

theorem map_perm_map {F : π → ρ} {G : ρ → β} (hes : es.Perm (ps.map f))
    (hcomm : ∀ p, h (f p) = G (F p)) : (es.map h).Perm ((ps.map F).map G) := by
  refine (hes.map h).trans (List.Perm.of_eq ?_)
  rw [List.map_map, List.map_map]
  exact List.map_congr_left fun p _ => hcomm p

theorem map_perm_map_of_halves (hes : es.Perm (ps.map f)) (hfs : fs.Perm (ps.map g))
    (hsame : ∀ p ∈ ps, h (f p) = h (g p)) : (es.map h).Perm (fs.map h) := by
  refine (hes.map h).trans (List.Perm.trans (List.Perm.of_eq ?_) (hfs.map h).symm)
  rw [List.map_map, List.map_map]
  exact List.map_congr_left hsame

end Halves

section Same

variable {same : α → α → Bool} {key : α} {value : β} {entries : List (α × β)}

theorem put_of_forall_not_same (h : ∀ e ∈ entries, same e.1 key = false)
    : put same key value entries = entries ++ [(key, value)] := by
  induction entries with
  | nil => rfl
  | cons e rest ih =>
    simp only [List.mem_cons, forall_eq_or_imp] at h
    rw [put, if_neg (by simp [h.1]), ih h.2, List.cons_append]

theorem foldl_put_of_pairwise (done : List (α × β))
    (h : (done ++ entries).Pairwise fun e f => same e.1 f.1 = false)
    : entries.foldl (fun put' (k, v) => put same k v put') done = done ++ entries := by
  induction entries generalizing done with
  | nil => simp
  | cons e rest ih =>
    have hput : put same e.1 e.2 done = done ++ [e] := by
      apply put_of_forall_not_same
      intro f hf
      exact (List.pairwise_append.1 h).2.2 f hf e (by simp)
    rw [List.foldl_cons]
    dsimp only
    rw [hput, ih]
    . simp
    . simpa using h

theorem ofList_of_pairwise (h : entries.Pairwise fun e f => same e.1 f.1 = false)
    : ofList same entries = entries := by
  have := foldl_put_of_pairwise [] h
  simpa [ofList] using this

theorem length_put_le : (put same key value entries).length ≤ entries.length + 1 := by
  induction entries with
  | nil => exact Nat.le_refl 1
  | cons e rest ih =>
    unfold put
    split
    . simp
    . simpa using ih

theorem put_map {same' : α' → α' → Bool} {f : α → α'} (g : β → β')
    (h : ∀ a b, same' (f a) (f b) = same a b)
    : put same' (f key) (g value) (entries.map fun e => (f e.1, g e.2))
        =
      (put same key value entries).map fun e => (f e.1, g e.2) := by
  induction entries with
  | nil => rfl
  | cons e rest ih =>
    simp only [List.map_cons, put, h]
    split
    . rfl
    . rw [ih, List.map_cons]

theorem foldl_put_map {same' : α' → α' → Bool} {f : α → α'} (g : β → β') (done : List (α × β))
    (h : ∀ a b, same' (f a) (f b) = same a b)
    : (entries.map fun e => (f e.1, g e.2)).foldl (fun put' (k, v) => put same' k v put')
        (done.map fun e => (f e.1, g e.2))
        =
      (entries.foldl (fun put' (k, v) => put same k v put') done).map fun e => (f e.1, g e.2) := by
  induction entries generalizing done with
  | nil => rfl
  | cons e rest ih =>
    simp only [List.map_cons, List.foldl_cons]
    rw [put_map g h, ih]

theorem ofList_map {same' : α' → α' → Bool} {f : α → α'} (g : β → β')
    (h : ∀ a b, same' (f a) (f b) = same a b)
    : ofList same' (entries.map fun e => (f e.1, g e.2))
        =
      (ofList same entries).map fun e => (f e.1, g e.2) :=
  foldl_put_map g [] h

end Same

section Lawful

variable [BEq α] [LawfulBEq α] {key : α} {value : β} {entries : List (α × β)}

theorem ofList_of_nodup (h : (entries.map (·.1)).Nodup) : ofList (· == ·) entries = entries := by
  apply ofList_of_pairwise
  rw [List.Nodup, List.pairwise_map] at h
  exact h.imp fun hne => by simpa using hne

theorem mem_map_fst_put {k : α}
    : k ∈ (put (· == ·) key value entries).map (·.1) ↔ k = key ∨ k ∈ entries.map (·.1) := by
  induction entries with
  | nil => simp [put]
  | cons e rest ih =>
    unfold put
    split
    . next heq =>
      have : e.1 = key := by simpa using heq
      simp [this]
    . rw [List.map_cons, List.mem_cons, ih, List.map_cons, List.mem_cons]
      exact or_left_comm

theorem nodup_put (h : (entries.map (·.1)).Nodup)
    : ((put (· == ·) key value entries).map (·.1)).Nodup := by
  induction entries with
  | nil => simp [put]
  | cons e rest ih =>
    simp only [List.map_cons, List.nodup_cons] at h
    unfold put
    split
    . simpa using h
    . next hne =>
      rw [List.map_cons, List.nodup_cons, mem_map_fst_put]
      refine ⟨?_, ih h.2⟩
      rintro (heq | hmem)
      . exact hne (beq_iff_eq.2 heq)
      . exact h.1 hmem

theorem nodup_foldl_put (done : List (α × β)) (h : (done.map (·.1)).Nodup)
    : ((entries.foldl (fun put' (k, v) => put (· == ·) k v put') done).map (·.1)).Nodup := by
  induction entries generalizing done with
  | nil => exact h
  | cons e rest ih => exact ih _ (nodup_put h)

theorem nodup_ofList (entries : List (α × β)) : ((ofList (· == ·) entries).map (·.1)).Nodup :=
  nodup_foldl_put [] List.nodup_nil

theorem mem_map_fst_ofList {k : α}
    : k ∈ (ofList (· == ·) entries).map (·.1) ↔ k ∈ entries.map (·.1) := by
  have hfoldl : ∀ done : List (α × β),
      k ∈ (entries.foldl (fun put' (k, v) => put (· == ·) k v put') done).map (·.1)
        ↔ k ∈ done.map (·.1) ∨ k ∈ entries.map (·.1) := by
    induction entries with
    | nil => simp
    | cons e rest ih =>
      intro done
      rw [List.foldl_cons, ih, mem_map_fst_put, List.map_cons, List.mem_cons, or_assoc,
        or_left_comm]
  have := hfoldl []
  simpa [ofList] using this

omit [LawfulBEq α] in
theorem get?_cons (e : α × β) (entries : List (α × β))
    : get? key (e :: entries) = if e.1 == key then some e.2 else get? key entries := by
  unfold get?
  rw [List.find?_cons]
  split
  . next h => rw [h, if_pos rfl, Option.map_some]
  . next h => rw [h, if_neg (by simp)]

theorem get?_eq_none_iff : get? key entries = none ↔ key ∉ entries.map (·.1) := by
  rw [get?, Option.map_eq_none_iff, List.find?_eq_none]
  constructor
  . intro h hmem
    obtain ⟨e, he, rfl⟩ := List.mem_map.1 hmem
    exact h e he (beq_iff_eq.2 rfl)
  . intro h e he hkey
    exact h (beq_iff_eq.1 hkey ▸ List.mem_map_of_mem he)

@[simp]
theorem get?_put_self : get? key (put (· == ·) key value entries) = some value := by
  induction entries with
  | nil => simp [put, get?_cons]
  | cons e rest ih =>
    unfold put
    split
    . next h => rw [get?_cons, if_pos h]
    . next h => rw [get?_cons, if_neg h, ih]

theorem get?_put_of_ne {other : α} (h : other ≠ key)
    : get? other (put (· == ·) key value entries) = get? other entries := by
  induction entries with
  | nil => simp [put, get?, Ne.symm h]
  | cons e rest ih =>
    unfold put
    split
    . next hkey =>
      have hne : e.1 ≠ other := fun heq => h (heq.symm.trans (beq_iff_eq.1 hkey))
      simp [get?_cons, hne]
    . rw [get?_cons, get?_cons, ih]

@[simp]
theorem put_put (value' : β)
    : put (· == ·) key value' (put (· == ·) key value entries) = put (· == ·) key value' entries := by
  induction entries with
  | nil => simp [put]
  | cons e rest ih =>
    by_cases h : (e.1 == key) = true
    . simp [put, h]
    . simp [put, h, ih]

theorem erase_put (h : key ∉ entries.map (·.1))
    : erase key (put (· == ·) key value entries) = entries := by
  have hne : ∀ e ∈ entries, (e.1 == key) = false := by
    intro e he
    rw [beq_eq_false_iff_ne]
    rintro rfl
    exact h (List.mem_map_of_mem he)
  rw [put_of_forall_not_same hne, erase, List.filter_append, List.filter_eq_self.2]
  . simp
  . intro e he
    simp [bne, hne e he]

end Lawful

section Mem

variable {same : α → α → Bool} {key : α} {value : β} {entries : List (α × β)}

theorem mem_put {e : α × β} (h : e ∈ put same key value entries)
    : (e.1 = key ∨ e.1 ∈ entries.map (·.1)) ∧ (e.2 = value ∨ e.2 ∈ entries.map (·.2)) := by
  induction entries with
  | nil =>
    rw [put, List.mem_singleton] at h
    simp [h]
  | cons f rest ih =>
    unfold put at h
    split at h
    . cases List.mem_cons.1 h with
      | inl h => simp [h]
      | inr h =>
        simp only [List.map_cons, List.mem_cons]
        exact ⟨.inr (.inr (List.mem_map_of_mem h)), .inr (.inr (List.mem_map_of_mem h))⟩
    . cases List.mem_cons.1 h with
      | inl h => simp [h]
      | inr h =>
        simp only [List.map_cons, List.mem_cons]
        obtain ⟨hkey, hvalue⟩ := ih h
        exact ⟨hkey.imp_right .inr, hvalue.imp_right .inr⟩

theorem mem_foldl_put {e : α × β} (done : List (α × β))
    (h : e ∈ entries.foldl (fun put' (k, v) => put same k v put') done)
    : (e.1 ∈ done.map (·.1) ∨ e.1 ∈ entries.map (·.1)) ∧
      (e.2 ∈ done.map (·.2) ∨ e.2 ∈ entries.map (·.2)) := by
  induction entries generalizing done with
  | nil => exact ⟨.inl (List.mem_map_of_mem h), .inl (List.mem_map_of_mem h)⟩
  | cons f rest ih =>
    obtain ⟨hkey, hvalue⟩ := ih _ h
    simp only [List.map_cons, List.mem_cons]
    constructor
    . cases hkey with
      | inr hkey => exact .inr (.inr hkey)
      | inl hkey =>
        obtain ⟨g, hg, heq⟩ := List.mem_map.1 hkey
        rw [← heq]
        cases (mem_put hg).1 with
        | inl hnew => exact .inr (.inl hnew)
        | inr hold => exact .inl hold
    . cases hvalue with
      | inr hvalue => exact .inr (.inr hvalue)
      | inl hvalue =>
        obtain ⟨g, hg, heq⟩ := List.mem_map.1 hvalue
        rw [← heq]
        cases (mem_put hg).2 with
        | inl hnew => exact .inr (.inl hnew)
        | inr hold => exact .inl hold

theorem mem_ofList {e : α × β} (h : e ∈ ofList same entries)
    : e.1 ∈ entries.map (·.1) ∧ e.2 ∈ entries.map (·.2) := by
  have := mem_foldl_put [] h
  simpa using this

theorem forall_fst_ofList (P : α → Prop) (h : ∀ e ∈ entries, P e.1)
    : ∀ e ∈ ofList same entries, P e.1 := by
  intro e he
  obtain ⟨f, hf, heq⟩ := List.mem_map.1 (mem_ofList he).1
  rw [← heq]
  exact h f hf

theorem forall_snd_ofList (P : β → Prop) (h : ∀ e ∈ entries, P e.2)
    : ∀ e ∈ ofList same entries, P e.2 := by
  intro e he
  obtain ⟨f, hf, heq⟩ := List.mem_map.1 (mem_ofList he).2
  rw [← heq]
  exact h f hf

end Mem

/-! ### The last entry of a key -/

def LastOf (entries : List (α × β)) (key : α) (value : β) : Prop :=
  ∃ before behind, entries = before ++ (key, value) :: behind ∧ key ∉ behind.map (·.1)

section LastOf

variable {key : α} {value : β} {entries : List (α × β)}

theorem LastOf.mem (h : LastOf entries key value) : (key, value) ∈ entries := by
  obtain ⟨before, behind, rfl, -⟩ := h
  exact List.mem_append_right _ List.mem_cons_self

theorem lastOf_cons_iff {e : α × β}
    : LastOf (e :: entries) key value
        ↔
      LastOf entries key value ∨ e = (key, value) ∧ key ∉ entries.map (·.1) := by
  constructor
  . rintro ⟨before, behind, heq, hbehind⟩
    cases before with
    | nil =>
      cases heq
      exact .inr ⟨rfl, hbehind⟩
    | cons f before =>
      cases heq
      exact .inl ⟨before, behind, rfl, hbehind⟩
  . rintro (⟨before, behind, rfl, hbehind⟩ | ⟨rfl, hbehind⟩)
    . exact ⟨e :: before, behind, rfl, hbehind⟩
    . exact ⟨[], entries, rfl, hbehind⟩

theorem not_lastOf_nil : ¬ LastOf [] key value :=
  fun h => nomatch h.mem

theorem exists_lastOf_iff : (∃ value, LastOf entries key value) ↔ key ∈ entries.map (·.1) := by
  induction entries with
  | nil => simp [not_lastOf_nil]
  | cons e rest ih =>
    simp only [lastOf_cons_iff, exists_or, ih, List.map_cons, List.mem_cons]
    constructor
    . rintro (h | ⟨value, rfl, -⟩)
      . exact .inr h
      . exact .inl rfl
    . rintro (rfl | h)
      . by_cases h : e.1 ∈ rest.map (·.1)
        . exact .inl h
        . exact .inr ⟨e.2, rfl, h⟩
      . exact .inl h

theorem lastOf_iff_mem (hnodup : (entries.map (·.1)).Nodup)
    : LastOf entries key value ↔ (key, value) ∈ entries := by
  refine ⟨LastOf.mem, fun h => ?_⟩
  obtain ⟨before, behind, rfl⟩ := List.append_of_mem h
  refine ⟨before, behind, rfl, ?_⟩
  rw [List.map_append, List.nodup_append] at hnodup
  exact (List.nodup_cons.1 hnodup.2.1).1

theorem lastOf_map_iff {f : β → γ} {value : γ}
    : LastOf (entries.map fun e => (e.1, f e.2)) key value
        ↔
      ∃ v, LastOf entries key v ∧ value = f v := by
  induction entries with
  | nil => simp [not_lastOf_nil]
  | cons e rest ih =>
    have hkeys : (rest.map fun e => (e.1, f e.2)).map (·.1) = rest.map (·.1) := by
      rw [List.map_map]
      rfl
    rw [List.map_cons, lastOf_cons_iff, ih, hkeys]
    simp only [lastOf_cons_iff, or_and_right, exists_or]
    refine or_congr_right ?_
    constructor
    . rintro ⟨heq, hkey⟩
      cases heq
      exact ⟨e.2, ⟨rfl, hkey⟩, rfl⟩
    . rintro ⟨v, ⟨rfl, hkey⟩, rfl⟩
      exact ⟨rfl, hkey⟩

theorem lastOf_filter_iff {p : α → Bool}
    : LastOf (entries.filter fun e => p e.1) key value ↔ LastOf entries key value ∧ p key = true := by
  induction entries with
  | nil => simp [not_lastOf_nil]
  | cons e rest ih =>
    have hkeys : p key = true →
        (key ∈ (rest.filter fun e => p e.1).map (·.1) ↔ key ∈ rest.map (·.1)) := by
      intro hp
      simp only [List.mem_map, List.mem_filter]
      constructor
      . rintro ⟨f, ⟨hf, -⟩, rfl⟩
        exact ⟨f, hf, rfl⟩
      . rintro ⟨f, hf, rfl⟩
        exact ⟨f, ⟨hf, hp⟩, rfl⟩
    rw [List.filter_cons, lastOf_cons_iff]
    split
    . next hp =>
      rw [lastOf_cons_iff, ih, or_and_right]
      refine or_congr_right ?_
      constructor
      . rintro ⟨rfl, hkey⟩
        exact ⟨⟨rfl, fun h => hkey ((hkeys hp).2 h)⟩, hp⟩
      . rintro ⟨⟨rfl, hkey⟩, -⟩
        exact ⟨rfl, fun h => hkey ((hkeys hp).1 h)⟩
    . next hp =>
      rw [ih, or_and_right, or_iff_left]
      rintro ⟨⟨rfl, -⟩, hkey⟩
      exact hp hkey

variable [BEq α] [LawfulBEq α]

theorem get?_foldl_put_eq_some_iff (done : List (α × β))
    : get? key (entries.foldl (fun put' (k, v) => put (· == ·) k v put') done) = some value
        ↔
      LastOf entries key value ∨ key ∉ entries.map (·.1) ∧ get? key done = some value := by
  induction entries generalizing done with
  | nil => simp [not_lastOf_nil]
  | cons e rest ih =>
    rw [List.foldl_cons, ih, lastOf_cons_iff, List.map_cons, List.mem_cons, or_assoc]
    refine or_congr_right ?_
    by_cases hkey : key = e.1
    . subst hkey
      rw [get?_put_self, Option.some_inj]
      constructor
      . rintro ⟨hrest, rfl⟩
        exact .inl ⟨rfl, hrest⟩
      . rintro (⟨heq, hrest⟩ | ⟨hne, -⟩)
        . exact ⟨hrest, congrArg Prod.snd heq⟩
        . exact absurd (.inl rfl) hne
    . rw [get?_put_of_ne hkey]
      constructor
      . rintro ⟨hrest, hdone⟩
        exact .inr ⟨fun h => h.elim hkey hrest, hdone⟩
      . rintro (⟨rfl, -⟩ | ⟨hne, hdone⟩)
        . exact absurd rfl hkey
        . exact ⟨fun h => hne (.inr h), hdone⟩

theorem mem_ofList_iff : (key, value) ∈ ofList (· == ·) entries ↔ LastOf entries key value := by
  rw [← get?_eq_some_iff (nodup_ofList entries), ofList, get?_foldl_put_eq_some_iff]
  simp [get?]

end LastOf

end SignedToken.Entries
