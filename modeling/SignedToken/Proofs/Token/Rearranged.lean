import SignedToken.Proofs.Claim.Canonical
import SignedToken.Proofs.Claim.Rearranged
import SignedToken.Proofs.Token.Copy

/-!
This module contains the law that an encoding does not depend on how the claims were written down.
Claims in another order, with sequences of the other kind, make an equal token with the same encoding,
and in that encoding the names of every object are in order and none of them repeats.
-/

namespace SignedToken

/-! ### Parts -/

namespace ClaimValue

def asText? : ClaimValue → Option Text
  | text t => some t
  | bytes b => Utf8.decode? b
  | _ => none

def HasDistinctTexts : ClaimValue → Prop
  | dict entries | readOnly entries => (entries.filterMap fun e => e.1.asText?).Nodup
  | _ => True

end ClaimValue

namespace Token

open ClaimValue (Rearranged)

theorem checkText_eq_ok_iff {place : List Step} {v : ClaimValue} {t : Text}
    : checkText place v = .ok t ↔ v.asText? = some t := by
  cases v with
  | bytes b =>
    rw [checkText, ClaimValue.asText?]
    cases Utf8.decode? b <;> simp [Checked.fail]
  | text s => simp [checkText, ClaimValue.asText?]
  | _ => simp [checkText, ClaimValue.asText?, Checked.fail]

section Declared

variable {v w : ClaimValue} {given given' : Option ClaimValue}

theorem checkText_of_rearranged (h : v.Rearranged w) (place : List Step)
    : checkText place v = checkText place w := by
  cases h with
  | leaf => rfl
  | sequence ps hv hw => rcases hv with rfl | rfl <;> rcases hw with rfl | rfl <;> rfl
  | dict | readOnly => rfl

theorem checkExpiration_of_rearranged (h : Option.Rel Rearranged given given')
    : checkExpiration given = checkExpiration given' := by
  cases h with
  | none => rfl
  | some h =>
    cases h with
    | leaf => rfl
    | sequence ps hv hw => rcases hv with rfl | rfl <;> rcases hw with rfl | rfl <;> rfl
    | dict | readOnly => rfl

theorem checkUsername_of_rearranged (h : Option.Rel Rearranged given given')
    : checkUsername given = checkUsername given' := by
  cases h with
  | none => rfl
  | some h => exact checkText_of_rearranged h _

theorem checkGroupItems_of_rearranged {ps : List (ClaimValue × ClaimValue)}
    (h : ∀ p ∈ ps, p.1.Rearranged p.2)
    : checkGroupItems (ps.map (·.1)) = checkGroupItems (ps.map (·.2)) := by
  unfold checkGroupItems
  congr 1
  apply List.ext_getElem
  . simp
  . intro i hi hi'
    simp only [List.getElem_mapIdx, List.getElem_map]
    exact checkText_of_rearranged (h _ (List.getElem_mem _)) _

theorem checkGroups_of_rearranged (h : Option.Rel Rearranged given given')
    : checkGroups given = checkGroups given' := by
  cases h with
  | none => rfl
  | some h =>
    cases h with
    | leaf => rfl
    | sequence ps hv hw hall =>
      rcases hv with rfl | rfl <;> rcases hw with rfl | rfl <;>
        exact checkGroupItems_of_rearranged hall
    | dict | readOnly => rfl

/-! ### Assertions -/

theorem filterMap_eq_map_of_forall {f : α → Option β} {g : α → β} {items : List α}
    (h : ∀ x ∈ items, f x = some (g x)) : items.filterMap f = items.map g := by
  induction items with
  | nil => rfl
  | cons x xs ih =>
    rw [List.forall_mem_cons] at h
    rw [List.filterMap_cons_some h.1, ih h.2, List.map_cons]

def assertionOf (e : ClaimValue × ClaimValue) : Text × Text :=
  (checkAssertion e).toOption.getD default

theorem checkAssertionEntries_eq_ok_iff {entries : List (ClaimValue × ClaimValue)}
    {assertions : List (Text × Text)} (hdistinct : (entries.filterMap fun e => e.1.asText?).Nodup)
    : checkAssertionEntries entries = .ok assertions
        ↔
      (∀ e ∈ entries, checkAssertion e = .ok (assertionOf e)) ∧
        assertions = entries.map assertionOf := by
  unfold checkAssertionEntries
  rw [Outcome.map_eq_ok_iff]
  have hnodup : (∀ e ∈ entries, checkAssertion e = .ok (assertionOf e)) →
      Entries.ofList (· == ·) (entries.map assertionOf) = entries.map assertionOf := by
    intro hall
    apply Entries.ofList_of_nodup
    rw [List.map_map]
    -- A checked name is the text that the key stands for.
    have hname : (entries.filterMap fun e => e.1.asText?) = entries.map (Prod.fst ∘ assertionOf) := by
      apply filterMap_eq_map_of_forall
      intro e he
      exact checkText_eq_ok_iff.1 (Checked.both_eq_ok_iff.1 (hall e he)).1
    exact hname ▸ hdistinct
  constructor
  . rintro ⟨as, has, rfl⟩
    obtain ⟨hall, rfl⟩ := Checked.all_map_eq_ok_iff.1 has
    exact ⟨hall, hnodup hall⟩
  . rintro ⟨hall, rfl⟩
    exact ⟨_, Checked.all_map_eq_ok_iff.2 ⟨hall, rfl⟩, hnodup hall⟩

theorem hasDistinctTexts_of_perm {es fs : List (ClaimValue × ClaimValue)}
    {ps : List (ClaimValue × ClaimValue × ClaimValue)}
    (hes : es.Perm (ps.map fun p => (p.1, p.2.1))) (hfs : fs.Perm (ps.map fun p => (p.1, p.2.2)))
    (h : (es.filterMap fun e => e.1.asText?).Nodup) : (fs.filterMap fun f => f.1.asText?).Nodup := by
  have hperm := (hes.filterMap fun e => e.1.asText?).trans
    (List.Perm.of_eq (List.filterMap_map)) |>.trans
    ((hfs.filterMap fun f => f.1.asText?).trans (List.Perm.of_eq (List.filterMap_map))).symm
  exact hperm.nodup_iff.1 h

theorem checkAssertion_of_rearranged {k : ClaimValue} (h : v.Rearranged w)
    : checkAssertion (k, v) = checkAssertion (k, w) := by
  unfold checkAssertion
  dsimp only
  rw [checkText_of_rearranged h]

theorem checkAssertionEntries_of_rearranged {es fs : List (ClaimValue × ClaimValue)}
    {ps : List (ClaimValue × ClaimValue × ClaimValue)}
    (hes : es.Perm (ps.map fun p => (p.1, p.2.1))) (hfs : fs.Perm (ps.map fun p => (p.1, p.2.2)))
    (hall : ∀ p ∈ ps, p.2.1.Rearranged p.2.2)
    (hdistinct : (es.filterMap fun e => e.1.asText?).Nodup) {assertions : List (Text × Text)}
    (h : checkAssertionEntries es = .ok assertions)
    : ∃ assertions', checkAssertionEntries fs = .ok assertions' ∧ assertions.Perm assertions' := by
  obtain ⟨hok, rfl⟩ := (checkAssertionEntries_eq_ok_iff hdistinct).1 h
  have hsame : ∀ p ∈ ps, checkAssertion (p.1, p.2.1) = checkAssertion (p.1, p.2.2) :=
    fun p hp => checkAssertion_of_rearranged (hall p hp)
  refine ⟨_, (checkAssertionEntries_eq_ok_iff (hasDistinctTexts_of_perm hes hfs hdistinct)).2
    ⟨?_, rfl⟩, ?_⟩
  . intro f hf
    obtain ⟨p, hp, rfl⟩ := List.mem_map.1 (hfs.mem_iff.1 hf)
    have hok := hok (p.1, p.2.1) (hes.mem_iff.2 (List.mem_map.2 ⟨p, hp, rfl⟩))
    rw [assertionOf, ← hsame p hp]
    exact hok
  . apply Entries.map_perm_map_of_halves hes hfs
    intro p hp
    rw [assertionOf, assertionOf, hsame p hp]

theorem checkAssertions_of_rearranged (h : Option.Rel Rearranged given given')
    (hdistinct : ∀ v ∈ given, v.HasDistinctTexts) {assertions : List (Text × Text)}
    (hok : checkAssertions given = .ok assertions)
    : ∃ assertions', checkAssertions given' = .ok assertions' ∧ assertions.Perm assertions' := by
  cases h with
  | none => exact ⟨assertions, hok, .refl _⟩
  | some h =>
    have hdistinct := hdistinct _ rfl
    cases h with
    | leaf => exact ⟨assertions, hok, .refl _⟩
    | sequence ps hv hw => rcases hv with rfl | rfl <;> cases hok
    | dict ps hes hfs hall | readOnly ps hes hfs hall =>
      exact checkAssertionEntries_of_rearranged hes hfs hall hdistinct hok

end Declared

/-! ### Extra claims -/

structure HeldAlike (v w : ClaimValue) : Prop where
  rearranged : ∃ x y : Json, v = (ClaimValue.ofJson x).freeze ∧ w = (ClaimValue.ofJson y).freeze ∧
    (ClaimValue.ofJson x).Rearranged (ClaimValue.ofJson y) ∧
    (ClaimValue.ofJson x).IsData ∧ (ClaimValue.ofJson y).IsData
  nesting : v.nesting < 255 ∧ w.nesting < 255

section Held

variable {v w : ClaimValue}

theorem exists_holdExtra (h : v.Rearranged w) (hv : v.IsData) (hw : w.IsData) {v' : ClaimValue}
    (hv' : holdExtra v = .ok v') : ∃ w', holdExtra w = .ok w' ∧ HeldAlike v' w' := by
  obtain ⟨hforeign, -⟩ | ⟨x, hx, rfl⟩ := holdExtra_cases hv'
  . exact absurd hforeign (ClaimValue.reduce_ne_foreign hv)
  . obtain ⟨w', hw', hrearranged⟩ := ClaimValue.exists_reduce_of_rearranged h hv hw hx
    obtain ⟨y, rfl⟩ := ClaimValue.exists_ofJson_of_reduce hw'
    obtain ⟨hxdata, hxnesting⟩ := ClaimValue.isData_of_reduce hv hx
    obtain ⟨hydata, hynesting⟩ := ClaimValue.isData_of_reduce hw hw'
    refine ⟨(ClaimValue.ofJson y).freeze, ?_, ⟨x, y, rfl, rfl, hrearranged, hxdata, hydata⟩, ?_⟩
    . rw [holdExtra, ClaimValue.jsonable, hw']
    . rw [ClaimValue.nesting_freeze, ClaimValue.nesting_freeze]
      exact ⟨hxnesting, hynesting⟩

theorem HeldAlike.equals (h : HeldAlike v w) : v.equals w = true := by
  obtain ⟨x, y, rfl, rfl, hrearranged, hx, hy⟩ := h.rearranged
  exact ClaimValue.freeze_equals_freeze hrearranged hx hy

theorem HeldAlike.toJson (h : HeldAlike v w) {j : Json} (hj : v.thaw.toJson false = .ok j)
    : w.thaw.toJson false = .ok j := by
  obtain ⟨x, y, rfl, rfl, hrearranged, hx, hy⟩ := h.rearranged
  rw [ClaimValue.thaw_freeze_ofJson] at hj ⊢
  exact ClaimValue.toJson_of_rearranged hrearranged hx hy hj

theorem HeldAlike.isCanonical (h : HeldAlike v w) {j : Json} (hj : v.thaw.toJson false = .ok j)
    : j.IsCanonical := by
  obtain ⟨x, y, rfl, -⟩ := h.rearranged
  rw [ClaimValue.thaw_freeze_ofJson] at hj
  exact ClaimValue.isCanonical_of_toJson_ofJson hj

end Held

/-! ### Tokens -/

structure Alike (t u : Token) : Prop where
  expiration : t.expiration = u.expiration
  username : t.username = u.username
  groups : t.groups = u.groups
  assertions : t.assertions.Perm u.assertions
  extra : ∃ ps : List (Text × ClaimValue × ClaimValue),
    t.extra.Perm (ps.map fun p => (p.1, p.2.1)) ∧ u.extra.Perm (ps.map fun p => (p.1, p.2.2)) ∧
      ∀ p ∈ ps, HeldAlike p.2.1 p.2.2

section Alike

variable {t u : Token} (h : t.Alike u)

include h

theorem Alike.equals : t.equals u = true := by
  obtain ⟨ps, ht, hu, hall⟩ := h.extra
  have hassertions : (assertionsValue t.assertions).equals (assertionsValue u.assertions) = true := by
    rw [assertionsValue, assertionsValue, ClaimValue.readOnly_equals_readOnly_iff, List.length_map,
      List.length_map, h.assertions.length_eq, List.forall_mem_map]
    refine ⟨rfl, fun a ha => ⟨_, List.mem_map_of_mem (h.assertions.mem_iff.1 ha), ?_⟩⟩
    simp only [ClaimValue.equals_text, beq_self_eq_true, and_self]
  have hextra : (ClaimValue.readOnly (t.extra.map fun c => (.text c.1, c.2))).equals
      (.readOnly (u.extra.map fun c => (.text c.1, c.2))) = true := by
    rw [ClaimValue.texts_equals_texts_iff, ht.length_eq, hu.length_eq, List.length_map,
      List.length_map]
    refine ⟨rfl, fun c hc => ?_⟩
    obtain ⟨p, hp, rfl⟩ := List.mem_map.1 (ht.mem_iff.1 hc)
    exact ⟨_, hu.mem_iff.2 (List.mem_map_of_mem hp), rfl, (hall p hp).equals⟩
  unfold Token.equals
  rw [h.expiration, h.username, h.groups, hassertions]
  simpa using hextra

theorem Alike.json_eq (ht : t.WellFormed) (hwritable : t.IsWritable) : t.json = u.json := by
  obtain ⟨ps, hleft, hright, hall⟩ := h.extra
  have hassertions : (assertionsValue t.assertions).thaw.jsonOf false
      = (assertionsValue u.assertions).thaw.jsonOf false := by
    rw [ClaimValue.jsonOf_eq (toJson_assertions _), ClaimValue.jsonOf_eq (toJson_assertions _),
      Json.sortMembers_eq_of_perm h.assertions ht.assertions]
  have hextra : (t.extra.map fun c => (c.1, c.2.thaw.jsonOf false)).Perm
      (u.extra.map fun c => (c.1, c.2.thaw.jsonOf false)) := by
    apply Entries.map_perm_map_of_halves hleft hright
    intro p hp
    have hmem : (p.1, p.2.1) ∈ t.extra := hleft.mem_iff.2 (List.mem_map.2 ⟨p, hp, rfl⟩)
    have hjson := (isWritable_iff.1 hwritable).2 _ hmem
    exact congrArg (Prod.mk p.1) (ClaimValue.jsonOf_eq ((hall p hp).toJson hjson)).symm
  apply json_eq_of_perm ht
  rw [heldClaims, heldClaims, List.map_append, List.map_append]
  simp only [List.map_cons, h.expiration, h.username, h.groups, hassertions]
  exact hextra.append_left _

theorem Alike.encode_eq_ok (ht : t.WellFormed) {b : Bytes} (hb : t.encode = .ok b)
    : u.encode = .ok b := by
  obtain ⟨ps, hleft, hright, hall⟩ := h.extra
  obtain ⟨hwritable, -, htext⟩ := encode_eq_ok_iff.1 hb
  have hu : u.IsWritable := by
    refine isWritable_iff.2 ⟨h.expiration ▸ (isWritable_iff.1 hwritable).1, fun c hc => ?_⟩
    obtain ⟨p, hp, rfl⟩ := List.mem_map.1 (hright.mem_iff.1 hc)
    have hmem : (p.1, p.2.1) ∈ t.extra := hleft.mem_iff.2 (List.mem_map.2 ⟨p, hp, rfl⟩)
    exact ClaimValue.toJson_eq_jsonOf ((hall p hp).toJson ((isWritable_iff.1 hwritable).2 _ hmem))
  have hnesting : ∀ c ∈ u.extra, c.2.nesting < 255 := by
    intro c hc
    obtain ⟨p, hp, rfl⟩ := List.mem_map.1 (hright.mem_iff.1 hc)
    exact (hall p hp).nesting.2
  rw [encode_eq_ok_iff, ← h.json_eq ht hwritable]
  exact ⟨hu, fitsStack_of_nesting hu hnesting, htext⟩

theorem Alike.isCanonical (ht : t.WellFormed) (hwritable : t.IsWritable) : t.json.IsCanonical := by
  obtain ⟨ps, hleft, -, hall⟩ := h.extra
  have htext : ∀ s : Text, (Json.text s).IsCanonical := by
    rintro s _ (_ | _)
    trivial
  have hgroups : (Json.array (t.groups.map .text)).IsCanonical := by
    rw [Json.isCanonical_array_iff, List.forall_mem_map]
    exact fun g _ => htext g
  have hassertions : (Json.object ((Json.sortMembers t.assertions).map fun a =>
      (a.1, .text a.2))).IsCanonical := by
    rw [← Json.sortMembers_map]
    apply Json.isCanonical_sortMembers
    . rw [List.map_map]
      exact ht.assertions
    . rw [List.forall_mem_map]
      exact fun a _ => htext a.2
  apply Json.isCanonical_sortMembers
  . rw [List.map_map]
    exact nodup_heldClaims ht
  . rw [List.forall_mem_map, forall_mem_heldClaims]
    simp only [jsonOf_expiration hwritable, ClaimValue.jsonOf_eq (toJson_groups t.groups),
      ClaimValue.jsonOf_eq (toJson_assertions t.assertions)]
    refine ⟨⟨?_, htext t.username, hgroups, hassertions⟩, fun c hc => ?_⟩
    . rintro _ (_ | _)
      exact (isWritable_iff.1 hwritable).1
    . obtain ⟨p, hp, rfl⟩ := List.mem_map.1 (hleft.mem_iff.1 hc)
      exact (hall p hp).isCanonical ((isWritable_iff.1 hwritable).2 _ hc)

theorem Alike.nesting_json_le (hwritable : t.IsWritable) (countsEmpty : Bool)
    : t.json.nesting countsEmpty ≤ 256 := by
  obtain ⟨ps, hleft, -, hall⟩ := h.extra
  have hjson : t.json.nesting false ≤ 254 + 1 := by
    rw [nesting_json_le_iff hwritable (by decide)]
    intro c hc
    obtain ⟨p, hp, rfl⟩ := List.mem_map.1 (hleft.mem_iff.1 hc)
    exact Nat.le_of_lt_succ (hall p hp).nesting.1
  cases countsEmpty with
  | false => omega
  | true => exact Nat.le_trans t.json.nesting_true_le (Nat.succ_le_succ hjson)

theorem Alike.exists_read (ht : t.WellFormed) {b : Bytes} (hb : t.encode = .ok b)
    : ∃ text j, Utf8.decode? b = some text ∧
        (∀ d : Json.Dialect, 256 ≤ d.maxDepth → Json.read? d text = some j) ∧ j.IsCanonical := by
  obtain ⟨hwritable, -, htext⟩ := encode_eq_ok_iff.1 hb
  refine ⟨_, t.json, Utf8.decode?_of_encode? htext, fun d hd => ?_, h.isCanonical ht hwritable⟩
  rw [Json.read?_write d Json.Style.canonical_separates (json_readable hwritable), if_pos]
  exact Nat.le_trans (h.nesting_json_le hwritable d.countsEmpty) hd

end Alike

/-! ### Claims that a caller hands in -/

def mappingOf (claims : List (Text × ClaimValue)) : ClaimValue :=
  .dict (claims.map fun c => (.text c.1, c.2))

section Given

variable {claims claims' : List (Text × ClaimValue)}

theorem exists_pairs_of_rearranged (h : (mappingOf claims).Rearranged (mappingOf claims'))
    : ∃ ps : List (Text × ClaimValue × ClaimValue), claims.Perm (ps.map fun p => (p.1, p.2.1)) ∧
        claims'.Perm (ps.map fun p => (p.1, p.2.2)) ∧ ∀ p ∈ ps, p.2.1.Rearranged p.2.2 := by
  have hname : ∀ claims : List (Text × ClaimValue),
      (claims.map fun c => (ClaimValue.text c.1, c.2)).map (fun e => (e.1.nameText false, e.2))
        = claims := by
    intro claims
    rw [List.map_map]
    exact List.map_id claims
  obtain ⟨ps, hes, hfs, hall⟩ := ClaimValue.rearranged_dict_iff.1 h
  have hleft := hes.map fun e => (e.1.nameText false, e.2)
  have hright := hfs.map fun f => (f.1.nameText false, f.2)
  rw [hname, List.map_map] at hleft hright
  refine ⟨ps.map fun p => (p.1.nameText false, p.2), ?_, ?_, List.forall_mem_map.2 hall⟩
  . rw [List.map_map]
    exact hleft
  . rw [List.map_map]
    exact hright

theorem rel_get? {ps : List (Text × ClaimValue × ClaimValue)} (hnodup : (claims.map (·.1)).Nodup)
    (hnodup' : (claims'.map (·.1)).Nodup) (hleft : claims.Perm (ps.map fun p => (p.1, p.2.1)))
    (hright : claims'.Perm (ps.map fun p => (p.1, p.2.2)))
    (hall : ∀ p ∈ ps, p.2.1.Rearranged p.2.2) (name : Text)
    : Option.Rel Rearranged (Entries.get? name claims) (Entries.get? name claims') := by
  cases hget : Entries.get? name claims with
  | some v =>
    have hmem := (Entries.get?_eq_some_iff hnodup).1 hget
    obtain ⟨p, hp, heq⟩ := List.mem_map.1 (hleft.mem_iff.1 hmem)
    cases heq
    have hget' : Entries.get? p.1 claims' = some p.2.2 :=
      (Entries.get?_eq_some_iff hnodup').2 (hright.mem_iff.2 (List.mem_map.2 ⟨p, hp, rfl⟩))
    rw [hget']
    exact .some (hall p hp)
  | none =>
    cases hget' : Entries.get? name claims' with
    | none => exact .none
    | some w =>
      have hmem := (Entries.get?_eq_some_iff hnodup').1 hget'
      obtain ⟨p, hp, heq⟩ := List.mem_map.1 (hright.mem_iff.1 hmem)
      cases heq
      have hsome := (Entries.get?_eq_some_iff hnodup).2
        (hleft.mem_iff.2 (List.mem_map.2 ⟨p, hp, rfl⟩))
      rw [hget] at hsome
      cases hsome

/--
What claims have to be like so that it does not matter how they are written down: their names differ,
as do the names of the assertions in them, and their extra claims are data.
-/
structure Orderless (claims : List (Text × ClaimValue)) : Prop where
  names : (claims.map (·.1)).Nodup
  assertions : ∀ v ∈ Entries.get? assertionsName claims, v.HasDistinctTexts
  extra : ∀ c ∈ extraOf claims, c.2.IsData

theorem exists_holdExtras {ps : List (Text × ClaimValue × ClaimValue)}
    (hleft : claims.Perm (ps.map fun p => (p.1, p.2.1)))
    (hright : claims'.Perm (ps.map fun p => (p.1, p.2.2)))
    (hall : ∀ p ∈ ps, p.2.1.Rearranged p.2.2) (hdata : ∀ c ∈ extraOf claims, c.2.IsData)
    (hdata' : ∀ c ∈ extraOf claims', c.2.IsData) {held : List (Text × ClaimValue)}
    (h : holdExtras (extraOf claims) = .ok held)
    : ∃ held', holdExtras (extraOf claims') = .ok held' ∧
        ∃ qs : List (Text × ClaimValue × ClaimValue),
          held.Perm (qs.map fun q => (q.1, q.2.1)) ∧ held'.Perm (qs.map fun q => (q.1, q.2.2)) ∧
            ∀ q ∈ qs, HeldAlike q.2.1 q.2.2 := by
  obtain ⟨hok, rfl⟩ := holdExtras_eq_ok_iff.1 h
  have hextra : ∀ f : ClaimValue × ClaimValue → ClaimValue,
      extraOf (ps.map fun p => (p.1, f p.2)) = (extraOf ps).map fun p => (p.1, f p.2) := by
    intro f
    rw [extraOf, List.filter_map]
    rfl
  have hextras : (extraOf claims).Perm ((extraOf ps).map fun p => (p.1, p.2.1)) :=
    (hleft.filter _).trans (List.Perm.of_eq (hextra Prod.fst))
  have hextras' : (extraOf claims').Perm ((extraOf ps).map fun p => (p.1, p.2.2)) :=
    (hright.filter _).trans (List.Perm.of_eq (hextra Prod.snd))
  have hpart : ∀ p ∈ extraOf ps, holdExtra p.2.2 = .ok (heldValue p.2.2) ∧
      HeldAlike (heldValue p.2.1) (heldValue p.2.2) := by
    intro p hp
    have hmem := hextras.mem_iff.2 (List.mem_map.2 ⟨p, hp, rfl⟩)
    have hmem' := hextras'.mem_iff.2 (List.mem_map.2 ⟨p, hp, rfl⟩)
    obtain ⟨w', hw', halike⟩ := exists_holdExtra (hall p (mem_extraOf.1 hp).1) (hdata _ hmem)
      (hdata' _ hmem') (hok _ hmem)
    rw [heldValue_eq hw']
    exact ⟨hw', halike⟩
  refine ⟨_, holdExtras_eq_ok_iff.2 ⟨?_, rfl⟩,
    (extraOf ps).map fun p => (p.1, heldValue p.2.1, heldValue p.2.2),
    Entries.map_perm_map hextras fun _ => rfl, Entries.map_perm_map hextras' fun _ => rfl,
    List.forall_mem_map.2 fun p hp => (hpart p hp).2⟩
  intro c hc
  obtain ⟨p, hp, rfl⟩ := List.mem_map.1 (hextras'.mem_iff.1 hc)
  exact (hpart p hp).1

theorem exists_ofClaims_alike (h : (mappingOf claims).Rearranged (mappingOf claims'))
    (hclaims : Orderless claims) (hclaims' : Orderless claims') {t : Token}
    (ht : ofClaims claims = .ok t) : ∃ u, ofClaims claims' = .ok u ∧ t.Alike u := by
  obtain ⟨ps, hleft, hright, hall⟩ := exists_pairs_of_rearranged h
  have hget := rel_get? hclaims.names hclaims'.names hleft hright hall
  obtain ⟨hexpiration, husername, hgroups, hassertions, hextra⟩ := ofChecked_eq_ok_iff.1 ht
  obtain ⟨assertions, hassertions', hperm⟩ :=
    checkAssertions_of_rearranged (hget assertionsName) hclaims.assertions hassertions
  obtain ⟨held, hheld, hpairs⟩ :=
    exists_holdExtras hleft hright hall hclaims.extra hclaims'.extra hextra
  rw [checkExpiration_of_rearranged (hget expirationName)] at hexpiration
  rw [checkUsername_of_rearranged (hget usernameName)] at husername
  rw [checkGroups_of_rearranged (hget groupsName)] at hgroups
  refine ⟨⟨t.expiration, t.username, t.groups, assertions, held⟩, ?_, ?_⟩
  . exact ofChecked_eq_ok_iff.2 ⟨hexpiration, husername, hgroups, hassertions', hheld⟩
  . exact ⟨rfl, rfl, rfl, hperm, hpairs⟩

/--
Claims that differ in nothing but the order of entries, at any depth, and in writing a sequence as a
list or a tuple make no token or equal ones, with the same encoding or none. The names of every object
in it are in order, and none repeats.
-/
theorem ofClaims_rearranged (h : (mappingOf claims).Rearranged (mappingOf claims'))
    (hclaims : Orderless claims) (hclaims' : Orderless claims')
    : ((∃ ds, ofClaims claims = .error ds) ∧ ∃ ds, ofClaims claims' = .error ds) ∨
        ∃ t u, ofClaims claims = .ok t ∧ ofClaims claims' = .ok u ∧ t.equals u = true ∧
          (∀ b, t.encode = .ok b ↔ u.encode = .ok b) ∧
          ∀ b, t.encode = .ok b → ∃ text j, Utf8.decode? b = some text ∧
            (∀ d : Json.Dialect, 256 ≤ d.maxDepth → Json.read? d text = some j) ∧ j.IsCanonical := by
  cases ht : ofClaims claims with
  | error ds =>
    cases hu : ofClaims claims' with
    | error ds' => exact .inl ⟨⟨ds, rfl⟩, ds', rfl⟩
    | ok u =>
      obtain ⟨t, hok, -⟩ := exists_ofClaims_alike h.symm hclaims' hclaims hu
      rw [ht] at hok
      cases hok
  | ok t =>
    obtain ⟨u, hu, halike⟩ := exists_ofClaims_alike h hclaims hclaims' ht
    obtain ⟨t', ht', halike'⟩ := exists_ofClaims_alike h.symm hclaims' hclaims hu
    rw [ht] at ht'
    cases ht'
    have hwellFormed :=
      wellFormed_ofClaims hclaims.names (fun c hc => (hclaims.extra c hc).hasDistinctKeys) ht
    have hwellFormed' :=
      wellFormed_ofClaims hclaims'.names (fun c hc => (hclaims'.extra c hc).hasDistinctKeys) hu
    refine .inr ⟨t, u, rfl, hu, halike.equals, fun b => ?_, fun b => halike.exists_read hwellFormed⟩
    exact ⟨halike.encode_eq_ok hwellFormed, halike'.encode_eq_ok hwellFormed'⟩

end Given

theorem ofClaims_rearranged_sequence
    : ∃ t u, ofClaims [(expirationName, .int 1), (Text.ofString "z", .list [.null])] = .ok t ∧
        ofClaims [(Text.ofString "z", .tuple [.null]), (expirationName, .int 1)] = .ok u ∧
        t.equals u = true ∧ ∀ b, t.encode = .ok b ↔ u.encode = .ok b := by
  have hnull : ClaimValue.null.IsData := by
    rintro _ (_ | _)
    trivial
  have hclaims : Orderless [(expirationName, .int 1), (Text.ofString "z", .list [.null])] := by
    refine ⟨by decide, nofun, List.forall_mem_singleton.2 ?_⟩
    exact ClaimValue.isData_list_iff.2 (List.forall_mem_singleton.2 hnull)
  have hclaims' : Orderless [(Text.ofString "z", .tuple [.null]), (expirationName, .int 1)] := by
    refine ⟨by decide, nofun, List.forall_mem_singleton.2 ?_⟩
    exact ClaimValue.isData_tuple_iff.2 (List.forall_mem_singleton.2 hnull)
  have hsequence : (ClaimValue.list [.null]).Rearranged (.tuple [.null]) :=
    .sequence [(.null, .null)] (.inl rfl) (.inr rfl) (List.forall_mem_singleton.2 (.refl _))
  have hrearranged :
      (mappingOf [(expirationName, .int 1), (Text.ofString "z", .list [.null])]).Rearranged
        (mappingOf [(Text.ofString "z", .tuple [.null]), (expirationName, .int 1)]) := by
    refine .dict [(.text expirationName, .int 1, .int 1),
      (.text (Text.ofString "z"), .list [.null], .tuple [.null])] (.refl _) (.swap _ _ []) ?_
    simp only [List.forall_mem_cons]
    exact ⟨.refl _, hsequence, by simp⟩
  obtain ⟨⟨ds, hds⟩, -⟩ | ⟨t, u, ht, hu, hequals, hencode, -⟩ :=
    ofClaims_rearranged hrearranged hclaims hclaims'
  . cases hds
  . exact ⟨t, u, ht, hu, hequals, hencode⟩

theorem exists_rearranged_not_equals
    : ∃ v w : ClaimValue,
        v = .dict [(.bytes [0x61], .text (Text.ofString "1")),
          (.text (Text.ofString "a"), .text (Text.ofString "2"))] ∧
        w = .dict [(.text (Text.ofString "a"), .text (Text.ofString "2")),
          (.bytes [0x61], .text (Text.ofString "1"))] ∧
        (mappingOf [(expirationName, .int 1), (assertionsName, v)]).Rearranged
          (mappingOf [(expirationName, .int 1), (assertionsName, w)]) ∧
        ∃ t u, ofClaims [(expirationName, .int 1), (assertionsName, v)] = .ok t ∧
          ofClaims [(expirationName, .int 1), (assertionsName, w)] = .ok u ∧ t.equals u = false := by
  refine ⟨_, _, rfl, rfl, ?_, _, _, rfl, rfl, by decide⟩
  refine ClaimValue.rearranged_dict_iff.2 ⟨[(.text expirationName, .int 1, .int 1),
    (.text assertionsName, _, _)], .refl _, .refl _, ?_⟩
  simp only [List.forall_mem_cons]
  exact ⟨.refl _, ClaimValue.rearranged_of_perm (.swap _ _ []), by simp⟩

end Token

end SignedToken
