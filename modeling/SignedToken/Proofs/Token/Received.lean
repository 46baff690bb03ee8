import SignedToken.Proofs.Claim.Canonical
import SignedToken.Proofs.Token.Copy

/-!
This module contains what tokens are like that were decoded, and that their encoding is stable: it is
decoded to an equal token, which has the same encoding.
-/

namespace SignedToken

namespace Json

theorem mem_of_lastMember? {name : Text} {members : List (Text × Json)} {x : Json}
    (h : lastMember? name members = some x) : (name, x) ∈ members :=
  (lastMember?_eq_some_iff.1 h).mem

/--
Whether a value has the form of those that were read at a place in a payload where containers may be
nested `depth` deep.
-/
structure IsReceived (depth : Nat) (j : Json) : Prop where
  numeral : ∀ n, Within (.int n) j → hasNumeral n = true
  legible : j.IsLegible
  nesting : j.nesting false ≤ depth

theorem IsReceived.member {depth : Nat} {members : List (Text × Json)}
    (h : (object members).IsReceived (depth + 1)) {m : Text × Json} (hm : m ∈ members)
    : m.1.any CodePoint.isSurrogate = false ∧ m.2.IsReceived depth := by
  obtain ⟨hname, hlegible⟩ := isLegible_object_iff.1 h.legible m hm
  refine ⟨hname, fun n hn => h.numeral n (.member hm hn), hlegible, ?_⟩
  obtain ⟨rfl, -⟩ | ⟨k, heq, hle⟩ := nesting_object_le_iff.1 h.nesting
  . cases hm
  . cases heq
    exact hle m hm

end Json

namespace Token

def readPayload? (data : Bytes) : Option Json :=
  Utf8.decode? data >>= Json.read? payloadDialect

theorem isReceived_of_readPayload? {data : Bytes} {j : Json} (h : readPayload? data = some j)
    : j.IsReceived 200 := by
  obtain ⟨text, htext, hread⟩ := Option.bind_eq_some_iff.1 h
  have hsound := Json.read?_sound hread
  exact ⟨hsound.numeral, hsound.legible rfl (Utf8.any_isSurrogate_of_decode? htext), hsound.nesting⟩

theorem decode_of_object {data : Bytes} {members : List (Text × Json)}
    (h : readPayload? data = some (.object members)) : decode data = ofMembers members := by
  rw [readPayload?] at h
  rw [decode, h]

theorem decode_eq_ok {data : Bytes} {t : Token} (h : decode data = .ok t)
    : ∃ members, readPayload? data = some (.object members) ∧ ofMembers members = .ok t := by
  unfold decode at h
  split at h
  . cases h
  . next members hread => exact ⟨members, hread, h⟩
  . cases h

/-! ### Declared claims -/

theorem readText_eq_ok_iff {place : List Step} {x : Json} {t : Text}
    : readText place x = .ok t ↔ x = .text t := by
  cases x <;> simp [readText, Checked.fail]

theorem readExpiration_eq_ok_iff {x : Option Json} {n : Int}
    : readExpiration x = .ok n ↔ x = some (.int n) := by
  unfold readExpiration
  split
  . exact iff_of_false nofun nofun
  . simp
  . next y hy => simpa [Checked.fail] using hy n

theorem any_isSurrogate_readText {place : List Step} {x : Json} {t : Text} (hx : x.IsLegible)
    (h : readText place x = .ok t) : t.any CodePoint.isSurrogate = false := by
  rw [readText_eq_ok_iff] at h
  subst h
  exact hx _ .self

theorem any_isSurrogate_readUsername {x : Option Json} {t : Text} (hx : ∀ y ∈ x, y.IsLegible)
    (h : readUsername x = .ok t) : t.any CodePoint.isSurrogate = false := by
  unfold readUsername at h
  split at h
  . cases h
    rfl
  . next y => exact any_isSurrogate_readText (hx y rfl) h

theorem any_isSurrogate_readGroups {x : Option Json} {groups : List Text}
    (hx : ∀ y ∈ x, y.IsLegible) (h : readGroups x = .ok groups)
    : ∀ g ∈ groups, g.any CodePoint.isSurrogate = false := by
  unfold readGroups at h
  split at h
  . cases h
    simp
  . next items =>
    rw [Checked.all_eq_ok_iff] at h
    intro g hg
    have hmem : .ok g ∈ items.mapIdx fun i x => readText [.name groupsName, .index i] x := by
      rw [h]
      exact List.mem_map_of_mem hg
    obtain ⟨i, hi, hread⟩ := List.mem_mapIdx.1 hmem
    have hlegible := Json.isLegible_array_iff.1 (hx _ rfl)
    exact any_isSurrogate_readText (hlegible _ (List.getElem_mem hi)) hread
  . cases h

theorem any_isSurrogate_readAssertions {x : Option Json} {assertions : List (Text × Text)}
    (hx : ∀ y ∈ x, y.IsLegible) (h : readAssertions x = .ok assertions)
    : ∀ a ∈ assertions,
        a.1.any CodePoint.isSurrogate = false ∧ a.2.any CodePoint.isSurrogate = false := by
  unfold readAssertions at h
  split at h
  . cases h
    simp
  . next members =>
    obtain ⟨read, hall, rfl⟩ := Outcome.map_eq_ok_iff.1 h
    have hlegible := Json.isLegible_object_iff.1 (hx _ rfl)
    have hread : ∀ a ∈ read,
        a.1.any CodePoint.isSurrogate = false ∧ a.2.any CodePoint.isSurrogate = false := by
      intro a ha
      have hmem : .ok a ∈ members.map readAssertion := by
        rw [Checked.all_eq_ok_iff.1 hall]
        exact List.mem_map_of_mem ha
      obtain ⟨m, hm, hma⟩ := List.mem_map.1 hmem
      obtain ⟨t, htext, rfl⟩ := Outcome.map_eq_ok_iff.1 hma
      exact ⟨(hlegible m hm).1, any_isSurrogate_readText (hlegible m hm).2 htext⟩
    -- Of assertions with one name the last value stands at the place of the first.
    intro a ha
    exact ⟨Entries.forall_fst_ofList (fun t : Text => t.any CodePoint.isSurrogate = false)
        (fun a ha => (hread a ha).1) a ha,
      Entries.forall_snd_ofList (fun t : Text => t.any CodePoint.isSurrogate = false)
        (fun a ha => (hread a ha).2) a ha⟩
  . cases h

/-! ### Received tokens -/

structure IsReceived (t : Token) : Prop where
  wellFormed : t.WellFormed
  expiration : hasNumeral t.expiration = true
  username : t.username.any CodePoint.isSurrogate = false
  groups : ∀ g ∈ t.groups, g.any CodePoint.isSurrogate = false
  assertions : ∀ a ∈ t.assertions,
    a.1.any CodePoint.isSurrogate = false ∧ a.2.any CodePoint.isSurrogate = false
  extra : ∀ c ∈ t.extra, c.1.any CodePoint.isSurrogate = false ∧
    ∃ x : Json, x.IsReceived 199 ∧ c.2 = (ClaimValue.ofJson x).freeze

def readExtra (members : List (Text × Json)) : List (Text × ClaimValue) :=
  Entries.ofList (· == ·) ((extraOf members).map fun m => (m.1, .ofJson m.2))

section ReadExtra

variable {members : List (Text × Json)} (hmembers : (Json.object members).IsReceived 200)

include hmembers

theorem name_of_mem_readExtra
    : ∀ c ∈ readExtra members, c.1 ∉ declaredNames ∧ c.1.any CodePoint.isSurrogate = false := by
  apply Entries.forall_fst_ofList fun t : Text =>
    t ∉ declaredNames ∧ t.any CodePoint.isSurrogate = false
  rw [List.forall_mem_map]
  intro m hm
  obtain ⟨hm, hundeclared⟩ := mem_extraOf.1 hm
  exact ⟨hundeclared, (hmembers.member hm).1⟩

theorem value_of_mem_readExtra
    : ∀ c ∈ readExtra members, ∃ x : Json, x.IsReceived 199 ∧ c.2 = .ofJson x := by
  apply Entries.forall_snd_ofList fun v => ∃ x : Json, x.IsReceived 199 ∧ v = ClaimValue.ofJson x
  rw [List.forall_mem_map]
  intro m hm
  -- One level of nesting is taken by the payload itself.
  exact ⟨m.2, (hmembers.member (mem_extraOf.1 hm).1).2, rfl⟩

theorem holdExtras_readExtra
    : holdExtras (readExtra members) = .ok ((readExtra members).map fun c => (c.1, c.2.freeze)) := by
  have hheld : ∀ c ∈ readExtra members, holdExtra c.2 = .ok c.2.freeze := by
    intro c hc
    obtain ⟨x, hx, heq⟩ := value_of_mem_readExtra hmembers c hc
    have hnesting := hx.nesting
    rw [heq]
    exact holdExtra_ofJson hx.legible (by omega)
  rw [holdExtras_eq_ok_iff]
  constructor
  . intro c hc
    rw [heldValue_eq (hheld c hc), hheld c hc]
  . apply List.map_congr_left
    intro c hc
    rw [heldValue_eq (hheld c hc)]

theorem extra_of_members {t : Token} (hassertions : (t.assertions.map (·.1)).Nodup)
    (h : holdExtras (readExtra members) = .ok t.extra)
    : t.WellFormed ∧ ∀ c ∈ t.extra, c.1.any CodePoint.isSurrogate = false ∧
        ∃ x : Json, x.IsReceived 199 ∧ c.2 = (ClaimValue.ofJson x).freeze := by
  have hextra : t.extra = (readExtra members).map fun c => (c.1, c.2.freeze) := by
    rw [holdExtras_readExtra hmembers] at h
    exact (Except.ok.inj h).symm
  constructor
  . constructor
    . exact hassertions
    . rw [hextra, List.map_map]
      exact Entries.nodup_ofList _
    . rw [hextra, List.forall_mem_map]
      exact fun c hc => (name_of_mem_readExtra hmembers c hc).1
    . rw [hextra, List.forall_mem_map]
      intro c hc
      obtain ⟨x, -, heq⟩ := value_of_mem_readExtra hmembers c hc
      rw [heq]
      exact ClaimValue.hasDistinctKeys_freeze_ofJson x
  . rw [hextra, List.forall_mem_map]
    intro c hc
    obtain ⟨x, hx, heq⟩ := value_of_mem_readExtra hmembers c hc
    exact ⟨(name_of_mem_readExtra hmembers c hc).2, x, hx, congrArg ClaimValue.freeze heq⟩

end ReadExtra

theorem isReceived_of_decode {data : Bytes} {t : Token} (h : decode data = .ok t)
    : t.IsReceived := by
  obtain ⟨members, hread, ht⟩ := decode_eq_ok h
  have hmembers := isReceived_of_readPayload? hread
  obtain ⟨hexpiration, husername, hgroups, hassertions, hextra⟩ := ofChecked_eq_ok_iff.1 ht
  have hlast : ∀ {name}, ∀ y ∈ Json.lastMember? name members, y.IsLegible := by
    intro name y hy
    exact (hmembers.member (Json.mem_of_lastMember? hy)).2.legible
  obtain ⟨hwellFormed, hheld⟩ :=
    extra_of_members hmembers (nodup_readAssertions hassertions) hextra
  constructor
  . exact hwellFormed
  . have hmem := Json.mem_of_lastMember? (readExpiration_eq_ok_iff.1 hexpiration)
    exact (hmembers.member hmem).2.numeral _ .self
  . exact any_isSurrogate_readUsername hlast husername
  . exact any_isSurrogate_readGroups hlast hgroups
  . exact any_isSurrogate_readAssertions hlast hassertions
  . exact hheld

section Received

variable {t : Token} (ht : t.IsReceived)

include ht

theorem IsReceived.isHeldForm : ∀ c ∈ t.extra, c.2.IsHeldForm := by
  intro c hc
  obtain ⟨x, -, heq⟩ := (ht.extra c hc).2
  rw [heq]
  exact ClaimValue.isHeldForm_freeze_ofJson x

theorem IsReceived.nesting_lt : ∀ c ∈ t.extra, c.2.nesting < 200 := by
  intro c hc
  obtain ⟨x, hx, heq⟩ := (ht.extra c hc).2
  rw [heq, ClaimValue.nesting_freeze]
  exact Nat.lt_succ_of_le (Nat.le_trans (ClaimValue.nesting_ofJson_le x) hx.nesting)

theorem IsReceived.isWritable
    (hfinite : ∀ c ∈ t.extra, ∀ x, ClaimValue.Within (.float x) c.2 → x.isFinite = true)
    : t.IsWritable := by
  refine isWritable_iff.2 ⟨ht.expiration, fun c hc => ?_⟩
  obtain ⟨x, hx, heq⟩ := (ht.extra c hc).2
  have hfloat := hfinite c hc
  rw [heq] at hfloat ⊢
  rw [ClaimValue.thaw_freeze_ofJson]
  apply ClaimValue.toJson_ofJson_eq_jsonOf hx.numeral
  intro f hf
  rw [Bool.or_false]
  exact hfloat f (ClaimValue.within_freeze_float hf)

theorem IsReceived.isCanonical (hwritable : t.IsWritable)
    : ∀ c ∈ t.extra, (c.2.thaw.jsonOf false).IsCanonical ∧ (c.2.thaw.jsonOf false).IsLegible := by
  intro c hc
  obtain ⟨x, hx, heq⟩ := (ht.extra c hc).2
  have hjson := (isWritable_iff.1 hwritable).2 c hc
  rw [heq, ClaimValue.thaw_freeze_ofJson] at hjson ⊢
  exact ⟨ClaimValue.isCanonical_of_toJson_ofJson hjson,
    ClaimValue.isLegible_of_toJson_ofJson hx.legible hjson⟩

theorem IsReceived.isLegible (hwritable : t.IsWritable) : t.IsLegible where
  username := ht.username
  groups := ht.groups
  assertions := ht.assertions
  extra := fun c hc => ⟨(ht.extra c hc).1, (ht.isCanonical hwritable c hc).2⟩

end Received

/-! ### Stability -/

theorem jsonOf_copy {c : Text × ClaimValue} (h : (c.2.thaw.jsonOf false).IsCanonical)
    : (ClaimValue.ofJson (c.2.thaw.jsonOf false)).freeze.thaw.toJson false
        =
      .ok (c.2.thaw.jsonOf false) := by
  rw [ClaimValue.thaw_freeze_ofJson]
  exact ClaimValue.toJson_ofJson h

theorem json_copy {t : Token} (ht : t.WellFormed)
    (hcanonical : ∀ c ∈ t.extra, (c.2.thaw.jsonOf false).IsCanonical) : t.copy.json = t.json := by
  have hassertions : (assertionsValue t.copy.assertions).thaw.jsonOf false
      = (assertionsValue t.assertions).thaw.jsonOf false := by
    rw [ClaimValue.jsonOf_eq (toJson_assertions _), ClaimValue.jsonOf_eq (toJson_assertions _), copy,
      Json.sortMembers_of_pairwise (Json.sortMembers_pairwise t.assertions)]
  have hextra : (t.copy.extra.map fun c => (c.1, c.2.thaw.jsonOf false)).Perm
      (t.extra.map fun c => (c.1, c.2.thaw.jsonOf false)) := by
    have hsame : (t.copy.extra.map fun c => (c.1, c.2.thaw.jsonOf false))
        = (Json.sortMembers t.extra).map fun c => (c.1, c.2.thaw.jsonOf false) := by
      rw [copy, List.map_map]
      apply List.map_congr_left
      intro c hc
      have hc := hcanonical c (Json.mem_sortMembers.1 hc)
      exact congrArg (Prod.mk c.1) (ClaimValue.jsonOf_eq (jsonOf_copy hc))
    rw [hsame]
    exact (Json.sortMembers_perm t.extra).map _
  -- Both have the same members, and the order that these come in is taken away by sorting them.
  have hperm : (t.copy.heldClaims.map fun c => (c.1, c.2.thaw.jsonOf false)).Perm
      (t.heldClaims.map fun c => (c.1, c.2.thaw.jsonOf false)) := by
    rw [heldClaims, heldClaims, List.map_append, List.map_append]
    simp only [List.map_cons, hassertions]
    exact hextra.append_left _
  exact (json_eq_of_perm ht hperm.symm).symm

theorem nesting_copy_lt {t : Token} (hwritable : t.IsWritable)
    (h : ∀ c ∈ t.extra, c.2.nesting < 255) : ∀ c ∈ t.copy.extra, c.2.nesting < 255 := by
  rw [copy, List.forall_mem_map]
  intro c hc
  have hc := Json.mem_sortMembers.1 hc
  have hjson := (isWritable_iff.1 hwritable).2 c hc
  calc (ClaimValue.ofJson (c.2.thaw.jsonOf false)).freeze.nesting
    _ = (ClaimValue.ofJson (c.2.thaw.jsonOf false)).nesting := ClaimValue.nesting_freeze _
    _ ≤ (c.2.thaw.jsonOf false).nesting false := ClaimValue.nesting_ofJson_le _
    _ = c.2.nesting := by rw [ClaimValue.nesting_of_toJson hjson, ClaimValue.nesting_thaw]
    _ < 255 := h c hc

theorem encode_copy {t : Token} {b : Bytes} (ht : t.WellFormed) (h : t.encode = .ok b)
    (hnesting : ∀ c ∈ t.extra, c.2.nesting < 255)
    (hcanonical : ∀ c ∈ t.extra, (c.2.thaw.jsonOf false).IsCanonical) : t.copy.encode = .ok b := by
  obtain ⟨hwritable, -, hb⟩ := encode_eq_ok_iff.1 h
  have hcopy : t.copy.IsWritable := by
    refine isWritable_iff.2 ⟨(isWritable_iff.1 hwritable).1, ?_⟩
    rw [copy, List.forall_mem_map]
    intro c hc
    have hc := hcanonical c (Json.mem_sortMembers.1 hc)
    exact ClaimValue.toJson_eq_jsonOf (jsonOf_copy hc)
  rw [encode_eq_ok_iff, json_copy ht hcanonical]
  exact ⟨hcopy, fitsStack_of_nesting hcopy (nesting_copy_lt hwritable hnesting), hb⟩

/--
The encoding of a received token whose extra claims have only finite numbers in them is stable: it
is decoded to an equal token, and that one has the same encoding.
-/
theorem encode_decode_stable {data : Bytes} {t : Token} (h : decode data = .ok t)
    (hfinite : ∀ c ∈ t.extra, ∀ x, ClaimValue.Within (.float x) c.2 → x.isFinite = true)
    : ∃ b u, t.encode = .ok b ∧ decode b = .ok u ∧ u.equals t = true ∧ u.encode = .ok b := by
  have ht := isReceived_of_decode h
  have hwritable := ht.isWritable hfinite
  have hnesting : ∀ c ∈ t.extra, c.2.nesting < 255 :=
    fun c hc => Nat.lt_trans (ht.nesting_lt c hc) (by decide)
  obtain ⟨b, hb⟩ := exists_encode_eq_ok hwritable (fitsStack_of_nesting hwritable hnesting)
    (ht.isLegible hwritable)
  refine ⟨b, t.copy, hb, decode_encode ht.wellFormed hb ht.nesting_lt, ?_, ?_⟩
  . exact (copy_equals_iff ht.wellFormed hwritable).2 ht.isHeldForm
  . exact encode_copy ht.wellFormed hb hnesting fun c hc => (ht.isCanonical hwritable c hc).1

theorem encode_decode_stable_minus_zero
    : ∃ data t, decode data = .ok t ∧
        t.extra = [(Text.ofString "ratio", .tuple [.float (.finite true .zero)])] ∧
        ∃ b u, t.encode = .ok b ∧ decode b = .ok u ∧ u.equals t = true ∧ u.encode = .ok b := by
  obtain ⟨t, ht⟩ : ∃ t : Token, t = ⟨1, [], [], [],
      [(Text.ofString "ratio", .tuple [.float (.finite true .zero)])]⟩ := ⟨_, rfl⟩
  have hwellFormed : t.WellFormed := by
    subst ht
    refine ⟨List.nodup_nil, by decide, by decide, ?_⟩
    rw [List.forall_mem_singleton, ClaimValue.hasDistinctKeys_tuple_iff, List.forall_mem_singleton]
    rintro _ (_ | _)
    trivial
  have hwritable : t.IsWritable := by
    subst ht
    exact isWritable_iff.2 ⟨Text.hasNumeral_iff.2 (by decide), List.forall_mem_singleton.2 rfl⟩
  have hlegible : t.IsLegible := by
    subst ht
    refine ⟨rfl, by simp, by simp, List.forall_mem_singleton.2 ⟨rfl, ?_⟩⟩
    apply Json.isLegible_array_iff.2
    rw [List.forall_mem_singleton]
    rintro _ (_ | _)
    trivial
  have hcopy : t.copy = t := by
    subst ht
    simp only [copy, Json.sortMembers, List.mergeSort_nil, List.mergeSort_singleton]
    rfl
  have hnesting : ∀ c ∈ t.extra, c.2.nesting < 255 := by
    subst ht
    exact List.forall_mem_singleton.2 (by decide)
  obtain ⟨data, hdata⟩ :=
    exists_encode_eq_ok hwritable (fitsStack_of_nesting hwritable hnesting) hlegible
  have hdecode : decode data = .ok t := by
    rw [decode_encode hwellFormed hdata, hcopy]
    subst ht
    decide
  refine ⟨data, t, hdecode, by rw [ht], encode_decode_stable hdecode ?_⟩
  subst ht
  rw [List.forall_mem_singleton]
  rintro x (_ | _ | ⟨hx, hw⟩)
  cases List.mem_singleton.1 hx
  cases hw
  rfl

end Token

end SignedToken
