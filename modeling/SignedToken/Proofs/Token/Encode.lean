import SignedToken.Proofs.Claim.Stack
import SignedToken.Proofs.Json.Legible
import SignedToken.Proofs.Text.Utf8
import SignedToken.Token

/-!
This module contains the encoding of tokens as the text of one JSON value: when there is one, and how
deep it is nested. Claims of the depth that a payload may have are always within reach of the stack.
-/

namespace SignedToken.Token

def json (t : Token) : Json :=
  .object (Json.sortMembers (t.heldClaims.map fun c => (c.1, c.2.thaw.jsonOf false)))

def IsWritable (t : Token) : Prop :=
  ∀ c ∈ t.heldClaims, c.2.thaw.toJson false = .ok (c.2.thaw.jsonOf false)

theorem toJson_claimsValue_eq_ok_iff {t : Token} {j : Json}
    : t.claimsValue.toJson false = .ok j ↔ t.IsWritable ∧ j = t.json := by
  rw [claimsValue, claims, List.map_map]
  exact ClaimValue.toJson_texts_eq_ok_iff (f := ClaimValue.thaw)

/--
Whether the stack reaches as far as the claims of a token are nested, both when they are thawed and
when they are written.
-/
structure FitsStack (t : Token) : Prop where
  thawed : t.thawDepth ≤ thawRoom
  written : t.json.nesting true ≤ writeRoom

theorem writeWithin_claimsValue_eq_ok_iff {t : Token} {text : Text}
    : t.claimsValue.writeWithin .canonical writeRoom = .ok text
        ↔
      (t.IsWritable ∧ t.json.nesting true ≤ writeRoom) ∧
        text = t.json.write Json.Style.canonical := by
  have hjson : ∀ j, t.claimsValue.toJsonWithin false writeRoom = .ok j
      ↔ (t.IsWritable ∧ t.json.nesting true ≤ writeRoom) ∧ j = t.json := by
    intro j
    rw [ClaimValue.toJsonWithin_eq_ok_iff, toJson_claimsValue_eq_ok_iff]
    constructor
    . rintro ⟨⟨hwritable, rfl⟩, hwritten⟩
      exact ⟨⟨hwritable, hwritten⟩, rfl⟩
    . rintro ⟨⟨hwritable, hwritten⟩, rfl⟩
      exact ⟨⟨hwritable, rfl⟩, hwritten⟩
  have hwrite : t.claimsValue.writeWithin .canonical writeRoom
      = (t.claimsValue.toJsonWithin false writeRoom).map (·.write Json.Style.canonical) := rfl
  rw [hwrite, Outcome.map_eq_ok_iff]
  constructor
  . rintro ⟨j, hj, rfl⟩
    obtain ⟨hwritten, rfl⟩ := (hjson j).1 hj
    exact ⟨hwritten, rfl⟩
  . rintro ⟨hwritten, rfl⟩
    exact ⟨t.json, (hjson _).2 ⟨hwritten, rfl⟩, rfl⟩

theorem encode_eq_ok_iff {t : Token} {b : Bytes}
    : t.encode = .ok b
        ↔
      t.IsWritable ∧ t.FitsStack ∧ Utf8.encode? (t.json.write Json.Style.canonical) = some b := by
  unfold encode
  constructor
  . intro h
    split at h
    . cases h
    . next hthawed =>
      split at h
      . cases h
      . cases h
      . next text htext =>
        obtain ⟨⟨hwritable, hwritten⟩, rfl⟩ := writeWithin_claimsValue_eq_ok_iff.1 htext
        split at h
        . next b' hb =>
          cases h
          exact ⟨hwritable, ⟨Nat.le_of_not_lt hthawed, hwritten⟩, hb⟩
        . cases h
  . rintro ⟨hwritable, ⟨hthawed, hwritten⟩, hb⟩
    rw [if_neg (Nat.not_lt_of_le hthawed),
      writeWithin_claimsValue_eq_ok_iff.2 ⟨⟨hwritable, hwritten⟩, rfl⟩]
    dsimp only
    rw [hb]

theorem json_readable {t : Token} (h : t.IsWritable) : Json.Readable false t.json :=
  ClaimValue.readable_of_toJson (toJson_claimsValue_eq_ok_iff.2 ⟨h, rfl⟩)

/-! ### Declared claims -/

theorem forall_mem_heldClaims {t : Token} {P : Text × ClaimValue → Prop}
    : (∀ c ∈ t.heldClaims, P c)
        ↔
      (P (expirationName, .int t.expiration) ∧ P (usernameName, .text t.username) ∧
        P (groupsName, .tuple (t.groups.map .text)) ∧
        P (assertionsName, assertionsValue t.assertions)) ∧
        ∀ c ∈ t.extra, P c := by
  rw [heldClaims, List.forall_mem_append]
  simp only [List.forall_mem_cons, List.not_mem_nil, false_implies, implies_true, and_true]

theorem toJson_groups {nonFinite : Bool} (groups : List Text)
    : (ClaimValue.tuple (groups.map .text)).thaw.toJson nonFinite
        =
      .ok (.array (groups.map .text)) := by
  rw [ClaimValue.thaw, ClaimValue.thawItems_eq_map, List.map_map, ClaimValue.toJson_list_eq_ok_iff,
    List.forall_mem_map, List.map_map]
  exact ⟨fun t ht => rfl, rfl⟩

theorem toJson_assertions {nonFinite : Bool} (assertions : List (Text × Text))
    : (assertionsValue assertions).thaw.toJson nonFinite
        =
      .ok (.object ((Json.sortMembers assertions).map fun a => (a.1, .text a.2))) := by
  rw [assertionsValue, ClaimValue.thaw, ClaimValue.thawEntries_eq_map, List.map_map,
    ← Json.sortMembers_map]
  exact (ClaimValue.toJson_texts_eq_ok_iff (f := ClaimValue.text)).2 ⟨fun a ha => rfl, rfl⟩

theorem isWritable_iff {t : Token}
    : t.IsWritable
        ↔
      hasNumeral t.expiration = true ∧
        ∀ c ∈ t.extra, c.2.thaw.toJson false = .ok (c.2.thaw.jsonOf false) := by
  have hgroups := ClaimValue.toJson_eq_jsonOf (@toJson_groups false t.groups)
  have hassertions := ClaimValue.toJson_eq_jsonOf (@toJson_assertions false t.assertions)
  rw [IsWritable, forall_mem_heldClaims]
  constructor
  . rintro ⟨⟨hint, -⟩, hextra⟩
    exact ⟨(ClaimValue.toJson_int_eq_ok_iff.1 hint).1, hextra⟩
  . rintro ⟨hnumeral, hextra⟩
    refine ⟨⟨?_, rfl, hgroups, hassertions⟩, hextra⟩
    exact ClaimValue.toJson_eq_jsonOf (ClaimValue.toJson_int_eq_ok_iff.2 ⟨hnumeral, rfl⟩)

theorem jsonOf_expiration {t : Token} (h : t.IsWritable)
    : ((ClaimValue.int t.expiration).thaw.jsonOf false) = .int t.expiration :=
  ClaimValue.jsonOf_eq (ClaimValue.toJson_int_eq_ok_iff.2 ⟨(isWritable_iff.1 h).1, rfl⟩)

/-! ### Surrogates -/

structure IsLegible (t : Token) : Prop where
  username : t.username.any CodePoint.isSurrogate = false
  groups : ∀ g ∈ t.groups, g.any CodePoint.isSurrogate = false
  assertions : ∀ a ∈ t.assertions,
    a.1.any CodePoint.isSurrogate = false ∧ a.2.any CodePoint.isSurrogate = false
  extra : ∀ c ∈ t.extra,
    c.1.any CodePoint.isSurrogate = false ∧ (c.2.thaw.jsonOf false).IsLegible

theorem isLegible_json {t : Token} (hwritable : t.IsWritable) (h : t.IsLegible)
    : t.json.IsLegible := by
  have htext : ∀ u : Text, u.any CodePoint.isSurrogate = false → (Json.text u).IsLegible := by
    rintro u hu _ (_ | _)
    exact hu
  have hgroups : (Json.array (t.groups.map .text)).IsLegible := by
    rw [Json.isLegible_array_iff, List.forall_mem_map]
    exact fun g hg => htext g (h.groups g hg)
  have hassertions :
      (Json.object ((Json.sortMembers t.assertions).map fun a => (a.1, .text a.2))).IsLegible := by
    rw [Json.isLegible_object_iff, List.forall_mem_map]
    intro a ha
    have ha := h.assertions a (Json.mem_sortMembers.1 ha)
    exact ⟨ha.1, htext a.2 ha.2⟩
  rw [json, Json.isLegible_object_iff]
  simp only [Json.mem_sortMembers]
  rw [List.forall_mem_map, forall_mem_heldClaims]
  simp only [jsonOf_expiration hwritable, ClaimValue.jsonOf_eq (toJson_groups t.groups),
    ClaimValue.jsonOf_eq (toJson_assertions t.assertions)]
  refine ⟨⟨⟨rfl, ?_⟩, ⟨rfl, htext t.username h.username⟩, ⟨rfl, hgroups⟩, ⟨rfl, hassertions⟩⟩,
    h.extra⟩
  rintro _ (_ | _)
  trivial

theorem exists_encode_eq_ok {t : Token} (hwritable : t.IsWritable) (hfits : t.FitsStack)
    (h : t.IsLegible) : ∃ b, t.encode = .ok b := by
  have hlegible := Json.any_isSurrogate_write Json.Style.canonical_separates
    (isLegible_json hwritable h)
  exact ⟨_, encode_eq_ok_iff.2 ⟨hwritable, hfits, Utf8.encode?_eq_some.2 ⟨hlegible, rfl⟩⟩⟩

/-! ### Nesting -/

theorem nesting_claimsValue_le_iff {t : Token} {n : Nat} (hn : 0 < n)
    : t.claimsValue.nesting ≤ n + 1 ↔ ∀ c ∈ t.extra, c.2.nesting ≤ n := by
  obtain ⟨m, rfl⟩ : ∃ m, n = m + 1 := ⟨n - 1, by omega⟩
  have hgroups : (ClaimValue.tuple (t.groups.map .text)).nesting ≤ m + 1 := by
    rw [← ClaimValue.nesting_thaw, ClaimValue.thaw, ClaimValue.thawItems_eq_map, List.map_map,
      ClaimValue.nesting_list_le_iff]
    exact .inr ⟨m, rfl, List.forall_mem_map.2 fun _ _ => Nat.zero_le m⟩
  have hassertions : (assertionsValue t.assertions).nesting ≤ m + 1 := by
    rw [← ClaimValue.nesting_thaw, assertionsValue, ClaimValue.thaw, ClaimValue.thawEntries_eq_map,
      List.map_map, ClaimValue.nesting_dict_le_iff]
    exact .inr ⟨m, rfl, List.forall_mem_map.2 fun _ _ => Nat.zero_le m⟩
  have hclaims : (∀ e ∈ t.claims.map fun c => (ClaimValue.text c.1, c.2), e.2.nesting ≤ m + 1)
      ↔ ∀ c ∈ t.extra, c.2.nesting ≤ m + 1 := by
    rw [List.forall_mem_map, claims, List.forall_mem_map]
    simp only [ClaimValue.nesting_thaw]
    rw [forall_mem_heldClaims]
    exact and_iff_right ⟨Nat.zero_le _, Nat.zero_le _, hgroups, hassertions⟩
  have hne : t.claims.map (fun c => (ClaimValue.text c.1, c.2)) ≠ [] := by
    simp [claims, heldClaims]
  rw [← hclaims, claimsValue, ClaimValue.nesting_dict_le_iff, or_iff_right hne]
  constructor
  . rintro ⟨k, heq, hle⟩
    cases heq
    exact hle
  . exact fun hle => ⟨m + 1, rfl, hle⟩

theorem nesting_json_le_iff {t : Token} (h : t.IsWritable) {n : Nat} (hn : 0 < n)
    : t.json.nesting false ≤ n + 1 ↔ ∀ c ∈ t.extra, c.2.nesting ≤ n := by
  have hjson := toJson_claimsValue_eq_ok_iff.2 ⟨h, rfl⟩
  rw [ClaimValue.nesting_of_toJson hjson, nesting_claimsValue_le_iff hn]

theorem thawDepth_le (t : Token) : t.thawDepth ≤ t.claimsValue.nesting + 1 := by
  have hthaw : t.claimsValue
      = (ClaimValue.dict (t.heldClaims.map fun c => (.text c.1, c.2))).thaw := by
    rw [claimsValue, claims, ClaimValue.thaw, ClaimValue.thawEntries_eq_map, List.map_map,
      List.map_map]
    rfl
  rw [hthaw, ClaimValue.nesting_thaw]
  exact ClaimValue.thawDepth_le _

theorem fitsStack_of_nesting {t : Token} (hwritable : t.IsWritable)
    (h : ∀ c ∈ t.extra, c.2.nesting < 255) : t.FitsStack where
  thawed := by
    have hclaims : t.claimsValue.nesting ≤ 254 + 1 :=
      (nesting_claimsValue_le_iff (by decide)).2 fun c hc => Nat.le_of_lt_succ (h c hc)
    have := t.thawDepth_le
    rw [thawRoom_eq]
    omega
  written := by
    have hjson : t.json.nesting false ≤ 254 + 1 :=
      (nesting_json_le_iff hwritable (by decide)).2 fun c hc => Nat.le_of_lt_succ (h c hc)
    have := t.json.nesting_true_le
    rw [writeRoom_eq]
    omega

theorem exists_encode_of_extra {extra : List (Text × ClaimValue)}
    (h : ∀ c ∈ extra, c.1.any CodePoint.isSurrogate = false ∧ c.2.nesting < 255 ∧
      ∃ j, c.2.thaw.toJson false = .ok j ∧ j.IsLegible)
    : ∃ b, (Token.mk 1 [] [] [] extra).encode = .ok b := by
  have hone : hasNumeral 1 = true := Text.hasNumeral_iff.2 (by decide)
  have hwritable : (Token.mk 1 [] [] [] extra).IsWritable := by
    refine isWritable_iff.2 ⟨hone, fun c hc => ?_⟩
    obtain ⟨-, -, j, hj, -⟩ := h c hc
    exact ClaimValue.toJson_eq_jsonOf hj
  apply exists_encode_eq_ok hwritable
  . exact fitsStack_of_nesting hwritable fun c hc => (h c hc).2.1
  . refine ⟨rfl, by simp, by simp, fun c hc => ?_⟩
    obtain ⟨hname, -, j, hj, hlegible⟩ := h c hc
    rw [ClaimValue.jsonOf_eq hj]
    exact ⟨hname, hlegible⟩

end SignedToken.Token
