import SignedToken.Proofs.Claim.Parsed
import SignedToken.Proofs.Token.Rearranged
import SignedToken.Proofs.Token.Received

/-!
This module contains the law that it is the same to check the claims of a document before it is parsed
and after that, as long as nothing in it is said twice. So a token that was decoded can be built again
from its own claims.
-/

namespace SignedToken

theorem ClaimValue.hasDistinctTexts_ofJson (x : Json) : (ofJson x).HasDistinctTexts := by
  cases x with
  | object members =>
    have hnames : ((Entries.ofList (· == ·) members).map fun m =>
          (text m.1, ofJson m.2)).filterMap (fun e => e.1.asText?)
        = (Entries.ofList (· == ·) members).map (·.1) := by
      rw [List.filterMap_map, ← List.filterMap_eq_map]
      rfl
    rw [ofJson_object, HasDistinctTexts, hnames]
    exact Entries.nodup_ofList members
  | _ => trivial

namespace Token

/-! ### Parsed documents -/

def claimsOf (members : List (Text × Json)) : List (Text × ClaimValue) :=
  members.map fun m => (m.1, .ofJson m.2)

theorem checkText_ofJson (place : List Step) (x : Json)
    : checkText place (.ofJson x) = readText place x := by
  cases x <;> rfl

theorem checkExpiration_ofJson (x : Option Json)
    : checkExpiration (x.map .ofJson) = readExpiration x := by
  cases x with
  | none => rfl
  | some x => cases x <;> rfl

theorem checkUsername_ofJson (x : Option Json) : checkUsername (x.map .ofJson) = readUsername x := by
  cases x with
  | none => rfl
  | some x => exact checkText_ofJson _ x

theorem checkGroups_ofJson (x : Option Json) : checkGroups (x.map .ofJson) = readGroups x := by
  cases x with
  | none => rfl
  | some x =>
    cases x with
    | array items =>
      rw [Option.map_some, ClaimValue.ofJson, ClaimValue.ofJsonItems_eq_map, checkGroups,
        checkGroupItems, readGroups]
      congr 1
      apply List.ext_getElem
      . simp
      . intro i hi hi'
        simp only [List.getElem_mapIdx, List.getElem_map, checkText_ofJson]
    | _ => rfl

theorem legible_eq {t : Text} (h : t.any CodePoint.isSurrogate = false) : legible t = t := by
  rw [List.any_eq_false] at h
  induction t with
  | nil => rfl
  | cons c t ih =>
    rw [List.forall_mem_cons] at h
    rw [legible, List.flatMap_cons, if_neg h.1, ← legible, ih h.2, List.singleton_append]

theorem checkAssertion_ofJson {m : Text × Json} (h : m.1.any CodePoint.isSurrogate = false)
    : checkAssertion (.text m.1, .ofJson m.2) = readAssertion m := by
  rw [checkAssertion, readAssertion, keyStep, legible_eq h, checkText_ofJson, checkText]
  cases readText _ m.2 <;> rfl

theorem checkAssertions_ofJson {x : Option Json}
    (hx : ∀ y ∈ x, y.HasDistinctNames ∧ y.IsLegible)
    : checkAssertions (x.map .ofJson) = readAssertions x := by
  cases x with
  | none => rfl
  | some x =>
    cases x with
    | object members =>
      obtain ⟨hnames, hlegible⟩ := hx _ rfl
      rw [Json.hasDistinctNames_object_iff] at hnames
      rw [Json.isLegible_object_iff] at hlegible
      rw [Option.map_some, ClaimValue.ofJson_object, Entries.ofList_of_nodup hnames.1,
        checkAssertions, checkAssertionEntries, readAssertions, List.map_map]
      congr 2
      exact List.map_congr_left fun m hm => checkAssertion_ofJson (hlegible m hm).1
    | _ => rfl

theorem get?_claimsOf {members : List (Text × Json)} (h : (members.map (·.1)).Nodup) (name : Text)
    : Entries.get? name (claimsOf members) = (Json.lastMember? name members).map .ofJson := by
  have hnames : (claimsOf members).map (·.1) = members.map (·.1) := by
    rw [claimsOf, List.map_map]
    rfl
  cases hlast : Json.lastMember? name members with
  | none => rwa [Option.map_none, Entries.get?_eq_none_iff, hnames, ← Json.lastMember?_eq_none_iff]
  | some x =>
    rw [Option.map_some, Entries.get?_eq_some_iff (hnames ▸ h)]
    exact List.mem_map.2 ⟨_, Json.mem_of_lastMember? hlast, rfl⟩

theorem extraOf_claimsOf {members : List (Text × Json)} (h : (members.map (·.1)).Nodup)
    : extraOf (claimsOf members) = readExtra members := by
  have hnames : (((extraOf members).map fun m => (m.1, ClaimValue.ofJson m.2)).map (·.1)).Nodup := by
    rw [List.map_map]
    exact h.sublist (List.filter_sublist.map _)
  rw [readExtra, Entries.ofList_of_nodup hnames, claimsOf, extraOf, List.filter_map]
  rfl

theorem ofClaims_claimsOf {members : List (Text × Json)}
    (hnames : (Json.object members).HasDistinctNames) (hlegible : (Json.object members).IsLegible)
    : ofClaims (claimsOf members) = ofMembers members := by
  rw [Json.hasDistinctNames_object_iff] at hnames
  rw [Json.isLegible_object_iff] at hlegible
  have hassertions : ∀ y ∈ Json.lastMember? assertionsName members,
      y.HasDistinctNames ∧ y.IsLegible := by
    intro y hy
    have hmem := Json.mem_of_lastMember? hy
    exact ⟨hnames.2 _ hmem, (hlegible _ hmem).2⟩
  rw [ofClaims, ofMembers, get?_claimsOf hnames.1, get?_claimsOf hnames.1, get?_claimsOf hnames.1,
    get?_claimsOf hnames.1, checkExpiration_ofJson, checkUsername_ofJson, checkGroups_ofJson,
    checkAssertions_ofJson hassertions, extraOf_claimsOf hnames.1, readExtra]

/-! ### Tokens built again -/

theorem ofJson_groups (groups : List Text)
    : ClaimValue.ofJson (.array (groups.map .text)) = (ClaimValue.tuple (groups.map .text)).thaw := by
  rw [ClaimValue.ofJson, ClaimValue.ofJsonItems_eq_map, ClaimValue.thaw, ClaimValue.thawItems_eq_map,
    List.map_map, List.map_map]
  rfl

theorem ofJson_assertions {assertions : List (Text × Text)} (h : (assertions.map (·.1)).Nodup)
    : ClaimValue.ofJson (.object (assertions.map fun a => (a.1, .text a.2)))
        =
      (assertionsValue assertions).thaw := by
  have hnodup : ((assertions.map fun a => (a.1, Json.text a.2)).map (·.1)).Nodup := by
    rw [List.map_map]
    exact h
  rw [ClaimValue.ofJson_object, Entries.ofList_of_nodup hnodup, assertionsValue, ClaimValue.thaw,
    ClaimValue.thawEntries_eq_map, List.map_map, List.map_map]
  rfl

section Received

variable {t : Token} (ht : t.IsReceived)

include ht

theorem IsReceived.checkAssertions_thaw
    : checkAssertions (some (assertionsValue t.assertions).thaw) = .ok t.assertions := by
  have hnames : (Json.object (t.assertions.map fun a => (a.1, .text a.2))).HasDistinctNames := by
    rw [Json.hasDistinctNames_object_iff, List.map_map, List.forall_mem_map]
    refine ⟨ht.wellFormed.assertions, fun a _ => ?_⟩
    rintro _ (_ | _)
    trivial
  have hlegible : (Json.object (t.assertions.map fun a => (a.1, .text a.2))).IsLegible := by
    rw [Json.isLegible_object_iff, List.forall_mem_map]
    refine fun a ha => ⟨(ht.assertions a ha).1, ?_⟩
    rintro _ (_ | _)
    exact (ht.assertions a ha).2
  have hread : checkAssertions (Option.map _ (some _)) = _ :=
    checkAssertions_ofJson fun y hy => Option.some_inj.1 hy ▸ ⟨hnames, hlegible⟩
  rwa [Option.map_some, ofJson_assertions ht.wellFormed.assertions,
    readAssertions_texts ht.wellFormed.assertions] at hread

theorem IsReceived.holdExtras_claims : holdExtras (extraOf t.claims) = .ok t.extra := by
  have hheld : ∀ c ∈ t.extra, holdExtra c.2.thaw = .ok c.2 := by
    intro c hc
    obtain ⟨x, hx, heq⟩ := (ht.extra c hc).2
    have hnesting := hx.nesting
    rw [heq, ClaimValue.thaw_freeze_ofJson, holdExtra_ofJson hx.legible (by omega)]
  have hextra : extraOf t.claims = t.extra.map fun c => (c.1, c.2.thaw) :=
    extraOf_heldClaims ht.wellFormed ClaimValue.thaw
  rw [hextra, holdExtras_eq_ok_iff, List.forall_mem_map, List.map_map]
  constructor
  . intro c hc
    rw [heldValue_eq (hheld c hc)]
    exact hheld c hc
  . have hid : ∀ c ∈ t.extra, ((fun c => (c.1, heldValue c.2)) ∘ fun c => (c.1, c.2.thaw)) c = id c :=
      fun c hc => congrArg (Prod.mk c.1) (heldValue_eq (hheld c hc))
    rw [List.map_congr_left hid, List.map_id]

theorem IsReceived.ofClaims_claims : ofClaims t.claims = .ok t := by
  have hgroups := checkGroups_ofJson (some (.array (t.groups.map .text)))
  rw [Option.map_some, ofJson_groups, readGroups_texts] at hgroups
  exact ofChecked_eq_ok_iff.2 ⟨rfl, rfl, hgroups, ht.checkAssertions_thaw, ht.holdExtras_claims⟩

theorem IsReceived.exists_encode
    (hfinite : ∀ c ∈ t.extra, ∀ x, ClaimValue.Within (.float x) c.2 → x.isFinite = true)
    : ∃ b, t.encode = .ok b := by
  have hwritable := ht.isWritable hfinite
  have hnesting : ∀ c ∈ t.extra, c.2.nesting < 255 :=
    fun c hc => Nat.lt_trans (ht.nesting_lt c hc) (by decide)
  exact exists_encode_eq_ok hwritable (fitsStack_of_nesting hwritable hnesting)
    (ht.isLegible hwritable)

theorem IsReceived.equals_self
    (hfinite : ∀ c ∈ t.extra, ∀ x, ClaimValue.Within (.float x) c.2 → x.isFinite = true)
    : t.equals t = true := by
  have halike : ∀ c ∈ t.extra, HeldAlike c.2 c.2 := by
    intro c hc
    obtain ⟨x, -, heq⟩ := (ht.extra c hc).2
    have hdata : (ClaimValue.ofJson x).IsData := by
      apply ClaimValue.isData_ofJson
      intro f hf
      exact hfinite c hc f (heq ▸ ClaimValue.within_freeze_float hf)
    have hnesting := Nat.lt_trans (ht.nesting_lt c hc) (by decide : 200 < 255)
    exact ⟨⟨x, x, heq, heq, .refl _, hdata, hdata⟩, hnesting, hnesting⟩
  refine Alike.equals ⟨rfl, rfl, rfl, .refl _, t.extra.map fun c => (c.1, c.2, c.2), ?_, ?_,
    List.forall_mem_map.2 halike⟩
  . rw [List.map_map]
    exact .of_eq (List.map_id t.extra).symm
  . rw [List.map_map]
    exact .of_eq (List.map_id t.extra).symm

end Received

end Token

end SignedToken
