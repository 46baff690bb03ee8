import SignedToken.Proofs.Token.Encode
import SignedToken.Proofs.Token.Schema

/-!
This module contains the copy of a token that is decoded from its own encoding: what it is, and when
there is one.
-/

namespace SignedToken

namespace Json

theorem lastMember?_of_mem {members : List (Text × Json)} {m : Text × Json}
    (hnodup : (members.map (·.1)).Nodup) (h : m ∈ members)
    : lastMember? m.1 members = some m.2 :=
  lastMember?_eq_some_iff.2 ((Entries.lastOf_iff_mem hnodup).2 h)

end Json

namespace Token

/--
The token with everything that is written of it sorted, and its extra claims in the form in which
claims are held that were read.
-/
def copy (t : Token) : Token where
  expiration := t.expiration
  username := t.username
  groups := t.groups
  assertions := Json.sortMembers t.assertions
  extra := (Json.sortMembers t.extra).map fun c =>
    (c.1, (ClaimValue.ofJson (c.2.thaw.jsonOf false)).freeze)

theorem nodup_heldClaims {t : Token} (ht : t.WellFormed) : (t.heldClaims.map (·.1)).Nodup := by
  have hdeclared : declaredNames.Nodup := by decide
  rw [heldClaims, List.map_append, List.nodup_append]
  refine ⟨hdeclared, ht.extra, ?_⟩
  intro name hname name' hname' heq
  obtain ⟨c, hc, rfl⟩ := List.mem_map.1 hname'
  rw [heq] at hname
  exact ht.undeclared c hc hname

theorem nodup_members {t : Token} (ht : t.WellFormed)
    : ((Json.sortMembers (t.heldClaims.map fun c => (c.1, c.2.thaw.jsonOf false))).map
        (·.1)).Nodup := by
  rw [Json.nodup_sortMembers_iff, List.map_map]
  exact nodup_heldClaims ht

theorem json_eq_of_perm {t u : Token} (ht : t.WellFormed)
    (h : (t.heldClaims.map fun c => (c.1, c.2.thaw.jsonOf false)).Perm
      (u.heldClaims.map fun c => (c.1, c.2.thaw.jsonOf false))) : t.json = u.json := by
  rw [json, json, Json.sortMembers_eq_of_perm h]
  rw [List.map_map]
  exact nodup_heldClaims ht

theorem lastMember?_members {t : Token} (ht : t.WellFormed) {c : Text × ClaimValue}
    (hc : c ∈ t.heldClaims)
    : Json.lastMember? c.1
        (Json.sortMembers (t.heldClaims.map fun c => (c.1, c.2.thaw.jsonOf false)))
        =
      some (c.2.thaw.jsonOf false) := by
  have hmem : (c.1, c.2.thaw.jsonOf false)
      ∈ Json.sortMembers (t.heldClaims.map fun c => (c.1, c.2.thaw.jsonOf false)) :=
    Json.mem_sortMembers.2 (List.mem_map.2 ⟨c, hc, rfl⟩)
  exact Json.lastMember?_of_mem (nodup_members ht) hmem

/-! ### Declared claims -/

theorem readGroups_texts (groups : List Text)
    : readGroups (some (.array (groups.map .text))) = .ok groups := by
  rw [readGroups, Checked.all_eq_ok_iff]
  apply List.ext_getElem
  . simp
  . intro i h h'
    simp [readText]

theorem readAssertions_texts {assertions : List (Text × Text)}
    (h : (assertions.map (·.1)).Nodup)
    : readAssertions (some (.object (assertions.map fun a => (a.1, .text a.2)))) = .ok assertions := by
  have hall : Checked.all ((assertions.map fun a => (a.1, Json.text a.2)).map readAssertion)
      = .ok assertions := by
    rw [Checked.all_eq_ok_iff, List.map_map]
    rfl
  rw [readAssertions, hall]
  exact congrArg Except.ok (Entries.ofList_of_nodup h)

/-! ### Extra claims -/

theorem extraOf_sortMembers {members : List (Text × β)} (h : (members.map (·.1)).Nodup)
    : extraOf (Json.sortMembers members) = Json.sortMembers (extraOf members) := by
  have hsorted : (extraOf (Json.sortMembers members)).Pairwise fun m n => Text.le m.1 n.1 = true :=
    (Json.sortMembers_pairwise members).sublist List.filter_sublist
  rw [← Json.sortMembers_of_pairwise hsorted]
  apply Json.sortMembers_eq_of_perm
  . exact (Json.sortMembers_perm members).filter _
  . exact (Json.nodup_sortMembers_iff.2 h).sublist (List.filter_sublist.map _)

theorem extraOf_heldClaims {t : Token} (ht : t.WellFormed) (f : ClaimValue → β)
    : extraOf (t.heldClaims.map fun c => (c.1, f c.2)) = t.extra.map fun c => (c.1, f c.2) := by
  have hextra : extraOf (t.extra.map fun c => (c.1, f c.2)) = t.extra.map fun c => (c.1, f c.2) := by
    rw [extraOf, List.filter_eq_self, List.forall_mem_map]
    intro c hc
    simpa using ht.undeclared c hc
  rw [heldClaims, List.map_append, extraOf, List.filter_append, ← extraOf, ← extraOf, hextra]
  rfl

/-! ### The encoding read -/

theorem legible_of_encode {t : Token} {b : Bytes} (h : t.encode = .ok b)
    (hnesting : ∀ c ∈ t.extra, c.2.nesting < 200)
    : Json.read? payloadDialect (t.json.write Json.Style.canonical) = some t.json ∧
        t.json.IsLegible := by
  obtain ⟨hwritable, -, hb⟩ := encode_eq_ok_iff.1 h
  have hread : Json.read? payloadDialect (t.json.write Json.Style.canonical) = some t.json := by
    rw [Json.read?_write payloadDialect Json.Style.canonical_separates (json_readable hwritable),
      if_pos]
    exact (nesting_json_le_iff hwritable (by decide)).2 fun c hc => Nat.le_of_lt_succ (hnesting c hc)
  exact ⟨hread, (Json.read?_sound hread).legible rfl (Utf8.encode?_eq_some.1 hb).1⟩

theorem holdExtra_copy {t : Token} (hwritable : t.IsWritable) (hlegible : t.json.IsLegible)
    {c : Text × ClaimValue} (hc : c ∈ t.extra) (hnesting : c.2.nesting < 200)
    : holdExtra (.ofJson (c.2.thaw.jsonOf false))
        =
      .ok (ClaimValue.ofJson (c.2.thaw.jsonOf false)).freeze := by
  have hheld : c ∈ t.heldClaims := List.mem_append_right _ hc
  have hmem : (c.1, c.2.thaw.jsonOf false)
      ∈ Json.sortMembers (t.heldClaims.map fun c => (c.1, c.2.thaw.jsonOf false)) :=
    Json.mem_sortMembers.2 (List.mem_map.2 ⟨c, hheld, rfl⟩)
  apply holdExtra_ofJson (Json.isLegible_object_iff.1 hlegible _ hmem).2
  rw [ClaimValue.nesting_of_toJson (hwritable c hheld), ClaimValue.nesting_thaw]
  omega

theorem ofMembers_json {t : Token} (ht : t.WellFormed) (hwritable : t.IsWritable)
    (hlegible : t.json.IsLegible) (hnesting : ∀ c ∈ t.extra, c.2.nesting < 200)
    : ofMembers (Json.sortMembers (t.heldClaims.map fun c => (c.1, c.2.thaw.jsonOf false)))
        =
      .ok t.copy := by
  have hexpiration := lastMember?_members ht (c := (expirationName, .int t.expiration))
    (by simp [heldClaims])
  have husername := lastMember?_members ht (c := (usernameName, .text t.username))
    (by simp [heldClaims])
  have hgroups := lastMember?_members ht (c := (groupsName, .tuple (t.groups.map .text)))
    (by simp [heldClaims])
  have hassertions := lastMember?_members ht (c := (assertionsName, assertionsValue t.assertions))
    (by simp [heldClaims])
  -- What stands under the four declared names is read as it was held, whatever the extra claims are.
  rw [jsonOf_expiration hwritable] at hexpiration
  rw [ClaimValue.jsonOf_eq (toJson_groups t.groups)] at hgroups
  rw [ClaimValue.jsonOf_eq (toJson_assertions t.assertions)] at hassertions
  rw [ofMembers, ofChecked_eq_ok_iff, hexpiration, husername, hgroups, hassertions,
    extraOf_sortMembers]
  refine ⟨rfl, rfl, readGroups_texts t.groups, readAssertions_texts ?_, ?_⟩
  . exact Json.nodup_sortMembers_iff.2 ht.assertions
  . have hheld : ∀ c ∈ Json.sortMembers t.extra,
        holdExtra (.ofJson (c.2.thaw.jsonOf false))
          = .ok (ClaimValue.ofJson (c.2.thaw.jsonOf false)).freeze := by
      intro c hc
      have hc := Json.mem_sortMembers.1 hc
      exact holdExtra_copy hwritable hlegible hc (hnesting c hc)
    rw [extraOf_heldClaims ht fun v => v.thaw.jsonOf false,
      Json.sortMembers_map fun v : ClaimValue => v.thaw.jsonOf false, List.map_map,
      Entries.ofList_of_nodup, holdExtras_eq_ok_iff, List.forall_mem_map, List.map_map]
    . constructor
      . intro c hc
        dsimp only [Function.comp_apply]
        rw [heldValue_eq (hheld c hc), hheld c hc]
      . apply List.map_congr_left
        intro c hc
        dsimp only [Function.comp_apply]
        rw [heldValue_eq (hheld c hc)]
    . rw [List.map_map]
      exact Json.nodup_sortMembers_iff.2 ht.extra
  . rw [List.map_map]
    exact nodup_heldClaims ht

theorem decode_encode {t : Token} {b : Bytes} (ht : t.WellFormed) (h : t.encode = .ok b)
    (hnesting : ∀ c ∈ t.extra, c.2.nesting < 200) : decode b = .ok t.copy := by
  obtain ⟨hwritable, -, hb⟩ := encode_eq_ok_iff.1 h
  obtain ⟨hread, hlegible⟩ := legible_of_encode h hnesting
  unfold decode
  rw [Utf8.decode?_of_encode? hb]
  simp only [Option.bind_eq_bind, Option.bind_some, hread]
  exact ofMembers_json ht hwritable hlegible hnesting

theorem decode_encode_of_nesting {t : Token} {b : Bytes} (h : t.encode = .ok b)
    {c : Text × ClaimValue} (hc : c ∈ t.extra) (hnesting : 200 ≤ c.2.nesting)
    : decode b = .fail .notJson [] := by
  obtain ⟨hwritable, -, hb⟩ := encode_eq_ok_iff.1 h
  have hread : Json.read? payloadDialect (t.json.write Json.Style.canonical) = none := by
    rw [Json.read?_write payloadDialect Json.Style.canonical_separates (json_readable hwritable),
      if_neg]
    intro hle
    have := (nesting_json_le_iff (n := 199) hwritable (by decide)).1 hle c hc
    omega
  unfold decode
  rw [Utf8.decode?_of_encode? hb]
  simp only [Option.bind_eq_bind, Option.bind_some, hread]

/-! ### Equality -/

theorem copy_equals_iff {t : Token} (ht : t.WellFormed) (hwritable : t.IsWritable)
    : t.copy.equals t = true ↔ ∀ c ∈ t.extra, c.2.IsHeldForm := by
  have hassertions : (assertionsValue t.copy.assertions).equals (assertionsValue t.assertions)
      = true := by
    refine (ClaimValue.equals_of_perm_iff (f := ClaimValue.text) (g := ClaimValue.text) (h := id)
      ht.assertions ?_).2 fun a ha => ?_
    . exact (Json.sortMembers_perm t.assertions).trans (List.Perm.of_eq (List.map_id _).symm)
    . rw [id, ClaimValue.equals_text, beq_self_eq_true]
  have hextra : (ClaimValue.readOnly (t.copy.extra.map fun c => (.text c.1, c.2))).equals
        (.readOnly (t.extra.map fun c => (.text c.1, c.2))) = true
      ↔ ∀ c ∈ t.extra, (ClaimValue.ofJson (c.2.thaw.jsonOf false)).freeze.equals c.2 = true := by
    apply ClaimValue.equals_of_perm_iff (f := id) (g := id)
      (h := fun v => (ClaimValue.ofJson (v.thaw.jsonOf false)).freeze) ht.extra
    exact (Json.sortMembers_perm t.extra).map _
  have hsame : t.copy.equals t
      = (ClaimValue.readOnly (t.copy.extra.map fun c => (.text c.1, c.2))).equals
          (.readOnly (t.extra.map fun c => (.text c.1, c.2))) := by
    unfold equals
    rw [hassertions]
    simp [copy]
  rw [hsame, hextra]
  refine forall₂_congr fun c hc => ?_
  exact ClaimValue.freeze_ofJson_equals_iff (ht.distinct c hc)
    (hwritable c (List.mem_append_right _ hc))

end Token

end SignedToken
