import SignedToken.Proofs.Token.Payload

/-!
This module contains the defects of payloads that no token is decoded from: one for each place where
something is wrong, in the order in which the places are looked at.
-/

namespace SignedToken.Token

open Entries (LastOf)

/-! ### What can be wrong -/

inductive Offence (members : List (Text × Json)) : Defect → Prop where
  | missing : expirationName ∉ members.map (·.1) → Offence members ⟨.missing, [.name expirationName]⟩
  | expiration {x : Json} : LastOf members expirationName x → (∀ n, x ≠ .int n) →
    Offence members ⟨.notInteger, [.name expirationName]⟩
  | username {x : Json} : LastOf members usernameName x → (∀ t, x ≠ .text t) →
    Offence members ⟨.notText, [.name usernameName]⟩
  | groups {x : Json} : LastOf members groupsName x → (∀ items, x ≠ .array items) →
    Offence members ⟨.notSequence, [.name groupsName]⟩
  | group {items : List Json} {i : Nat} {x : Json} : LastOf members groupsName (.array items) →
    items[i]? = some x → (∀ t, x ≠ .text t) →
    Offence members ⟨.notText, [.name groupsName, .index i]⟩
  | assertions {x : Json} : LastOf members assertionsName x → (∀ entries, x ≠ .object entries) →
    Offence members ⟨.notMapping, [.name assertionsName]⟩
  | assertion {entries : List (Text × Json)} {name : Text} {x : Json} :
    LastOf members assertionsName (.object entries) → (name, x) ∈ entries → (∀ t, x ≠ .text t) →
    Offence members ⟨.notText, [.name assertionsName, .name name]⟩

def itemsOf : Option Json → List Json
  | some (.array items) => items
  | _ => []

def entriesOf : Option Json → List (Text × Json)
  | some (.object entries) => entries
  | _ => []

/--
The places in a payload that are looked at for defects: the declared claims in their order, each one
before its elements.
-/
def places (members : List (Text × Json)) : List (List Step) :=
  [[.name expirationName], [.name usernameName], [.name groupsName]]
    ++ (itemsOf (Json.lastMember? groupsName members)).mapIdx
      (fun i _ => [.name groupsName, .index i])
    ++ [[.name assertionsName]]
    ++ (entriesOf (Json.lastMember? assertionsName members)).map
      (fun e => [.name assertionsName, .name e.1])

/--
What a report on the members of a payload is like: it has everything that is wrong, in the order of
the places, and no place twice unless an assertion comes twice.
-/
structure Reports (members : List (Text × Json)) (ds : List Defect) : Prop where
  complete : ∀ d, d ∈ ds ↔ Offence members d
  ordered : (ds.map (·.place)).Sublist (places members)
  once : (∀ entries, LastOf members assertionsName (.object entries) →
    (entries.map (·.1)).Nodup) → (ds.map (·.place)).Nodup

theorem Reports.nodup {members : List (Text × Json)} {ds : List Defect} (h : Reports members ds)
    (hnames : ∀ entries, LastOf members assertionsName (.object entries) → (entries.map (·.1)).Nodup)
    : ds.Nodup :=
  (List.pairwise_map.1 (h.once hnames)).imp fun hne heq => hne (congrArg Defect.place heq)

/-! ### Defects -/

theorem mem_defects_readText_iff {place : List Step} {x : Json} {d : Defect}
    : d ∈ (readText place x).defects ↔ (∀ t, x ≠ .text t) ∧ d = ⟨.notText, place⟩ := by
  cases x <;> simp [readText, Checked.fail, Checked.defects]

theorem mem_defects_readExpiration_iff {x : Option Json} {d : Defect}
    : d ∈ (readExpiration x).defects
        ↔
      x = none ∧ d = ⟨.missing, [.name expirationName]⟩ ∨
        ∃ y, x = some y ∧ (∀ n, y ≠ .int n) ∧ d = ⟨.notInteger, [.name expirationName]⟩ := by
  cases x with
  | none => simp [readExpiration, Checked.fail, Checked.defects]
  | some y => cases y <;> simp [readExpiration, Checked.fail, Checked.defects]

theorem mem_defects_readUsername_iff {x : Option Json} {d : Defect}
    : d ∈ (readUsername x).defects
        ↔
      ∃ y, x = some y ∧ (∀ t, y ≠ .text t) ∧ d = ⟨.notText, [.name usernameName]⟩ := by
  cases x with
  | none => simp [readUsername, Checked.defects]
  | some y => simp [readUsername, mem_defects_readText_iff]

theorem mem_defects_readGroups_iff {x : Option Json} {d : Defect}
    : d ∈ (readGroups x).defects
        ↔
      (∃ y, x = some y ∧ (∀ items, y ≠ .array items) ∧
          d = ⟨.notSequence, [.name groupsName]⟩) ∨
        ∃ (items : List Json) (i : Nat) (y : Json), x = some (.array items) ∧ items[i]? = some y ∧
          (∀ t, y ≠ .text t) ∧ d = ⟨.notText, [.name groupsName, .index i]⟩ := by
  unfold readGroups
  split
  . simp [Checked.defects]
  . simp [Checked.mem_defects_all_mapIdx, mem_defects_readText_iff]
  . next y hy =>
    have hne : ∀ items, y ≠ .array items := hy
    simp [Checked.fail, Checked.defects, hne]

theorem mem_defects_readAssertions_iff {x : Option Json} {d : Defect}
    : d ∈ (readAssertions x).defects
        ↔
      (∃ y, x = some y ∧ (∀ entries, y ≠ .object entries) ∧
          d = ⟨.notMapping, [.name assertionsName]⟩) ∨
        ∃ (entries : List (Text × Json)) (name : Text) (y : Json), x = some (.object entries) ∧
          (name, y) ∈ entries ∧ (∀ t, y ≠ .text t) ∧
            d = ⟨.notText, [.name assertionsName, .name name]⟩ := by
  unfold readAssertions
  split
  . simp [Checked.defects]
  . simp [Checked.defects_map, Checked.mem_defects_all_map, readAssertion,
      mem_defects_readText_iff]
  . next y hy =>
    have hne : ∀ entries, y ≠ .object entries := hy
    simp [Checked.fail, Checked.defects, hne]

theorem mem_defects_readDeclared_iff {members : List (Text × Json)} {d : Defect}
    : d ∈ (readDeclared members).defects ↔ Offence members d := by
  simp only [readDeclared, Checked.defects_both, List.mem_append, mem_defects_readExpiration_iff,
    mem_defects_readUsername_iff, mem_defects_readGroups_iff, mem_defects_readAssertions_iff,
    Json.lastMember?_eq_some_iff, Json.lastMember?_eq_none_iff]
  constructor
  . rintro ((⟨h, rfl⟩ | ⟨x, hx, h, rfl⟩) | ⟨x, hx, h, rfl⟩ |
      (⟨x, hx, h, rfl⟩ | ⟨items, i, x, hx, hi, h, rfl⟩) |
      ⟨x, hx, h, rfl⟩ | ⟨entries, name, x, hx, he, h, rfl⟩)
    . exact .missing h
    . exact .expiration hx h
    . exact .username hx h
    . exact .groups hx h
    . exact .group hx hi h
    . exact .assertions hx h
    . exact .assertion hx he h
  . intro h
    cases h with
    | missing h => exact .inl (.inl ⟨h, rfl⟩)
    | expiration hx h => exact .inl (.inr ⟨_, hx, h, rfl⟩)
    | username hx h => exact .inr (.inl ⟨_, hx, h, rfl⟩)
    | groups hx h => exact .inr (.inr (.inl (.inl ⟨_, hx, h, rfl⟩)))
    | group hx hi h => exact .inr (.inr (.inl (.inr ⟨_, _, _, hx, hi, h, rfl⟩)))
    | assertions hx h => exact .inr (.inr (.inr (.inl ⟨_, hx, h, rfl⟩)))
    | assertion hx he h => exact .inr (.inr (.inr (.inr ⟨_, _, _, hx, he, h, rfl⟩)))

/-! ### Places -/

theorem sublist_readText (place : List Step) (x : Json)
    : ((readText place x).defects.map (·.place)).Sublist [place] := by
  cases x <;> simp [readText, Checked.fail, Checked.defects]

theorem sublist_readExpiration (x : Option Json)
    : ((readExpiration x).defects.map (·.place)).Sublist [[.name expirationName]] := by
  unfold readExpiration
  split <;> simp [Checked.fail, Checked.defects]

theorem sublist_readUsername (x : Option Json)
    : ((readUsername x).defects.map (·.place)).Sublist [[.name usernameName]] := by
  cases x with
  | none => exact List.nil_sublist _
  | some y => exact sublist_readText _ y

theorem sublist_readGroups (x : Option Json)
    : ((readGroups x).defects.map (·.place)).Sublist
        ([.name groupsName] :: (itemsOf x).mapIdx fun i _ => [.name groupsName, .index i]) := by
  unfold readGroups
  split
  . exact List.nil_sublist _
  . exact (Checked.sublist_defects_all_mapIdx (fun i => sublist_readText _) _).cons _
  . exact List.singleton_sublist.2 List.mem_cons_self

theorem sublist_readAssertions (x : Option Json)
    : ((readAssertions x).defects.map (·.place)).Sublist
        ([.name assertionsName]
          :: (entriesOf x).map fun e => [.name assertionsName, .name e.1]) := by
  have hentry : ∀ e : Text × Json, ((readAssertion e).defects.map (·.place)).Sublist
      [[.name assertionsName, .name e.1]] := by
    intro e
    rw [readAssertion, Checked.defects_map]
    exact sublist_readText _ e.2
  unfold readAssertions
  split
  . exact List.nil_sublist _
  . rw [Checked.defects_map]
    exact (Checked.sublist_defects_all_map hentry _).cons _
  . exact List.singleton_sublist.2 List.mem_cons_self

theorem sublist_places (members : List (Text × Json))
    : ((readDeclared members).defects.map (·.place)).Sublist (places members) := by
  simp only [readDeclared, Checked.defects_both, List.map_append, places, List.append_assoc]
  exact (sublist_readExpiration _).append ((sublist_readUsername _).append
    ((sublist_readGroups _).append (sublist_readAssertions _)))

theorem nodup_places {members : List (Text × Json)}
    (h : ∀ entries, LastOf members assertionsName (.object entries) → (entries.map (·.1)).Nodup)
    : (places members).Nodup := by
  have hitems : ((itemsOf (Json.lastMember? groupsName members)).mapIdx
      fun i _ => [Step.name groupsName, .index i]).Nodup := by
    rw [List.Nodup, List.pairwise_iff_getElem]
    intro i j hi hj hlt
    simp only [List.getElem_mapIdx, ne_eq, List.cons.injEq, Step.index.injEq, true_and, and_true]
    omega
  have hnames : ((entriesOf (Json.lastMember? assertionsName members)).map (·.1)).Nodup := by
    unfold entriesOf
    split
    . next entries hentries => exact h entries (Json.lastMember?_eq_some_iff.1 hentries)
    . exact List.nodup_nil
  have hentries : ((entriesOf (Json.lastMember? assertionsName members)).map
      fun e => [Step.name assertionsName, .name e.1]).Nodup := by
    rw [List.Nodup, List.pairwise_map] at hnames ⊢
    exact hnames.imp fun hne heq => hne (by simpa using heq)
  have hdeclared : ([[.name expirationName], [.name usernameName], [.name groupsName]]
      : List (List Step)).Nodup := by decide
  have hclaims : ([.name assertionsName] : List Step)
      ∉ [[.name expirationName], [.name usernameName], [.name groupsName]] := by decide
  have hne : assertionsName ≠ groupsName := by decide
  -- Elements have two steps and claims have one, and elements of the two kinds differ in the first.
  simp only [places, List.nodup_append]
  refine ⟨⟨⟨hdeclared, hitems, ?_⟩, List.pairwise_singleton _ _, ?_⟩, hentries, ?_⟩
  . rintro p hp q hq rfl
    obtain ⟨i, hi, rfl⟩ := List.mem_mapIdx.1 hq
    simp at hp
  . rintro p hp q hq rfl
    rw [List.mem_singleton.1 hq, List.mem_append] at hp
    exact hp.elim hclaims (by simp)
  . rintro p hp q hq rfl
    obtain ⟨e, he, rfl⟩ := List.mem_map.1 hq
    simp [hne.symm] at hp

/-! ### Payloads decoded -/

theorem reports_of_readDeclared {members : List (Text × Json)} {ds : List Defect}
    (h : readDeclared members = .error ds) : Reports members ds := by
  rw [← Checked.eq_error_defects h]
  exact ⟨fun _ => mem_defects_readDeclared_iff, sublist_places members,
    fun hnames => (nodup_places hnames).sublist (sublist_places members)⟩

theorem reports_of_ofMembers {members : List (Text × Json)} {ds : List Defect}
    (hmembers : (Json.object members).IsReceived 200) (h : ofMembers members = .error ds)
    : Reports members ds := by
  rw [ofMembers_eq hmembers, Outcome.map_eq_error_iff] at h
  exact reports_of_readDeclared h

/--
A token is decoded just from JSON objects that conform to the schema, and it carries what is in them.
Of other objects everything that is wrong is reported, and of anything else that it is none.
-/
theorem exists_decode_iff_conforms (data : Bytes)
    : ((∃ t, decode data = .ok t)
          ↔
        ∃ members, readPayload? data = some (.object members) ∧ Conforms members) ∧
      (∀ members, readPayload? data = some (.object members) →
        (∀ t, decode data = .ok t → Carries members t) ∧
        ∀ ds, decode data = .error ds → Reports members ds) ∧
      (∀ j, readPayload? data = some j → (∀ members, j ≠ .object members) →
        decode data = .error [⟨.notObject, []⟩]) ∧
      (readPayload? data = none → decode data = .error [⟨.notJson, []⟩]) := by
  refine ⟨?_, ?_, ?_, ?_⟩
  . constructor
    . rintro ⟨t, ht⟩
      obtain ⟨members, hread, ht⟩ := decode_eq_ok ht
      exact ⟨members, hread, (exists_ofMembers_iff (isReceived_of_readPayload? hread)).1 ⟨t, ht⟩⟩
    . rintro ⟨members, hread, hconforms⟩
      rw [decode_of_object hread]
      exact (exists_ofMembers_iff (isReceived_of_readPayload? hread)).2 hconforms
  . intro members hread
    have hmembers := isReceived_of_readPayload? hread
    rw [decode_of_object hread]
    exact ⟨fun _ => carries_of_ofMembers hmembers, fun _ => reports_of_ofMembers hmembers⟩
  . intro j hread hnot
    rw [readPayload?] at hread
    rw [decode, hread]
    split
    . next heq => cases heq
    . next members heq => exact absurd (Option.some_inj.1 heq) (hnot members)
    . rfl
  . intro hread
    rw [readPayload?] at hread
    rw [decode, hread]
    rfl

end SignedToken.Token
