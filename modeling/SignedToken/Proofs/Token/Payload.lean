import SignedToken.Proofs.Token.Received

/-!
This module contains what the payloads are like that tokens are decoded from, and which token each of
them gives.
-/

namespace SignedToken.Token

open Entries (LastOf)

/-! ### The schema -/

structure Conforms (members : List (Text × Json)) : Prop where
  expiration : ∃ n, LastOf members expirationName (.int n)
  username : ∀ x, LastOf members usernameName x → ∃ t, x = .text t
  groups : ∀ x, LastOf members groupsName x → ∃ ts : List Text, x = .array (ts.map .text)
  assertions : ∀ x, LastOf members assertionsName x →
    ∃ as : List (Text × Text), x = .object (as.map fun a => (a.1, .text a.2))

/--
What the token of a payload has from its members. Declared claims that are absent are empty, and
every other member is an extra claim.
-/
structure Carries (members : List (Text × Json)) (t : Token) : Prop where
  expiration : LastOf members expirationName (.int t.expiration)
  username : LastOf members usernameName (.text t.username) ∨
    usernameName ∉ members.map (·.1) ∧ t.username = []
  groups : LastOf members groupsName (.array (t.groups.map .text)) ∨
    groupsName ∉ members.map (·.1) ∧ t.groups = []
  assertions :
    (∃ as : List (Text × Text),
      LastOf members assertionsName (.object (as.map fun a => (a.1, .text a.2))) ∧
        ∀ name value, (name, value) ∈ t.assertions ↔ LastOf as name value) ∨
      assertionsName ∉ members.map (·.1) ∧ t.assertions = []
  assertionNames : (t.assertions.map (·.1)).Nodup
  extra : ∀ name v, (name, v) ∈ t.extra
    ↔
      name ∉ declaredNames ∧ ∃ x, LastOf members name x ∧ v = (ClaimValue.ofJson x).freeze
  extraNames : (t.extra.map (·.1)).Nodup

/-! ### Declared claims read -/

theorem readUsername_eq_ok_iff {x : Option Json} {t : Text}
    : readUsername x = .ok t ↔ x = some (.text t) ∨ x = none ∧ t = [] := by
  cases x with
  | none => simp [readUsername, eq_comm]
  | some y => simp [readUsername, readText_eq_ok_iff]

theorem readGroups_eq_ok_iff {x : Option Json} {groups : List Text}
    : readGroups x = .ok groups ↔ x = some (.array (groups.map .text)) ∨ x = none ∧ groups = [] := by
  unfold readGroups
  split
  . simp [eq_comm]
  . simp [Checked.all_mapIdx_eq_ok_iff fun _ _ _ => readText_eq_ok_iff]
  . next y hy =>
    simpa [Checked.fail] using fun heq => hy _ heq

theorem readAssertion_eq_ok_iff {m : Text × Json} {a : Text × Text}
    : readAssertion m = .ok a ↔ m = (a.1, .text a.2) := by
  rw [readAssertion, Outcome.map_eq_ok_iff]
  simp only [readText_eq_ok_iff]
  constructor
  . rintro ⟨t, hvalue, rfl⟩
    rw [← hvalue]
  . rintro rfl
    exact ⟨a.2, rfl, rfl⟩

theorem readAssertions_eq_ok_iff {x : Option Json} {assertions : List (Text × Text)}
    : readAssertions x = .ok assertions
        ↔
      (∃ as : List (Text × Text), x = some (.object (as.map fun a => (a.1, .text a.2))) ∧
        Entries.ofList (· == ·) as = assertions) ∨ x = none ∧ assertions = [] := by
  unfold readAssertions
  split
  . simp [eq_comm]
  . next members =>
    simp [Outcome.map_eq_ok_iff, Checked.map_eq_mapIdx,
      Checked.all_mapIdx_eq_ok_iff fun _ _ _ => readAssertion_eq_ok_iff]
  . next y hy =>
    simpa [Checked.fail] using fun as heq => absurd heq (hy _)

def readDeclared (members : List (Text × Json))
    : Checked (Int × Text × List Text × List (Text × Text)) :=
  .both (readExpiration (Json.lastMember? expirationName members))
    (.both (readUsername (Json.lastMember? usernameName members))
      (.both (readGroups (Json.lastMember? groupsName members))
        (readAssertions (Json.lastMember? assertionsName members))))

theorem exists_readUsername_iff {x : Option Json}
    : (∃ t, readUsername x = .ok t) ↔ ∀ y, x = some y → ∃ t, y = .text t := by
  simp only [readUsername_eq_ok_iff]
  cases x <;> simp

theorem exists_readGroups_iff {x : Option Json}
    : (∃ groups, readGroups x = .ok groups)
        ↔
      ∀ y, x = some y → ∃ ts : List Text, y = .array (ts.map .text) := by
  simp only [readGroups_eq_ok_iff]
  cases x <;> simp

theorem exists_readAssertions_iff {x : Option Json}
    : (∃ assertions, readAssertions x = .ok assertions)
        ↔
      ∀ y, x = some y → ∃ as : List (Text × Text), y = .object (as.map fun a => (a.1, .text a.2)) := by
  simp only [readAssertions_eq_ok_iff]
  cases x with
  | none => simp
  | some y =>
    simp only [Option.some_inj, reduceCtorEq, false_and, or_false, forall_eq']
    exact ⟨fun ⟨_, as, has, _⟩ => ⟨as, has⟩, fun ⟨as, has⟩ => ⟨_, as, has, rfl⟩⟩

theorem exists_readDeclared_iff (members : List (Text × Json))
    : (∃ declared, readDeclared members = .ok declared) ↔ Conforms members := by
  simp only [readDeclared, Prod.exists, Checked.both_eq_ok_iff, exists_and_left, exists_and_right,
    readExpiration_eq_ok_iff, exists_readUsername_iff, exists_readGroups_iff,
    exists_readAssertions_iff, Json.lastMember?_eq_some_iff]
  constructor
  . rintro ⟨hexpiration, husername, hgroups, hassertions⟩
    exact ⟨hexpiration, husername, hgroups, hassertions⟩
  . rintro ⟨hexpiration, husername, hgroups, hassertions⟩
    exact ⟨hexpiration, husername, hgroups, hassertions⟩

/-! ### Members carried -/

theorem lastOf_extraOf_iff {members : List (Text × Json)} {name : Text} {x : Json}
    : LastOf (extraOf members) name x ↔ LastOf members name x ∧ name ∉ declaredNames := by
  have hfilter : LastOf (members.filter fun m => !declaredNames.contains m.1) name x ↔ _ :=
    Entries.lastOf_filter_iff (p := fun n => !declaredNames.contains n)
  exact hfilter.trans (by simp)

theorem mem_readExtra_iff {members : List (Text × Json)} {name : Text} {v : ClaimValue}
    : (name, v) ∈ readExtra members
        ↔
      name ∉ declaredNames ∧ ∃ x, LastOf members name x ∧ v = .ofJson x := by
  rw [readExtra, Entries.mem_ofList_iff, Entries.lastOf_map_iff]
  simp only [lastOf_extraOf_iff]
  constructor
  . rintro ⟨x, ⟨hx, hname⟩, hv⟩
    exact ⟨hname, x, hx, hv⟩
  . rintro ⟨hname, x, hx, hv⟩
    exact ⟨x, ⟨hx, hname⟩, hv⟩

theorem carries_of_readDeclared {members : List (Text × Json)} {t : Token}
    (h : readDeclared members = .ok (t.expiration, t.username, t.groups, t.assertions))
    (hextra : t.extra = (readExtra members).map fun c => (c.1, c.2.freeze)) : Carries members t := by
  simp only [readDeclared, Checked.both_eq_ok_iff, readExpiration_eq_ok_iff,
    readUsername_eq_ok_iff, readGroups_eq_ok_iff, Json.lastMember?_eq_some_iff,
    Json.lastMember?_eq_none_iff] at h
  obtain ⟨hexpiration, husername, hgroups, hassertions⟩ := h
  refine ⟨hexpiration, husername, hgroups, ?_, nodup_readAssertions hassertions, ?_, ?_⟩
  . rw [readAssertions_eq_ok_iff, Json.lastMember?_eq_none_iff] at hassertions
    refine hassertions.imp_left ?_
    rintro ⟨as, has, hput⟩
    refine ⟨as, Json.lastMember?_eq_some_iff.1 has, fun name value => ?_⟩
    rw [← hput, Entries.mem_ofList_iff]
  . intro name v
    rw [hextra, List.mem_map, Prod.exists]
    simp only [Prod.mk.injEq, mem_readExtra_iff]
    constructor
    . rintro ⟨_, _, ⟨hname, x, hx, rfl⟩, rfl, rfl⟩
      exact ⟨hname, x, hx, rfl⟩
    . rintro ⟨hname, x, hx, rfl⟩
      exact ⟨_, _, ⟨hname, x, hx, rfl⟩, rfl, rfl⟩
  . rw [hextra, List.map_map]
    exact Entries.nodup_ofList _

theorem ofMembers_eq {members : List (Text × Json)} (hmembers : (Json.object members).IsReceived 200)
    : ofMembers members
        =
      (readDeclared members).map fun (expiration, username, groups, assertions) =>
        { expiration, username, groups, assertions,
          extra := (readExtra members).map fun c => (c.1, c.2.freeze) } := by
  have hextra := holdExtras_readExtra hmembers
  rw [ofMembers, ofChecked, ← readDeclared, ← readExtra, hextra]
  cases readDeclared members <;> rfl

theorem carries_of_ofMembers {members : List (Text × Json)} {t : Token}
    (hmembers : (Json.object members).IsReceived 200) (h : ofMembers members = .ok t)
    : Carries members t := by
  rw [ofMembers_eq hmembers, Outcome.map_eq_ok_iff] at h
  obtain ⟨declared, hdeclared, rfl⟩ := h
  exact carries_of_readDeclared hdeclared rfl

theorem exists_ofMembers_iff {members : List (Text × Json)}
    (hmembers : (Json.object members).IsReceived 200)
    : (∃ t, ofMembers members = .ok t) ↔ Conforms members := by
  rw [← exists_readDeclared_iff, ofMembers_eq hmembers]
  cases readDeclared members <;> simp [Except.map]

end SignedToken.Token
