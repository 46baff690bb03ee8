import SignedToken.Header

/-!
This module contains the laws of headers: which octets are read as a header, and which headers pass
the checks.
-/

namespace SignedToken

namespace Header

/--
What a header is like whose members stand in nobody's way: a key identifier is a text, critical
names are known and present, and the payload is not kept out of the wire.
-/
structure Admissible (h : Header) : Prop where
  keyId : ∀ x, h.member? "kid" = some x → ∃ t, x = .text t
  critical : ∀ x, h.member? "crit" = some x →
    ∃ names : List Text, names ≠ [] ∧ x = .array (names.map .text) ∧
      ∀ name ∈ names, name = Text.ofString "b64" ∧ (Json.lastMember? name h.members).isSome
  attached : h.member? "b64" ≠ some (.bool false)

theorem checkKeyId_eq_ok_iff {h : Header}
    : h.checkKeyId = .ok () ↔ ∀ x, h.member? "kid" = some x → ∃ t, x = .text t := by
  unfold checkKeyId
  split
  . next hnone => simp [hnone]
  . next t hsome => simp [hsome]
  . next x hne hsome =>
    constructor
    . intro herror
      cases herror
    . intro hall
      obtain ⟨t, rfl⟩ := hall x hsome
      exact absurd rfl (hne t)

theorem exists_texts_iff {P : Text → Prop} {items : List Json}
    : (∃ names : List Text, items = names.map .text ∧ ∀ name ∈ names, P name)
        ↔
      ∀ x ∈ items, ∃ name, x = .text name ∧ P name := by
  constructor
  . rintro ⟨names, rfl, hall⟩
    rw [List.forall_mem_map]
    exact fun name hname => ⟨name, rfl, hall name hname⟩
  . intro hall
    induction items with
    | nil => exact ⟨[], rfl, by simp⟩
    | cons x items ih =>
      rw [List.forall_mem_cons] at hall
      obtain ⟨⟨name, rfl, hname⟩, hrest⟩ := hall
      obtain ⟨names, rfl, hnames⟩ := ih hrest
      exact ⟨name :: names, rfl, List.forall_mem_cons.2 ⟨hname, hnames⟩⟩

theorem checkCriticalNames_eq_ok_iff {h : Header} {items : List Json}
    : h.checkCriticalNames items = .ok ()
        ↔
      ∃ names : List Text, items = names.map .text ∧
        ∀ name ∈ names, name = Text.ofString "b64" ∧ (Json.lastMember? name h.members).isSome := by
  rw [exists_texts_iff]
  fun_induction checkCriticalNames h items with
  | case1 => simp
  | case2 name rest hname =>
    rw [List.forall_mem_cons]
    apply iff_of_false
    . intro herror
      cases herror
    . rintro ⟨⟨n, heq, hknown, -⟩, -⟩
      cases heq
      exact hname hknown
  | case3 name rest hname hmissing =>
    rw [List.forall_mem_cons]
    apply iff_of_false
    . intro herror
      cases herror
    . rintro ⟨⟨n, heq, -, hpresent⟩, -⟩
      cases heq
      rw [Option.isNone_iff_eq_none] at hmissing
      rw [hmissing] at hpresent
      cases hpresent
  | case4 name rest hname hpresent ih =>
    rw [ih, List.forall_mem_cons]
    rw [Bool.not_eq_true, Option.isNone_eq_false_iff] at hpresent
    exact (and_iff_right ⟨name, rfl, Decidable.not_not.1 hname, hpresent⟩).symm
  | case5 items hnil htext =>
    apply iff_of_false
    . intro herror
      cases herror
    . intro hall
      cases items with
      | nil => exact hnil rfl
      | cons x items =>
        obtain ⟨name, rfl, -⟩ := hall x List.mem_cons_self
        exact htext name items rfl

theorem checkCritical_eq_ok_iff {h : Header}
    : h.checkCritical = .ok ()
        ↔
      ∀ x, h.member? "crit" = some x →
        ∃ names : List Text, names ≠ [] ∧ x = .array (names.map .text) ∧
          ∀ name ∈ names, name = Text.ofString "b64" ∧
            (Json.lastMember? name h.members).isSome := by
  unfold checkCritical
  split
  . next hnone => simp [hnone]
  . next item items hsome =>
    rw [checkCriticalNames_eq_ok_iff]
    constructor
    . rintro ⟨names, heq, hall⟩ x hx
      rw [hsome, Option.some_inj] at hx
      subst hx
      refine ⟨names, ?_, by rw [heq], hall⟩
      rintro rfl
      cases heq
    . intro hall
      obtain ⟨names, -, heq, hnames⟩ := hall _ hsome
      injection heq with heq
      exact ⟨names, heq, hnames⟩
  . next x hne hsome =>
    constructor
    . intro herror
      cases herror
    . intro hall
      obtain ⟨names, hnil, rfl, -⟩ := hall x hsome
      cases names with
      | nil => exact absurd rfl hnil
      | cons n names => exact absurd rfl (hne (.text n) (names.map .text))

theorem check_eq_ok_iff {h : Header}
    : h.check = .ok () ↔ h.checkKeyId = .ok () ∧ h.checkCritical = .ok () := by
  unfold check
  cases h.checkKeyId with
  | error e => simp
  | ok u => simp

theorem detachesPayload_eq_false_iff {h : Header}
    : h.detachesPayload = false ↔ h.member? "b64" ≠ some (.bool false) := by
  unfold detachesPayload
  split
  . next hfalse => simp [hfalse]
  . next hne => simpa using hne

theorem admissible_iff {h : Header}
    : h.Admissible ↔ h.check = .ok () ∧ h.detachesPayload = false := by
  rw [check_eq_ok_iff, checkKeyId_eq_ok_iff, checkCritical_eq_ok_iff, detachesPayload_eq_false_iff]
  constructor
  . intro hadm
    exact ⟨⟨hadm.keyId, hadm.critical⟩, hadm.attached⟩
  . rintro ⟨⟨hkey, hcritical⟩, hattached⟩
    exact ⟨hkey, hcritical, hattached⟩

theorem read_eq_ok_iff {octets : Bytes} {payloadEmpty : Bool} {h : Header}
    : read octets payloadEmpty = .ok h
        ↔
      (TextEncoding.decodeDetected? octets >>= Json.read? dialect) = some (.object h.members) ∧
        (h.detachesPayload = false ∨ payloadEmpty = true) := by
  unfold read
  split
  . next hnone => simp [hnone]
  . next members hsome =>
    rw [hsome]
    dsimp only
    split
    . next hdetached =>
      constructor
      . intro herror
        cases herror
      . rintro ⟨heq, hor⟩
        simp only [Option.some_inj, Json.object.injEq] at heq
        subst heq
        simp_all
    . next hattached =>
      constructor
      . intro hok
        cases hok
        refine ⟨rfl, ?_⟩
        revert hattached
        cases detachesPayload ⟨members⟩ <;> cases payloadEmpty <;> simp
      . rintro ⟨heq, -⟩
        simp only [Option.some_inj, Json.object.injEq] at heq
        subst heq
        rfl
  . next x hne hsome =>
    constructor
    . intro herror
      cases herror
    . rintro ⟨heq, -⟩
      rw [hsome, Option.some_inj] at heq
      exact absurd heq (hne h.members)

def Spelled (h : Header) (octets : Bytes) : Prop :=
  (TextEncoding.decodeDetected? octets >>= Json.read? dialect) = some (.object h.members)

theorem Spelled.unique {octets : Bytes} {h k : Header} (hh : h.Spelled octets)
    (hk : k.Spelled octets) : h = k := by
  unfold Spelled at hh hk
  rw [hh] at hk
  cases h
  cases k
  simpa using hk

theorem spelled_of_read {octets : Bytes} {payloadEmpty : Bool} {h : Header}
    (hread : read octets payloadEmpty = .ok h) : h.Spelled octets :=
  (read_eq_ok_iff.1 hread).1

theorem read_eq_read {octets : Bytes}
    (hattached : ∀ h : Header, h.Spelled octets → h.detachesPayload = false) (a b : Bool)
    : read octets a = read octets b := by
  unfold read
  split
  . rfl
  . next members hsome =>
    have hfalse : detachesPayload ⟨members⟩ = false := hattached ⟨members⟩ hsome
    simp only [hfalse, Bool.false_and]
  . rfl

end Header

end SignedToken
