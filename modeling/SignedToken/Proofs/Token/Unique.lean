import SignedToken.Proofs.Claim.Alike
import SignedToken.Proofs.Token.Copy

/-!
This module contains what the encoding of a token says about the token. Two tokens are encoded alike
just if they are equal and their numbers are written alike, so an encoding stands for one token, and a
token without numbers in its extra claims has one encoding.
-/

namespace SignedToken

namespace ClaimValue

theorem int_equals (m n : Int) : (int m).equals (int n) = (m == n) := by
  simp [equals, number?, sameNumber]

theorem tuple_texts_equals (ss ts : List Text)
    : (tuple (ss.map text)).equals (tuple (ts.map text)) = (ss == ts) := by
  rw [equals]
  induction ss generalizing ts with
  | nil => cases ts <;> rfl
  | cons s ss ih =>
    cases ts with
    | nil => rfl
    | cons t ts => rw [List.map_cons, List.map_cons, equalItems, equals_text, ih, List.cons_beq_cons]

end ClaimValue

namespace Token

variable {t u : Token}

def heldValues (t : Token) : ClaimValue :=
  .readOnly (t.heldClaims.map fun c => (.text c.1, c.2))

theorem toJson_heldValues_eq_ok_iff {j : Json}
    : t.heldValues.thaw.toJson false = .ok j ↔ t.IsWritable ∧ j = t.json := by
  have hthaw : t.heldValues.thaw = t.claimsValue := by
    rw [heldValues, ClaimValue.thaw, ClaimValue.thawEntries_eq_map, claimsValue, claims, List.map_map,
      List.map_map]
    rfl
  rw [hthaw, toJson_claimsValue_eq_ok_iff]

/-! ### Equal tokens -/

theorem exists_declared_iff (hu : u.WellFormed) {v : ClaimValue} {d : Text × ClaimValue}
    (hd : d ∈ u.heldClaims)
    : (∃ d' ∈ u.heldClaims, d.1 = d'.1 ∧ v.equals d'.2 = true) ↔ v.equals d.2 = true := by
  constructor
  . rintro ⟨d', hd', hname, hequals⟩
    rwa [Entries.eq_of_mem_of_nodup (nodup_heldClaims hu) hd hd' hname]
  . exact fun hequals => ⟨d, hd, rfl, hequals⟩

theorem exists_undeclared_iff {c : Text × ClaimValue} (hc : c.1 ∉ declaredNames)
    : (∃ d ∈ u.heldClaims, c.1 = d.1 ∧ c.2.equals d.2 = true)
        ↔
      ∃ d ∈ u.extra, c.1 = d.1 ∧ c.2.equals d.2 = true := by
  constructor
  . rintro ⟨d, hd, hname, hequals⟩
    refine ⟨d, (List.mem_append.1 hd).resolve_left fun hdeclared => hc ?_, hname, hequals⟩
    rw [hname]
    exact List.mem_map_of_mem (f := (·.1)) hdeclared
  . rintro ⟨d, hd, hsame⟩
    exact ⟨d, List.mem_append_right _ hd, hsame⟩

theorem heldValues_equals_iff (ht : t.WellFormed) (hu : u.WellFormed)
    : t.heldValues.equals u.heldValues = true ↔ t.equals u = true := by
  have hexpiration := exists_declared_iff hu (v := .int t.expiration)
    (d := (expirationName, .int u.expiration)) (by simp [heldClaims])
  have husername := exists_declared_iff hu (v := .text t.username)
    (d := (usernameName, .text u.username)) (by simp [heldClaims])
  have hgroups := exists_declared_iff hu (v := .tuple (t.groups.map .text))
    (d := (groupsName, .tuple (u.groups.map .text))) (by simp [heldClaims])
  have hassertions := exists_declared_iff hu (v := assertionsValue t.assertions)
    (d := (assertionsName, assertionsValue u.assertions)) (by simp [heldClaims])
  have hextra : (∀ c ∈ t.extra, ∃ d ∈ u.heldClaims, c.1 = d.1 ∧ c.2.equals d.2 = true)
      ↔ ∀ c ∈ t.extra, ∃ d ∈ u.extra, c.1 = d.1 ∧ c.2.equals d.2 = true :=
    forall₂_congr fun c hc => exists_undeclared_iff (ht.undeclared c hc)
  have hlength : t.heldClaims.length = u.heldClaims.length ↔ t.extra.length = u.extra.length := by
    simp [heldClaims]
  rw [heldValues, heldValues, ClaimValue.texts_equals_texts_iff, forall_mem_heldClaims, hexpiration,
    husername, hgroups, hassertions, hextra, hlength, ClaimValue.int_equals, ClaimValue.equals_text,
    ClaimValue.tuple_texts_equals, equals]
  simp only [Bool.and_eq_true, ClaimValue.texts_equals_texts_iff]
  constructor
  . rintro ⟨hlen, ⟨he, hn, hg, ha⟩, hx⟩
    exact ⟨⟨⟨⟨he, hn⟩, hg⟩, ha⟩, hlen, hx⟩
  . rintro ⟨⟨⟨⟨he, hn⟩, hg⟩, ha⟩, hlen, hx⟩
    exact ⟨hlen, ⟨he, hn, hg, ha⟩, hx⟩

/-! ### Form -/

theorem isHeldForm_heldValues (h : ∀ c ∈ t.extra, c.2.IsHeldForm) : t.heldValues.IsHeldForm := by
  have hgroups : (ClaimValue.tuple (t.groups.map .text)).IsHeldForm := by
    rw [ClaimValue.isHeldForm_tuple_iff, List.forall_mem_map]
    rintro g hg _ (_ | _)
    trivial
  have hassertions : (assertionsValue t.assertions).IsHeldForm := by
    rw [assertionsValue, ClaimValue.isHeldForm_readOnly_iff, List.forall_mem_map]
    refine fun a ha => ⟨⟨a.1, rfl⟩, ?_⟩
    rintro _ (_ | _)
    trivial
  rw [heldValues, ClaimValue.isHeldForm_readOnly_iff, List.forall_mem_map]
  refine fun c hc => ⟨⟨c.1, rfl⟩, ?_⟩
  revert c
  rw [forall_mem_heldClaims]
  refine ⟨⟨?_, ?_, hgroups, hassertions⟩, h⟩
  . rintro _ (_ | _)
    trivial
  . rintro _ (_ | _)
    trivial

theorem hasDistinctKeys_heldValues (ht : t.WellFormed) : t.heldValues.HasDistinctKeys := by
  have hgroups : (ClaimValue.tuple (t.groups.map .text)).HasDistinctKeys := by
    rw [ClaimValue.hasDistinctKeys_tuple_iff, List.forall_mem_map]
    rintro g hg _ (_ | _)
    trivial
  have hassertions : (assertionsValue t.assertions).HasDistinctKeys := by
    rw [assertionsValue, ClaimValue.hasDistinctKeys_readOnly_iff, List.forall_mem_map]
    refine ⟨ClaimValue.distinct_texts_iff.2 ht.assertions, fun a ha => ?_⟩
    rintro _ (_ | _)
    trivial
  rw [heldValues, ClaimValue.hasDistinctKeys_readOnly_iff, List.forall_mem_map]
  refine ⟨(ClaimValue.distinct_texts_iff (f := id)).2 (nodup_heldClaims ht), ?_⟩
  rw [forall_mem_heldClaims]
  refine ⟨⟨?_, ?_, hgroups, hassertions⟩, ht.distinct⟩
  . rintro _ (_ | _)
    trivial
  . rintro _ (_ | _)
    trivial

/-! ### Encodings -/

theorem encoding_eq_iff {b c : Bytes} (hb : t.encode = .ok b) (hc : u.encode = .ok c)
    : b = c ↔ t.json = u.json := by
  obtain ⟨ht, -, htext⟩ := encode_eq_ok_iff.1 hb
  obtain ⟨hu, -, htext'⟩ := encode_eq_ok_iff.1 hc
  constructor
  . rintro rfl
    have hsame : t.json.write Json.Style.canonical = u.json.write Json.Style.canonical :=
      Option.some_inj.1 ((Utf8.decode?_of_encode? htext).symm.trans (Utf8.decode?_of_encode? htext'))
    exact Json.write_inj Json.Style.canonical_separates (json_readable ht) (json_readable hu) hsame
  . intro hjson
    rw [hjson, htext'] at htext
    exact (Option.some_inj.1 htext).symm

/--
Two tokens whose extra claims have the form of claims that were read are encoded alike just if they are
equal and their numbers are written alike, one after the other.
-/
theorem encoding_eq_iff_equals {b c : Bytes} (ht : t.WellFormed) (hu : u.WellFormed)
    (htform : ∀ x ∈ t.extra, x.2.IsHeldForm) (huform : ∀ x ∈ u.extra, x.2.IsHeldForm)
    (hb : t.encode = .ok b) (hc : u.encode = .ok c)
    : b = c ↔ t.equals u = true ∧ t.json.numbers = u.json.numbers := by
  have hjson := toJson_heldValues_eq_ok_iff.2 ⟨(encode_eq_ok_iff.1 hb).1, rfl⟩
  have hjson' := toJson_heldValues_eq_ok_iff.2 ⟨(encode_eq_ok_iff.1 hc).1, rfl⟩
  rw [encoding_eq_iff hb hc, ← heldValues_equals_iff ht hu]
  exact ClaimValue.jsonOf_eq_iff (hasDistinctKeys_heldValues ht) (hasDistinctKeys_heldValues hu)
    (isHeldForm_heldValues htform) (isHeldForm_heldValues huform) hjson hjson'

section Numbers

variable {v : ClaimValue} (hv : v.number?.isSome = true)

include hv

theorem eq_of_within_number {x : ClaimValue} (hx : ClaimValue.Within x v) : x = v := by
  cases hx with
  | self => rfl
  | _ => cases hv

theorem isHeldForm_of_number : v.IsHeldForm := by
  intro x hx
  rw [eq_of_within_number hv hx]
  cases v <;> trivial

theorem hasDistinctKeys_of_number : v.HasDistinctKeys := by
  intro x hx
  rw [eq_of_within_number hv hx]
  cases v <;> trivial

omit hv

theorem wellFormed_of_numbers {extra : List (Text × ClaimValue)} (hnodup : (extra.map (·.1)).Nodup)
    (hname : ∀ c ∈ extra, c.1 ∉ declaredNames) (h : ∀ c ∈ extra, c.2.number?.isSome = true)
    : (Token.mk 1 [] [] [] extra).WellFormed where
  assertions := List.nodup_nil
  extra := hnodup
  undeclared := hname
  distinct := fun c hc => hasDistinctKeys_of_number (h c hc)

theorem exists_encode_of_numbers (extra : List (Text × ClaimValue))
    (hname : ∀ c ∈ extra, c.1.any CodePoint.isSurrogate = false)
    (h : ∀ c ∈ extra, c.2 = .int 1 ∨ c.2 = .bool true)
    : ∃ b, (Token.mk 1 [] [] [] extra).encode = .ok b := by
  have hone : hasNumeral 1 = true := Text.hasNumeral_iff.2 (by decide)
  apply exists_encode_of_extra
  intro c hc
  refine ⟨hname c hc, ?_⟩
  cases h c hc with
  | inl heq =>
    rw [heq]
    refine ⟨by decide, .int 1, ClaimValue.toJson_int_eq_ok_iff.2 ⟨hone, rfl⟩, ?_⟩
    rintro _ (_ | _)
    trivial
  | inr heq =>
    rw [heq]
    refine ⟨by decide, .bool true, rfl, ?_⟩
    rintro _ (_ | _)
    trivial

end Numbers

theorem encoding_eq_of_swap
    : ∃ t u b c,
        ofClaims [(expirationName, .int 1), (Text.ofString "x", .int 1),
          (Text.ofString "y", .bool true)] = .ok t ∧
        ofClaims [(expirationName, .int 1), (Text.ofString "y", .bool true),
          (Text.ofString "x", .int 1)] = .ok u ∧
        t.encode = .ok b ∧ u.encode = .ok c ∧ b = c := by
  have hwellFormed :
      (Token.mk 1 [] [] [] [(Text.ofString "x", .int 1), (Text.ofString "y", .bool true)]).WellFormed :=
    wellFormed_of_numbers (by decide) (by decide) (by decide)
  have hwellFormed' :
      (Token.mk 1 [] [] [] [(Text.ofString "y", .bool true), (Text.ofString "x", .int 1)]).WellFormed :=
    wellFormed_of_numbers (by decide) (by decide) (by decide)
  obtain ⟨b, hb⟩ := exists_encode_of_numbers
    [(Text.ofString "x", .int 1), (Text.ofString "y", .bool true)] (by decide) (by simp)
  obtain ⟨c, hc⟩ := exists_encode_of_numbers
    [(Text.ofString "y", .bool true), (Text.ofString "x", .int 1)] (by decide) (by simp)
  refine ⟨_, _, b, c, rfl, rfl, hb, hc, ?_⟩
  refine (encoding_eq_iff_equals hwellFormed hwellFormed' ?_ ?_ hb hc).2 ⟨by decide, ?_⟩
  . simp only [List.forall_mem_cons]
    exact ⟨isHeldForm_of_number rfl, isHeldForm_of_number rfl, by simp⟩
  . simp only [List.forall_mem_cons]
    exact ⟨isHeldForm_of_number rfl, isHeldForm_of_number rfl, by simp⟩
  . have hperm :
        (Token.mk 1 [] [] [] [(Text.ofString "x", .int 1), (Text.ofString "y", .bool true)]).heldClaims.Perm
        (Token.mk 1 [] [] [] [(Text.ofString "y", .bool true), (Text.ofString "x", .int 1)]).heldClaims :=
      List.Perm.append_left _ (List.Perm.swap _ _ [])
    exact congrArg Json.numbers (json_eq_of_perm hwellFormed (hperm.map _))

theorem exists_encoding_ne
    : ∃ t u b c,
        ofClaims [(expirationName, .int 1), (Text.ofString "x", .int 1)] = .ok t ∧
        ofClaims [(expirationName, .int 1), (Text.ofString "x", .bool true)] = .ok u ∧
        t.encode = .ok b ∧ u.encode = .ok c ∧ t.equals u = true ∧ b ≠ c := by
  have hwellFormed : (Token.mk 1 [] [] [] [(Text.ofString "x", .int 1)]).WellFormed :=
    wellFormed_of_numbers (by decide) (by decide) (by decide)
  have hwellFormed' : (Token.mk 1 [] [] [] [(Text.ofString "x", .bool true)]).WellFormed :=
    wellFormed_of_numbers (by decide) (by decide) (by decide)
  obtain ⟨b, hb⟩ := exists_encode_of_numbers [(Text.ofString "x", .int 1)] (by decide) (by simp)
  obtain ⟨c, hc⟩ := exists_encode_of_numbers [(Text.ofString "x", .bool true)] (by decide) (by simp)
  refine ⟨_, _, b, c, rfl, rfl, hb, hc, by decide, ?_⟩
  rw [Ne, encoding_eq_iff hb hc, json, json, Json.object.injEq]
  intro hmembers
  have hint : (ClaimValue.int 1).thaw.jsonOf false = .int 1 :=
    ClaimValue.jsonOf_eq (ClaimValue.toJson_int_eq_ok_iff.2 ⟨Text.hasNumeral_iff.2 (by decide), rfl⟩)
  have hleft := lastMember?_members hwellFormed (c := (Text.ofString "x", .int 1))
    (by simp [heldClaims])
  have hright := lastMember?_members hwellFormed' (c := (Text.ofString "x", .bool true))
    (by simp [heldClaims])
  rw [hmembers, hright, hint] at hleft
  cases hleft

end Token

end SignedToken
