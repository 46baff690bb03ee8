import SignedToken.Proofs.Claim.Equal
import SignedToken.Proofs.Claim.Jsonable
import SignedToken.Proofs.Outcome
import SignedToken.Token.Schema

/-!
This module contains what tokens are like however they were built: no name comes twice, and no extra
claim has the name of a declared one.
-/

namespace SignedToken

namespace Token

theorem ofChecked_eq_ok_iff {expiration : Checked Int} {username : Checked Text}
    {groups : Checked (List Text)} {assertions : Checked (List (Text × Text))}
    {extra : List (Text × ClaimValue)} {t : Token}
    : ofChecked expiration username groups assertions extra = .ok t
        ↔
      expiration = .ok t.expiration ∧ username = .ok t.username ∧ groups = .ok t.groups ∧
        assertions = .ok t.assertions ∧ holdExtras extra = .ok t.extra := by
  unfold ofChecked
  constructor
  . intro h
    split at h
    . cases h
    . next e u g a hboth =>
      simp only [Checked.both_eq_ok_iff] at hboth
      obtain ⟨held, hextra, rfl⟩ := Outcome.map_eq_ok_iff.1 h
      exact ⟨hboth.1, hboth.2.1, hboth.2.2.1, hboth.2.2.2, hextra⟩
  . rintro ⟨rfl, rfl, rfl, rfl, hextra⟩
    rw [hextra]
    rfl

/-! ### Extra claims -/

def heldValue (v : ClaimValue) : ClaimValue :=
  (holdExtra v).toOption.getD .null

theorem heldValue_eq {v w : ClaimValue} (h : holdExtra v = .ok w) : heldValue v = w := by
  rw [heldValue, h]
  rfl

theorem holdExtras_eq_ok_iff {claims held : List (Text × ClaimValue)}
    : holdExtras claims = .ok held
        ↔
      (∀ c ∈ claims, holdExtra c.2 = .ok (heldValue c.2)) ∧
        held = claims.map fun c => (c.1, heldValue c.2) := by
  induction claims generalizing held with
  | nil => simp [holdExtras, eq_comm]
  | cons c cs ih =>
    rw [holdExtras, List.forall_mem_cons, List.map_cons]
    constructor
    . intro h
      split at h
      . cases h
      . next v hv =>
        split at h
        . cases h
        . next held' hheld =>
          cases h
          obtain ⟨hall, rfl⟩ := ih.1 hheld
          rw [heldValue_eq hv]
          exact ⟨⟨hv, hall⟩, rfl⟩
    . rintro ⟨⟨hc, hall⟩, rfl⟩
      rw [hc]
      dsimp only
      rw [ih.2 ⟨hall, rfl⟩]

theorem holdExtra_cases {v w : ClaimValue} (h : holdExtra v = .ok w)
    : (v.jsonable = .error .foreign ∧ w = v) ∨
        ∃ j, v.jsonable = .ok (.ofJson j) ∧ w = (ClaimValue.ofJson j).freeze := by
  unfold holdExtra at h
  split at h
  . next v' hv =>
    cases h
    obtain ⟨j, rfl⟩ := ClaimValue.exists_ofJson_of_reduce hv
    exact .inr ⟨j, hv, rfl⟩
  . next hv =>
    cases h
    exact .inl ⟨hv, rfl⟩
  . cases h

theorem hasDistinctKeys_holdExtra {v w : ClaimValue} (hv : v.HasDistinctKeys)
    (h : holdExtra v = .ok w) : w.HasDistinctKeys := by
  cases holdExtra_cases h with
  | inl hsame =>
    rw [hsame.2]
    exact hv
  | inr hread =>
    obtain ⟨j, -, rfl⟩ := hread
    exact ClaimValue.hasDistinctKeys_freeze_ofJson j

theorem isHeldForm_holdExtra_iff {v w : ClaimValue} (h : holdExtra v = .ok w)
    : w.IsHeldForm ↔ (v.jsonable = .error .foreign → v.IsHeldForm) := by
  cases holdExtra_cases h with
  | inl hsame =>
    rw [hsame.1, hsame.2]
    exact ⟨fun hform _ => hform, fun hform => hform rfl⟩
  | inr hread =>
    obtain ⟨j, hj, rfl⟩ := hread
    rw [hj]
    exact iff_of_true (ClaimValue.isHeldForm_freeze_ofJson j) fun hforeign => nomatch hforeign

theorem holdExtra_ofJson {j : Json} (hj : j.IsLegible) (hdepth : j.nesting false < 255)
    : holdExtra (.ofJson j) = .ok (ClaimValue.ofJson j).freeze := by
  unfold holdExtra
  rw [ClaimValue.jsonable_ofJson hj hdepth]

theorem mem_extraOf {claims : List (Text × β)} {c : Text × β}
    : c ∈ extraOf claims ↔ c ∈ claims ∧ c.1 ∉ declaredNames := by
  simp [extraOf]

/-! ### Names -/

/--
What the names in a token are like: they do not repeat, not within values either, and extra claims
do not have the names of declared ones.
-/
structure WellFormed (t : Token) : Prop where
  assertions : (t.assertions.map (·.1)).Nodup
  extra : (t.extra.map (·.1)).Nodup
  undeclared : ∀ c ∈ t.extra, c.1 ∉ declaredNames
  distinct : ∀ c ∈ t.extra, c.2.HasDistinctKeys

theorem nodup_checkAssertions {v : Option ClaimValue} {assertions : List (Text × Text)}
    (h : checkAssertions v = .ok assertions) : (assertions.map (·.1)).Nodup := by
  have hentries : ∀ entries, checkAssertionEntries entries = .ok assertions →
      (assertions.map (·.1)).Nodup := by
    intro entries hentries
    obtain ⟨as, -, rfl⟩ := Outcome.map_eq_ok_iff.1 hentries
    exact Entries.nodup_ofList as
  unfold checkAssertions at h
  split at h
  . cases h
    exact List.nodup_nil
  . exact hentries _ h
  . exact hentries _ h
  . cases h

theorem nodup_readAssertions {x : Option Json} {assertions : List (Text × Text)}
    (h : readAssertions x = .ok assertions) : (assertions.map (·.1)).Nodup := by
  unfold readAssertions at h
  split at h
  . cases h
    exact List.nodup_nil
  . next members =>
    obtain ⟨as, -, rfl⟩ := Outcome.map_eq_ok_iff.1 h
    exact Entries.nodup_ofList as
  . cases h

theorem wellFormed_of_holdExtras {t : Token} {claims : List (Text × ClaimValue)}
    (hassertions : (t.assertions.map (·.1)).Nodup) (hextra : holdExtras claims = .ok t.extra)
    (hnodup : (claims.map (·.1)).Nodup) (hundeclared : ∀ c ∈ claims, c.1 ∉ declaredNames)
    (hdistinct : ∀ c ∈ claims, (heldValue c.2).HasDistinctKeys) : t.WellFormed := by
  obtain ⟨-, heq⟩ := holdExtras_eq_ok_iff.1 hextra
  constructor
  . exact hassertions
  . rw [heq, List.map_map]
    exact hnodup
  . rw [heq, List.forall_mem_map]
    exact hundeclared
  . rw [heq, List.forall_mem_map]
    exact hdistinct

theorem wellFormed_ofClaims {claims : List (Text × ClaimValue)} {t : Token}
    (hnodup : (claims.map (·.1)).Nodup) (hdistinct : ∀ c ∈ extraOf claims, c.2.HasDistinctKeys)
    (h : ofClaims claims = .ok t) : t.WellFormed := by
  obtain ⟨-, -, -, hassertions, hextra⟩ := ofChecked_eq_ok_iff.1 h
  apply wellFormed_of_holdExtras (nodup_checkAssertions hassertions) hextra
  . exact hnodup.sublist (List.filter_sublist.map _)
  . exact fun c hc => (mem_extraOf.1 hc).2
  . intro c hc
    have hheld := (holdExtras_eq_ok_iff.1 hextra).1 c hc
    exact hasDistinctKeys_holdExtra (hdistinct c hc) hheld

end Token

end SignedToken
