import SignedToken.CommandLine.Run
import SignedToken.Proofs.Token.Lifetime

/-!
This module contains the line of claims that is printed for a token. Every token that was decoded has
one, and the line of a token without extra claims is read back to its claims.
-/

namespace SignedToken

namespace Token

variable {t : Token} {nonFinite : Bool}

theorem toJson_claimsValue_of_forall
    (h : ∀ c ∈ t.heldClaims, c.2.thaw.toJson nonFinite = .ok (c.2.thaw.jsonOf nonFinite))
    : t.claimsValue.toJson nonFinite
        =
      .ok (.object (Json.sortMembers (t.heldClaims.map fun c =>
        (c.1, c.2.thaw.jsonOf nonFinite)))) := by
  rw [claimsValue, claims, List.map_map]
  exact (ClaimValue.toJson_texts_eq_ok_iff (f := ClaimValue.thaw)).2 ⟨h, rfl⟩

theorem toJson_of_mem_heldClaims (hexpiration : hasNumeral t.expiration = true)
    (hextra : ∀ c ∈ t.extra, c.2.thaw.toJson nonFinite = .ok (c.2.thaw.jsonOf nonFinite))
    : ∀ c ∈ t.heldClaims, c.2.thaw.toJson nonFinite = .ok (c.2.thaw.jsonOf nonFinite) := by
  rw [forall_mem_heldClaims]
  refine ⟨⟨?_, rfl, ?_, ?_⟩, hextra⟩
  . exact ClaimValue.toJson_eq_jsonOf (ClaimValue.toJson_int_eq_ok_iff.2 ⟨hexpiration, rfl⟩)
  . exact ClaimValue.toJson_eq_jsonOf (toJson_groups t.groups)
  . exact ClaimValue.toJson_eq_jsonOf (toJson_assertions t.assertions)

def bareJson (expiration : Int) (username : Text) (groups : List Text) : Json :=
  .object [(assertionsName, .object []), (expirationName, .int expiration),
    (groupsName, .array (groups.map .text)), (usernameName, .text username)]

theorem sortMembers_bare (e u g a : Json)
    : Json.sortMembers [(expirationName, e), (usernameName, u), (groupsName, g), (assertionsName, a)]
        =
      [(assertionsName, a), (expirationName, e), (groupsName, g), (usernameName, u)] := by
  have hperm : [(expirationName, e), (usernameName, u), (groupsName, g), (assertionsName, a)].Perm
      [(assertionsName, a), (expirationName, e), (groupsName, g), (usernameName, u)] :=
    (List.perm_append_singleton (assertionsName, a) [(expirationName, e), (usernameName, u),
      (groupsName, g)]).trans (.cons _ (.cons _ (.swap _ _ _)))
  have hnodup : declaredNames.Nodup := by decide
  have hsorted : [(assertionsName, a), (expirationName, e), (groupsName, g), (usernameName, u)].Pairwise
      fun m n => Text.le m.1 n.1 = true := by
    have hnames : (List.map (fun m : Text × Json => m.1) [(assertionsName, a), (expirationName, e),
        (groupsName, g), (usernameName, u)]).Pairwise fun s t => Text.le s t = true := by
      change [assertionsName, expirationName, groupsName, usernameName].Pairwise _
      decide
    exact List.pairwise_map.1 hnames
  rw [Json.sortMembers_eq_of_perm hperm hnodup, Json.sortMembers_of_pairwise hsorted]

theorem toJson_claimsValue_bare {expiration : Int} {username : Text} {groups : List Text}
    (hexpiration : hasNumeral expiration = true)
    : (bare expiration username groups).claimsValue.toJson nonFinite
        =
      .ok (bareJson expiration username groups) := by
  have hint : (ClaimValue.int expiration).thaw.jsonOf nonFinite = .int expiration :=
    ClaimValue.jsonOf_eq (ClaimValue.toJson_int_eq_ok_iff.2 ⟨hexpiration, rfl⟩)
  have htext : (ClaimValue.text username).thaw.jsonOf nonFinite = .text username :=
    ClaimValue.jsonOf_eq rfl
  have hgroups := ClaimValue.jsonOf_eq (@toJson_groups nonFinite groups)
  have hassertions : (assertionsValue []).thaw.jsonOf nonFinite = .object [] := by
    rw [ClaimValue.jsonOf_eq (toJson_assertions []), Json.sortMembers_of_pairwise .nil, List.map_nil]
  have hheld : ∀ c ∈ (bare expiration username groups).heldClaims,
      c.2.thaw.toJson nonFinite = .ok (c.2.thaw.jsonOf nonFinite) :=
    toJson_of_mem_heldClaims (t := bare expiration username groups) hexpiration (List.forall_mem_nil _)
  rw [toJson_claimsValue_of_forall hheld, heldClaims, bare, List.append_nil, List.map_cons,
    List.map_cons, List.map_cons, List.map_singleton, hint, htext, hgroups, hassertions,
    sortMembers_bare, bareJson]

theorem isLegible_bareJson {expiration : Int} {username : Text} {groups : List Text}
    (htexts : ∀ t ∈ username :: groups, t.any CodePoint.isSurrogate = false)
    : (bareJson expiration username groups).IsLegible := by
  rw [List.forall_mem_cons] at htexts
  have htext : ∀ t : Text, t.any CodePoint.isSurrogate = false → (Json.text t).IsLegible := by
    rintro t ht _ (_ | _)
    exact ht
  rw [bareJson, Json.isLegible_object_iff]
  simp only [List.forall_mem_cons]
  refine ⟨⟨by decide, ?_⟩, ⟨by decide, ?_⟩, ⟨by decide, ?_⟩, ⟨by decide, htext username htexts.1⟩,
    List.forall_mem_nil _⟩
  . exact Json.isLegible_object_iff.2 (List.forall_mem_nil _)
  . rintro _ (_ | _)
    trivial
  . rw [Json.isLegible_array_iff, List.forall_mem_map]
    exact fun g hg => htext g (htexts.2 g hg)

theorem nesting_bareJson_le (countsEmpty : Bool) (expiration : Int) (username : Text)
    (groups : List Text) : (bareJson expiration username groups).nesting countsEmpty ≤ 2 := by
  have hempty : (Json.object []).nesting countsEmpty ≤ 1 := by
    cases countsEmpty <;> decide
  have hgroups : (Json.array (groups.map .text)).nesting countsEmpty ≤ 1 := by
    rw [Json.nesting_array_le_iff]
    exact .inr ⟨0, rfl, List.forall_mem_map.2 fun g _ => Nat.le_refl 0⟩
  rw [bareJson, Json.nesting_object_le_iff]
  refine .inr ⟨1, rfl, ?_⟩
  simp only [List.forall_mem_cons]
  exact ⟨hempty, Nat.zero_le 1, hgroups, Nat.zero_le 1, List.forall_mem_nil _⟩

end Token

namespace CommandLine

open Token

theorem claimsLine_eq_ok {t : Token} {j : Json} (h : t.claimsValue.toJson true = .ok j)
    : claimsLine t = .ok (j.write Json.Style.line) := by
  have hwrite : t.claimsValue.write .line = .ok (j.write Json.Style.line) := by
    rw [ClaimValue.write]
    exact Outcome.map_eq_ok_iff.2 ⟨j, h, rfl⟩
  rw [claimsLine, hwrite]

theorem exists_claimsLine {t : Token} (ht : t.IsReceived) : ∃ line, claimsLine t = .ok line := by
  have hextra : ∀ c ∈ t.extra, c.2.thaw.toJson true = .ok (c.2.thaw.jsonOf true) := by
    intro c hc
    obtain ⟨-, x, hx, heq⟩ := ht.extra c hc
    rw [heq, ClaimValue.thaw_freeze_ofJson]
    exact ClaimValue.toJson_ofJson_eq_jsonOf hx.numeral fun f _ => Bool.or_true _
  exact ⟨_, claimsLine_eq_ok (toJson_claimsValue_of_forall
    (toJson_of_mem_heldClaims ht.expiration hextra))⟩

theorem exists_claimsLine_bare {expiration : Int} {username : Text} {groups : List Text}
    (hexpiration : hasNumeral expiration = true)
    (htexts : ∀ t ∈ username :: groups, t.any CodePoint.isSurrogate = false)
    : ∃ line, claimsLine (bare expiration username groups) = .ok line ∧
        ∀ d : Json.Dialect, 2 ≤ d.maxDepth →
          Json.read? d line = some (bareJson expiration username groups) := by
  have hjson : (bare expiration username groups).claimsValue.toJson true
      = .ok (bareJson expiration username groups) := toJson_claimsValue_bare hexpiration
  have hreadable : Json.Readable true (bareJson expiration username groups) :=
    ⟨(ClaimValue.readable_of_toJson hjson).numeral, fun _ => isLegible_bareJson htexts⟩
  refine ⟨_, claimsLine_eq_ok hjson, fun d hd => ?_⟩
  rw [Json.read?_write d Json.Style.line_separates hreadable]
  exact if_pos (Nat.le_trans (nesting_bareJson_le _ _ _ _) hd)

end CommandLine

end SignedToken
