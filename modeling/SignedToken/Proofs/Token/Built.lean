import SignedToken.Proofs.Token.Copy

/-!
This module contains the law of tokens that callers build: when the token that is decoded from an
encoding equals the one that was encoded.
-/

namespace SignedToken.Token

theorem exists_decode_equals_iff {t : Token} {b : Bytes} (ht : t.WellFormed)
    (hb : t.encode = .ok b)
    : (∃ u, decode b = .ok u ∧ u.equals t = true)
        ↔
      ∀ c ∈ t.extra, c.2.IsHeldForm ∧ c.2.nesting < 200 := by
  obtain ⟨hwritable, -⟩ := encode_eq_ok_iff.1 hb
  by_cases hnesting : ∀ c ∈ t.extra, c.2.nesting < 200
  . have hdecode := decode_encode ht hb hnesting
    constructor
    . rintro ⟨u, hu, hequals⟩
      rw [hdecode] at hu
      cases hu
      have hform := (copy_equals_iff ht hwritable).1 hequals
      exact fun c hc => ⟨hform c hc, hnesting c hc⟩
    . intro h
      exact ⟨t.copy, hdecode, (copy_equals_iff ht hwritable).2 fun c hc => (h c hc).1⟩
  . -- With an extra claim nested too deeply there is no token to compare with.
    apply iff_of_false _ fun h => hnesting fun c hc => (h c hc).2
    rintro ⟨u, hu, -⟩
    apply hnesting
    intro c hc
    apply Nat.lt_of_not_le
    intro hdeep
    rw [decode_encode_of_nesting hb hc hdeep] at hu
    cases hu

theorem exists_encode_of_list (name key item : Text) {v : ClaimValue}
    (hv : v.thaw = .dict [(.text key, .list [.text item])])
    (h : ∀ u ∈ [name, key, item], u.any CodePoint.isSurrogate = false)
    : ∃ b, (Token.mk 1 [] [] [] [(name, v)]).encode = .ok b := by
  have hjson : v.thaw.toJson false = .ok (.object [(key, .array [.text item])]) := by
    rw [hv]
    simp [ClaimValue.toJson, ClaimValue.toJsonEntries, ClaimValue.toJsonItems, ClaimValue.objectOf,
      ClaimValue.sortEntries, ClaimValue.firstIncomparable?, ClaimValue.nameEntries,
      ClaimValue.nameOf, Except.map]
  have hlegible : (Json.object [(key, .array [.text item])]).IsLegible := by
    rw [Json.isLegible_object_iff, List.forall_mem_singleton, Json.isLegible_array_iff,
      List.forall_mem_singleton]
    refine ⟨h key (by simp), ?_⟩
    rintro _ (_ | _)
    exact h item (by simp)
  have hnesting : v.nesting = 2 := by
    rw [← ClaimValue.nesting_thaw, hv]
    rfl
  apply exists_encode_of_extra
  rw [List.forall_mem_singleton, hnesting]
  exact ⟨h name (by simp), by decide, _, hjson, hlegible⟩

theorem hasDistinctKeys_texts {item : Text}
    : (ClaimValue.list [.text item]).HasDistinctKeys := by
  rintro _ (_ | ⟨hx, hw⟩)
  . trivial
  . cases List.mem_singleton.1 hx
    cases hw
    trivial

end SignedToken.Token
