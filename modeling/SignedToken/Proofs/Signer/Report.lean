import SignedToken.Proofs.Error
import SignedToken.Proofs.Signer.Issuance
import SignedToken.Proofs.Token.Received

/-!
This module contains which failures of an encoding are reported as such. A claim that cannot be
written is, whatever its kind and its place. Two obstacles are not: a lone surrogate, which only shows
when the text is turned into octets, and claims that are nested more deeply than the stack reaches.
-/

namespace SignedToken

namespace Json

theorem isLegible_of_write {j : Json} (hj : Readable false j)
    (h : (j.write Style.canonical).any CodePoint.isSurrogate = false) : j.IsLegible := by
  -- A reader that is as deep as the value reads it back, and lone surrogates are not made by readers.
  have hread : read? ⟨false, j.nesting false, false, false⟩ (j.write Style.canonical) = some j := by
    rw [read?_write _ Style.canonical_separates hj, if_pos (Nat.le_refl _)]
  exact (read?_sound hread).legible rfl h

end Json

namespace Token

variable {t : Token}

theorem isLegible_of_json (h : t.json.IsLegible) : t.IsLegible := by
  have hmember : ∀ c ∈ t.heldClaims,
      c.1.any CodePoint.isSurrogate = false ∧ (c.2.thaw.jsonOf false).IsLegible := by
    rw [json, Json.isLegible_object_iff] at h
    simp only [Json.mem_sortMembers] at h
    exact List.forall_mem_map.1 h
  rw [forall_mem_heldClaims] at hmember
  simp only [ClaimValue.jsonOf_eq (toJson_groups t.groups),
    ClaimValue.jsonOf_eq (toJson_assertions t.assertions)] at hmember
  obtain ⟨⟨-, ⟨-, husername⟩, ⟨-, hgroups⟩, ⟨-, hassertions⟩⟩, hextra⟩ := hmember
  rw [Json.isLegible_array_iff, List.forall_mem_map] at hgroups
  rw [Json.isLegible_object_iff, List.forall_mem_map] at hassertions
  constructor
  . exact husername _ .self
  . exact fun g hg => hgroups g hg _ .self
  . intro a ha
    obtain ⟨hname, htext⟩ := hassertions a (Json.mem_sortMembers.2 ha)
    exact ⟨hname, htext _ .self⟩
  . exact hextra

/--
Whether the stack reaches to the innermost claim, or as far as to the first one that cannot be written.
-/
structure IsReached (t : Token) : Prop where
  thawed : t.thawDepth ≤ thawRoom
  written : t.claimsValue.toJsonWithin false writeRoom ≠ .error .outOfStack

theorem isReached_of_nesting (h : ∀ c ∈ t.extra, c.2.nesting + 2 ≤ thawRoom) : t.IsReached := by
  rw [thawRoom_eq] at h
  -- The claims take one level themselves, and a value without entries may take one more.
  have hclaims : t.claimsValue.nesting ≤ 488 + 1 :=
    (nesting_claimsValue_le_iff (by decide)).2 fun c hc => by have := h c hc; omega
  constructor
  . have := t.thawDepth_le
    rw [thawRoom_eq]
    omega
  . rw [ClaimValue.toJsonWithin_eq_toJson]
    . exact ClaimValue.toJson_ne_outOfStack _
    . rw [writeRoom_eq]
      omega

theorem IsReached.fitsStack (h : t.IsReached) (hwritable : t.IsWritable) : t.FitsStack := by
  have hjson := toJson_claimsValue_eq_ok_iff.2 ⟨hwritable, rfl⟩
  have hwithin := (ClaimValue.toJsonWithin_cases t.claimsValue).resolve_right h.written
  exact ⟨h.thawed, (ClaimValue.toJsonWithin_eq_ok_iff.1 (hwithin.trans hjson)).2⟩

/-! ### What an encoding comes to -/

theorem encode_of_not_isReached (h : ¬ t.IsReached) : t.encode = .error .outOfStack := by
  unfold encode
  by_cases hthawed : thawRoom < t.thawDepth
  . rw [if_pos hthawed]
  . have hstack : t.claimsValue.toJsonWithin false writeRoom = .error .outOfStack :=
      Classical.not_not.1 fun hwritten => h ⟨Nat.le_of_not_lt hthawed, hwritten⟩
    have hwrite : t.claimsValue.writeWithin .canonical writeRoom = .error .outOfStack :=
      Outcome.map_eq_error_iff.2 hstack
    rw [if_neg hthawed, hwrite]

theorem exists_encode_eq_unwritable (hreached : t.IsReached) (h : ¬ t.IsWritable)
    : ∃ cause, t.encode = .error (.unwritable cause) := by
  cases hwithin : t.claimsValue.toJsonWithin false writeRoom with
  | ok j =>
    obtain ⟨hjson, -⟩ := ClaimValue.toJsonWithin_eq_ok_iff.1 hwithin
    exact absurd (toJson_claimsValue_eq_ok_iff.1 hjson).1 h
  | error e =>
    have hne := hreached.written
    rw [hwithin] at hne
    have hwrite : t.claimsValue.writeWithin .canonical writeRoom = .error e :=
      Outcome.map_eq_error_iff.2 hwithin
    refine ⟨e, ?_⟩
    rw [encode, if_neg (Nat.not_lt_of_le hreached.thawed), hwrite]
    cases e with
    | outOfStack => exact absurd rfl hne
    | _ => rfl

theorem encode_eq_surrogate (hreached : t.IsReached) (hwritable : t.IsWritable)
    (h : ¬ t.IsLegible) : t.encode = .error .surrogate := by
  have hfits := hreached.fitsStack hwritable
  have hnone : Utf8.encode? (t.json.write Json.Style.canonical) = none := by
    rw [Option.eq_none_iff_forall_ne_some]
    intro b hb
    have hlegible := Json.isLegible_of_write (json_readable hwritable) (Utf8.encode?_eq_some.1 hb).1
    exact h (isLegible_of_json hlegible)
  rw [encode, if_neg (Nat.not_lt_of_le hfits.thawed),
    writeWithin_claimsValue_eq_ok_iff.2 ⟨⟨hwritable, hfits.written⟩, rfl⟩]
  dsimp only
  rw [hnone]

def EncodesOrReports (t : Token) : Prop :=
  (∃ b, t.encode = .ok b) ∨ ∃ cause, t.encode = .error (.unwritable cause)

theorem not_encodesOrReports {e : EncodeError} (h : t.encode = .error e)
    (he : ∀ cause, e ≠ .unwritable cause) : ¬ t.EncodesOrReports := by
  rintro (⟨b, hb⟩ | ⟨cause, hcause⟩)
  . rw [h] at hb
    cases hb
  . rw [h] at hcause
    cases hcause
    exact he cause rfl

theorem encodesOrReports_iff
    : t.EncodesOrReports ↔ t.IsReached ∧ (t.IsWritable → t.IsLegible) := by
  by_cases hreached : t.IsReached
  . by_cases hwritable : t.IsWritable
    . by_cases hlegible : t.IsLegible
      . apply iff_of_true _ ⟨hreached, fun _ => hlegible⟩
        exact .inl (exists_encode_eq_ok hwritable (hreached.fitsStack hwritable) hlegible)
      . apply iff_of_false _ fun h => hlegible (h.2 hwritable)
        exact not_encodesOrReports (encode_eq_surrogate hreached hwritable hlegible) nofun
    . apply iff_of_true _ ⟨hreached, fun h => absurd h hwritable⟩
      exact .inr (exists_encode_eq_unwritable hreached hwritable)
  . apply iff_of_false _ fun h => hreached h.1
    exact not_encodesOrReports (encode_of_not_isReached hreached) nofun

theorem encodesOrReports_of_decode {payload : Bytes} (h : decode payload = .ok t)
    : t.EncodesOrReports := by
  have ht := isReceived_of_decode h
  refine encodesOrReports_iff.2 ⟨isReached_of_nesting fun c hc => ?_, ht.isLegible⟩
  have := ht.nesting_lt c hc
  rw [thawRoom_eq]
  omega

end Token

namespace Signer

variable {scheme : Scheme} {s : Signer}

def Issuance.ReleasesOrReports (done : Issuance) : Prop :=
  (∃ wire, done.outcome = .ok wire) ∨
    ∃ cause, done.outcome = .error (.known (.issue (.notEncodable cause)))

theorem releasesOrReports_issue_iff
    (hsigns : ∀ message, ∃ sig, scheme.sign? s.profile s.key message = some sig) (t : Token)
    : (s.issue scheme none t).ReleasesOrReports ↔ t.EncodesOrReports := by
  cases hencode : t.encode with
  | ok payload =>
    obtain ⟨sig, hsig⟩ := hsigns (Utf8.encodeAny (signingInput s.profile payload))
    have hsign := sign?_eq_some_iff.2 ⟨sig, hsig, rfl⟩
    apply iff_of_true
    . exact .inl ⟨_, outcome_issue hencode hsign nofun⟩
    . exact .inl ⟨payload, hencode⟩
  | error e =>
    rw [issue, hencode]
    cases e with
    | unwritable cause => exact iff_of_true (.inr ⟨cause, rfl⟩) (.inr ⟨cause, hencode⟩)
    | surrogate | outOfStack =>
      apply iff_of_false _ (Token.not_encodesOrReports hencode nofun)
      rintro (⟨wire, hwire⟩ | ⟨cause, hcause⟩)
      . cases hwire
      . cases hcause

theorem isUnknown_issue_iff {observer : Option Observer}
    (hobserver : ∀ observe, observer = some observe →
      ∀ payload wire kind, observe payload wire ≠ .interrupted kind) (t : Token)
    : Outcome.IsUnknown (s.issue scheme observer t).outcome ↔ ¬ t.EncodesOrReports := by
  cases hencode : t.encode with
  | ok payload =>
    apply iff_of_false _ fun h => h (.inl ⟨payload, hencode⟩)
    rw [issue, hencode]
    dsimp only
    cases s.sign? scheme payload with
    | none => exact Outcome.not_isUnknown_known _
    | some wire =>
      cases observer with
      | none => exact Outcome.not_isUnknown_ok wire
      | some observe =>
        dsimp only
        cases hrefusal : (observe payload wire).refusal? with
        | none => exact Outcome.not_isUnknown_ok wire
        | some e =>
          obtain ⟨e, rfl⟩ := Reaction.exists_known_of_refusal? hrefusal (hobserver observe rfl payload wire)
          exact Outcome.not_isUnknown_known e
  | error e =>
    rw [issue, hencode]
    cases e with
    | unwritable cause =>
      exact iff_of_false (Outcome.not_isUnknown_known _) fun h => h (.inr ⟨cause, hencode⟩)
    | surrogate | outOfStack =>
      exact iff_of_true ⟨_, rfl⟩ (Token.not_encodesOrReports hencode nofun)

/--
A token is encoded, and issued where everything is signed, or else the claim in the way is reported,
just if the stack reaches far enough and no text that would be written has a surrogate of its own. The
stack does reach far enough for extra claims of a moderate depth, and tokens that were decoded have
neither flaw.
-/
theorem issue_reported_iff
    (hsigns : ∀ message, ∃ sig, scheme.sign? s.profile s.key message = some sig) (t : Token)
    : (t.EncodesOrReports ↔ t.IsReached ∧ (t.IsWritable → t.IsLegible)) ∧
        ((s.issue scheme none t).ReleasesOrReports
          ↔
        t.IsReached ∧ (t.IsWritable → t.IsLegible)) ∧
        ((∀ c ∈ t.extra, c.2.nesting + 2 ≤ Token.thawRoom) → t.IsReached) ∧
        ∀ payload, Token.decode payload = .ok t →
          t.EncodesOrReports ∧ (s.issue scheme none t).ReleasesOrReports := by
  have hissue := releasesOrReports_issue_iff hsigns t
  refine ⟨Token.encodesOrReports_iff, hissue.trans Token.encodesOrReports_iff,
    Token.isReached_of_nesting, ?_⟩
  intro payload hpayload
  have hencode := Token.encodesOrReports_of_decode hpayload
  exact ⟨hencode, hissue.2 hencode⟩

theorem issue_reported_notFinite
    : ∃ scheme t, t.extra = [(Text.ofString "z", .float .nan)] ∧
        (∀ message, ∃ sig, scheme.sign? least.profile least.key message = some sig) ∧
        t.EncodesOrReports ∧ (least.issue scheme none t).ReleasesOrReports := by
  obtain ⟨t, ht⟩ : ∃ t : Token, t = ⟨1, [], [], [], [(Text.ofString "z", .float .nan)]⟩ := ⟨_, rfl⟩
  have hsigns := (Scheme.acceptsOwn_ofKey (k := least.key) least.onCurve).signs
  obtain ⟨hencode, hissue, hreached, -⟩ := issue_reported_iff hsigns t
  have hfine : t.IsReached ∧ (t.IsWritable → t.IsLegible) := by
    constructor
    . apply hreached
      rw [ht, List.forall_mem_singleton]
      decide
    . -- A number that is not finite has no JSON form.
      intro hwritable
      have hnan := (Token.isWritable_iff.1 hwritable).2 (Text.ofString "z", .float .nan) (by simp [ht])
      cases hnan
  exact ⟨_, t, by rw [ht], hsigns, hencode.2 hfine, hissue.2 hfine⟩

theorem exists_issue_surrogate
    : ∃ t,
        Token.ofClaims [(Token.expirationName, .int 1), (Token.usernameName, .text [0xD800])] = .ok t ∧
        t.encode = .error .surrogate ∧
        least.issue Scheme.ecdsa none t = ⟨.error (.unknown .surrogate), []⟩ := by
  obtain ⟨t, ht⟩ : ∃ t : Token, t = ⟨1, [0xD800], [], [], []⟩ := ⟨_, rfl⟩
  have hclaims :
      Token.ofClaims [(Token.expirationName, .int 1), (Token.usernameName, .text [0xD800])] = .ok t := by
    rw [ht]
    rfl
  have hencode : t.encode = .error .surrogate := by
    apply Token.encode_eq_surrogate
    . exact Token.isReached_of_nesting (by simp [ht])
    . exact Token.isWritable_iff.2 ⟨by rw [ht]; exact Text.hasNumeral_iff.2 (by decide), by simp [ht]⟩
    . intro hlegible
      have husername := hlegible.username
      rw [ht] at husername
      exact absurd husername (by decide)
  refine ⟨t, hclaims, hencode, ?_⟩
  rw [issue, hencode]

end Signer

end SignedToken
