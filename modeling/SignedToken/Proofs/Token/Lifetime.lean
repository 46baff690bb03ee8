import SignedToken.Proofs.Signer.Report
import SignedToken.Token.Lifetime

/-!
This module contains the tokens that are built for a user from a lifetime. They have no claims but the
declared ones, and are encoded unless a text in them has a surrogate; what is decoded is the same token.
-/

namespace SignedToken.Token

def bare (expiration : Int) (username : Text) (groups : List Text) : Token :=
  ⟨expiration, username, groups, [], []⟩

variable {expiration : Int} {username : Text} {groups : List Text}

theorem checkGroups_texts (groups : List Text)
    : checkGroups (some (.tuple (groups.map .text))) = .ok groups := by
  rw [checkGroups, checkGroupItems, Checked.all_eq_ok_iff]
  apply List.ext_getElem
  . simp
  . intro i h h'
    simp [checkText]

theorem expiringIn_eq_bare (seconds now : Int) (username : Text) (groups : List Text)
    : expiringIn (.int seconds) (.int now)
          [(usernameName, .text username), (groupsName, .tuple (groups.map .text))]
        =
      .ok (bare (now + seconds * 1000) username groups) := by
  have hclaims : ofClaims [(expirationName, .int (now + seconds * 1000)),
      (usernameName, .text username), (groupsName, .tuple (groups.map .text))]
        = .ok (bare (now + seconds * 1000) username groups) :=
    ofChecked_eq_ok_iff.2 ⟨rfl, rfl, checkGroups_texts groups, rfl, rfl⟩
  change Except.mapError LifetimeError.defects (ofClaims _) = _
  rw [hclaims]
  rfl

theorem wellFormed_bare : (bare expiration username groups).WellFormed := by
  constructor <;> simp [bare]

theorem isWritable_bare_iff
    : (bare expiration username groups).IsWritable ↔ hasNumeral expiration = true := by
  rw [isWritable_iff]
  exact and_iff_left nofun

theorem isLegible_bare_iff
    : (bare expiration username groups).IsLegible
        ↔
      ∀ t ∈ username :: groups, t.any CodePoint.isSurrogate = false := by
  rw [List.forall_mem_cons]
  exact ⟨fun h => ⟨h.username, h.groups⟩, fun h => ⟨h.1, h.2, nofun, nofun⟩⟩

theorem encodesOrReports_bare_iff
    : (bare expiration username groups).EncodesOrReports
        ↔
      (hasNumeral expiration = true → ∀ t ∈ username :: groups, t.any CodePoint.isSurrogate = false) := by
  -- An expiration without a numeral is reported before any surrogate gets in the way.
  rw [encodesOrReports_iff, isWritable_bare_iff, isLegible_bare_iff]
  exact and_iff_right (isReached_of_nesting nofun)

theorem exists_payload_bare (hexpiration : hasNumeral expiration = true)
    (htexts : ∀ t ∈ username :: groups, t.any CodePoint.isSurrogate = false)
    : ∃ payload, (bare expiration username groups).encode = .ok payload ∧
        decode payload = .ok (bare expiration username groups) := by
  have hwritable : (bare expiration username groups).IsWritable := isWritable_bare_iff.2 hexpiration
  obtain ⟨payload, hpayload⟩ := exists_encode_eq_ok hwritable (fitsStack_of_nesting hwritable nofun)
    (isLegible_bare_iff.2 htexts)
  have hcopy : (bare expiration username groups).copy = bare expiration username groups := by
    simp [copy, bare, Json.sortMembers]
  refine ⟨payload, hpayload, ?_⟩
  rw [decode_encode wellFormed_bare hpayload nofun, hcopy]

end SignedToken.Token
