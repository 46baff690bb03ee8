import SignedToken.Proofs.Json.Accepted
import SignedToken.Proofs.Json.Reordered
import SignedToken.Proofs.Token.Defects
import SignedToken.Proofs.Token.Parsed
import SignedToken.Proofs.Verifier.Rejection

/-!
This module contains the law that the two ways to a token agree: from the parsed value of a document
comes the token that is decoded from its text, in whatever way the text is written, or else the same
defects.
-/

namespace SignedToken.Token

open Entries (LastOf)

/-! ### Documents reordered -/

/--
What the members of a document are like that leaves nothing open: it is within the limits of payloads,
no name comes twice in an object, and every number is finite.
-/
structure Unambiguous (members : List (Text × Json)) : Prop where
  received : (Json.object members).IsReceived 200
  names : (Json.object members).HasDistinctNames
  finite : ∀ x, Json.Within (.float x) (.object members) → x.isFinite = true

section Reordered

variable {ms ns : List (Text × Json)} (hms : Unambiguous ms) (hns : Unambiguous ns)
  (h : (Json.object ms).Reordered (.object ns))

section One

include hms

theorem Unambiguous.nodup_names : (ms.map (·.1)).Nodup :=
  (Json.hasDistinctNames_object_iff.1 hms.names).1

theorem Unambiguous.ofClaims_eq : ofClaims (claimsOf ms) = ofMembers ms :=
  ofClaims_claimsOf hms.names hms.received.legible

theorem Unambiguous.orderless : Orderless (claimsOf ms) where
  names := by
    rw [claimsOf, List.map_map]
    exact hms.nodup_names
  assertions := by
    intro v hv
    rw [get?_claimsOf hms.nodup_names, Option.mem_def, Option.map_eq_some_iff] at hv
    obtain ⟨x, -, rfl⟩ := hv
    exact ClaimValue.hasDistinctTexts_ofJson x
  extra := by
    intro c hc
    obtain ⟨m, hm, rfl⟩ := List.mem_map.1 (mem_extraOf.1 hc).1
    apply ClaimValue.isData_ofJson
    intro x hx
    exact hms.finite x (.member hm (ClaimValue.within_float_of_ofJson hx))

theorem Unambiguous.nodup_assertions {entries : List (Text × Json)}
    (hentries : LastOf ms assertionsName (.object entries)) : (entries.map (·.1)).Nodup := by
  have hnames := (Json.hasDistinctNames_object_iff.1 hms.names).2 _ hentries.mem
  exact (Json.hasDistinctNames_object_iff.1 hnames).1

end One

include hns h

theorem exists_lastOf_of_reordered {name : Text} {x : Json} (hx : LastOf ms name x)
    : ∃ y, LastOf ns name y ∧ x.Reordered y := by
  obtain ⟨_, ps, heq, hleft, hright, hall⟩ := h.exists_pairs
  cases heq
  obtain ⟨p, hp, heq⟩ := List.mem_map.1 (hleft.mem_iff.1 hx.mem)
  cases heq
  refine ⟨p.2.2, (Entries.lastOf_iff_mem hns.nodup_names).2 ?_, hall p hp⟩
  exact hright.mem_iff.2 (List.mem_map.2 ⟨p, hp, rfl⟩)

theorem offence_of_reordered {d : Defect} (hd : Offence ms d) : Offence ns d := by
  -- Reordering leaves the kind of every value as it is.
  cases hd with
  | missing hname => exact .missing fun hmem => hname (h.perm_names.mem_iff.2 hmem)
  | expiration hx hnot =>
    obtain ⟨y, hy, hxy⟩ := exists_lastOf_of_reordered hns h hx
    refine .expiration hy fun n heq => ?_
    subst heq
    cases hxy
    exact hnot n rfl
  | username hx hnot =>
    obtain ⟨y, hy, hxy⟩ := exists_lastOf_of_reordered hns h hx
    refine .username hy fun t heq => ?_
    subst heq
    exact hnot t hxy.eq_text
  | groups hx hnot =>
    obtain ⟨y, hy, hxy⟩ := exists_lastOf_of_reordered hns h hx
    refine .groups hy fun items heq => ?_
    subst heq
    obtain ⟨_, -, rfl, -⟩ := hxy.symm.exists_items
    exact hnot _ rfl
  | group hx hi hnot =>
    obtain ⟨y, hy, hxy⟩ := exists_lastOf_of_reordered hns h hx
    obtain ⟨ps, rfl, rfl, hall⟩ := hxy.exists_items
    rw [List.getElem?_map, Option.map_eq_some_iff] at hi
    obtain ⟨p, hp, rfl⟩ := hi
    refine .group hy (x := p.2) (by rw [List.getElem?_map, hp, Option.map_some]) fun t heq => ?_
    have hpair := hall p (List.mem_of_getElem? hp)
    rw [heq] at hpair
    exact hnot t hpair.eq_text
  | assertions hx hnot =>
    obtain ⟨y, hy, hxy⟩ := exists_lastOf_of_reordered hns h hx
    refine .assertions hy fun entries heq => ?_
    subst heq
    obtain ⟨_, _, rfl, -⟩ := hxy.symm.exists_pairs
    exact hnot _ rfl
  | assertion hx he hnot =>
    obtain ⟨y, hy, hxy⟩ := exists_lastOf_of_reordered hns h hx
    obtain ⟨fs, ps, rfl, hleft, hright, hall⟩ := hxy.exists_pairs
    obtain ⟨p, hp, heq⟩ := List.mem_map.1 (hleft.mem_iff.1 he)
    cases heq
    refine .assertion hy (hright.mem_iff.2 (List.mem_map.2 ⟨p, hp, rfl⟩)) fun t heq => ?_
    have hpair := hall p hp
    rw [heq] at hpair
    exact hnot t hpair.eq_text

include hms

theorem perm_defects_of_reordered {ds es : List Defect} (hds : ofMembers ms = .error ds)
    (hes : ofMembers ns = .error es) : ds.Perm es := by
  have hleft := reports_of_ofMembers hms.received hds
  have hright := reports_of_ofMembers hns.received hes
  refine (List.perm_ext_iff_of_nodup ?_ ?_).2 fun d => ?_
  . exact hleft.nodup fun _ => hms.nodup_assertions
  . exact hright.nodup fun _ => hns.nodup_assertions
  . rw [hleft.complete, hright.complete]
    exact ⟨offence_of_reordered hns h, offence_of_reordered hms h.symm⟩

theorem exists_ofMembers_alike {t : Token} (ht : ofMembers ms = .ok t)
    : ∃ u, ofMembers ns = .ok u ∧ t.Alike u := by
  have hrearranged : (mappingOf (claimsOf ms)).Rearranged (mappingOf (claimsOf ns)) := by
    have hparsed := ClaimValue.rearranged_ofJson h hms.names
    rw [ClaimValue.ofJson_object, ClaimValue.ofJson_object, Entries.ofList_of_nodup hms.nodup_names,
      Entries.ofList_of_nodup hns.nodup_names] at hparsed
    rw [mappingOf, mappingOf, claimsOf, claimsOf, List.map_map, List.map_map]
    exact hparsed
  rw [← hms.ofClaims_eq] at ht
  rw [← hns.ofClaims_eq]
  exact exists_ofClaims_alike hrearranged hms.orderless hns.orderless ht

theorem exists_ofMembers_iff_of_reordered
    : (∃ t, ofMembers ms = .ok t) ↔ ∃ u, ofMembers ns = .ok u := by
  constructor
  . rintro ⟨t, ht⟩
    obtain ⟨u, hu, -⟩ := exists_ofMembers_alike hms hns h ht
    exact ⟨u, hu⟩
  . rintro ⟨u, hu⟩
    obtain ⟨t, ht, -⟩ := exists_ofMembers_alike hns hms h.symm hu
    exact ⟨t, ht⟩

theorem alike_of_reordered {t u : Token} (ht : ofMembers ms = .ok t) (hu : ofMembers ns = .ok u)
    : t.Alike u := by
  obtain ⟨u', hu', halike⟩ := exists_ofMembers_alike hms hns h ht
  cases hu.symm.trans hu'
  exact halike

end Reordered

theorem HeldAlike.isFinite {v w : ClaimValue} (h : HeldAlike v w) {x : Binary64}
    (hx : ClaimValue.Within (.float x) w) : x.isFinite = true := by
  obtain ⟨-, y, -, rfl, -, -, hy⟩ := h.rearranged
  exact hy _ (ClaimValue.within_float_of_freeze hx)

theorem Alike.isFinite {t u : Token} (h : t.Alike u)
    : ∀ c ∈ u.extra, ∀ x, ClaimValue.Within (.float x) c.2 → x.isFinite = true := by
  intro c hc x hx
  obtain ⟨ps, -, hright, hall⟩ := h.extra
  obtain ⟨p, hp, rfl⟩ := List.mem_map.1 (hright.mem_iff.1 hc)
  exact (hall p hp).isFinite hx

/-! ### Documents written and decoded -/

theorem decode_of_hasText {members : List (Text × Json)} {w : Json} {text : Text} {data : Bytes}
    (hmembers : Unambiguous members) (hw : (Json.object members).Reordered w) (htext : w.HasText text)
    (hdata : Utf8.decode? data = some text)
    : ∃ ns, w = .object ns ∧ Unambiguous ns ∧ decode data = ofMembers ns := by
  obtain ⟨ns, -, rfl, -⟩ := hw.exists_pairs
  have hread : readPayload? data = some (.object ns) := by
    rw [readPayload?, hdata]
    dsimp only [Option.bind_eq_bind, Option.bind_some]
    rw [Json.read?_of_hasText payloadDialect htext, if_pos]
    exact hw.nesting_le hmembers.received.nesting
  refine ⟨ns, rfl, ⟨isReceived_of_readPayload? hread, hw.hasDistinctNames hmembers.names, ?_⟩,
    decode_of_object hread⟩
  exact fun x hx => hmembers.finite x (hw.within_float hx)

def respelled : Text :=
  Text.ofString "\x7b \"\\u007a\": [null ],\"expiration\":1\x7d"

theorem hasText_respelled
    : Json.HasText (.object [(Text.ofString "z", .array [.null]), (expirationName, .int 1)])
        respelled := by
  have hblank : Json.IsBlank (Text.ofString " ") := by
    intro c hc
    cases List.mem_singleton.1 hc
    rfl
  have hname : Json.QuotedText (Text.ofString "z") (Text.ofString "\"\\u007a\"") :=
    @Json.QuotedText.quoted [(CodePoint.ofChar 'z', Text.ofString "\\u007a")] (by
      rw [List.forall_mem_singleton]
      exact .unit rfl ⟨_, _, _, _, 0, 0, 7, 10, rfl, rfl, rfl, rfl, rfl, rfl⟩)
  have hexpiration : Json.QuotedText expirationName (Text.ofString "\"expiration\"") :=
    @Json.quotedText_quoted false expirationName nofun
  have harray : Json.ValueText (.array [.null]) (Text.ofString "[null ]") :=
    @Json.ValueText.array
      [(.null, ⟨[], Text.ofString "null", Text.ofString " ", Json.isBlank_nil, hblank⟩)]
      (by simp) (List.forall_mem_singleton.2 .null)
  have hone : Json.ValueText (.int 1) (Text.ofString "1") :=
    Json.valueText_ofInt (Text.hasNumeral_iff.2 (by decide))
  have hobject := @Json.ValueText.object [
    ⟨Text.ofString "z",
      ⟨Text.ofString " ", Text.ofString "\"\\u007a\"", [], hblank, Json.isBlank_nil⟩,
      .array [.null], ⟨Text.ofString " ", Text.ofString "[null ]", [], hblank, Json.isBlank_nil⟩⟩,
    ⟨expirationName,
      ⟨[], Text.ofString "\"expiration\"", [], Json.isBlank_nil, Json.isBlank_nil⟩,
      .int 1, ⟨[], Text.ofString "1", [], Json.isBlank_nil, Json.isBlank_nil⟩⟩] (by simp)
    (List.forall_mem_cons.2 ⟨hname, List.forall_mem_singleton.2 hexpiration⟩)
    (List.forall_mem_cons.2 ⟨harray, List.forall_mem_singleton.2 hone⟩)
  exact ⟨⟨[], _, [], Json.isBlank_nil, Json.isBlank_nil⟩, rfl, hobject⟩

theorem unambiguous_nested
    : Unambiguous [(expirationName, .int 1), (Text.ofString "z", .array [.null])] := by
  have hparts : ∀ {P : Json → Prop}, P (.int 1) → P (.array [.null]) → P .null →
      ∀ m ∈ [(expirationName, Json.int 1), (Text.ofString "z", .array [.null])],
        ∀ x, Json.Within x m.2 → P x := by
    intro P hint harray hnull
    simp only [List.forall_mem_cons, Json.forall_within_array]
    refine ⟨?_, ⟨harray, ?_, by simp⟩, by simp⟩
    . rintro _ (_ | _)
      exact hint
    . rintro _ (_ | _)
      exact hnull
  have hone : hasNumeral 1 = true := Text.hasNumeral_iff.2 (by decide)
  have hnumeral := Json.forall_within_object.2 ⟨nofun,
    @hparts (fun x => ∀ n, x = .int n → hasNumeral n = true) (fun n hn => Json.int.inj hn ▸ hone)
      nofun nofun⟩
  have hfinite := Json.forall_within_object.2 ⟨nofun,
    @hparts (fun x => ∀ f, x = .float f → f.isFinite = true) nofun nofun nofun⟩
  constructor
  . refine ⟨fun n hn => hnumeral _ hn n rfl, ?_, by decide⟩
    refine Json.forall_within_object.2 ⟨?_, hparts trivial trivial trivial⟩
    simp only [Json.legibleNode, List.forall_mem_cons]
    decide
  . refine Json.forall_within_object.2 ⟨?_, hparts trivial trivial trivial⟩
    simp only [Json.distinctNode]
    decide
  . exact fun x hx => hfinite _ hx x rfl

end SignedToken.Token
