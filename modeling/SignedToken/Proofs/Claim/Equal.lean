import SignedToken.Proofs.Claim.Freeze
import SignedToken.Proofs.Claim.Written

/-!
This module contains the laws of equality of claim values, and what they come to for a value and the
copy of it that is read from its JSON text: the two are equal for values of the form in which such
copies are held, and for no others.
-/

namespace SignedToken.ClaimValue

/-! ### Sequences and mappings -/

theorem equals_text_left_iff {s : Text} {v : ClaimValue}
    : equals (text s) v = true ↔ v = text s := by
  cases v with
  | text t =>
    rw [equals_text, beq_iff_eq, text.injEq]
    exact eq_comm
  | _ => simp [equals]

theorem equals_float_self {x : Binary64} (h : x.isFinite = true)
    : equals (float x) (float x) = true := by
  cases x with
  | finite negative m => simp [equals, number?, sameNumber, Binary64.equals]
  | infinite | nan => cases h

theorem equalItems_map_iff {f g : α → ClaimValue} {items : List α}
    : equalItems (items.map f) (items.map g) = true
        ↔
      ∀ x ∈ items, (f x).equals (g x) = true := by
  induction items with
  | nil => simp [equalItems]
  | cons x xs ih =>
    rw [List.map_cons, List.map_cons, equalItems, Bool.and_eq_true, ih, List.forall_mem_cons]

theorem entriesWithin_iff {es fs : List (ClaimValue × ClaimValue)}
    : entriesWithin es fs = true
        ↔
      ∀ e ∈ es, ∃ f ∈ fs, e.1.equals f.1 = true ∧ e.2.equals f.2 = true := by
  induction es with
  | nil => simp [entriesWithin]
  | cons e es ih =>
    rw [entriesWithin, Bool.and_eq_true, ih, List.forall_mem_cons]
    simp

theorem readOnly_equals_readOnly_iff {es fs : List (ClaimValue × ClaimValue)}
    : equals (readOnly es) (readOnly fs) = true
        ↔
      es.length = fs.length ∧
        ∀ e ∈ es, ∃ f ∈ fs, e.1.equals f.1 = true ∧ e.2.equals f.2 = true := by
  rw [equals, Bool.and_eq_true, entriesWithin_iff, beq_iff_eq]

theorem readOnly_equals_dict (es fs : List (ClaimValue × ClaimValue))
    : equals (readOnly es) (dict fs) = equals (readOnly es) (readOnly fs) := by
  rw [equals, equals]

theorem equals_of_perm_iff {f : α → ClaimValue} {g : β → ClaimValue} {h : β → α}
    {ms : List (Text × α)} {zs : List (Text × β)} (hnodup : (zs.map (·.1)).Nodup)
    (hperm : ms.Perm (zs.map fun z => (z.1, h z.2)))
    : equals (readOnly (ms.map fun m => (text m.1, f m.2)))
        (readOnly (zs.map fun z => (text z.1, g z.2))) = true
        ↔
      ∀ z ∈ zs, (f (h z.2)).equals (g z.2) = true := by
  have hlength : ms.length = zs.length := by
    rw [hperm.length_eq, List.length_map]
  rw [readOnly_equals_readOnly_iff, List.length_map, List.length_map, and_iff_right hlength,
    List.forall_mem_map]
  constructor
  . intro hall z hz
    have hm : (z.1, h z.2) ∈ ms := hperm.mem_iff.2 (List.mem_map.2 ⟨z, hz, rfl⟩)
    obtain ⟨e, he, hname, hequals⟩ := hall _ hm
    obtain ⟨z', hz', rfl⟩ := List.mem_map.1 he
    rw [equals_text, beq_iff_eq] at hname
    rwa [← Entries.eq_of_mem_of_nodup hnodup hz hz' hname] at hequals
  . intro hall m hm
    obtain ⟨z, hz, rfl⟩ := List.mem_map.1 (hperm.mem_iff.1 hm)
    refine ⟨_, List.mem_map_of_mem hz, ?_, hall z hz⟩
    rw [equals_text, beq_iff_eq]

/-! ### The form of values that were read -/

def heldNode : ClaimValue → Prop
  | list _ => False
  | dict entries | readOnly entries => ∀ e ∈ entries, ∃ t, e.1 = text t
  | _ => True

/--
Whether a value has the form in which claims are held that were read: there are no lists in it, and
only texts are keys.
-/
def IsHeldForm (v : ClaimValue) : Prop :=
  ∀ x, Within x v → x.heldNode

theorem isHeldForm_tuple_iff {items : List ClaimValue}
    : (tuple items).IsHeldForm ↔ ∀ x ∈ items, x.IsHeldForm :=
  forall_within_tuple.trans (and_iff_right trivial)

theorem isHeldForm_dict_iff {entries : List (ClaimValue × ClaimValue)}
    : (dict entries).IsHeldForm ↔ ∀ e ∈ entries, (∃ t, e.1 = text t) ∧ e.2.IsHeldForm := by
  simp only [imp_and, forall_and]
  exact forall_within_dict

theorem isHeldForm_readOnly_iff {entries : List (ClaimValue × ClaimValue)}
    : (readOnly entries).IsHeldForm ↔ ∀ e ∈ entries, (∃ t, e.1 = text t) ∧ e.2.IsHeldForm := by
  simp only [imp_and, forall_and]
  exact forall_within_readOnly

def distinctNode : ClaimValue → Prop
  | dict entries | readOnly entries => entries.Pairwise fun e f => e.1.equals f.1 = false
  | _ => True

def HasDistinctKeys (v : ClaimValue) : Prop :=
  ∀ x, Within x v → x.distinctNode

theorem hasDistinctKeys_tuple_iff {items : List ClaimValue}
    : (tuple items).HasDistinctKeys ↔ ∀ x ∈ items, x.HasDistinctKeys :=
  forall_within_tuple.trans (and_iff_right trivial)

theorem hasDistinctKeys_dict_iff {entries : List (ClaimValue × ClaimValue)}
    : (dict entries).HasDistinctKeys
        ↔
      entries.Pairwise (fun e f => e.1.equals f.1 = false) ∧ ∀ e ∈ entries, e.2.HasDistinctKeys :=
  forall_within_dict

theorem hasDistinctKeys_readOnly_iff {entries : List (ClaimValue × ClaimValue)}
    : (readOnly entries).HasDistinctKeys
        ↔
      entries.Pairwise (fun e f => e.1.equals f.1 = false) ∧ ∀ e ∈ entries, e.2.HasDistinctKeys :=
  forall_within_readOnly

/-! ### Keys -/

theorem comparable_text_iff {k : ClaimValue} {t : Text}
    : comparable k (text t) = true ↔ ∃ s, k = text s := by
  cases k <;> simp [comparable, number?]

theorem text_comparable_iff {k : ClaimValue} {t : Text}
    : comparable (text t) k = true ↔ ∃ s, k = text s := by
  cases k <;> simp [comparable, number?]

theorem texts_or_no_text {keys : List ClaimValue} (h : firstIncomparable? keys = none)
    : (∀ k ∈ keys, ∃ t, k = text t) ∨ ∀ k ∈ keys, ∀ t, k ≠ text t := by
  -- Only neighbours are compared, and next to a text only a text can be compared.
  induction keys with
  | nil => simp
  | cons a keys ih =>
    cases keys with
    | nil =>
      by_cases ha : ∃ t, a = text t
      . exact .inl (List.forall_mem_singleton.2 ha)
      . exact .inr (List.forall_mem_singleton.2 fun t heq => ha ⟨t, heq⟩)
    | cons b keys =>
      unfold firstIncomparable? at h
      split at h
      . next hcomparable =>
        cases ih h with
        | inl hall =>
          obtain ⟨t, rfl⟩ := hall b List.mem_cons_self
          exact .inl (List.forall_mem_cons.2 ⟨text_comparable_iff.1 hcomparable, hall⟩)
        | inr hnone =>
          refine .inr (List.forall_mem_cons.2 ⟨?_, hnone⟩)
          rintro t rfl
          obtain ⟨s, hs⟩ := comparable_text_iff.1 hcomparable
          exact hnone b List.mem_cons_self s hs
      . cases h

theorem exists_texts_of_keys {entries : List (ClaimValue × ClaimValue)}
    (h : ∀ e ∈ entries, ∃ t, e.1 = text t)
    : ∃ zs : List (Text × ClaimValue), entries = zs.map fun z => (text z.1, z.2) := by
  refine ⟨entries.map fun e => (e.1.nameText false, e.2), ?_⟩
  rw [List.map_map, List.map_congr_left (g := id), List.map_id]
  intro e he
  obtain ⟨t, ht⟩ := h e he
  obtain ⟨k, v⟩ := e
  dsimp only at ht
  subst ht
  rfl

/-! ### Values and their copies -/

theorem freeze_ofJson_not_equals_readOnly {entries : List (ClaimValue × ClaimValue)} {j : Json}
    (htexts : ¬ ∀ e ∈ entries, ∃ t, e.1 = text t)
    (h : (dict (entries.map fun e => (e.1, e.2.thaw))).toJson false = .ok j)
    : (ofJson j).freeze.equals (readOnly entries) ≠ true := by
  intro hequals
  obtain ⟨hkeys, -, rfl⟩ := toJson_dict_eq_ok_iff.1 h
  have hnone : ∀ e ∈ entries, ∀ t, e.1 ≠ text t := by
    have hsame : (entries.map fun e => (e.1, e.2.thaw)).map (·.1) = entries.map (·.1) := by
      simp
    rw [hsame] at hkeys
    have := texts_or_no_text hkeys
    rw [List.forall_mem_map, List.forall_mem_map] at this
    exact this.resolve_left htexts
  obtain ⟨e, he⟩ : ∃ e, e ∈ entries := by
    apply List.exists_mem_of_ne_nil
    rintro rfl
    exact htexts fun e he => absurd he List.not_mem_nil
  -- Keys that are no texts have names all the same, but none of them equals its name.
  generalize hmembers : List.map _ (List.mergeSort _ _) = members at hequals
  have hname : e.1.nameText false ∈ members.map (·.1) := by
    rw [← hmembers, List.map_map]
    refine List.mem_map.2 ⟨(e.1, e.2.thaw), List.mem_mergeSort.2 ?_, rfl⟩
    exact List.mem_map.2 ⟨e, he, rfl⟩
  obtain ⟨m, hm, -⟩ := List.mem_map.1 (Entries.mem_map_fst_ofList.2 hname)
  rw [ofJson_object, freeze, freezeEntries_eq_map, List.map_map,
    readOnly_equals_readOnly_iff] at hequals
  obtain ⟨f, hf, hfname, -⟩ := hequals.2 _ (List.mem_map_of_mem hm)
  exact hnone f hf m.1 (equals_text_left_iff.1 hfname)

theorem freeze_ofJson_equals_readOnly_iff {entries : List (ClaimValue × ClaimValue)} {j : Json}
    (hdistinct : entries.Pairwise fun e f => e.1.equals f.1 = false)
    (h : (dict (entries.map fun e => (e.1, e.2.thaw))).toJson false = .ok j)
    : (ofJson j).freeze.equals (readOnly entries) = true
        ↔
      ∀ e ∈ entries, (∃ t, e.1 = text t) ∧
        (ofJson (e.2.thaw.jsonOf false)).freeze.equals e.2 = true := by
  by_cases htexts : ∀ e ∈ entries, ∃ t, e.1 = text t
  . obtain ⟨zs, rfl⟩ := exists_texts_of_keys htexts
    have hnodup : (zs.map (·.1)).Nodup := by
      rw [List.Nodup, List.pairwise_map]
      refine (List.pairwise_map.1 hdistinct).imp fun hne => ?_
      rwa [equals_text, beq_eq_false_iff_ne] at hne
    rw [List.map_map] at h
    obtain ⟨-, rfl⟩ := (toJson_texts_eq_ok_iff (f := thaw)).1 h
    have hsorted : ((Json.sortMembers (zs.map fun z => (z.1, z.2.thaw.jsonOf false))).map
        (·.1)).Nodup := by
      rw [Json.nodup_sortMembers_iff, List.map_map]
      exact hnodup
    rw [ofJson_object, Entries.ofList_of_nodup hsorted, freeze, freezeEntries_eq_map, List.map_map]
    rw [List.forall_mem_map]
    refine (equals_of_perm_iff (f := fun x => (ofJson x).freeze) (g := id)
      (h := fun v => v.thaw.jsonOf false) hnodup (Json.sortMembers_perm _)).trans ?_
    exact forall₂_congr fun z hz => (and_iff_right ⟨z.1, rfl⟩).symm
  . apply iff_of_false
    . exact freeze_ofJson_not_equals_readOnly htexts h
    . exact fun hall => htexts fun e he => (hall e he).1

theorem isHeldForm_freeze_ofJson (j : Json) : (ofJson j).freeze.IsHeldForm := by
  induction j with
  | array items ih =>
    rw [ofJson, ofJsonItems_eq_map, freeze, freezeItems_eq_map, isHeldForm_tuple_iff,
      List.forall_mem_map, List.forall_mem_map]
    exact ih
  | object members ih =>
    rw [ofJson_object, freeze, freezeEntries_eq_map, isHeldForm_readOnly_iff, List.forall_mem_map,
      List.forall_mem_map]
    intro m hm
    exact ⟨⟨m.1, rfl⟩, Entries.forall_snd_ofList (fun x => (ofJson x).freeze.IsHeldForm) ih m hm⟩
  | null | bool | int | float | text =>
    rintro _ (_ | _)
    trivial

theorem hasDistinctKeys_freeze_ofJson (j : Json) : (ofJson j).freeze.HasDistinctKeys := by
  induction j with
  | array items ih =>
    rw [ofJson, ofJsonItems_eq_map, freeze, freezeItems_eq_map, hasDistinctKeys_tuple_iff,
      List.forall_mem_map, List.forall_mem_map]
    exact ih
  | object members ih =>
    rw [ofJson_object, freeze, freezeEntries_eq_map, hasDistinctKeys_readOnly_iff,
      List.forall_mem_map, List.forall_mem_map, List.pairwise_map, List.pairwise_map]
    constructor
    . refine (List.pairwise_map.1 (Entries.nodup_ofList members)).imp fun hne => ?_
      rwa [equals_text, beq_eq_false_iff_ne]
    . exact Entries.forall_snd_ofList (fun x => (ofJson x).freeze.HasDistinctKeys) ih
  | null | bool | int | float | text =>
    rintro _ (_ | _)
    trivial

theorem freeze_ofJson_equals_iff {v : ClaimValue} {j : Json} (hv : v.HasDistinctKeys)
    (h : v.thaw.toJson false = .ok j)
    : (ofJson j).freeze.equals v = true ↔ v.IsHeldForm := by
  have hleaf : ∀ {v : ClaimValue}, (∀ x, Within x v → x = v) → v.heldNode → v.IsHeldForm := by
    intro v hself hnode x hx
    rwa [hself x hx]
  induction v generalizing j with
  | null | text =>
    cases h
    apply iff_of_true
    . simp [ofJson, freeze, equals]
    . exact hleaf (by rintro x (_ | _); rfl) trivial
  | bool b =>
    cases h
    apply iff_of_true
    . cases b <;> rfl
    . exact hleaf (by rintro x (_ | _); rfl) trivial
  | int n =>
    obtain ⟨-, rfl⟩ := toJson_int_eq_ok_iff.1 h
    apply iff_of_true
    . simp [ofJson, freeze, equals, number?, sameNumber]
    . exact hleaf (by rintro x (_ | _); rfl) trivial
  | float x =>
    obtain ⟨hx, rfl⟩ := toJson_float_eq_ok_iff.1 h
    rw [Bool.or_false] at hx
    apply iff_of_true (equals_float_self hx)
    exact hleaf (by rintro x (_ | _); rfl) trivial
  | list items =>
    -- A list comes back as a tuple, and no tuple equals a list.
    obtain ⟨-, rfl⟩ := toJson_list_eq_ok_iff.1 h
    apply iff_of_false _ fun hform => hform _ .self
    exact Bool.false_ne_true
  | tuple items ih =>
    rw [thaw, thawItems_eq_map] at h
    obtain ⟨hall, rfl⟩ := toJson_list_eq_ok_iff.1 h
    rw [List.forall_mem_map] at hall
    rw [hasDistinctKeys_tuple_iff] at hv
    rw [ofJson, ofJsonItems_eq_map, freeze, freezeItems_eq_map, List.map_map, List.map_map,
      List.map_map, equals, isHeldForm_tuple_iff]
    have hitems : equalItems (items.map (freeze ∘ ofJson ∘ jsonOf false ∘ thaw)) (items.map id) = true
        ↔ ∀ x ∈ items, (ofJson (x.thaw.jsonOf false)).freeze.equals x = true := equalItems_map_iff
    rw [List.map_id] at hitems
    exact hitems.trans (forall₂_congr fun x hx => ih x hx (hv x hx) (hall x hx))
  | dict entries ih =>
    rw [thaw, thawEntries_eq_map] at h
    obtain ⟨-, hall, hj⟩ := toJson_dict_eq_ok_iff.1 h
    rw [List.forall_mem_map] at hall
    rw [hasDistinctKeys_dict_iff] at hv
    -- A mapping comes back as a read-only one, which makes no difference to equality.
    have hequals : (ofJson j).freeze.equals (dict entries)
        = (ofJson j).freeze.equals (readOnly entries) := by
      rw [hj, ofJson, freeze, readOnly_equals_dict]
    rw [hequals, freeze_ofJson_equals_readOnly_iff hv.1 h, isHeldForm_dict_iff]
    exact forall₂_congr fun e he =>
      and_congr_right fun _ => ih e he (hv.2 e he) (hall e he).2
  | readOnly entries ih =>
    rw [thaw, thawEntries_eq_map] at h
    obtain ⟨-, hall, -⟩ := toJson_dict_eq_ok_iff.1 h
    rw [List.forall_mem_map] at hall
    rw [hasDistinctKeys_readOnly_iff] at hv
    rw [freeze_ofJson_equals_readOnly_iff hv.1 h, isHeldForm_readOnly_iff]
    exact forall₂_congr fun e he =>
      and_congr_right fun _ => ih e he (hv.2 e he) (hall e he).2
  | bytes | foreign => cases h

end SignedToken.ClaimValue
