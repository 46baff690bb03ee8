import SignedToken.Proofs.Claim.Equal
import SignedToken.Proofs.Json.Numbers

/-!
This module contains what equality of claim values and equality of their JSON forms have to do with
each other. Equal values differ in nothing but their numbers, as `1`, `1.0` and `true` are equal but
not written alike, and values with one JSON form are equal.
-/

namespace SignedToken.ClaimValue

/-! ### Mappings of either kind -/

theorem dict_equals (entries : List (ClaimValue × ClaimValue)) (w : ClaimValue)
    : (dict entries).equals w = (readOnly entries).equals w := by
  cases w <;> simp [equals]

theorem equals_dict (v : ClaimValue) (entries : List (ClaimValue × ClaimValue))
    : v.equals (dict entries) = v.equals (readOnly entries) := by
  cases v <;> simp [equals, number?]

theorem distinct_texts_iff {f : β → ClaimValue} {zs : List (Text × β)}
    : ((zs.map fun z => (text z.1, f z.2)).Pairwise fun e f => e.1.equals f.1 = false)
        ↔
      (zs.map (·.1)).Nodup := by
  rw [List.Nodup, List.pairwise_map, List.pairwise_map]
  simp only [equals_text, beq_eq_false_iff_ne]

theorem equalItems_iff {xs ys : List ClaimValue}
    : equalItems xs ys = true
        ↔
      ∃ ps : List (ClaimValue × ClaimValue), xs = ps.map (·.1) ∧ ys = ps.map (·.2) ∧
        ∀ p ∈ ps, p.1.equals p.2 = true := by
  constructor
  . intro h
    induction xs generalizing ys with
    | nil =>
      cases ys with
      | nil => exact ⟨[], rfl, rfl, by simp⟩
      | cons y ys => cases h
    | cons x xs ih =>
      cases ys with
      | nil => cases h
      | cons y ys =>
        rw [equalItems, Bool.and_eq_true] at h
        obtain ⟨ps, rfl, rfl, hall⟩ := ih h.2
        exact ⟨(x, y) :: ps, rfl, rfl, List.forall_mem_cons.2 ⟨h.1, hall⟩⟩
  . rintro ⟨ps, rfl, rfl, hall⟩
    exact equalItems_map_iff.2 hall

theorem texts_equals_texts_iff {zs ys : List (Text × ClaimValue)}
    : (readOnly (zs.map fun z => (text z.1, z.2))).equals
        (readOnly (ys.map fun y => (text y.1, y.2))) = true
        ↔
      zs.length = ys.length ∧ ∀ z ∈ zs, ∃ y ∈ ys, z.1 = y.1 ∧ z.2.equals y.2 = true := by
  rw [readOnly_equals_readOnly_iff, List.length_map, List.length_map, List.forall_mem_map]
  refine and_congr_right fun _ => forall₂_congr fun z _ => ?_
  constructor
  . rintro ⟨f, hf, hname, hvalue⟩
    obtain ⟨y, hy, rfl⟩ := List.mem_map.1 hf
    rw [equals_text, beq_iff_eq] at hname
    exact ⟨y, hy, hname, hvalue⟩
  . rintro ⟨y, hy, hname, hvalue⟩
    refine ⟨_, List.mem_map_of_mem hy, ?_, hvalue⟩
    rw [equals_text, beq_iff_eq]
    exact hname

/-! ### Equal values -/

theorem number?_of_equals {v w : ClaimValue} (h : v.equals w = true) (hv : v.number?.isSome = true)
    : w.number?.isSome = true := by
  cases v with
  | bool | int | float =>
    rw [equals] at h
    split at h
    . next hw => rw [hw, Option.isSome_some]
    . cases h
  | _ => cases hv

theorem numbers_of_number? {v : ClaimValue} {j : Json} (hv : v.number?.isSome = true)
    (h : v.thaw.toJson false = .ok j) : j.numbers = [j] := by
  cases v with
  | bool b =>
    cases h
    rfl
  | int n =>
    obtain ⟨-, rfl⟩ := toJson_int_eq_ok_iff.1 h
    rfl
  | float x =>
    obtain ⟨-, rfl⟩ := toJson_float_eq_ok_iff.1 h
    rfl
  | _ => cases hv

theorem sameButNumbers_of_texts {zs ys : List (Text × ClaimValue)} (hnodup : (zs.map (·.1)).Nodup)
    (h : (readOnly (zs.map fun z => (text z.1, z.2))).equals
      (readOnly (ys.map fun y => (text y.1, y.2))) = true)
    (hvalue : ∀ z ∈ zs, ∀ y ∈ ys, z.2.equals y.2 = true →
      (z.2.thaw.jsonOf false).SameButNumbers (y.2.thaw.jsonOf false))
    : (Json.object (Json.sortMembers (zs.map fun z => (z.1, z.2.thaw.jsonOf false)))).SameButNumbers
        (.object (Json.sortMembers (ys.map fun y => (y.1, y.2.thaw.jsonOf false)))) := by
  obtain ⟨hlength, hpartner⟩ := texts_equals_texts_iff.1 h
  obtain ⟨ps, rfl, hperm, hequals⟩ :=
    Entries.exists_pairs (R := fun v w => v.equals w = true) hnodup hlength hpartner
  have hnodup' : ((ys.map fun y => (y.1, y.2.thaw.jsonOf false)).map (·.1)).Nodup := by
    rw [List.map_map] at hnodup ⊢
    refine ((hperm.map (·.1)).nodup_iff).2 ?_
    rwa [List.map_map]
  -- Sorted, the names are the same on both sides, so the pairs can be sorted instead.
  have hleft : Json.sortMembers
        ((ps.map fun p => (p.1, p.2.1)).map fun z => (z.1, z.2.thaw.jsonOf false))
      = (Json.sortMembers ps).map fun p => (p.1, p.2.1.thaw.jsonOf false) := by
    rw [List.map_map]
    exact Json.sortMembers_map (fun p : ClaimValue × ClaimValue => p.1.thaw.jsonOf false) ps
  have hright : Json.sortMembers (ys.map fun y => (y.1, y.2.thaw.jsonOf false))
      = (Json.sortMembers ps).map fun p => (p.1, p.2.2.thaw.jsonOf false) := by
    rw [Json.sortMembers_eq_of_perm (hperm.map _) hnodup', List.map_map]
    exact Json.sortMembers_map (fun p : ClaimValue × ClaimValue => p.2.thaw.jsonOf false) ps
  rw [hleft, hright]
  apply Json.sameButNumbers_object (f := fun p : ClaimValue × ClaimValue => p.1.thaw.jsonOf false)
    (g := fun p : ClaimValue × ClaimValue => p.2.thaw.jsonOf false)
  intro p hp
  have hp := Json.mem_sortMembers.1 hp
  apply hvalue (p.1, p.2.1) _ (p.1, p.2.2) _ (hequals p hp)
  . exact List.mem_map.2 ⟨p, hp, rfl⟩
  . exact hperm.mem_iff.2 (List.mem_map.2 ⟨p, hp, rfl⟩)

theorem sameButNumbers_of_mapping {es : List (ClaimValue × ClaimValue)} {w : ClaimValue} {j k : Json}
    (hes : ∀ e ∈ es, ∃ t, e.1 = text t)
    (hdistinct : es.Pairwise fun e f => e.1.equals f.1 = false) (hw : w.IsHeldForm)
    (hj : (dict (es.map fun e => (e.1, e.2.thaw))).toJson false = .ok j)
    (hk : w.thaw.toJson false = .ok k) (h : (readOnly es).equals w = true)
    (hvalue : ∀ e ∈ es, ∀ j k v, e.2.thaw.toJson false = .ok j → v.thaw.toJson false = .ok k →
      v.IsHeldForm → e.2.equals v = true → j.SameButNumbers k)
    : j.SameButNumbers k := by
  obtain ⟨fs, hfs, hform, hk⟩ : ∃ fs, (readOnly es).equals (readOnly fs) = true ∧
      (∀ f ∈ fs, (∃ t, f.1 = text t) ∧ f.2.IsHeldForm) ∧
      (dict (fs.map fun f => (f.1, f.2.thaw))).toJson false = .ok k := by
    cases w with
    | dict fs =>
      rw [equals_dict] at h
      rw [thaw, thawEntries_eq_map] at hk
      exact ⟨fs, h, isHeldForm_dict_iff.1 hw, hk⟩
    | readOnly fs =>
      rw [thaw, thawEntries_eq_map] at hk
      exact ⟨fs, h, isHeldForm_readOnly_iff.1 hw, hk⟩
    | _ => simp [equals] at h
  obtain ⟨zs, rfl⟩ := exists_texts_of_keys hes
  obtain ⟨ys, rfl⟩ := exists_texts_of_keys fun f hf => (hform f hf).1
  rw [List.map_map] at hj hk
  obtain ⟨hzs, rfl⟩ := (toJson_texts_eq_ok_iff (f := thaw)).1 hj
  obtain ⟨hys, rfl⟩ := (toJson_texts_eq_ok_iff (f := thaw)).1 hk
  rw [List.forall_mem_map] at hform hvalue
  apply sameButNumbers_of_texts ((distinct_texts_iff (f := id)).1 hdistinct) hfs
  exact fun z hz y hy => hvalue z hz _ _ y.2 (hzs z hz) (hys y hy) (hform y hy).2

theorem sameButNumbers_of_equals {v w : ClaimValue} {j k : Json} (hdistinct : v.HasDistinctKeys)
    (hv : v.IsHeldForm) (hw : w.IsHeldForm) (hj : v.thaw.toJson false = .ok j)
    (hk : w.thaw.toJson false = .ok k) (h : v.equals w = true) : j.SameButNumbers k := by
  induction v generalizing w j k with
  | null =>
    cases w with
    | null =>
      cases hj
      cases hk
      exact Json.sameButNumbers_self .null
    | _ => simp [equals] at h
  | bool | int | float =>
    have hnumber := number?_of_equals h rfl
    exact Json.sameButNumbers_of_number (numbers_of_number? rfl hj) (numbers_of_number? hnumber hk)
  | text t =>
    obtain rfl := equals_text_left_iff.1 h
    cases hj
    cases hk
    exact (Json.text t).sameButNumbers_self
  | tuple items ih =>
    cases w with
    | tuple ys =>
      rw [equals, equalItems_iff] at h
      obtain ⟨ps, rfl, rfl, hequals⟩ := h
      rw [isHeldForm_tuple_iff, List.forall_mem_map] at hv hw
      rw [hasDistinctKeys_tuple_iff, List.forall_mem_map] at hdistinct
      rw [thaw, thawItems_eq_map, List.map_map, toJson_list_eq_ok_iff, List.forall_mem_map,
        List.map_map] at hj hk
      obtain ⟨hj, rfl⟩ := hj
      obtain ⟨hk, rfl⟩ := hk
      apply Json.sameButNumbers_array
      intro p hp
      exact ih p.1 (List.mem_map_of_mem hp) (hdistinct p hp) (hv p hp) (hw p hp) (hj p hp) (hk p hp)
        (hequals p hp)
    | _ => simp [equals] at h
  | dict es ih =>
    rw [dict_equals] at h
    rw [thaw, thawEntries_eq_map] at hj
    rw [isHeldForm_dict_iff] at hv
    rw [hasDistinctKeys_dict_iff] at hdistinct
    apply sameButNumbers_of_mapping (fun e he => (hv e he).1) hdistinct.1 hw hj hk h
    exact fun e he j k v hj hk hv' =>
      ih e he (hdistinct.2 e he) (hv e he).2 hv' hj hk
  | readOnly es ih =>
    rw [thaw, thawEntries_eq_map] at hj
    rw [isHeldForm_readOnly_iff] at hv
    rw [hasDistinctKeys_readOnly_iff] at hdistinct
    apply sameButNumbers_of_mapping (fun e he => (hv e he).1) hdistinct.1 hw hj hk h
    exact fun e he j k v hj hk hv' =>
      ih e he (hdistinct.2 e he) (hv e he).2 hv' hj hk
  | bytes => cases hj
  | list => exact (hv _ .self).elim
  | foreign => cases hj

/-! ### Values with one JSON form -/

theorem equals_freeze_ofJson_texts {zs : List (Text × ClaimValue)} (hnodup : (zs.map (·.1)).Nodup)
    (hvalue : ∀ z ∈ zs, ∀ w, (ofJson (z.2.thaw.jsonOf false)).freeze.equals w = z.2.equals w)
    (w : ClaimValue)
    : (ofJson (.object
        (Json.sortMembers (zs.map fun z => (z.1, z.2.thaw.jsonOf false))))).freeze.equals w
        =
      (readOnly (zs.map fun z => (text z.1, z.2))).equals w := by
  have hsorted : ((Json.sortMembers (zs.map fun z => (z.1, z.2.thaw.jsonOf false))).map
      (·.1)).Nodup := by
    rw [Json.nodup_sortMembers_iff, List.map_map]
    exact hnodup
  rw [ofJson_object, Entries.ofList_of_nodup hsorted, freeze, freezeEntries_eq_map, List.map_map]
  have hreadOnly : ∀ fs : List (ClaimValue × ClaimValue),
      (readOnly ((Json.sortMembers (zs.map fun z => (z.1, z.2.thaw.jsonOf false))).map fun m =>
        (text m.1, (ofJson m.2).freeze))).equals (readOnly fs)
        = (readOnly (zs.map fun z => (text z.1, z.2))).equals (readOnly fs) := by
    intro fs
    rw [Bool.eq_iff_iff, readOnly_equals_readOnly_iff, readOnly_equals_readOnly_iff,
      List.forall_mem_map, List.forall_mem_map, List.length_map, List.length_map,
      (Json.sortMembers_perm _).length_eq, List.length_map]
    simp only [Json.mem_sortMembers]
    rw [List.forall_mem_map]
    refine and_congr_right fun _ => forall₂_congr fun z hz => ?_
    simp only [hvalue z hz]
  cases w with
  | readOnly fs => exact hreadOnly fs
  | dict fs =>
    rw [equals_dict, equals_dict]
    exact hreadOnly fs
  | _ => simp [equals]

theorem equals_freeze_ofJson_mapping {es : List (ClaimValue × ClaimValue)} {j : Json}
    (hes : ∀ e ∈ es, ∃ t, e.1 = text t) (hdistinct : es.Pairwise fun e f => e.1.equals f.1 = false)
    (h : (dict (es.map fun e => (e.1, e.2.thaw))).toJson false = .ok j)
    (hvalue : ∀ e ∈ es, ∀ j, e.2.thaw.toJson false = .ok j →
      ∀ w, (ofJson j).freeze.equals w = e.2.equals w)
    (w : ClaimValue) : (ofJson j).freeze.equals w = (readOnly es).equals w := by
  obtain ⟨zs, rfl⟩ := exists_texts_of_keys hes
  rw [List.map_map] at h
  obtain ⟨hall, rfl⟩ := (toJson_texts_eq_ok_iff (f := thaw)).1 h
  rw [List.forall_mem_map] at hvalue
  apply equals_freeze_ofJson_texts ((distinct_texts_iff (f := id)).1 hdistinct)
  exact fun z hz => hvalue z hz _ (hall z hz)

theorem equalItems_congr {f : ClaimValue → ClaimValue} {items : List ClaimValue}
    (h : ∀ x ∈ items, ∀ w, (f x).equals w = x.equals w) (ys : List ClaimValue)
    : equalItems (items.map f) ys = equalItems items ys := by
  induction items generalizing ys with
  | nil => rfl
  | cons x xs ih =>
    rw [List.forall_mem_cons] at h
    cases ys with
    | nil => rfl
    | cons y ys => rw [List.map_cons, equalItems, equalItems, h.1, ih h.2]

theorem equals_freeze_ofJson {v : ClaimValue} {j : Json} (hdistinct : v.HasDistinctKeys)
    (hv : v.IsHeldForm) (h : v.thaw.toJson false = .ok j) (w : ClaimValue)
    : (ofJson j).freeze.equals w = v.equals w := by
  induction v generalizing j w with
  | null | bool | text =>
    cases h
    rfl
  | int n =>
    obtain ⟨-, rfl⟩ := toJson_int_eq_ok_iff.1 h
    rfl
  | float x =>
    obtain ⟨-, rfl⟩ := toJson_float_eq_ok_iff.1 h
    rfl
  | tuple items ih =>
    rw [thaw, thawItems_eq_map, toJson_list_eq_ok_iff, List.forall_mem_map, List.map_map] at h
    obtain ⟨hall, rfl⟩ := h
    rw [isHeldForm_tuple_iff] at hv
    rw [hasDistinctKeys_tuple_iff] at hdistinct
    rw [ofJson, ofJsonItems_eq_map, freeze, freezeItems_eq_map, List.map_map, List.map_map]
    cases w with
    | tuple ys =>
      rw [equals, equals]
      exact equalItems_congr (fun x hx => ih x hx (hdistinct x hx) (hv x hx) (hall x hx)) ys
    | _ => simp [equals]
  | dict es ih =>
    rw [thaw, thawEntries_eq_map] at h
    rw [isHeldForm_dict_iff] at hv
    rw [hasDistinctKeys_dict_iff] at hdistinct
    rw [dict_equals]
    apply equals_freeze_ofJson_mapping (fun e he => (hv e he).1) hdistinct.1 h
    exact fun e he j => ih e he (hdistinct.2 e he) (hv e he).2
  | readOnly es ih =>
    rw [thaw, thawEntries_eq_map] at h
    rw [isHeldForm_readOnly_iff] at hv
    rw [hasDistinctKeys_readOnly_iff] at hdistinct
    apply equals_freeze_ofJson_mapping (fun e he => (hv e he).1) hdistinct.1 h
    exact fun e he j => ih e he (hdistinct.2 e he) (hv e he).2
  | bytes => cases h
  | list => exact (hv _ .self).elim
  | foreign => cases h

theorem jsonOf_eq_iff {v w : ClaimValue} {j k : Json} (hdistinct : v.HasDistinctKeys)
    (hdistinct' : w.HasDistinctKeys) (hv : v.IsHeldForm) (hw : w.IsHeldForm)
    (hj : v.thaw.toJson false = .ok j) (hk : w.thaw.toJson false = .ok k)
    : j = k ↔ v.equals w = true ∧ j.numbers = k.numbers := by
  constructor
  . rintro rfl
    rw [← equals_freeze_ofJson hdistinct hv hj]
    exact ⟨(freeze_ofJson_equals_iff hdistinct' hk).2 hw, rfl⟩
  . rintro ⟨hequals, hnumbers⟩
    exact (sameButNumbers_of_equals hdistinct hv hw hj hk hequals).eq hnumbers

end SignedToken.ClaimValue
