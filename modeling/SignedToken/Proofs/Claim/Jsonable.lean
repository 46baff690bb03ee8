import SignedToken.Claim.Jsonable
import SignedToken.Proofs.Claim
import SignedToken.Proofs.Json.Legible
import SignedToken.Proofs.Outcome

/-!
This module contains the laws of reduction: what it gives is the value of some JSON text, and values
that come from JSON texts are reduced to themselves unless they are nested too deeply.
-/

namespace SignedToken.ClaimValue

theorem nesting_ofJson_le (j : Json) : (ofJson j).nesting ≤ j.nesting false := by
  induction j with
  | array items ih =>
    rw [ofJson, ofJsonItems_eq_map, nesting_list_le_iff, List.map_eq_nil_iff]
    obtain ⟨rfl, -⟩ | ⟨k, heq, hle⟩ :=
      Json.nesting_array_le_iff.1 (Nat.le_refl ((Json.array items).nesting false))
    . exact .inl rfl
    . exact .inr ⟨k, heq, List.forall_mem_map.2 fun x hx => Nat.le_trans (ih x hx) (hle x hx)⟩
  | object members ih =>
    rw [ofJson_object, nesting_dict_le_iff, List.map_eq_nil_iff]
    obtain ⟨rfl, -⟩ | ⟨k, heq, hle⟩ :=
      Json.nesting_object_le_iff.1 (Nat.le_refl ((Json.object members).nesting false))
    . exact .inl rfl
    . refine .inr ⟨k, heq, List.forall_mem_map.2 ?_⟩
      exact Entries.forall_snd_ofList (fun x => (ofJson x).nesting ≤ k) fun m hm =>
        Nat.le_trans (ih m hm) (hle m hm)
  | null | bool | int | float | text => exact Nat.zero_le _

/-! ### Items and entries -/

section Reduced

variable {depth : Nat}

def reduced (depth : Nat) (v : ClaimValue) : ClaimValue :=
  (reduce depth v).toOption.getD .null

theorem reduced_eq {v w : ClaimValue} (h : reduce depth v = .ok w) : reduced depth v = w := by
  rw [reduced, h]
  rfl

theorem reduce_eq_reduced {v w : ClaimValue} (h : reduce depth v = .ok w)
    : reduce depth v = .ok (reduced depth v) := by
  rw [reduced_eq h, h]

theorem reduceItems_eq_ok_iff {items ys : List ClaimValue}
    : reduceItems depth items = .ok ys
        ↔
      (∀ x ∈ items, reduce depth x = .ok (reduced depth x)) ∧ ys = items.map (reduced depth) := by
  induction items generalizing ys with
  | nil => simp [reduceItems, eq_comm]
  | cons x xs ih =>
    rw [reduceItems, List.forall_mem_cons, List.map_cons]
    constructor
    . intro h
      split at h
      . cases h
      . next y hy =>
        split at h
        . cases h
        . next ys' hys =>
          cases h
          obtain ⟨hall, rfl⟩ := ih.1 hys
          rw [reduced_eq hy]
          exact ⟨⟨hy, hall⟩, rfl⟩
    . rintro ⟨⟨hx, hall⟩, rfl⟩
      rw [hx, ih.2 ⟨hall, rfl⟩]

theorem keyText_text_eq_ok_iff {s t : Text}
    : keyText (text s) = .ok t ↔ s.any CodePoint.isSurrogate = false ∧ t = s := by
  rw [keyText]
  cases s.any CodePoint.isSurrogate <;> simp [eq_comm]

theorem reduceEntries_eq_ok_iff (done : List (Text × ClaimValue)) {zs : List (Text × ClaimValue)}
    {out : List (ClaimValue × ClaimValue)} (hnodup : ((done ++ zs).map (·.1)).Nodup)
    : reduceEntries depth (done.map fun m => (text m.1, m.2)) (zs.map fun m => (text m.1, m.2))
          = .ok out
        ↔
      (∀ z ∈ zs, z.1.any CodePoint.isSurrogate = false ∧
        reduce depth z.2 = .ok (reduced depth z.2)) ∧
        out = (done ++ zs.map fun z => (z.1, reduced depth z.2)).map fun m => (text m.1, m.2) := by
  induction zs generalizing done with
  | nil =>
    rw [List.map_nil, reduceEntries, Except.ok.injEq, List.map_nil, List.append_nil,
      and_iff_right (List.forall_mem_nil _), eq_comm]
  | cons z zs ih =>
    -- The name is new, so its entry goes to the end.
    have hput : Entries.put equals (text z.1) (reduced depth z.2) (done.map fun m => (text m.1, m.2))
        = (done ++ [(z.1, reduced depth z.2)]).map fun m => (text m.1, m.2) := by
      rw [Entries.put_of_forall_not_same, List.map_append]
      . rfl
      . intro e he
        obtain ⟨n, hn, rfl⟩ := List.mem_map.1 he
        rw [List.map_append, List.nodup_append] at hnodup
        rw [equals_text, beq_eq_false_iff_ne]
        exact hnodup.2.2 n.1 (List.mem_map_of_mem hn) z.1 (by simp)
    have hnext : ((done ++ [(z.1, reduced depth z.2)] ++ zs).map (·.1)).Nodup := by
      simpa using hnodup
    rw [List.map_cons, reduceEntries, List.forall_mem_cons, List.map_cons]
    constructor
    . intro h
      split at h
      . cases h
      . next t ht =>
        obtain ⟨hlegible, rfl⟩ := keyText_text_eq_ok_iff.1 ht
        split at h
        . cases h
        . next w hw =>
          rw [← reduced_eq hw, hput] at h
          obtain ⟨hall, rfl⟩ := (ih _ hnext).1 h
          exact ⟨⟨⟨hlegible, reduce_eq_reduced hw⟩, hall⟩, by simp⟩
    . rintro ⟨⟨⟨hlegible, hz⟩, hall⟩, rfl⟩
      rw [keyText_text_eq_ok_iff.2 ⟨hlegible, rfl⟩, hz]
      dsimp only
      rw [hput]
      refine (ih _ hnext).2 ⟨hall, ?_⟩
      rw [List.append_assoc]
      rfl

theorem reduceItems_of_forall {items : List ClaimValue} (h : ∀ x ∈ items, reduce depth x = .ok x)
    : reduceItems depth items = .ok items := by
  refine reduceItems_eq_ok_iff.2 ⟨fun x hx => reduce_eq_reduced (h x hx), ?_⟩
  rw [List.map_congr_left fun x hx => reduced_eq (h x hx), List.map_id']

theorem reduceEntries_of_forall {zs : List (Text × ClaimValue)} (hnodup : (zs.map (·.1)).Nodup)
    (hname : ∀ z ∈ zs, z.1.any CodePoint.isSurrogate = false)
    (h : ∀ z ∈ zs, reduce depth z.2 = .ok z.2)
    : reduceEntries depth [] (zs.map fun m => (text m.1, m.2)) = .ok (zs.map fun m => (text m.1, m.2)) := by
  refine (reduceEntries_eq_ok_iff [] hnodup).2
    ⟨fun z hz => ⟨hname z hz, reduce_eq_reduced (h z hz)⟩, ?_⟩
  rw [List.nil_append, List.map_map]
  exact List.map_congr_left fun z hz => by simp [reduced_eq (h z hz)]

end Reduced

/-! ### Values from JSON texts -/

theorem reduce_ofJson {j : Json} (hj : j.IsLegible) {depth : Nat}
    (hdepth : (ofJson j).nesting < depth) : reduce depth (ofJson j) = .ok (ofJson j) := by
  induction j generalizing depth with
  | array items ih =>
    obtain ⟨depth, rfl⟩ : ∃ n, depth = n + 1 := ⟨depth - 1, by omega⟩
    rw [Json.isLegible_array_iff] at hj
    rw [ofJson, ofJsonItems_eq_map] at hdepth ⊢
    have hitem : ∀ x ∈ items, reduce depth (ofJson x) = .ok (ofJson x) := by
      intro x hx
      apply ih x hx (hj x hx)
      obtain hnil | ⟨k, rfl, hle⟩ := nesting_list_le_iff.1 (Nat.le_of_lt_succ hdepth)
      . exact absurd hnil (List.ne_nil_of_mem (List.mem_map_of_mem hx))
      . exact Nat.lt_succ_of_le (hle _ (List.mem_map_of_mem hx))
    rw [reduce, reduceItems_of_forall (List.forall_mem_map.2 hitem)]
    rfl
  | object members ih =>
    obtain ⟨depth, rfl⟩ : ∃ n, depth = n + 1 := ⟨depth - 1, by omega⟩
    rw [Json.isLegible_object_iff] at hj
    rw [ofJson_object] at hdepth ⊢
    rw [reduce]
    have hvalue : ∀ m ∈ Entries.ofList (· == ·) members,
        (ofJson m.2).nesting < depth → reduce depth (ofJson m.2) = .ok (ofJson m.2) := by
      apply Entries.forall_snd_ofList fun x =>
        (ofJson x).nesting < depth → reduce depth (ofJson x) = .ok (ofJson x)
      exact fun m hm => ih m hm (hj m hm).2
    have hlegible : ∀ m ∈ Entries.ofList (· == ·) members,
        m.1.any CodePoint.isSurrogate = false :=
      Entries.forall_fst_ofList (fun t : Text => t.any CodePoint.isSurrogate = false)
        fun m hm => (hj m hm).1
    have hentry : ∀ m ∈ Entries.ofList (· == ·) members, reduce depth (ofJson m.2) = .ok (ofJson m.2) := by
      intro m hm
      apply hvalue m hm
      have hmem := List.mem_map_of_mem (f := fun m => (text m.1, ofJson m.2)) hm
      obtain hnil | ⟨k, rfl, hle⟩ := nesting_dict_le_iff.1 (Nat.le_of_lt_succ hdepth)
      . exact absurd hnil (List.ne_nil_of_mem hmem)
      . exact Nat.lt_succ_of_le (hle _ hmem)
    have hnodup : (((Entries.ofList (· == ·) members).map fun m => (m.1, ofJson m.2)).map
        (·.1)).Nodup := by
      rw [List.map_map]
      exact Entries.nodup_ofList members
    have hentries := reduceEntries_of_forall hnodup (List.forall_mem_map.2 hlegible)
      (List.forall_mem_map.2 hentry)
    rw [List.map_map] at hentries
    exact congrArg (Except.map dict) hentries
  | null | bool | int | float | text =>
    obtain ⟨depth, rfl⟩ : ∃ n, depth = n + 1 := ⟨depth - 1, by omega⟩
    rfl

theorem jsonable_ofJson {j : Json} (hj : j.IsLegible) (hdepth : j.nesting false < maxDepth)
    : (ofJson j).jsonable = .ok (ofJson j) :=
  reduce_ofJson hj (Nat.lt_of_le_of_lt (nesting_ofJson_le j) hdepth)

/-! ### What reduction gives -/

theorem exists_ofJson_of_reduceItems {depth : Nat} {items ys : List ClaimValue}
    (h : ∀ x ∈ items, ∀ w, reduce depth x = .ok w → ∃ j, w = ofJson j)
    (hys : reduceItems depth items = .ok ys) : ∃ js : List Json, ys = js.map ofJson := by
  induction items generalizing ys with
  | nil =>
    cases hys
    exact ⟨[], rfl⟩
  | cons x xs ih =>
    rw [List.forall_mem_cons] at h
    rw [reduceItems] at hys
    split at hys
    . cases hys
    . next y hy =>
      split at hys
      . cases hys
      . next zs hzs =>
        cases hys
        obtain ⟨j, rfl⟩ := h.1 y hy
        obtain ⟨js, rfl⟩ := ih h.2 hzs
        exact ⟨j :: js, rfl⟩

theorem exists_ofJson_of_reduceEntries {depth : Nat} {entries out : List (ClaimValue × ClaimValue)}
    (h : ∀ e ∈ entries, ∀ w, reduce depth e.2 = .ok w → ∃ j, w = ofJson j)
    {done : List (Text × Json)} (hdone : (done.map (·.1)).Nodup)
    (hout : reduceEntries depth (done.map fun m => (text m.1, ofJson m.2)) entries = .ok out)
    : ∃ ms : List (Text × Json),
        (ms.map (·.1)).Nodup ∧ out = ms.map fun m => (text m.1, ofJson m.2) := by
  induction entries generalizing done with
  | nil =>
    cases hout
    exact ⟨done, hdone, rfl⟩
  | cons e es ih =>
    rw [List.forall_mem_cons] at h
    rw [reduceEntries] at hout
    split at hout
    . cases hout
    . next t ht =>
      split at hout
      . cases hout
      . next w hw =>
        obtain ⟨j, rfl⟩ := h.1 w hw
        rw [Entries.put_map ofJson equals_text] at hout
        exact ih h.2 (Entries.nodup_put hdone) hout

theorem exists_eq_succ_of_reduce {depth : Nat} {v w : ClaimValue} (h : reduce depth v = .ok w)
    : ∃ n, depth = n + 1 := by
  cases depth with
  | zero =>
    rw [reduce] at h
    cases h
  | succ n => exact ⟨n, rfl⟩

theorem exists_ofJson_of_reduce {depth : Nat} {v w : ClaimValue} (h : reduce depth v = .ok w)
    : ∃ j, w = ofJson j := by
  obtain ⟨depth, rfl⟩ := exists_eq_succ_of_reduce h
  -- The parts are reduced with any depth that is left, which is not 0 if that succeeds.
  have hparts : ∀ {x : ClaimValue},
      (∀ {n w}, reduce (n + 1) x = .ok w → ∃ j, w = ofJson j) →
        ∀ {n} w, reduce n x = .ok w → ∃ j, w = ofJson j := by
    intro x hx n w hw
    obtain ⟨n, rfl⟩ := exists_eq_succ_of_reduce hw
    exact hx hw
  induction v generalizing depth w with
  | null =>
    cases h
    exact ⟨.null, rfl⟩
  | bool b =>
    cases h
    exact ⟨.bool b, rfl⟩
  | int n =>
    cases h
    exact ⟨.int n, rfl⟩
  | float x =>
    cases h
    exact ⟨.float x, rfl⟩
  | text t =>
    cases h
    exact ⟨.text t, rfl⟩
  | bytes b =>
    rw [reduce, Outcome.map_eq_ok_iff] at h
    obtain ⟨t, -, rfl⟩ := h
    exact ⟨.text t, rfl⟩
  | list items ih | tuple items ih =>
    rw [reduce, Outcome.map_eq_ok_iff] at h
    obtain ⟨ys, hitems, rfl⟩ := h
    obtain ⟨js, rfl⟩ := exists_ofJson_of_reduceItems (fun x hx => hparts (ih x hx _)) hitems
    exact ⟨.array js, by rw [ofJson, ofJsonItems_eq_map]⟩
  | dict entries ih =>
    rw [reduce, Outcome.map_eq_ok_iff] at h
    obtain ⟨es, hentries, rfl⟩ := h
    have hnil : (([] : List (Text × Json)).map (·.1)).Nodup := List.nodup_nil
    obtain ⟨ms, hnodup, rfl⟩ :=
      exists_ofJson_of_reduceEntries (fun e he => hparts (ih e he _)) hnil hentries
    exact ⟨.object ms, by rw [ofJson_object, Entries.ofList_of_nodup hnodup]⟩
  | readOnly | foreign => cases h

end SignedToken.ClaimValue
