import SignedToken.Proofs.Pem

/-!
This module contains that a reader of text armour takes every block back to its label and its data,
however its lines are broken and whatever stands around it, as long as that has no dash. What is written
is such a block.
-/

namespace SignedToken.Pem

variable {label : String} {data before payload behind : Bytes}

structure IsLabel (label : String) : Prop where
  ne_nil : Text.ofString label ≠ []
  plain : (Text.ofString label).all (fun c => c.val < 0x80 && c.val.toUInt8 != 0x2D) = true

namespace IsLabel

theorem plain_of_mem (h : IsLabel label) {c : CodePoint} (hc : c ∈ Text.ofString label)
    : c.val < 0x80 ∧ c.val.toUInt8 ≠ 0x2D := by
  have hplain := List.all_eq_true.1 h.plain c hc
  rwa [Bool.and_eq_true, decide_eq_true_eq, bne_iff_ne] at hplain

theorem octets_ne_nil (h : IsLabel label) : Pem.ascii label ≠ [] :=
  Utf8.encodeAny_ne_nil h.ne_nil

theorem octets_eq (h : IsLabel label)
    : Pem.ascii label = (Text.ofString label).map fun c => c.val.toUInt8 :=
  Utf8.encodeAny_of_ascii fun _ hc => (h.plain_of_mem hc).1

theorem dash_not_mem (h : IsLabel label) : 0x2D ∉ Pem.ascii label := by
  rw [h.octets_eq, List.mem_map]
  rintro ⟨c, hc, hdash⟩
  exact (h.plain_of_mem hc).2 hdash

theorem decode?_eq (h : IsLabel label) : Utf8.decode? (Pem.ascii label) = some (Text.ofString label) := by
  rw [h.octets_eq]
  exact Utf8.decode?_of_encode? (Utf8.encode?_of_ascii fun _ hc => (h.plain_of_mem hc).1)

end IsLabel

/-! ### Frames -/

theorem splitHeaders_eq {payload : Bytes} (hfeeds : ¬ [0xA, 0xA] <:+: payload)
    (hreturns : ¬ [0xD, 0xA, 0xD, 0xA] <:+: payload) : splitHeaders payload = ([], payload) := by
  rw [splitHeaders, cutAt?_eq_none_iff.2 hfeeds]
  dsimp only
  rw [cutAt?_eq_none_iff.2 hreturns]

/--
The octets between a first and a last line that stand for data: its base64 with blanks among it, but
no empty line, as that would set apart headers.
-/
structure Carries (data payload : Bytes) : Prop where
  text : payload.filter (!isDataBlank ·)
    = Utf8.encodeAny (Base64.encodePadded Base64.standard data)
  feeds : ¬ [0xA, 0xA] <:+: skipBlanks payload
  returns : ¬ [0xD, 0xA, 0xD, 0xA] <:+: skipBlanks payload

def frame (before : Bytes) (label : String) (payload behind : Bytes) : Bytes :=
  before ++ (beginMark ++ (ascii label ++ (tailMark ++ (payload ++ (endMark ++ (ascii label
    ++ (tailMark ++ behind)))))))

theorem filter_skipBlanks (payload : Bytes)
    : (skipBlanks payload).filter (!isDataBlank ·) = payload.filter (!isDataBlank ·) := by
  induction payload with
  | nil => rfl
  | cons x payload ih =>
    cases hblank : isBlank x with
    | true =>
      have hdata : isDataBlank x = true := by rw [isDataBlank, hblank, Bool.true_or]
      rw [skipBlanks, List.dropWhile_cons_of_pos hblank, ← skipBlanks, ih]
      simp [hdata]
    | false => rw [skipBlanks, List.dropWhile_cons_of_neg (by simp [hblank])]

theorem skipBlanks_append_dash (b rest : Bytes)
    : skipBlanks (b ++ 0x2D :: rest) = skipBlanks b ++ 0x2D :: rest := by
  induction b with
  | nil => rfl
  | cons x b ih =>
    cases hblank : isBlank x with
    | true =>
      rw [List.cons_append, skipBlanks, List.dropWhile_cons_of_pos hblank, ← skipBlanks, ih, skipBlanks,
        skipBlanks, List.dropWhile_cons_of_pos hblank]
    | false =>
      rw [List.cons_append, skipBlanks, List.dropWhile_cons_of_neg (by simp [hblank]), skipBlanks,
        List.dropWhile_cons_of_neg (by simp [hblank])]
      rfl

theorem mem_of_mem_skipBlanks {x : UInt8} {b : Bytes} (h : x ∈ skipBlanks b) : x ∈ b :=
  (List.dropWhile_suffix isBlank).subset h

namespace Carries

variable (h : Carries data payload)

include h

theorem dash_not_mem : 0x2D ∉ payload := by
  intro hmem
  have hfilter : 0x2D ∈ payload.filter (!isDataBlank ·) := List.mem_filter.2 ⟨hmem, rfl⟩
  rw [h.text] at hfilter
  have hne := Base64.forall_mem_encodeAny (P := (· != 0x2D)) (by decide) (by decide) data _ hfilter
  cases hne

theorem block?_eq (hlabel : IsLabel label)
    : block? (ascii label) (skipBlanks payload) (ascii label) = some ⟨ascii label, [], data⟩ := by
  have hheaders : lines [] = [] := rfl
  rw [block?, splitHeaders_eq h.feeds h.returns]
  dsimp only
  rw [hheaders, filter_skipBlanks, h.text, Base64.decodeStrict?_encodePadded]
  simp [hlabel.octets_ne_nil, hlabel.decode?_eq]

theorem nextBlock_frame (hlabel : IsLabel label) (hbefore : 0x2D ∉ before)
    : nextBlock (frame before label payload behind)
        =
      some (some ⟨ascii label, [], data⟩, skipBlanks behind) := by
  have hbegin : ∀ rest, readUntil? beginMark (before ++ (beginMark ++ rest)) = some (before, rest) :=
    fun rest => readUntil?_append hbefore
  have htail : ∀ rest, readUntil? tailMark (ascii label ++ (tailMark ++ rest)) = some (ascii label, rest) :=
    fun rest => readUntil?_append hlabel.dash_not_mem
  have hskip : ∀ rest, skipBlanks (payload ++ (endMark ++ rest))
      = skipBlanks payload ++ (endMark ++ rest) := fun rest => skipBlanks_append_dash payload _
  have hend : ∀ rest, readUntil? endMark (skipBlanks payload ++ (endMark ++ rest))
      = some (skipBlanks payload, rest) := fun rest =>
    readUntil?_append fun hmem => h.dash_not_mem (mem_of_mem_skipBlanks hmem)
  rw [nextBlock, frame, hbegin]
  dsimp only [bind, Option.bind]
  rw [htail]
  dsimp only
  rw [hskip, hend]
  dsimp only
  rw [htail]
  dsimp only [pure]
  rw [h.block?_eq hlabel]

theorem first?_frame (hlabel : IsLabel label) (hbefore : 0x2D ∉ before)
    : first? (frame before label payload behind) = some ⟨ascii label, [], data⟩ := by
  rw [first?, h.nextBlock_frame hlabel hbefore]

end Carries

inductive Armours : List Block → Bytes → Prop where
  | nil {b : Bytes} (h : 0x2D ∉ b) : Armours [] b
  | cons {before label payload behind data blocks} (hbefore : 0x2D ∉ before) (hlabel : IsLabel label)
    (hpayload : Carries data payload) (hbehind : Armours blocks behind)
    : Armours (⟨ascii label, [], data⟩ :: blocks) (frame before label payload behind)

namespace Armours

variable {blocks : List Block} {b : Bytes}

theorem length_le (h : Armours blocks b) : blocks.length ≤ b.length := by
  induction h with
  | nil _ => exact Nat.zero_le _
  | cons _ _ _ _ ih =>
    have hmark : beginMark.length = 11 := by decide
    simp only [frame, List.length_append, List.length_cons, hmark]
    omega

theorem skipBlanks (h : Armours blocks b) : Armours blocks (skipBlanks b) := by
  cases h with
  | nil hb => exact .nil fun hmem => hb (mem_of_mem_skipBlanks hmem)
  | cons hbefore hlabel hpayload hbehind =>
    have hskip : ∀ before label payload behind, Pem.skipBlanks (frame before label payload behind)
        = frame (Pem.skipBlanks before) label payload behind :=
      fun before _ _ _ => skipBlanks_append_dash before _
    rw [hskip]
    exact .cons (fun hmem => hbefore (mem_of_mem_skipBlanks hmem)) hlabel hpayload hbehind

theorem go_eq {fuel : Nat} (h : Armours blocks b) (hfuel : blocks.length ≤ fuel)
    : blocks?.go fuel b = some blocks := by
  induction fuel generalizing blocks b with
  | zero =>
    rw [List.eq_nil_of_length_eq_zero (Nat.le_zero.1 hfuel)]
    rfl
  | succ fuel ih =>
    cases h with
    | nil hb =>
      have hnone : readUntil? beginMark b = none := readUntil?_eq_none hb
      rw [blocks?.go, nextBlock, hnone]
    | cons hbefore hlabel hpayload hbehind =>
      rw [blocks?.go, hpayload.nextBlock_frame hlabel hbefore]
      dsimp only
      rw [ih hbehind.skipBlanks (Nat.le_of_succ_le_succ hfuel)]
      rfl

theorem blocks?_eq (h : Armours blocks b) : blocks? b = some blocks :=
  h.go_eq h.length_le

end Armours

/-! ### Written blocks -/

theorem carries_dataLines (data : Bytes) : Carries data (0xA :: unlines (dataLines data)) where
  text := by
    rw [List.filter_cons_of_neg (by decide), filter_unlines rfl
      (forall_mem_dataLines_flatten (P := fun x => !isDataBlank x) (by decide) (by decide) data),
      dataLines_flatten]
  feeds := by
    intro hlines
    have hfeed : ∀ line ∈ dataLines data, 0xA ∉ line := by
      intro line hline hmem
      have hne := forall_mem_dataLines_flatten (P := (· != 0xA)) (by decide) (by decide) data 0xA
        (List.mem_flatten.2 ⟨line, hline, hmem⟩)
      cases hne
    have hskip : skipBlanks (0xA :: unlines (dataLines data)) = skipBlanks (unlines (dataLines data)) :=
      List.dropWhile_cons_of_pos rfl
    rw [hskip] at hlines
    exact cutAt?_eq_none_iff.1 (cutAt?_unlines (fun _ => ne_nil_of_mem_dataLines) hfeed)
      (hlines.trans (List.dropWhile_suffix isBlank).isInfix)
  returns := by
    intro hlines
    have hmem := mem_of_mem_skipBlanks (hlines.subset List.mem_cons_self)
    rw [List.mem_cons] at hmem
    cases hmem with
    | inl heq => cases heq
    | inr hmem =>
      cases mem_unlines hmem with
      | inl hx =>
        have hne := forall_mem_dataLines_flatten (P := (· != 0xD)) (by decide) (by decide) data _ hx
        cases hne
      | inr hx => cases hx

theorem write_eq_frame (label : String) (data : Bytes)
    : write label data = frame [] label (0xA :: unlines (dataLines data)) [0xA] := by
  rw [write_eq]
  rfl

theorem armours_write (hlabel : IsLabel label)
    : Armours [⟨ascii label, [], data⟩] (write label data) := by
  rw [write_eq_frame]
  exact .cons List.not_mem_nil hlabel (carries_dataLines data) (.nil (by decide))

end SignedToken.Pem
