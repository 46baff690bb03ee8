import SignedToken.Proofs.Base64Url
import SignedToken.Proofs.Octets
import SignedToken.Proofs.Outcome
import SignedToken.Proofs.Text.Pieces
import SignedToken.Verifier

/-!
This module contains the laws of the compact form. The form that a wire has to have is that of three
written segments, and on such a text the lenient reading finds the very octets that were written.
-/

namespace SignedToken

namespace Compact

def signedText (header payload : Bytes) : Text :=
  Base64Url.encode header ++ Verifier.dot :: Base64Url.encode payload

def write (header payload signature : Bytes) : Text :=
  signedText header payload ++ Verifier.dot :: Base64Url.encode signature

theorem isPlainAscii_of_mem_write (header payload signature : Bytes)
    : ∀ c ∈ write header payload signature, c.isPlainAscii = true := by
  simp only [write, signedText, List.forall_mem_append, List.forall_mem_cons]
  exact ⟨⟨Base64Url.isPlainAscii_of_mem_encode header, rfl, Base64Url.isPlainAscii_of_mem_encode payload⟩,
    rfl, Base64Url.isPlainAscii_of_mem_encode signature⟩

theorem write_ascii (header payload signature : Bytes)
    : ∀ c ∈ write header payload signature, c.val < 0x80 :=
  fun c hc => CodePoint.val_lt_of_isPlainAscii (isPlainAscii_of_mem_write header payload signature c hc)

theorem encodeAny_dot (t : Text)
    : Utf8.encodeAny (Verifier.dot :: t) = dotOctet :: Utf8.encodeAny t := by
  rfl

theorem dotOctet_not_mem (b : Bytes) : dotOctet ∉ Utf8.encodeAny (Base64Url.encode b) := by
  rw [Base64Url.encodeAny_encode]
  intro h
  obtain ⟨c, hc, hdot⟩ := List.mem_map.1 h
  have hlt := Base64Url.encode_ascii b c hc
  have hval : c.val = 0x2E := by
    rw [← Utf8.toNat_toUInt8 (show c.val < 0x100 by omega), hdot]
    rfl
  apply Base64Url.dot_not_mem_encode b
  have : c = CodePoint.ofChar '.' := Fin.ext hval
  rwa [← this]

theorem isEmpty_encode (b : Bytes)
    : (Utf8.encodeAny (Base64Url.encode b)).isEmpty = b.isEmpty := by
  rw [Base64Url.encodeAny_encode]
  unfold Base64Url.encode
  fun_cases Base64.encode Base64.url b <;> simp

theorem read_write (header payload signature : Bytes)
    : read (write header payload signature)
        =
      match Header.read header payload.isEmpty with
      | .error e => .error (.header e)
      | .ok h => .ok ⟨h, payload, signature, Utf8.encodeAny (signedText header payload)⟩ := by
  unfold read write
  rw [Utf8.encodeAny_append, encodeAny_dot, Octets.cutAtLast?_append (dotOctet_not_mem signature)]
  dsimp only
  have hsigned : Utf8.encodeAny (signedText header payload)
      = Utf8.encodeAny (Base64Url.encode header)
        ++ dotOctet :: Utf8.encodeAny (Base64Url.encode payload) := by
    rw [signedText, Utf8.encodeAny_append, encodeAny_dot]
  rw [hsigned, Octets.cutAt?_append (dotOctet_not_mem header)]
  cases h : Header.read header payload.isEmpty
  <;> simp only [Base64Url.decodeOctets?_encode, isEmpty_encode, h]

end Compact

namespace Verifier

theorem decodeSegment_eq_ok_iff {t : Text} {b : Bytes}
    : decodeSegment t = .ok b ↔ t = Base64Url.encode b := by
  rw [← Base64Url.decode_eq_ok_iff, decodeSegment, Outcome.mapError_eq_ok_iff]

theorem checkSegments_eq_ok_iff {ts : List Text}
    : checkSegments ts = .ok () ↔ ∃ bs : List Bytes, ts = bs.map Base64Url.encode := by
  induction ts with
  | nil => simp [checkSegments]
  | cons t ts ih =>
    unfold checkSegments
    constructor
    . intro h
      split at h
      . cases h
      . next b hb =>
        obtain ⟨bs, rfl⟩ := ih.1 h
        refine ⟨b :: bs, ?_⟩
        rw [List.map_cons, decodeSegment_eq_ok_iff.1 hb]
    . rintro ⟨bs, h⟩
      cases bs with
      | nil => cases h
      | cons b bs =>
        simp only [List.map_cons, List.cons.injEq] at h
        rw [decodeSegment_eq_ok_iff.2 h.1]
        exact ih.2 ⟨bs, h.2⟩

theorem splitOn_write (header payload signature : Bytes)
    : Text.splitOn dot (Compact.write header payload signature)
        =
      [header, payload, signature].map Base64Url.encode := by
  have hdot : ∀ b, dot ∉ Base64Url.encode b := Base64Url.dot_not_mem_encode
  unfold Compact.write Compact.signedText
  rw [List.append_assoc, List.cons_append, Text.splitOn_append (hdot header),
    Text.splitOn_append (hdot payload), Text.splitOn_of_not_mem (hdot signature)]
  rfl

theorem write_inj {header payload signature header' payload' signature' : Bytes}
    : Compact.write header payload signature = Compact.write header' payload' signature'
        ↔
      header = header' ∧ payload = payload' ∧ signature = signature' := by
  constructor
  . intro h
    have hsplit := congrArg (Text.splitOn dot) h
    rw [splitOn_write, splitOn_write] at hsplit
    simpa [Base64Url.encode_inj] using hsplit
  . rintro ⟨rfl, rfl, rfl⟩
    rfl

theorem checkForm_eq_ok_iff {wire : Text}
    : checkForm wire = .ok () ↔ ∃ h p s, wire = Compact.write h p s := by
  unfold checkForm
  constructor
  . intro h
    dsimp only at h
    split at h
    . cases h
    . next hlength =>
      obtain ⟨bs, hbs⟩ := checkSegments_eq_ok_iff.1 h
      have hlen : bs.length = 3 := by
        rw [hbs, List.length_map] at hlength
        omega
      match bs, hlen with
      | [a, b, c], _ =>
        refine ⟨a, b, c, ?_⟩
        rw [← Text.join_splitOn dot wire, hbs]
        simp [Compact.write, Compact.signedText]
  . rintro ⟨h, p, s, rfl⟩
    rw [splitOn_write]
    simp only [List.length_map, List.length_cons, List.length_nil, Nat.zero_add, Nat.reduceAdd,
      ne_eq, not_true_eq_false, if_false]
    exact checkSegments_eq_ok_iff.2 ⟨[h, p, s], rfl⟩

end Verifier

end SignedToken
