import SignedToken.Proofs.Header
import SignedToken.Proofs.Json.Written
import SignedToken.Proofs.Text.Utf8

/-!
This module contains the laws of written headers: they are read back as they were written, and nothing
is objected to in those that issued tokens have.
-/

namespace SignedToken

namespace Header

def text (h : Header) : Text :=
  (Json.object h.members).write Json.Style.canonical

theorem text_cons (m : Text × Json) (ms : List (Text × Json))
    : ∃ rest, text ⟨m :: ms⟩ = 0x7B :: 0x22 :: rest := by
  have htext : text ⟨m :: ms⟩ = 0x7B :: (Text.join Json.Style.canonical.itemSeparator
      ((Json.quoted false m.1 ++ Json.Style.canonical.nameSeparator
          ++ m.2.write Json.Style.canonical) :: Json.writeMembers Json.Style.canonical ms)
        ++ [0x7D]) := rfl
  obtain ⟨more, hmore⟩ := Text.exists_join_cons_eq_append Json.Style.canonical.itemSeparator
    (Json.quoted false m.1 ++ Json.Style.canonical.nameSeparator
      ++ m.2.write Json.Style.canonical) (Json.writeMembers Json.Style.canonical ms)
  rw [htext, hmore]
  exact ⟨_, rfl⟩

theorem detect_text (h : Header)
    : TextEncoding.detect (Utf8.encodeAny h.text) = (.utf8, Utf8.encodeAny h.text) := by
  obtain ⟨_ | ⟨m, ms⟩⟩ := h
  . rfl
  . obtain ⟨rest, hrest⟩ := text_cons m ms
    have hoctets : Utf8.encodeAny (text ⟨m :: ms⟩) = 0x7B :: 0x22 :: Utf8.encodeAny rest := by
      rw [hrest]
      rfl
    rw [hoctets]
    -- Besides the first two octets it matters only how many more there are, up to two.
    rcases Utf8.encodeAny rest with _ | ⟨x, _ | ⟨y, octets⟩⟩ <;> rfl

theorem spelled_text {h : Header} (hreadable : Json.Readable false (.object h.members))
    (hnesting : (Json.object h.members).nesting dialect.countsEmpty ≤ dialect.maxDepth)
    : h.Spelled (Utf8.encodeAny h.text) := by
  have hdecode : TextEncoding.decodeDetected? (Utf8.encodeAny h.text) = some h.text := by
    unfold TextEncoding.decodeDetected?
    rw [detect_text]
    exact Utf8.decodeWith_encodeAny (.inr rfl)
  unfold Spelled
  rw [hdecode, Option.bind_eq_bind, Option.bind_some, text,
    Json.read?_write dialect Json.Style.canonical_separates hreadable, if_pos hnesting]

theorem readable_of_forall {h : Header}
    (hmember : ∀ m ∈ h.members, (∃ t, m.2 = .text t) ∨ ∃ b, m.2 = .bool b)
    : Json.Readable false (.object h.members) where
  numeral := by
    rintro n (_ | _ | ⟨hm, hw⟩)
    obtain ⟨t, ht⟩ | ⟨b, hb⟩ := hmember _ hm
    . rw [ht] at hw
      cases hw
    . rw [hb] at hw
      cases hw
  legible := fun h => absurd h Bool.false_ne_true

def issued (p : Profile) : Header :=
  ⟨[(Text.ofString "alg", .text (Text.ofString p.algorithm))]⟩

theorem text_issued (p : Profile) : (issued p).text = write p := by
  cases p <;> rfl

theorem spelled_write (p : Profile) : (issued p).Spelled (Utf8.encodeAny (write p)) := by
  rw [← text_issued]
  apply spelled_text
  . apply readable_of_forall
    simp [issued]
  . cases p <;> decide

theorem issued_admissible (p : Profile) : (issued p).Admissible where
  keyId := by
    intro x hx
    cases hx
  critical := by
    intro x hx
    cases hx
  attached := by
    intro h
    cases h

end Header

end SignedToken
