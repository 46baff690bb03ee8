import SignedToken.Proofs.Signer.Issuance

/-!
This module contains the form of the wires that a signer hands out: three canonical segments, of
which the header and the payload are told by what is before the last dot, and the signature keeps the
leading zeros of both its halves.
-/

namespace SignedToken

/-! ### The text that is signed -/

def Compact.beforeLastDot (wire : Text) : Text :=
  ((wire.reverse.dropWhile (· != Verifier.dot)).drop 1).reverse

namespace Compact

theorem beforeLastDot_append {t : Text} (h : Verifier.dot ∉ t) (before : Text)
    : beforeLastDot (before ++ Verifier.dot :: t) = before := by
  have hne : ∀ c ∈ t.reverse, (c != Verifier.dot) = true := by
    intro c hc
    rw [bne_iff_ne]
    rintro rfl
    exact h (List.mem_reverse.1 hc)
  unfold beforeLastDot
  rw [List.reverse_append, List.reverse_cons, List.append_assoc,
    List.dropWhile_append_of_pos hne]
  simp

theorem beforeLastDot_write (header payload signature : Bytes)
    : beforeLastDot (write header payload signature) = signedText header payload :=
  beforeLastDot_append (Base64Url.dot_not_mem_encode signature) (signedText header payload)

theorem signedText_inj {header payload header' payload' : Bytes}
    : signedText header payload = signedText header' payload'
        ↔
      header = header' ∧ payload = payload' := by
  constructor
  . intro h
    -- With one and the same signature behind them, these are two wires.
    have hwrite : write header payload [] = write header' payload' [] := by rw [write, write, h]
    obtain ⟨hheader, hpayload, -⟩ := Verifier.write_inj.1 hwrite
    exact ⟨hheader, hpayload⟩
  . rintro ⟨rfl, rfl⟩
    rfl

theorem count_dot_write (header payload signature : Bytes)
    : (write header payload signature).count Verifier.dot = 2 := by
  have hnone : ∀ b, (Base64Url.encode b).count Verifier.dot = 0 :=
    fun b => List.count_eq_zero.2 (Base64Url.dot_not_mem_encode b)
  simp [write, signedText, List.count_append, hnone]

end Compact

/-! ### The header -/

def Header.octets (p : Profile) : Bytes :=
  ("\x7b\"alg\":\"" ++ p.algorithm ++ "\"\x7d").toList.map fun c => c.toNat.toUInt8

theorem Header.encodeAny_write (p : Profile) : Utf8.encodeAny (Header.write p) = Header.octets p := by
  cases p <;> decide +kernel

theorem Profile.algorithm_inj {p q : Profile} : p.algorithm = q.algorithm ↔ p = q := by
  cases p <;> cases q <;> decide

theorem Header.octets_inj {p q : Profile} : Header.octets p = Header.octets q ↔ p = q := by
  cases p <;> cases q <;> decide +kernel

/-! ### The signature -/

namespace Ecdsa.Signature

structure IsHalves (size : Nat) (sig : Signature) (octets : Bytes) : Prop where
  length_eq : octets.length = 2 * size
  first : Octets.toNat (octets.take size) = sig.r
  second : Octets.toNat (octets.drop size) = sig.s

theorem isHalves_iff {size : Nat} {sig : Signature} {octets : Bytes}
    : sig.IsHalves size octets ↔ ofBytes? size octets = some sig := by
  unfold ofBytes?
  constructor
  . intro h
    rw [if_pos h.length_eq, h.first, h.second]
  . intro h
    split at h
    . next hlength =>
      cases h
      exact ⟨hlength, rfl, rfl⟩
    . cases h

theorem InRange.isHalves_toBytes {p : Profile} {sig : Signature} (h : sig.InRange p.curve.params.n)
    : sig.IsHalves p.coordinateSize (sig.toBytes p.coordinateSize) :=
  isHalves_iff.2 <|
    ofBytes?_toBytes (Nat.lt_of_lt_of_le h.r_lt p.order_le) (Nat.lt_of_lt_of_le h.s_lt p.order_le)

end Ecdsa.Signature

namespace Signer

variable {scheme scheme' : Scheme} {s s' : Signer} {observer observer' : Option Observer}
variable {t t' : Token} {payload : Bytes} {wire wire' : Text}

structure Shaped (p : Profile) (payload : Bytes) (sig : Ecdsa.Signature) (wire : Text) : Prop where
  dots : wire.count Verifier.dot = 2
  segments : ∃ header body signature octets,
    Text.splitOn Verifier.dot wire = [header, body, signature] ∧
    Verifier.decodeSegment header = .ok (Header.octets p) ∧
    Verifier.decodeSegment body = .ok payload ∧
    Verifier.decodeSegment signature = .ok octets ∧
    (sig.InRange p.curve.params.n → sig.IsHalves p.coordinateSize octets)

theorem shaped_write (p : Profile) (payload : Bytes) (sig : Ecdsa.Signature)
    : Shaped p payload sig
        (Compact.write (Header.octets p) payload (sig.toBytes p.coordinateSize)) where
  dots := Compact.count_dot_write _ _ _
  segments := by
    refine ⟨_, _, _, _, Verifier.splitOn_write _ _ _, ?_, ?_, ?_,
      Ecdsa.Signature.InRange.isHalves_toBytes⟩
    <;> exact Verifier.decodeSegment_eq_ok_iff.2 rfl

theorem exists_write_of_issue (h : (s.issue scheme observer t).outcome = .ok wire)
    : ∃ payload sig, t.encode = .ok payload ∧
        scheme.sign? s.profile s.key
          (Utf8.encodeAny (Compact.signedText (Header.octets s.profile) payload)) = some sig ∧
        wire = Compact.write (Header.octets s.profile) payload
          (sig.toBytes s.profile.coordinateSize) := by
  obtain ⟨payload, hsealed, -⟩ := ((failClosed_issue scheme s observer t).released wire).1 h
  obtain ⟨sig, hsign, hwire⟩ := sign?_eq_some_iff.1 hsealed.signed
  rw [← Header.encodeAny_write]
  exact ⟨payload, sig, hsealed.encoded, hsign, hwire.symm⟩

/--
Every wire that leaves a signer has the shape of its profile, around the encoding of the token and
the signature of what is before its last dot; and two wires agree in what is before their last dots
exactly if they have the same algorithm and the same encoding.
-/
theorem issue_shaped (h : (s.issue scheme observer t).outcome = .ok wire)
    : (∃ payload sig, t.encode = .ok payload ∧
          scheme.sign? s.profile s.key (Utf8.encodeAny (Compact.beforeLastDot wire)) = some sig ∧
          Shaped s.profile payload sig wire) ∧
        ∀ (scheme' : Scheme) (s' : Signer) (observer' : Option Observer) (t' : Token) (wire' : Text),
          (s'.issue scheme' observer' t').outcome = .ok wire' →
            (Compact.beforeLastDot wire = Compact.beforeLastDot wire'
                ↔
              s.profile.algorithm = s'.profile.algorithm ∧ t.encode = t'.encode) := by
  obtain ⟨payload, sig, hencode, hsign, rfl⟩ := exists_write_of_issue h
  rw [Compact.beforeLastDot_write]
  refine ⟨⟨payload, sig, hencode, hsign, shaped_write _ _ _⟩, ?_⟩
  intro scheme' s' observer' t' wire' h'
  obtain ⟨payload', sig', hencode', -, rfl⟩ := exists_write_of_issue h'
  rw [Compact.beforeLastDot_write, Compact.signedText_inj, Header.octets_inj,
    Profile.algorithm_inj, hencode, hencode', Except.ok.injEq]

theorem issue_shaped_least
    : ∃ wire,
        (least.issue (.ofKey least.key) none (Token.mk 1 [] [] [] [])).outcome = .ok wire ∧
        ∃ payload sig, (Token.mk 1 [] [] [] []).encode = .ok payload ∧
          Shaped .es256 payload sig wire ∧ sig.InRange Profile.es256.curve.params.n := by
  obtain ⟨payload, hencode, -⟩ := exists_encode_bare
  obtain ⟨wire, hsign, -⟩ := authenticate_sign? (Scheme.acceptsOwn_ofKey least.onCurve) payload
  have hissue : (least.issue (.ofKey least.key) none (Token.mk 1 [] [] [] [])).outcome = .ok wire :=
    outcome_issue hencode hsign fun observe heq => nomatch heq
  obtain ⟨⟨payload, sig, hpayload, hsig, hshaped⟩, -⟩ := issue_shaped hissue
  exact ⟨wire, hissue, payload, sig, hpayload, hshaped, Scheme.inRange_ofKey least.onCurve hsig⟩

end Signer

end SignedToken
