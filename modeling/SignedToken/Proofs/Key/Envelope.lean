import SignedToken.Key.Envelope
import SignedToken.Proofs.Key.Ec

/-!
This module contains that the structures around a key, which name its algorithm, are read back: with or
without the curve and the point inside of them, and with attributes behind the key.
-/

namespace SignedToken

namespace AlgorithmName

def parts (c : Curve) : List Der.Element :=
  [⟨Der.objectIdTag, Der.objectId ellipticCurve⟩, c.parameter]

def element (c : Curve) : Der.Element :=
  ⟨Der.sequenceTag, (parts c).flatMap Der.Element.encode⟩

theorem length_element_le (c : Curve) : (element c).content.length ≤ 40 := by
  cases c <;> decide

theorem fits_element (c : Curve) : (element c).Fits :=
  .of_lt (by decide) (Nat.lt_of_le_of_lt (length_element_le c) (by decide))

theorem ofElement?_element (c : Curve)
    : ofElement? (element c) = some ⟨Der.objectId ellipticCurve, some c.parameter⟩ := by
  cases c <;> decide

theorem isEllipticCurve_mk (parameter : Option Der.Element)
    : isEllipticCurve ⟨Der.objectId ellipticCurve, parameter⟩ = true :=
  beq_self_eq_true _

end AlgorithmName

open AlgorithmName

/-! ### Private keys -/

namespace PrivateKey

variable {k : PrivateKey} {withCurve : Bool} {point : Option Bytes} {trailer : List Der.Element}

def pkcs8Parts (k : PrivateKey) (withCurve : Bool) (point : Option Bytes) (trailer : List Der.Element)
    : List Der.Element :=
  ⟨Der.integerTag, [0]⟩ :: element k.curve :: ⟨Der.octetStringTag, k.octetsWith withCurve point⟩
    :: trailer

def pkcs8With (k : PrivateKey) (withCurve : Bool) (point : Option Bytes) (trailer : List Der.Element)
    : Bytes :=
  Der.write Der.sequenceTag ((k.pkcs8Parts withCurve point trailer).flatMap Der.Element.encode)

theorem toPkcs8_eq (k : PrivateKey)
    : k.toPkcs8 = k.pkcs8With false (some k.publicKey.toOctets) [] := rfl

/--
That elements may stand behind a key in its structure: they are attributes, if there are any, and do not
make it longer than a length can tell.
-/
structure TakesBehind (k : PrivateKey) (withCurve : Bool) (point : Option Bytes)
    (trailer : List Der.Element) : Prop where
  attributes : AnyKey.isTrailer trailer = true
  fits : ∀ e ∈ trailer, e.Fits
  length : ((k.pkcs8Parts withCurve point trailer).flatMap Der.Element.encode).length < Der.maxLength

theorem fits_octetsWith (hpoint : k.HasPoint point)
    : Der.Element.Fits ⟨Der.octetStringTag, k.octetsWith withCurve point⟩ :=
  .of_lt (by decide) (Nat.lt_of_le_of_lt (length_octetsWith_le hpoint) (by decide))

theorem fits_pkcs8Parts (hpoint : k.HasPoint point) (hfits : ∀ e ∈ trailer, e.Fits)
    : ∀ e ∈ k.pkcs8Parts withCurve point trailer, e.Fits := by
  unfold pkcs8Parts
  rw [List.forall_mem_cons, List.forall_mem_cons, List.forall_mem_cons]
  exact ⟨.of_lt (by decide) (by decide), fits_element _, fits_octetsWith hpoint, hfits⟩

theorem takesBehind_nil (hpoint : k.HasPoint point) : k.TakesBehind withCurve point [] where
  attributes := rfl
  fits := List.forall_mem_nil _
  length := by
    have hname := length_element_le k.curve
    have hoctets : (k.octetsWith withCurve point).length ≤ 266 := length_octetsWith_le hpoint
    have hfits : ∀ e ∈ k.pkcs8Parts withCurve point [], e.Fits :=
      fits_pkcs8Parts hpoint (List.forall_mem_nil _)
    apply Der.flatMap_encode_lt hfits
    simp only [pkcs8Parts, Der.room, List.length_cons, List.length_nil]
    omega

theorem sequence?_pkcs8With (hpoint : k.HasPoint point) (h : k.TakesBehind withCurve point trailer)
    : Der.sequence? (k.pkcs8With withCurve point trailer)
        =
      some (k.pkcs8Parts withCurve point trailer) :=
  Der.sequence?_encode (fits_pkcs8Parts hpoint h.fits) h.length

theorem ofPkcs8?_pkcs8With (hsound : k.isSound = true) (hpoint : k.HasPoint point)
    (h : k.TakesBehind withCurve point trailer)
    : AnyKey.ofPkcs8? (k.pkcs8With withCurve point trailer) = some (.ecPrivate k) := by
  rw [AnyKey.ofPkcs8?, sequence?_pkcs8With hpoint h]
  unfold pkcs8Parts
  dsimp only [bind, Option.bind]
  rw [ofElement?_element]
  dsimp only
  rw [if_pos ⟨rfl, rfl, h.attributes⟩, if_pos (isEllipticCurve_mk _),
    ofOctets?_octetsWith hsound hpoint (.inl rfl)]
  rfl

theorem ofPkcs8?_octetsWith (hpoint : k.HasPoint point)
    : AnyKey.ofPkcs8? (k.octetsWith withCurve point) = none := by
  -- The secret stands where the name of an algorithm would have to be.
  rw [AnyKey.ofPkcs8?, sequence?_octetsWith hpoint]
  unfold parts
  cases optionalParts k.curve withCurve point with
  | nil => rfl
  | cons e rest => rfl

end PrivateKey

/-! ### Public keys -/

namespace PublicKey

variable {k : PublicKey} {octets : Bytes}

def spkiParts (k : PublicKey) (octets : Bytes) : List Der.Element :=
  [element k.curve, ⟨Der.bitStringTag, 0 :: octets⟩]

def spkiWith (k : PublicKey) (octets : Bytes) : Bytes :=
  Der.write Der.sequenceTag ((k.spkiParts octets).flatMap Der.Element.encode)

theorem toSpki_eq (k : PublicKey) : k.toSpki = k.spkiWith k.toOctets := rfl

theorem sequence?_spkiWith (hoctets : k.IsReadFrom octets)
    : Der.sequence? (k.spkiWith octets) = some (k.spkiParts octets) := by
  have hname := length_element_le k.curve
  have hbits : (0 :: octets).length ≤ 134 := Nat.succ_le_succ hoctets.length_le
  have hfits : ∀ e ∈ k.spkiParts octets, e.Fits := by
    unfold spkiParts
    rw [List.forall_mem_cons, List.forall_mem_singleton]
    exact ⟨fits_element _, .of_lt (by decide) (by omega)⟩
  apply Der.sequence?_encode hfits (Der.flatMap_encode_lt hfits _)
  simp only [spkiParts, Der.room]
  omega

theorem ofSpki?_spkiWith (h : k.IsOnCurve) (hoctets : k.IsReadFrom octets)
    : AnyKey.ofSpki? (k.spkiWith octets) = some (.ecPublic k) := by
  rw [AnyKey.ofSpki?, sequence?_spkiWith hoctets]
  unfold spkiParts
  dsimp only [bind, Option.bind]
  rw [ofElement?_element]
  dsimp only
  rw [if_pos rfl, Der.wholeBits?]
  dsimp only
  rw [if_pos (isEllipticCurve_mk _), Curve.ofParameter?_parameter]
  dsimp only
  rw [hoctets.ofOctets?_eq h]
  rfl

end PublicKey

end SignedToken
