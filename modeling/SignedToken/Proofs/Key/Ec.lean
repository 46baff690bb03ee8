import SignedToken.Key.Ec
import SignedToken.Proofs.Der

/-!
This module contains that the parts of an elliptic curve key are read back as they are written. All
numbers have a fixed width, which the fields and orders of the curves fit into.
-/

namespace SignedToken

namespace Curve

theorem coordinateSize_le (c : Curve) : c.coordinateSize ≤ 66 := by
  cases c <;> decide +kernel

theorem scalarSize_le (c : Curve) : c.scalarSize ≤ 66 := by
  cases c <;> decide +kernel

theorem field_le (c : Curve) : c.params.p ≤ 256 ^ c.coordinateSize := by
  cases c <;> decide +kernel

theorem order_le (c : Curve) : c.params.n ≤ 256 ^ c.scalarSize := by
  cases c <;> decide +kernel

def parameter (c : Curve) : Der.Element :=
  ⟨Der.objectIdTag, Der.objectId c.objectId⟩

theorem ofParameter?_parameter (c : Curve) : ofParameter? c.parameter = some c := by
  cases c <;> decide

theorem contains_affine_iff {c : Curve} {x y : Nat}
    : c.contains (.affine x y) = true ↔
        (x < c.params.p ∧ y < c.params.p) ∧
          y * y % c.params.p = (x * x * x + c.params.a * x + c.params.b) % c.params.p := by
  unfold contains
  dsimp only
  rw [Bool.and_eq_true, Bool.and_eq_true, decide_eq_true_eq, decide_eq_true_eq, beq_iff_eq]

end Curve

/-! ### Public keys -/

namespace PublicKey

variable {k : PublicKey}

def IsOnCurve (k : PublicKey) : Prop :=
  k.curve.contains k.point = true

theorem length_coordinates (c : Curve) (x y : Nat)
    : (Octets.ofNat c.coordinateSize x ++ Octets.ofNat c.coordinateSize y).length
        =
      2 * c.coordinateSize := by
  rw [List.length_append, Octets.length_ofNat, Octets.length_ofNat]
  omega

theorem point?_coordinates {c : Curve} {mark : UInt8} {x y : Nat} (hx : x < c.params.p)
    (hy : y < c.params.p)
    (hmark : mark = 4 ∨ (mark = 6 ∨ mark = 7) ∧ decide (y % 2 = 1) = (mark &&& 1 == 1))
    : point? c (mark :: (Octets.ofNat c.coordinateSize x ++ Octets.ofNat c.coordinateSize y))
        =
      some (.affine x y) := by
  have hfield := c.field_le
  have htake : (Octets.ofNat c.coordinateSize x ++ Octets.ofNat c.coordinateSize y).take
      c.coordinateSize = Octets.ofNat c.coordinateSize x :=
    List.take_left' (Octets.length_ofNat _ _)
  have hdrop : (Octets.ofNat c.coordinateSize x ++ Octets.ofNat c.coordinateSize y).drop
      c.coordinateSize = Octets.ofNat c.coordinateSize y :=
    List.drop_left' (Octets.length_ofNat _ _)
  have hboth : mark ≠ 2 ∧ mark ≠ 3 := by
    obtain rfl | ⟨rfl | rfl, -⟩ := hmark <;> decide
  rw [point?, htake, hdrop, Octets.toNat_ofNat (by omega), Octets.toNat_ofNat (by omega),
    if_neg fun h => h.1.elim hboth.1 hboth.2, if_pos ⟨hmark, length_coordinates c x y⟩]

def IsReadFrom (k : PublicKey) (octets : Bytes) : Prop :=
  point? k.curve octets = some k.point

theorem isReadFrom_toOctets (h : k.IsOnCurve) : k.IsReadFrom k.toOctets := by
  obtain ⟨⟨hx, hy⟩, -⟩ := Curve.contains_affine_iff.1 h
  exact point?_coordinates hx hy (.inl rfl)

namespace IsReadFrom

variable {octets : Bytes} (hoctets : k.IsReadFrom octets)

include hoctets

theorem ofOctets?_eq (h : k.IsOnCurve) : ofOctets? k.curve octets = some k := by
  rw [ofOctets?, hoctets]
  exact if_pos h

theorem length_le : octets.length ≤ 133 := by
  have hsize := k.curve.coordinateSize_le
  unfold IsReadFrom point? at hoctets
  split at hoctets
  . cases hoctets
  . dsimp only at hoctets
    rw [List.length_cons]
    split at hoctets
    . next hcompressed => omega
    . split at hoctets
      . next hplain => omega
      . cases hoctets

end IsReadFrom

end PublicKey

/-! ### Private keys -/

namespace PrivateKey

variable {k : PrivateKey}

theorem isOnCurve_publicKey (h : k.isSound = true) : k.publicKey.IsOnCurve := by
  rw [isSound, Bool.and_eq_true] at h
  rw [PublicKey.IsOnCurve, publicKey_curve]
  exact h.2

theorem contains_zero (c : Curve) : c.contains (.affine 0 0) = false := by
  cases c <;> decide

theorem point_publicKey (h : k.isSound = true)
    : k.publicKey.point = k.curve.mul k.secret k.curve.generator := by
  have hcurve := isOnCurve_publicKey h
  rw [PublicKey.IsOnCurve, publicKey_curve] at hcurve
  unfold publicKey at hcurve ⊢
  split at hcurve
  . next x y hmul =>
    rw [hmul]
    rfl
  . rw [PublicKey.point, contains_zero] at hcurve
    cases hcurve

def optionalParts (c : Curve) (withCurve : Bool) (point : Option Bytes) : List Der.Element :=
  (if withCurve then [⟨Der.contextTag 0, c.writeParameter⟩] else [])
    ++ (point.map fun octets => Der.Element.mk (Der.contextTag 1) (Der.writeBits octets)).toList

def parts (k : PrivateKey) (withCurve : Bool) (point : Option Bytes) : List Der.Element :=
  ⟨Der.integerTag, [1]⟩ :: ⟨Der.octetStringTag, Octets.ofNat k.curve.scalarSize k.secret⟩
    :: optionalParts k.curve withCurve point

def octetsWith (k : PrivateKey) (withCurve : Bool) (point : Option Bytes) : Bytes :=
  Der.write Der.sequenceTag ((k.parts withCurve point).flatMap Der.Element.encode)

theorem toOctets_eq (k : PrivateKey) (withCurve : Bool)
    : k.toOctets withCurve = k.octetsWith withCurve (some k.publicKey.toOctets) := by
  cases withCurve <;> rfl

def HasPoint (k : PrivateKey) (point : Option Bytes) : Prop :=
  ∀ octets ∈ point, k.publicKey.IsReadFrom octets

variable {withCurve : Bool} {point : Option Bytes}

theorem hasPoint_none (k : PrivateKey) : k.HasPoint none := nofun

theorem hasPoint_some {octets : Bytes} (h : k.publicKey.IsReadFrom octets) : k.HasPoint (some octets) := by
  intro octets' hmem
  cases hmem
  exact h

/-! #### Sizes -/

theorem length_writeParameter_le (c : Curve) : c.writeParameter.length ≤ 20 := by
  cases c <;> decide

theorem length_writeBits_le {octets : Bytes} (h : octets.length ≤ 133)
    : (Der.writeBits octets).length ≤ 140 := by
  have hcontent : (0 :: octets).length ≤ 134 := Nat.succ_le_succ h
  exact Nat.le_trans (Der.length_write_le (Der.lt_maxLength (by omega)) _) (by omega)

theorem fits_optionalParts (hpoint : k.HasPoint point)
    : ∀ e ∈ optionalParts k.curve withCurve point, e.Fits := by
  unfold optionalParts
  rw [List.forall_mem_append]
  constructor
  . cases withCurve with
    | false => exact nofun
    | true =>
      rw [if_pos rfl, List.forall_mem_singleton]
      exact .of_lt (by decide) (Nat.lt_of_le_of_lt (length_writeParameter_le _) (by decide))
  . cases point with
    | none => exact nofun
    | some octets =>
      rw [Option.map_some, Option.toList_some, List.forall_mem_singleton]
      have hlength := length_writeBits_le (hpoint octets rfl).length_le
      exact .of_lt (by decide) (Nat.lt_of_le_of_lt hlength (by decide))

theorem room_optionalParts_le (hpoint : k.HasPoint point)
    : Der.room (optionalParts k.curve withCurve point) ≤ 180 := by
  have hparameter := length_writeParameter_le k.curve
  have hfirst : Der.room (if withCurve then [⟨Der.contextTag 0, k.curve.writeParameter⟩] else [])
      ≤ 26 := by
    split
    . rw [Der.room, Der.room]
      dsimp only
      omega
    . exact Nat.zero_le _
  rw [optionalParts, Der.room_append]
  cases point with
  | none =>
    rw [Option.map_none, Option.toList_none, Der.room]
    omega
  | some octets =>
    have hlength := length_writeBits_le (hpoint octets rfl).length_le
    rw [Option.map_some, Option.toList_some, Der.room, Der.room]
    dsimp only
    omega

theorem fits_parts (hpoint : k.HasPoint point) : ∀ e ∈ k.parts withCurve point, e.Fits := by
  have hsize := k.curve.scalarSize_le
  unfold parts
  rw [List.forall_mem_cons, List.forall_mem_cons]
  refine ⟨.of_lt (by decide) (by decide), .of_lt (by decide) ?_, fits_optionalParts hpoint⟩
  rw [Octets.length_ofNat]
  omega

theorem room_parts_le (hpoint : k.HasPoint point) : Der.room (k.parts withCurve point) ≤ 260 := by
  have hsize := k.curve.scalarSize_le
  have hroom : Der.room (optionalParts k.curve withCurve point) ≤ 180 := room_optionalParts_le hpoint
  simp only [parts, Der.room, List.length_cons, List.length_nil, Octets.length_ofNat]
  omega

theorem sequence?_octetsWith (hpoint : k.HasPoint point)
    : Der.sequence? (k.octetsWith withCurve point) = some (k.parts withCurve point) :=
  Der.sequence?_encode (fits_parts hpoint)
    (Der.flatMap_encode_lt (fits_parts hpoint) (Nat.lt_of_le_of_lt (room_parts_le hpoint) (by decide)))

theorem length_octetsWith_le (hpoint : k.HasPoint point) : (k.octetsWith withCurve point).length ≤ 266 := by
  have hroom : Der.room (k.parts withCurve point) ≤ 260 := room_parts_le hpoint
  have hlength := Nat.le_trans (Der.length_flatMap_encode_le (fits_parts hpoint)) hroom
  have hwrite := Der.length_write_le (Der.lt_maxLength (Nat.lt_of_le_of_lt hlength (by decide)))
    Der.sequenceTag
  rw [octetsWith]
  omega

/-! #### Reading -/

theorem optionalParts?_optionalParts (hpoint : k.HasPoint point)
    : optionalParts? (optionalParts k.curve withCurve point)
        =
      some (if withCurve then some k.curve.parameter else none, point) := by
  have hbehind : optionalParts? (optionalParts k.curve false point) = some (none, point) := by
    cases point with
    | none => rfl
    | some octets =>
      have hcontext : Der.contextTag 1 ≠ Der.contextTag 0 := by decide
      have hlength := (hpoint octets rfl).length_le
      have hbits : Der.sole? Der.bitStringTag (Der.writeBits octets) = some (0 :: octets) :=
        Der.sole?_write (.of_lt (by decide) (by rw [List.length_cons]; omega))
      have hparts : optionalParts k.curve false (some octets)
          = [⟨Der.contextTag 1, Der.writeBits octets⟩] := rfl
      rw [hparts, optionalParts?, if_neg hcontext, if_pos ⟨rfl, rfl⟩, hbits]
      rfl
  cases withCurve with
  | false => exact hbehind
  | true =>
    have hparameter : Der.elements? k.curve.writeParameter = some [k.curve.parameter] := by
      cases k.curve <;> decide
    have hparts : optionalParts k.curve true point
        = ⟨Der.contextTag 0, k.curve.writeParameter⟩ :: optionalParts k.curve false point := rfl
    rw [hparts, optionalParts?, if_pos rfl, hparameter]
    dsimp only [bind, Option.bind]
    rw [hbehind]
    rfl

theorem ofParts?_eq_some (h : k.isSound = true) (hpoint : k.HasPoint point)
    : ofParts? k.curve (Octets.ofNat k.curve.scalarSize k.secret) point = some k := by
  rw [isSound, Bool.and_eq_true] at h
  have hrange := h.1
  rw [inRange, Bool.and_eq_true, decide_eq_true_eq, decide_eq_true_eq] at hrange
  have horder := k.curve.order_le
  unfold ofParts?
  dsimp only
  rw [Octets.toNat_ofNat (by omega), if_pos ⟨Octets.length_ofNat _ _, h.1⟩]
  cases point with
  | none => rfl
  | some octets =>
    have hread := hpoint octets rfl
    rw [PublicKey.IsReadFrom, publicKey_curve] at hread
    exact if_pos hread

theorem ofOctets?_octetsWith {outer : Option Der.Element} (h : k.isSound = true)
    (hpoint : k.HasPoint point)
    (houter : outer = some k.curve.parameter ∨ outer = none ∧ withCurve = true)
    : ofOctets? outer (k.octetsWith withCurve point) = some k := by
  have hparameter : (outer.orElse fun _ => if withCurve then some k.curve.parameter else none)
      = some k.curve.parameter := by
    obtain rfl | ⟨rfl, rfl⟩ := houter
    . rfl
    . rfl
  have hinner : (if withCurve then some k.curve.parameter else none).all (· = k.curve.parameter) = true := by
    cases withCurve with
    | false => rfl
    | true => exact decide_eq_true rfl
  rw [ofOctets?, sequence?_octetsWith hpoint]
  unfold parts
  dsimp only [bind, Option.bind]
  rw [optionalParts?_optionalParts hpoint]
  dsimp only [HOrElse.hOrElse, OrElse.orElse]
  rw [hparameter]
  dsimp only
  rw [Curve.ofParameter?_parameter]
  dsimp only
  rw [if_pos ⟨rfl, rfl, hinner⟩]
  exact ofParts?_eq_some h hpoint

end PrivateKey

end SignedToken
