import SignedToken.Proofs.Key.File
import SignedToken.Proofs.Key.Point

/-!
This module contains the encodings in which files hold a key on the curve of a profile, and that all of
them are read as that key. The parts of an encoding that are up to its writer are its structure, whether
the curve and the point come with a private key, the form of the point, and the armour.
-/

namespace SignedToken

open KeyFile

/-! ### Private keys -/

namespace PrivateKey

variable {k : PrivateKey} {p : Profile} {form : PrivateForm} {armoured : Bool} {data b : Bytes}

def pointOctets (k : PrivateKey) (point : Option PointForm) : Option Bytes :=
  point.map fun form => form.write k.publicKey

theorem hasPoint_pointOctets (hcurve : k.curve = p.curve) (hsound : k.isSound = true)
    (point : Option PointForm) : k.HasPoint (k.pointOctets point) := by
  cases point with
  | none => exact hasPoint_none k
  | some form =>
    have hcurve' : k.publicKey.curve = p.curve := by rw [publicKey_curve, hcurve]
    exact hasPoint_some (PointForm.isReadFrom_write hcurve' (isOnCurve_publicKey hsound) form)

inductive IsEncoded (k : PrivateKey) : PrivateForm → Bytes → Prop where
  | pkcs8 (withCurve : Bool) (point : Option PointForm) {trailer : List Der.Element}
    (htrailer : k.TakesBehind withCurve (k.pointOctets point) trailer)
    : IsEncoded k .pkcs8 (k.pkcs8With withCurve (k.pointOctets point) trailer)
  | sec1 (point : Option PointForm) : IsEncoded k .sec1 (k.octetsWith true (k.pointOctets point))

namespace IsEncoded

variable (hcurve : k.curve = p.curve) (hsound : k.isSound = true) (h : k.IsEncoded form data)

include hcurve hsound h

theorem read?_eq : form.read? data = some (.ecPrivate k) := by
  cases h with
  | pkcs8 withCurve point htrailer =>
    exact ofPkcs8?_pkcs8With hsound (hasPoint_pointOctets hcurve hsound point) htrailer
  | sec1 point =>
    rw [PrivateForm.read?, AnyKey.ofSec1?,
      ofOctets?_octetsWith hsound (hasPoint_pointOctets hcurve hsound point) (.inr ⟨rfl, rfl⟩)]
    rfl

theorem ofPrivateDer?_eq : AnyKey.ofPrivateDer? data = some (.ecPrivate k) := by
  have hread := h.read?_eq hcurve hsound
  cases h with
  | pkcs8 withCurve point htrailer =>
    rw [AnyKey.ofPrivateDer?, show AnyKey.ofPkcs8? _ = _ from hread]
    rfl
  | sec1 point =>
    -- Without armour there is no label, so the other structure is tried first.
    rw [AnyKey.ofPrivateDer?, ofPkcs8?_octetsWith (hasPoint_pointOctets hcurve hsound point),
      show AnyKey.ofSec1? _ = _ from hread]
    rfl

end IsEncoded

/--
The files that hold a private key, with armour or without. Armour starts with a block, and the first block
with a label for private keys is that of the key.
-/
inductive InFile (k : PrivateKey) : Bool → Bytes → Prop where
  | bare {form : PrivateForm} {data : Bytes} (h : k.IsEncoded form data) : InFile k false data
  | armoured {form : PrivateForm} {data b : Bytes} {skipped blocks : List Pem.Block}
    (h : k.IsEncoded form data) (hstart : StartsBlock b)
    (hblocks : Pem.Armours (skipped ++ ⟨Pem.ascii form.label, [], data⟩ :: blocks) b)
    (hskipped : ∀ block ∈ skipped, privateLabels.contains block.label = false)
    : InFile k true b

theorem InFile.isArmoured_eq (hcurve : k.curve = p.curve) (hsound : k.isSound = true)
    (h : k.InFile armoured b) : isArmoured b = armoured := by
  cases h with
  | bare hdata => exact AnyKey.isArmoured_of_ofPrivateDer? (hdata.ofPrivateDer?_eq hcurve hsound)
  | armoured _ hstart _ _ => exact hstart.isArmoured_eq

theorem InFile.ofPrivateFile?_eq (hcurve : k.curve = p.curve) (hsound : k.isSound = true)
    (h : k.InFile armoured b) : AnyKey.ofPrivateFile? b = some (.ecPrivate k) := by
  rw [AnyKey.ofPrivateFile?_eq, h.isArmoured_eq hcurve hsound]
  cases h with
  | bare hdata => exact hdata.ofPrivateDer?_eq hcurve hsound
  | armoured hdata _ hblocks hskipped =>
    rw [if_pos rfl, AnyKey.ofPrivateArmour?_eq hblocks hskipped, hdata.read?_eq hcurve hsound]

theorem inFile_toFile (hsound : k.isSound = true) (form : PrivateForm) (armoured : Bool)
    : k.InFile armoured (k.toFile form armoured) := by
  have hpoint := hasPoint_some (PublicKey.isReadFrom_toOctets (isOnCurve_publicKey hsound))
  have hdata : k.IsEncoded form (form.write k) := by
    cases form with
    | pkcs8 =>
      rw [PrivateForm.write, toPkcs8_eq]
      exact .pkcs8 false (some .plain) (takesBehind_nil hpoint)
    | sec1 =>
      rw [PrivateForm.write, toOctets_eq]
      exact .sec1 (some .plain)
  cases armoured with
  | false => exact .bare hdata
  | true =>
    have hblocks : Pem.Armours ([] ++ [⟨Pem.ascii form.label, [], form.write k⟩])
        (Pem.write form.label (form.write k)) := Pem.armours_write form.isLabel
    rw [toFile, if_pos rfl]
    exact .armoured hdata (startsBlock_write _ _) hblocks (List.forall_mem_nil _)

end PrivateKey

/-! ### Public keys -/

namespace PublicKey

variable {k : PublicKey} {p : Profile} {armoured : Bool} {b : Bytes}

inductive InFile (k : PublicKey) : Bool → Bytes → Prop where
  | bare (form : PointForm) : InFile k false (k.spkiWith (form.write k))
  | armoured (form : PointForm) {blanks payload : Bytes} (behind : Bytes)
    (hblanks : ∀ x ∈ blanks, KeyFile.isBlank x = true)
    (hpayload : Pem.Carries (k.spkiWith (form.write k)) payload)
    : InFile k true (Pem.frame blanks "PUBLIC KEY" payload behind)

theorem not_mem_of_forall_isBlank {blanks : Bytes} (h : ∀ x ∈ blanks, KeyFile.isBlank x = true)
    : 0x2D ∉ blanks := fun hmem => by cases h _ hmem

theorem InFile.isArmoured_eq (hcurve : k.curve = p.curve) (h : k.IsOnCurve) (hfile : k.InFile armoured b)
    : isArmoured b = armoured := by
  cases hfile with
  | bare form =>
    exact isArmoured_of_sequence? (sequence?_spkiWith (form.isReadFrom_write hcurve h))
  | armoured form behind hblanks hpayload =>
    exact StartsBlock.isArmoured_eq ⟨_, _, hblanks, rfl⟩

theorem InFile.ofPublicFile?_eq (hcurve : k.curve = p.curve) (h : k.IsOnCurve)
    (hfile : k.InFile armoured b) : AnyKey.ofPublicFile? b = some (.ecPublic k) := by
  rw [AnyKey.ofPublicFile?_eq, hfile.isArmoured_eq hcurve h]
  cases hfile with
  | bare form =>
    rw [if_neg Bool.false_ne_true, AnyKey.ofPublicDer?,
      ofSpki?_spkiWith h (form.isReadFrom_write hcurve h)]
    rfl
  | armoured form behind hblanks hpayload =>
    rw [if_pos rfl, AnyKey.ofPublicArmour?_frame hpayload (not_mem_of_forall_isBlank hblanks),
      ofSpki?_spkiWith h (form.isReadFrom_write hcurve h)]

theorem inFile_toFile (k : PublicKey) (armoured : Bool) : k.InFile armoured (k.toFile armoured) := by
  cases armoured with
  | false => exact .bare .plain
  | true =>
    rw [toFile, if_pos rfl, Pem.write_eq_frame]
    exact .armoured .plain _ (List.forall_mem_nil _) (Pem.carries_dataLines _)

end PublicKey

end SignedToken
