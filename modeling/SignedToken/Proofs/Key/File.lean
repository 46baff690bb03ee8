import SignedToken.Key.File
import SignedToken.Proofs.Key.Envelope
import SignedToken.Proofs.Pem.Frame

/-!
This module contains how key files are read: text armour and bare structures are never taken for each
other, the first block with a label for private keys counts, and files are read back as they are written.
-/

namespace SignedToken

open KeyFile

/-! ### Armour or none -/

namespace KeyFile

theorem isArmoured_iff {b : Bytes}
    : isArmoured b = true ↔
        ∃ blanks rest, (∀ x ∈ blanks, isBlank x = true) ∧ b = blanks ++ (Pem.tailMark ++ rest) := by
  rw [isArmoured, List.isPrefixOf_iff_prefix]
  constructor
  . rintro ⟨rest, hrest⟩
    refine ⟨b.takeWhile isBlank, rest, List.all_eq_true.1 List.all_takeWhile, ?_⟩
    rw [hrest, List.takeWhile_append_dropWhile]
  . rintro ⟨blanks, rest, hblanks, rfl⟩
    rw [List.dropWhile_append_of_pos hblanks]
    exact ⟨rest, rfl⟩

def StartsBlock (b : Bytes) : Prop :=
  ∃ blanks rest, (∀ x ∈ blanks, isBlank x = true) ∧ b = blanks ++ (Pem.beginMark ++ rest)

theorem StartsBlock.isArmoured_eq {b : Bytes} (h : StartsBlock b) : isArmoured b = true := by
  obtain ⟨blanks, rest, hblanks, rfl⟩ := h
  exact isArmoured_iff.2 ⟨blanks, _, hblanks, rfl⟩

theorem startsBlock_write (label : String) (data : Bytes) : StartsBlock (Pem.write label data) := by
  rw [Pem.write_eq]
  exact ⟨[], _, List.forall_mem_nil _, rfl⟩

theorem isArmoured_of_sequence? {b : Bytes} {es : List Der.Element} (h : Der.sequence? b = some es)
    : isArmoured b = false := by
  have hhead := Der.head?_of_sequence? h
  cases b with
  | nil => cases hhead
  | cons x b =>
    cases hhead
    rfl

end KeyFile

namespace ForeignKey

variable {b : Bytes} {kind : String}

theorem exists_sequence?_of_numbers? {numbers : List Nat} (h : numbers? b = some numbers)
    : ∃ es, Der.sequence? b = some es := by
  obtain ⟨es, hes, -⟩ := Option.bind_eq_some_iff.1 h
  exact ⟨es, hes⟩

theorem exists_sequence?_of_rsaPrivate? (h : rsaPrivate? b = some kind)
    : ∃ es, Der.sequence? b = some es := by
  unfold rsaPrivate? at h
  split at h
  . next hnumbers => exact exists_sequence?_of_numbers? hnumbers
  . cases h

theorem exists_sequence?_of_dsaPrivate? (h : dsaPrivate? b = some kind)
    : ∃ es, Der.sequence? b = some es := by
  unfold dsaPrivate? at h
  split at h
  . next hnumbers => exact exists_sequence?_of_numbers? hnumbers
  . cases h

theorem exists_sequence?_of_rsaPublic? (h : rsaPublic? b = some kind)
    : ∃ es, Der.sequence? b = some es := by
  unfold rsaPublic? at h
  split at h
  . next hnumbers => exact exists_sequence?_of_numbers? hnumbers
  . cases h

end ForeignKey

namespace AnyKey

def ofPrivateDer? (b : Bytes) : Option AnyKey :=
  ofPkcs8? b <|> ofSec1? b
    <|> (ForeignKey.rsaPrivate? b).map other <|> (ForeignKey.dsaPrivate? b).map other

def ofPublicDer? (b : Bytes) : Option AnyKey :=
  ofSpki? b <|> (ForeignKey.rsaPublic? b).map other

variable {b : Bytes} {k : AnyKey}

theorem ofPrivateFile?_eq (b : Bytes)
    : ofPrivateFile? b = if isArmoured b then ofPrivateArmour? b else ofPrivateDer? b := rfl

theorem ofPublicFile?_eq (b : Bytes)
    : ofPublicFile? b = if isArmoured b then ofPublicArmour? b else ofPublicDer? b := rfl

/-! ### Bare structures -/

theorem exists_sequence?_of_ofPkcs8? (h : ofPkcs8? b = some k) : ∃ es, Der.sequence? b = some es := by
  obtain ⟨es, hes, -⟩ := Option.bind_eq_some_iff.1 h
  exact ⟨es, hes⟩

theorem exists_sequence?_of_ofSec1? (h : ofSec1? b = some k) : ∃ es, Der.sequence? b = some es := by
  obtain ⟨k', hk, -⟩ := Option.map_eq_some_iff.1 h
  obtain ⟨es, hes, -⟩ := Option.bind_eq_some_iff.1 hk
  exact ⟨es, hes⟩

theorem exists_sequence?_of_ofSpki? (h : ofSpki? b = some k) : ∃ es, Der.sequence? b = some es := by
  obtain ⟨es, hes, -⟩ := Option.bind_eq_some_iff.1 h
  exact ⟨es, hes⟩

theorem isArmoured_of_ofPrivateDer? (h : ofPrivateDer? b = some k) : isArmoured b = false := by
  have hsequence : ∃ es, Der.sequence? b = some es := by
    unfold ofPrivateDer? at h
    simp only [Option.orElse_eq_orElse, Option.orElse_eq_or, Option.or_eq_some_iff] at h
    obtain hpkcs8 | ⟨-, hsec1 | ⟨-, hrsa | ⟨-, hdsa⟩⟩⟩ := h
    . exact exists_sequence?_of_ofPkcs8? hpkcs8
    . exact exists_sequence?_of_ofSec1? hsec1
    . obtain ⟨kind, hkind, -⟩ := Option.map_eq_some_iff.1 hrsa
      exact ForeignKey.exists_sequence?_of_rsaPrivate? hkind
    . obtain ⟨kind, hkind, -⟩ := Option.map_eq_some_iff.1 hdsa
      exact ForeignKey.exists_sequence?_of_dsaPrivate? hkind
  obtain ⟨es, hes⟩ := hsequence
  exact isArmoured_of_sequence? hes

theorem isArmoured_of_ofPublicDer? (h : ofPublicDer? b = some k) : isArmoured b = false := by
  have hsequence : ∃ es, Der.sequence? b = some es := by
    unfold ofPublicDer? at h
    simp only [Option.orElse_eq_orElse, Option.orElse_eq_or, Option.or_eq_some_iff] at h
    obtain hspki | ⟨-, hrsa⟩ := h
    . exact exists_sequence?_of_ofSpki? hspki
    . obtain ⟨kind, hkind, -⟩ := Option.map_eq_some_iff.1 hrsa
      exact ForeignKey.exists_sequence?_of_rsaPublic? hkind
  obtain ⟨es, hes⟩ := hsequence
  exact isArmoured_of_sequence? hes

/-! ### Blocks -/

end AnyKey

namespace PrivateForm

def read? : PrivateForm → Bytes → Option AnyKey
  | pkcs8 => AnyKey.ofPkcs8?
  | sec1 => AnyKey.ofSec1?

theorem isLabel (form : PrivateForm) : Pem.IsLabel form.label := by
  cases form with
  | pkcs8 => exact ⟨by decide, by decide⟩
  | sec1 => exact ⟨by decide, by decide⟩

theorem contains_label (form : PrivateForm) : privateLabels.contains (Pem.ascii form.label) = true := by
  cases form <;> decide

end PrivateForm

namespace AnyKey

variable {b data payload behind : Bytes}

theorem ofPrivateArmour?_eq {form : PrivateForm} {skipped blocks : List Pem.Block}
    (h : Pem.Armours (skipped ++ ⟨Pem.ascii form.label, [], data⟩ :: blocks) b)
    (hskipped : ∀ block ∈ skipped, privateLabels.contains block.label = false)
    : ofPrivateArmour? b = form.read? data := by
  have hfind : (skipped ++ ⟨Pem.ascii form.label, [], data⟩ :: blocks).find?
      (fun block => privateLabels.contains block.label) = some ⟨Pem.ascii form.label, [], data⟩ := by
    have hnone : skipped.find? (fun block => privateLabels.contains block.label) = none :=
      List.find?_eq_none.2 fun block hblock => by rw [hskipped block hblock]; exact Bool.false_ne_true
    rw [List.find?_append, hnone, Option.none_or]
    exact List.find?_cons_of_pos form.contains_label
  rw [ofPrivateArmour?, h.blocks?_eq]
  dsimp only [bind, Option.bind]
  rw [hfind]
  dsimp only
  rw [List.any_nil, if_neg Bool.false_ne_true]
  cases form with
  | pkcs8 => exact if_pos rfl
  | sec1 =>
    rw [if_neg (by decide)]
    exact if_pos rfl

theorem ofPublicArmour?_frame {before : Bytes} (h : Pem.Carries data payload) (hbefore : 0x2D ∉ before)
    : ofPublicArmour? (Pem.frame before "PUBLIC KEY" payload behind) = ofSpki? data := by
  have hlabel : Pem.IsLabel "PUBLIC KEY" := ⟨by decide, by decide⟩
  rw [ofPublicArmour?, h.first?_frame hlabel hbefore]
  dsimp only [bind, Option.bind]
  exact if_pos rfl

/-! ### Written files -/

theorem ofPrivateArmour?_write (form : PrivateForm) (data : Bytes)
    : ofPrivateArmour? (Pem.write form.label data) = form.read? data := by
  have harmours : Pem.Armours ([] ++ [⟨Pem.ascii form.label, [], data⟩]) (Pem.write form.label data) :=
    Pem.armours_write form.isLabel
  exact ofPrivateArmour?_eq harmours (List.forall_mem_nil _)

theorem ofPrivateFile?_toFile {k : PrivateKey} (h : k.isSound = true)
    : ofPrivateFile? (k.toFile .pkcs8 true) = some (.ecPrivate k) := by
  have hpoint := PrivateKey.hasPoint_some
    (PublicKey.isReadFrom_toOctets (PrivateKey.isOnCurve_publicKey h))
  rw [PrivateKey.toFile, if_pos rfl, ofPrivateFile?_eq, if_pos (startsBlock_write _ _).isArmoured_eq,
    ofPrivateArmour?_write, PrivateForm.write, PrivateForm.read?, PrivateKey.toPkcs8_eq,
    PrivateKey.ofPkcs8?_pkcs8With h hpoint (PrivateKey.takesBehind_nil hpoint)]

theorem ofPublicFile?_toFile {k : PublicKey} (h : k.IsOnCurve)
    : ofPublicFile? (k.toFile true) = some (.ecPublic k) := by
  rw [PublicKey.toFile, if_pos rfl, ofPublicFile?_eq, if_pos (startsBlock_write _ _).isArmoured_eq,
    Pem.write_eq_frame, ofPublicArmour?_frame (Pem.carries_dataLines _) List.not_mem_nil,
    PublicKey.toSpki_eq, PublicKey.ofSpki?_spkiWith h (PublicKey.isReadFrom_toOctets h)]

end AnyKey

end SignedToken
