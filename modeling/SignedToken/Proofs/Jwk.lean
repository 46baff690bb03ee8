import SignedToken.Jwk
import SignedToken.Proofs.Base64Url.Width
import SignedToken.Proofs.Json.Legible
import SignedToken.Proofs.Json.Written
import SignedToken.Proofs.Key.Ec
import SignedToken.Proofs.Text.Pieces

/-!
This module contains that no key is lost in its JSON form: both coordinates have the width of the profile,
whatever zeros they start with, and from the text alone the key is recovered with its curve.
-/

namespace SignedToken

namespace Jwk

variable {p : Profile} {k : PublicKey}

/-! ### The JSON text -/

def json (j : Jwk) : Json :=
  .object (j.members.map fun m => (m.1, .text m.2))

theorem render_eq_write (j : Jwk) : j.render = j.json.write Json.Style.canonical := by
  rw [json, Json.write, Json.braced, Json.writeMembers_eq_map, List.map_map, render]
  congr 4
  funext m
  simp only [Function.comp_apply, Json.write, List.append_assoc]
  rfl

theorem readable_json (j : Jwk) : Json.Readable false j.json where
  numeral := by
    intro n hn
    rw [json] at hn
    cases hn with
    | member hm hn =>
      obtain ⟨m, -, rfl⟩ := List.mem_map.1 hm
      cases hn
  legible := nofun

theorem nesting_json_le (countsEmpty : Bool) (j : Jwk) : j.json.nesting countsEmpty ≤ 1 := by
  rw [json, Json.nesting_object_le_iff]
  exact .inr ⟨0, rfl, List.forall_mem_map.2 fun m _ => Nat.le_refl 0⟩

theorem read?_render {d : Json.Dialect} (hd : 1 ≤ d.maxDepth) (j : Jwk)
    : Json.read? d j.render = some j.json := by
  rw [render_eq_write, Json.read?_write d Json.Style.canonical_separates j.readable_json]
  exact if_pos (Nat.le_trans (nesting_json_le _ j) hd)

theorem isPlainAscii_of_mem_render (p : Profile) (k : PublicKey)
    : ∀ c ∈ (ofPublic p k).render, c.isPlainAscii = true := by
  have hall : ∀ {t : Text}, t.all CodePoint.isPlainAscii = true → ∀ c ∈ t, c.isPlainAscii = true :=
    List.all_eq_true.1
  have hcoordinate : ∀ n, ∀ c ∈ coordinate p n, c.isPlainAscii = true :=
    fun n => Base64Url.isPlainAscii_of_mem_encode _
  have hmembers : ∀ m ∈ (ofPublic p k).members,
      (∀ c ∈ m.1, c.isPlainAscii = true) ∧ ∀ c ∈ m.2, c.isPlainAscii = true := by
    rw [members, ofPublic]
    simp only [List.forall_mem_cons]
    exact ⟨⟨hall rfl, hall rfl⟩, ⟨hall rfl, hall rfl⟩, ⟨hall rfl, hall (by cases p <;> rfl)⟩,
      ⟨hall rfl, hall (by cases p <;> rfl)⟩, ⟨hall rfl, hcoordinate k.x⟩, ⟨hall rfl, hcoordinate k.y⟩,
      List.forall_mem_nil _⟩
  have hcomma : ∀ c ∈ [CodePoint.ofChar ','], c.isPlainAscii = true := hall rfl
  rw [render, List.forall_mem_cons, List.forall_mem_append, List.forall_mem_singleton,
    Text.forall_mem_join_iff hcomma, List.forall_mem_map]
  refine ⟨rfl, fun m hm => ?_, rfl⟩
  obtain ⟨hname, hvalue⟩ := hmembers m hm
  rw [List.forall_mem_append, List.forall_mem_cons]
  exact ⟨Json.forall_mem_quoted (fun c hc => hc) fun _ => hname, rfl,
    Json.forall_mem_quoted (fun c hc => hc) fun _ => hvalue⟩

theorem decode?_encodeAny_render (p : Profile) (k : PublicKey)
    : Utf8.decode? (Utf8.encodeAny (ofPublic p k).render) = some (ofPublic p k).render := by
  have hascii : ∀ c ∈ (ofPublic p k).render, c.val < 0x80 := fun c hc =>
    CodePoint.val_lt_of_isPlainAscii (isPlainAscii_of_mem_render p k c hc)
  apply Utf8.decode?_of_encode?
  rw [Utf8.encode?_of_ascii hascii, Utf8.encodeAny_of_ascii hascii]

/-! ### Reading a key -/

def textMember? (name : String) (members : List (Text × Json)) : Option Text :=
  match Json.lastMember? (Text.ofString name) members with
  | some (.text t) => some t
  | _ => none

def number? (t : Text) : Option Nat :=
  match Verifier.decodeSegment t with
  | .ok b => some (Octets.toNat b)
  | .error _ => none

def readKey? (d : Json.Dialect) (t : Text) : Option PublicKey := do
  let .object members ← Json.read? d t | none
  let name ← textMember? "crv" members
  let p ← Profile.all.find? (Text.ofString ·.jwkCurve == name)
  let x ← textMember? "x" members >>= number?
  let y ← textMember? "y" members >>= number?
  PublicKey.ofPoint? p.curve (.affine x y)

theorem number?_of_isNumberText {size n : Nat} {t : Text} (h : Base64Url.IsNumberText size n t)
    : number? t = some n := by
  obtain ⟨b, hdecode, -, hvalue⟩ := h
  rw [number?, hdecode]
  exact congrArg some (Int.ofNat_inj.1 hvalue)

theorem find?_jwkCurve (p : Profile)
    : Profile.all.find? (Text.ofString ·.jwkCurve == Text.ofString p.jwkCurve) = some p := by
  cases p <;> decide

/-! ### Keys of a profile -/

theorem isNumberText_coordinate {n : Nat} (h : n < p.curve.params.p)
    : Base64Url.IsNumberText p.coordinateSize n (coordinate p n) := by
  have hfits : n < 256 ^ p.coordinateSize := Nat.lt_of_lt_of_le h p.curve.field_le
  refine ⟨_, Verifier.decodeSegment_eq_ok_iff.2 rfl, Octets.length_ofNat _ _, ?_⟩
  rw [Octets.toNat_ofNat hfits]

-- Leading zeros are written out.
example : coordinate .es256 1 = Text.ofString "AAAAAAAAAAAAAAAAAAAAAAAAAAAAAAAAAAAAAAAAAAE" := by decide

structure Tells (j : Jwk) (p : Profile) (k : PublicKey) : Prop where
  algorithm : j.algorithm = Text.ofString p.algorithm
  curve : j.curve = Text.ofString p.jwkCurve
  x : Base64Url.IsNumberText p.coordinateSize k.x j.x
  y : Base64Url.IsNumberText p.coordinateSize k.y j.y

theorem tells_ofPublic (hcurve : k.curve = p.curve) (h : k.IsOnCurve) : (ofPublic p k).Tells p k := by
  obtain ⟨⟨hx, hy⟩, -⟩ := Curve.contains_affine_iff.1 h
  rw [hcurve] at hx hy
  exact ⟨rfl, rfl, isNumberText_coordinate hx, isNumberText_coordinate hy⟩

theorem Tells.readKey?_render {j : Jwk} {d : Json.Dialect} (hj : j.Tells p k) (hcurve : k.curve = p.curve)
    (h : k.IsOnCurve) (hd : 1 ≤ d.maxDepth) : readKey? d j.render = some k := by
  have hname : textMember? "crv" (j.members.map fun m => (m.1, .text m.2)) = some j.curve := rfl
  have hx : textMember? "x" (j.members.map fun m => (m.1, .text m.2)) = some j.x := rfl
  have hy : textMember? "y" (j.members.map fun m => (m.1, .text m.2)) = some j.y := rfl
  have hpoint : PublicKey.ofPoint? p.curve (.affine k.x k.y) = some k := by
    rw [← hcurve]
    exact if_pos h
  rw [readKey?, read?_render hd]
  simp only [json, Option.bind_eq_bind, Option.bind_some, hname, hx, hy, hj.curve, find?_jwkCurve,
    number?_of_isNumberText hj.x, number?_of_isNumberText hj.y, hpoint]

theorem render_ofPublic_inj {k' : PublicKey} (hcurve : k.curve = p.curve) (h : k.IsOnCurve)
    (hcurve' : k'.curve = p.curve) (h' : k'.IsOnCurve)
    : (ofPublic p k).render = (ofPublic p k').render ↔ k = k' := by
  constructor
  . intro hrender
    have hread := (tells_ofPublic hcurve h).readKey?_render hcurve h (d := ⟨false, 1, false, false⟩)
      (Nat.le_refl 1)
    rw [hrender, (tells_ofPublic hcurve' h').readKey?_render hcurve' h' (Nat.le_refl 1),
      Option.some_inj] at hread
    exact hread.symm
  . rintro rfl
    rfl

end Jwk

end SignedToken
