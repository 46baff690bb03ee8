import SignedToken.Defect
import SignedToken.Profile
import SignedToken.Text.Blank
import SignedToken.Text.Integer
import SignedToken.Text.Utf8

/-!
This module contains the settings that come from the environment: where keys are, which profile
signs, and for how long tokens are good. All of them are checked, and all defects are reported.
-/

namespace SignedToken

structure Settings where
  keyPath : Text
  profile : Profile
  /-- The lifetime of a token in seconds. -/
  lifetime : Int
  deriving DecidableEq, Repr

namespace Settings

def default : Settings where
  keyPath := Text.ofString "signing"
  profile := .es256
  lifetime := 3600

/--
The small form of a letter of the alphabet; the sign for kelvins is a form of one.
-/
def small (c : CodePoint) : CodePoint :=
  if 0x41 ≤ c.val ∧ c.val ≤ 0x5A then c + 0x20
  else if c.val = 0x212A then CodePoint.ofChar 'k'
  else c

/--
The value of a setting. Large and small letters in the names of the environment are the same, and
of entries with the same name the last one counts.
-/
def valueOf? (setting : String) (environment : List (Text × Text)) : Option Text :=
  (environment.findRev? fun (name, _) =>
    name.map small == Text.ofString ("ectoken_" ++ setting)).map (·.2)

def dropZeroFraction (t : Text) : Text :=
  match Text.cutAt? (CodePoint.ofChar '.') t with
  | some (digits, fraction) =>
    if !fraction.isEmpty && fraction.all (· == CodePoint.ofChar '0') then digits else t
  | none => t

def isShort (n : Int) : Bool :=
  -2 ^ 63 ≤ n && n < 2 ^ 63

/--
An integer with blanks around it, a sign, and a fraction of zeros.
-/
def integer (place : List Step) (t : Text) : Checked Int :=
  let (negative, digits) := Text.cutSign t.trim
  match Text.groupedDigits? Text.asciiDigit? (dropZeroFraction digits) with
  | none => .fail .notNumeral place
  | some ds =>
    let n := Text.signedValue negative ds
    if !isShort n && maxNumeralDigits < (Utf8.encodeAny t).length then .fail .numeralTooLong place
    else .ok n

def readProfile (place : List Step) (t : Text) : Checked Profile :=
  match Profile.ofName? t with
  | some p => .ok p
  | none => .fail .unknownLiteral place

def readLifetime (place : List Step) (t : Text) : Checked Int :=
  if t.any CodePoint.isSurrogate then .fail .notUtf8 place else integer place t

def setting (environment : List (Text × Text)) (name : String)
    (read : List Step → Text → Checked α) (absent : α) : Checked α :=
  match valueOf? name environment with
  | none => .ok absent
  | some t => read [.name (Text.ofString name)] t

def ofEnvironment (environment : List (Text × Text)) : Checked Settings :=
  let keyPath := setting environment "key_path" (fun _ t => .ok t) default.keyPath
  let profile := setting environment "algorithm" readProfile default.profile
  let lifetime := setting environment "token_ttl" readLifetime default.lifetime
  (Checked.both keyPath (Checked.both profile lifetime)).map fun (k, p, l) => ⟨k, p, l⟩

end Settings

end SignedToken
