import SignedToken.Text

/-!
This module contains defects of input data: what is wrong, and where. Checks collect the defects of
all parts, so a report is complete and in the order of the parts.
-/

namespace SignedToken

inductive DefectKind where
  | missing
  | notInteger
  | notText
  | notUtf8
  | notSequence
  | notMapping
  | notJson
  | notObject
  | malformedValue
  | unknownLiteral
  | notNumeral
  | numeralTooLong
  | immutable
  deriving DecidableEq, Repr

def DefectKind.code : DefectKind → String
  | missing => "missing"
  | notInteger => "int_type"
  | notText => "string_type"
  | notUtf8 => "string_unicode"
  | notSequence => "tuple_type"
  | notMapping => "dict_type"
  | notJson => "json_invalid"
  | notObject => "model_type"
  | malformedValue => "value_error"
  | unknownLiteral => "literal_error"
  | notNumeral => "int_parsing"
  | numeralTooLong => "int_parsing_size"
  | immutable => "frozen_instance"

inductive Step where
  | name (t : Text)
  | index (n : Int)
  deriving DecidableEq, Repr

structure Defect where
  kind : DefectKind
  place : List Step
  deriving DecidableEq, Repr

abbrev Checked (α : Type) := Except (List Defect) α

namespace Checked

def fail (kind : DefectKind) (place : List Step) : Checked α :=
  .error [⟨kind, place⟩]

def defects : Checked α → List Defect
  | .ok _ => []
  | .error ds => ds

def both (a : Checked α) (b : Checked β) : Checked (α × β) :=
  match a, b with
  | .ok x, .ok y => .ok (x, y)
  | a, b => .error (a.defects ++ b.defects)

def all : List (Checked α) → Checked (List α)
  | [] => .ok []
  | a :: rest => (both a (all rest)).map fun (x, xs) => x :: xs

end Checked

end SignedToken
