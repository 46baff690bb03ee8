import SignedToken.Binary64.Shortest
import SignedToken.Json
import SignedToken.Json.Quoted

/-!
This module contains the JSON text of values. Members are written in the order in which they are
held; how a text looks apart from that is a record.
-/

namespace SignedToken.Json

structure Style where
  itemSeparator : Text
  nameSeparator : Text
  asciiOnly : Bool

def Style.canonical : Style where
  itemSeparator := Text.ofString ","
  nameSeparator := Text.ofString ":"
  asciiOnly := false

def Style.line : Style where
  itemSeparator := Text.ofString ", "
  nameSeparator := Text.ofString ": "
  asciiOnly := true

def writeBool (b : Bool) : Text :=
  Text.ofString (if b then "true" else "false")

def bracketed (s : Style) (items : List Text) : Text :=
  CodePoint.ofChar '[' :: (Text.join s.itemSeparator items ++ [CodePoint.ofChar ']'])

def braced (s : Style) (members : List Text) : Text :=
  CodePoint.ofChar '\x7b' :: (Text.join s.itemSeparator members ++ [CodePoint.ofChar '\x7d'])

mutual

def write (s : Style) : Json → Text
  | null => Text.ofString "null"
  | bool b => writeBool b
  | int n => Text.ofInt n
  | float x => FloatLayout.json.render x
  | text t => quoted s.asciiOnly t
  | array items => bracketed s (writeItems s items)
  | object members => braced s (writeMembers s members)
termination_by structural x => x

def writeItems (s : Style) : List Json → List Text
  | [] => []
  | x :: xs => write s x :: writeItems s xs
termination_by structural xs => xs

def writeMembers (s : Style) : List (Text × Json) → List Text
  | [] => []
  | (name, x) :: ms => (quoted s.asciiOnly name ++ s.nameSeparator ++ write s x) :: writeMembers s ms
termination_by structural ms => ms

end

end SignedToken.Json
