import SignedToken.Binary64

/-!
This module contains the values of JSON texts. Members of an object are kept in the order of the
text and may repeat, because what a repeated name means is decided where the object is used.
-/

namespace SignedToken

inductive Json where
  | null
  | bool (b : Bool)
  | int (n : Int)
  | float (x : Binary64)
  | text (t : Text)
  | array (items : List Json)
  | object (members : List (Text × Json))
  deriving Repr

namespace Json

def lastMember? (name : Text) (members : List (Text × Json)) : Option Json :=
  (members.reverse.find? (·.1 == name)).map (·.2)

end Json

end SignedToken
