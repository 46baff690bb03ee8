/-!
This module contains association lists that keep the order in which their keys were first put.
-/

namespace SignedToken.Entries

/--
Puts a value under a key. A key that is already there keeps its place and gets the new value.
-/
def put (same : α → α → Bool) (key : α) (value : β) : List (α × β) → List (α × β)
  | [] => [(key, value)]
  | (k, v) :: rest => if same k key then (k, value) :: rest else (k, v) :: put same key value rest

def ofList (same : α → α → Bool) (entries : List (α × β)) : List (α × β) :=
  entries.foldl (fun put' (k, v) => put same k v put') []

def get? [BEq α] (key : α) (entries : List (α × β)) : Option β :=
  (entries.find? (·.1 == key)).map (·.2)

def erase [BEq α] (key : α) (entries : List (α × β)) : List (α × β) :=
  entries.filter (·.1 != key)

end SignedToken.Entries
