import SignedToken.Claim

/-!
This module contains the two conversions between claim values that can change and ones that cannot.
Freezing makes every list a tuple and every mapping a read-only one; thawing goes back and leaves a
list that was never frozen alone.
-/

namespace SignedToken.ClaimValue

mutual

def freeze : ClaimValue → ClaimValue
  | list items => tuple (freezeItems items)
  | tuple items => tuple (freezeItems items)
  | dict entries => readOnly (freezeEntries entries)
  | readOnly entries => readOnly (freezeEntries entries)
  | v => v
termination_by structural v => v

def freezeItems : List ClaimValue → List ClaimValue
  | [] => []
  | x :: xs => freeze x :: freezeItems xs
termination_by structural xs => xs

def freezeEntries : List (ClaimValue × ClaimValue) → List (ClaimValue × ClaimValue)
  | [] => []
  | (k, v) :: es => (k, freeze v) :: freezeEntries es
termination_by structural es => es

end

mutual

def thaw : ClaimValue → ClaimValue
  | tuple items => list (thawItems items)
  | dict entries => dict (thawEntries entries)
  | readOnly entries => dict (thawEntries entries)
  | v => v
termination_by structural v => v

def thawItems : List ClaimValue → List ClaimValue
  | [] => []
  | x :: xs => thaw x :: thawItems xs
termination_by structural xs => xs

def thawEntries : List (ClaimValue × ClaimValue) → List (ClaimValue × ClaimValue)
  | [] => []
  | (k, v) :: es => (k, thaw v) :: thawEntries es
termination_by structural es => es

end

mutual

def thawDepth : ClaimValue → Nat
  | tuple items => thawDepthItems items + 1
  | dict entries => thawDepthEntries entries + 1
  | readOnly entries => thawDepthEntries entries + 1
  | _ => 0
termination_by structural v => v

def thawDepthItems : List ClaimValue → Nat
  | [] => 0
  | x :: xs => max (thawDepth x) (thawDepthItems xs)
termination_by structural xs => xs

def thawDepthEntries : List (ClaimValue × ClaimValue) → Nat
  | [] => 0
  | (_, v) :: es => max (thawDepth v) (thawDepthEntries es)
termination_by structural es => es

end

end SignedToken.ClaimValue
