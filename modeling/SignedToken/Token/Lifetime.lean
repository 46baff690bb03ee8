import SignedToken.Token.Schema

/-!
This module contains tokens that are built from a lifetime. Callers may hand in any claim values
for the lifetime and the time, so their sum is a claim value too, and whether it is an expiration
is decided where the token is checked.
-/

namespace SignedToken

namespace ClaimValue

inductive SumError where
  | kind
  | tooLarge
  deriving DecidableEq, Repr

def fitsFloat (n : Int) : Bool :=
  (Magnitude.nearest? (n.natAbs * 2 ^ 1074) 1).isSome

/--
A time in milliseconds with a lifetime in seconds added. A sum of which one part is no integer is
no integer either, and nothing more is known of it; sequences of one kind have a sum as well.
-/
def addSeconds (now lifetime : ClaimValue) : Except SumError ClaimValue :=
  match now.number?, lifetime.number? with
  | some (.inl n), some (.inl s) => .ok (.int (n + s * 1000))
  | some (.inl n), some (.inr _) => if fitsFloat n then .ok (.float .nan) else .error .tooLarge
  | some (.inr _), some (.inl s) =>
    if fitsFloat (s * 1000) then .ok (.float .nan) else .error .tooLarge
  | some (.inr _), some (.inr _) => .ok (.float .nan)
  | _, _ =>
    match now, lifetime with
    | .text _, .text _ => .ok now
    | .bytes _, .bytes _ => .ok now
    | .list _, .list _ => .ok now
    | .tuple _, .tuple _ => .ok now
    | _, _ => .error .kind

end ClaimValue

namespace Token

inductive LifetimeError where
  | noSum (cause : ClaimValue.SumError)
  | reservedName
  | defects (ds : List Defect)
  deriving DecidableEq, Repr

def reservedNames : List Text :=
  ["cls", "ttl_seconds", "clock", "expiration"].map Text.ofString

def expiringIn (lifetime now : ClaimValue) (claims : List (Text × ClaimValue)) :
    Except LifetimeError Token :=
  match now.addSeconds lifetime with
  | .error e => .error (.noSum e)
  | .ok expiration =>
    if claims.any fun (name, _) => reservedNames.contains name then .error .reservedName
    else (ofClaims ((expirationName, expiration) :: claims)).mapError .defects

end Token

end SignedToken
