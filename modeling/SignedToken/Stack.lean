/-!
This module contains how far recursions over nested data get before the stack is used up. The stack is
measured in calls, of which a thousand may be under way at once. What a recursion leaves to its data
depends on how many of them its callers take, so the numbers here are those of a fixed depth of callers.
-/

namespace SignedToken.Stack

def limit : Nat := 1000

/--
How many calls are under way when a token is to be encoded or a wire to be read.
-/
def callers : Nat := 14

/--
How many levels of nested data a recursion reaches that takes so many calls on its way to the data and
behind the last level, and so many for each level.
-/
def levels (around each : Nat) : Nat :=
  (limit - callers - around) / each

end SignedToken.Stack
