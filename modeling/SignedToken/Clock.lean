/-!
This module contains the time that expirations are compared with: whole milliseconds since the
epoch.
-/

namespace SignedToken.Clock

def millis (nanoseconds : Int) : Int :=
  Int.fdiv nanoseconds 1000000

/--
The time that a system clock tells, which counts nanoseconds in a signed word.
-/
def now (nanoseconds : Int64) : Int :=
  millis nanoseconds.toInt

end SignedToken.Clock
