import SignedToken.Error
import SignedToken.Log

/-!
This module contains operations that may fail and that leave records in a log. A failure keeps the
records left before it.
-/

namespace SignedToken

abbrev Task (m : Type → Type) := ExceptT Failure (StateT (List LogRecord) m)

namespace Task

variable {m : Type → Type} [Monad m]

def log (r : LogRecord) : Task m Unit :=
  modify fun records => records ++ [r]

def logAll (rs : List LogRecord) : Task m Unit :=
  modify fun records => records ++ rs

def failKey (e : KeyError) : Task m α :=
  throw (.known (.key e))

def ofExcept (x : Except Failure α) : Task m α :=
  match x with
  | .ok a => pure a
  | .error e => throw e

def ofKeyExcept (x : Except KeyError α) : Task m α :=
  match x with
  | .ok a => pure a
  | .error e => failKey e

def perform (x : Task m α) : m (Except Failure α × List LogRecord) :=
  x.run.run []

end Task

end SignedToken
