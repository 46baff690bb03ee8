import SignedToken.Clock
import SignedToken.CommandLine.Run
import Std.Time.Format

/-!
This module contains the program: the steps on the files of the system, its environment, clock and
source of randomness, and the printing of what a run comes to.
-/

namespace SignedToken.Program

def string (t : Text) : String :=
  (Text.toString? t).getD ""

/-! ### Files -/

def details : IO.Error → UInt32 × String
  | .alreadyExists _ n s => (n, s)
  | .otherError n s => (n, s)
  | .resourceBusy n s => (n, s)
  | .resourceVanished n s => (n, s)
  | .unsupportedOperation n s => (n, s)
  | .hardwareFault n s => (n, s)
  | .unsatisfiedConstraints n s => (n, s)
  | .illegalOperation n s => (n, s)
  | .protocolError n s => (n, s)
  | .timeExpired n s => (n, s)
  | .interrupted _ n s => (n, s)
  | .noFileOrDirectory _ n s => (n, s)
  | .invalidArgument _ n s => (n, s)
  | .permissionDenied _ n s => (n, s)
  | .resourceExhausted _ n s => (n, s)
  | .inappropriateType _ n s => (n, s)
  | .noSuchThing _ n s => (n, s)
  | .unexpectedEof => (5, "Input/output error")
  | .userError s => (5, s)

def fileError (e : IO.Error) : FileError :=
  let (code, s) := details e
  let n := code.toInt32.toInt.natAbs
  let known : List FileError :=
    [.notFound, .alreadyExists, .notDirectory, .isDirectory, .nameTooLong, .denied]
  (known.find? (·.number == n)).getD (.other n s)

def attempt (x : IO α) : IO (Except FileError α) := do
  try
    return .ok (← x)
  catch e =>
    return .error (fileError e)

def bytes (b : ByteArray) : Bytes := b.toList

def right (mode : Nat) : IO.AccessRight :=
  ⟨mode.testBit 2, mode.testBit 1, mode.testBit 0⟩

def freshEnd : IO Text := do
  let random ← IO.getRandomBytes 4
  return Text.hexOfNatPadded 8 (Octets.toNat (bytes random))

def createFresh (parent : Path) (start : Text) : Nat → IO Path
  | 0 => throw (.alreadyExists none 17 "File exists")
  | tries + 1 => do
    let p := parent.child (start ++ (← freshEnd))
    try
      let _ ← IO.FS.Handle.mk (string p.toText) .writeNew
      return p
    catch
      | .alreadyExists .. => createFresh parent start tries
      | e => throw e

instance : FileSteps IO where
  read p := attempt do return bytes (← IO.FS.readBinFile (string p.toText))
  createFresh parent start := attempt (createFresh parent start 100)
  setMode p mode :=
    attempt (IO.setAccessRights (string p.toText) ⟨right (mode / 64), right (mode / 8), right mode⟩)
  write p content :=
    attempt (IO.FS.writeBinFile (string p.toText) (ByteArray.mk content.toArray))
  sync _ := return .ok ()
  rename source target := attempt (IO.FS.rename (string source.toText) (string target.toText))
  remove p := attempt (IO.FS.removeFile (string p.toText))

/-! ### Environment, clock and secrets -/

def environment : IO (List (Text × Text)) := do
  match ← attempt (IO.FS.readBinFile "/proc/self/environ") with
  | .error _ => return []
  | .ok b =>
    let text := (Utf8.decodeWith true (bytes b)).getD []
    return (Text.splitOn 0 text).filterMap (Text.cutAt? (CodePoint.ofChar '='))

def now : IO Int := do
  let time ← Std.Time.Timestamp.now
  return Clock.millis time.toNanosecondsSinceUnixEpoch.toInt

/--
A secret from sixteen random octets more than the order of the curve has.
-/
def secret (c : Curve) : IO (Option Nat) := do
  let random ← IO.getRandomBytes (USize.ofNat (c.scalarSize + 16))
  return some (Octets.toNat (bytes random) % (c.params.n - 1) + 1)

def host : CommandLine.Host IO := ⟨now, secret, .ecdsa⟩

/-! ### Printing -/

def printRecord (r : LogRecord) : IO Unit := do
  let time ← Std.Time.PlainDateTime.now
  IO.eprintln (time.format "uuuu-MM-dd HH:mm:ss,SSS" ++ " " ++ string r.line)

def report : CommandLine.Outcome → IO UInt32
  | .ended .help => do
    IO.println (string CommandLine.usage)
    return 0
  | .ended e => do
    IO.eprintln (string CommandLine.usage)
    IO.eprintln (string e.message)
    return e.status.toUInt32
  | .finished status output records => do
    records.forM printRecord
    output.forM fun line => IO.println (string line)
    return status.toUInt32
  | .escaped _ records => do
    records.forM printRecord
    IO.eprintln "the run was ended by a value that cannot be handled"
    return 1

def start (args : List String) : IO UInt32 := do
  report (← CommandLine.run host (← environment) (args.map Text.ofString))

end SignedToken.Program

def main (args : List String) : IO UInt32 :=
  SignedToken.Program.start args
