import SignedToken.CommandLine
import SignedToken.KeyStore
import SignedToken.Settings

/-!
This module contains what the program does: it takes its settings from the environment, reads its
arguments, carries out a command, and reports failures in its log and its exit status.
-/

namespace SignedToken

namespace CommandLine

structure Host (m : Type → Type) where
  now : m Int
  secret : Curve → m (Option Nat)
  scheme : Scheme

inductive Outcome where
  | ended (e : Ending)
  | finished (status : Nat) (output : List Text) (records : List LogRecord)
  | escaped (cause : Uncaught) (records : List LogRecord)
  deriving Repr

def loggerName : String := "ectoken.cli"

def errorRecord (message : Text) : LogRecord := ⟨.error, loggerName, message⟩

def settingsInvalid : LogRecord :=
  errorRecord (Text.ofString "Invalid ECTOKEN_ settings")

def failed (e : TokenError) : LogRecord :=
  errorRecord (Text.ofString (e.title ++ ": ") ++ e.message)

def issuedClaims (username : Text) (groups : List Text) : List (Text × ClaimValue) :=
  [(Token.usernameName, .text username), (Token.groupsName, .tuple (groups.map .text))]

/--
Why there is no token for a user. No claim has a reserved name, so the last case does not occur.
-/
def lifetimeFailure : Token.LifetimeError → Failure
  | .noSum e => .unknown (.noSum e)
  | .defects ds => .unknown (.defects ds)
  | .reservedName => .unknown (.noSum .kind)

def claimsLine (t : Token) : Except Failure Text :=
  match t.claimsValue.write .line with
  | .ok line => .ok line
  | .error _ => .error (.unknown .numeralTooLong)

section Commands

variable {m : Type → Type} [Monad m] [FileSteps m]

def generate (host : Host m) (settings : Settings) (base : Text) (withJwk : Bool) :
    Task m (List Text) := do
  let secret ← (host.secret settings.profile.curve : m _)
  KeyStore.generate secret base settings.profile
  if withJwk then
    let _ ← KeyStore.writeJwk base settings.profile
    pure []
  else pure []

def issue (host : Host m) (settings : Settings) (base username : Text) (groups : List Text)
    (lifetime : Option Int) : Task m (List Text) := do
  let signer ← KeyStore.loadSigner base settings.profile
  let now ← (host.now : m _)
  let lifetime := lifetime.getD settings.lifetime
  let token ← Task.ofExcept
    ((Token.expiringIn (.int lifetime) (.int now) (issuedClaims username groups)).mapError
      lifetimeFailure)
  let done := signer.issue host.scheme (some Signer.loggingObserver) token
  Task.logAll done.records
  let wire ← Task.ofExcept done.outcome
  pure [wire]

def verify (host : Host m) (settings : Settings) (wire base : Text) : Task m (List Text) := do
  let verifier ← KeyStore.loadVerifier base settings.profile
  let now ← (host.now : m _)
  let result := verifier.verify host.scheme now (.text wire)
  Task.logAll (Verifier.records result)
  let token ← Task.ofExcept result
  let line ← Task.ofExcept (claimsLine token)
  pure [line]

def exportJwk (settings : Settings) (base : Text) : Task m (List Text) := do
  let jwk ← KeyStore.loadJwk base settings.profile
  pure [jwk.render]

def execute (host : Host m) (settings : Settings) : Command → Task m (List Text)
  | .generate base withJwk => generate host settings base withJwk
  | .issue base username groups lifetime => issue host settings base username groups lifetime
  | .verify wire base => verify host settings wire base
  | .exportJwk base => exportJwk settings base

def shown (verbose : Bool) (records : List LogRecord) : List LogRecord :=
  if verbose then records else records.filter (·.level != .debug)

def run (host : Host m) (environment : List (Text × Text)) (args : List Text) : m Outcome :=
  match Settings.ofEnvironment environment with
  | .error _ => pure (.finished 1 [] [settingsInvalid])
  | .ok settings =>
    match parse settings.keyPath args with
    | .error e => pure (.ended e)
    | .ok invocation => do
      let (result, records) ← (execute host settings invocation.command).perform
      let records := shown invocation.verbose records
      match result with
      | .ok output => pure (.finished 0 output records)
      | .error (.known e) => pure (.finished 1 [] (records ++ [failed e]))
      | .error (.unknown cause) => pure (.escaped cause records)

end Commands

end CommandLine

end SignedToken
