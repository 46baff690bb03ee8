import SignedToken.Directory.Steps
import SignedToken.Jwk
import SignedToken.Key.File
import SignedToken.Signer
import SignedToken.Task

/-!
This module contains key pairs in files. The files of a pair share a base and differ in how their
names end. A file is written under a fresh name first and takes the place of the old one in a
single step, so at no time is there a half-written key.
-/

namespace SignedToken

namespace KeyHalf

def suffix : KeyHalf → String
  | privateHalf => ".priv"
  | publicHalf => ".pub"

def mode : KeyHalf → Nat
  | privateHalf => 0o600
  | publicHalf => 0o644

def ofFile? : KeyHalf → Bytes → Option AnyKey
  | privateHalf => AnyKey.ofPrivateFile?
  | publicHalf => AnyKey.ofPublicFile?

end KeyHalf

namespace KeyStore

def loggerName : String := "ectoken.crypto.keys"

def path (half : KeyHalf) (base : Text) : Path :=
  Path.ofText (base ++ Text.ofString half.suffix)

def jwkPath (base : Text) : Path :=
  Path.ofText (base ++ Text.ofString ".jwk")

def pathFault? (p : Path) : Option Uncaught :=
  match Path.encode? p.toText with
  | none => some .surrogate
  | some octets => if octets.contains 0 then some .embeddedNull else none

variable {m : Type → Type} [Monad m] [FileSteps m]

def checkPath (p : Path) : Task m Unit :=
  match pathFault? p with
  | none => pure ()
  | some cause => throw (.unknown cause)

/-! ### Writing -/

def fill (fresh target : Path) (mode : Nat) (content : Bytes) : ExceptT FileError m Unit := do
  ExceptT.mk (FileSteps.setMode fresh mode)
  ExceptT.mk (FileSteps.write fresh content)
  ExceptT.mk (FileSteps.sync fresh)
  ExceptT.mk (FileSteps.rename fresh target)

/--
Puts a file with the given mode and content in the place of the target. If a step fails, the fresh
file is removed and the target is as before. The fresh file is made in the folder of the target,
but not by its detours, which only the last step takes.
-/
def replaceFile (target : Path) (mode : Nat) (content : Bytes) : Task m Unit := do
  checkPath target
  let start := Path.dot :: (target.name ++ [Path.dot])
  match ← (FileSteps.createFresh target.parent.straight start : m _) with
  | .error e => Task.failKey (.unwritable target e)
  | .ok fresh =>
    match ← ((fill fresh target mode content).run : m _) with
    | .ok () => pure ()
    | .error e =>
      let _ ← (FileSteps.remove fresh : m _)
      Task.failKey (.unwritable target e)

def generated (p : Profile) (base : Text) : LogRecord where
  level := .info
  logger := loggerName
  message := Text.ofString ("Generated " ++ p.curve.name ++ " keypair at ")
    ++ (path .privateHalf base).toText ++ Text.ofString " and " ++ (path .publicHalf base).toText

def newKey? (secret : Option Nat) (p : Profile) : Option PrivateKey :=
  (secret.map (PrivateKey.mk p.curve)).filter PrivateKey.isSound

def generate (secret : Option Nat) (base : Text) (p : Profile) : Task m Unit := do
  match newKey? secret p with
  | none => Task.failKey (.notGenerated p.curve)
  | some k =>
    replaceFile (path .privateHalf base) KeyHalf.privateHalf.mode (k.toFile .pkcs8 true)
    replaceFile (path .publicHalf base) KeyHalf.publicHalf.mode (k.publicKey.toFile true)
    Task.log (generated p base)

/-! ### Loading -/

def loaded (half : KeyHalf) (target : Path) : LogRecord where
  level := .debug
  logger := loggerName
  message := Text.ofString ("Loaded " ++ half.name ++ " key from ") ++ target.toText

def load (half : KeyHalf) (base : Text) : Task m AnyKey := do
  let target := path half base
  checkPath target
  match ← (FileSteps.read target : m _) with
  | .error e => Task.failKey (.unreadable target e)
  | .ok content =>
    match half.ofFile? content with
    | none => Task.failKey (.undecodable half target)
    | some k =>
      Task.log (loaded half target)
      pure k

def loadPrivate (base : Text) (p : Profile) : Task m { k : PrivateKey // k.curve = p.curve } := do
  let k ← load .privateHalf base
  Task.ofKeyExcept (k.toPrivate p)

def loadPublic (base : Text) (p : Profile) : Task m { k : PublicKey // k.curve = p.curve } := do
  let k ← load .publicHalf base
  Task.ofKeyExcept (k.toPublic p)

def loadSigner (base : Text) (p : Profile) : Task m Signer := do
  let k ← loadPrivate base p
  pure (Signer.ofPrivate p k)

def loadVerifier (base : Text) (p : Profile) : Task m Verifier := do
  let k ← loadPublic base p
  pure (Verifier.ofPublic p k)

/-! ### The JSON form -/

def loadJwk (base : Text) (p : Profile) : Task m Jwk := do
  let k ← loadPublic base p
  pure (Jwk.ofPublic p k.val)

def writeJwk (base : Text) (p : Profile) : Task m Path := do
  let jwk ← loadJwk base p
  replaceFile (jwkPath base) KeyHalf.publicHalf.mode (Utf8.encodeAny jwk.render)
  pure (jwkPath base)

end KeyStore

end SignedToken
