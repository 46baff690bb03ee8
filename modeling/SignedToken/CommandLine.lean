import SignedToken.Arguments

/-!
This module contains the commands of the program and the argument lists that ask for them.
-/

namespace SignedToken

inductive Command where
  | generate (base : Text) (withJwk : Bool)
  | issue (base : Text) (username : Text) (groups : List Text) (lifetime : Option Int)
  | verify (wire : Text) (base : Text)
  | exportJwk (base : Text)
  deriving DecidableEq, Repr

structure Invocation where
  verbose : Bool
  command : Command
  deriving DecidableEq, Repr

namespace CommandLine

open Arguments

def programName : Text := Text.ofString "ectoken"

inductive Ending where
  | help
  | misused (program : Text) (cause : Misuse)
  deriving DecidableEq, Repr

namespace Ending

def status : Ending → Nat
  | help => 0
  | misused .. => 2

def message : Ending → Text
  | help => []
  | misused program cause => program ++ Text.ofString ": error: " ++ cause.message

end Ending

inductive Slot where
  | help
  | verbose
  | command
  | base
  | wire
  | withJwk
  | username
  | group
  | lifetime
  deriving DecidableEq, Repr

def flag (slot : Slot) (names : List String) (takesValue : Bool) : Flag Slot :=
  ⟨slot, names.map Text.ofString, takesValue⟩

def helpFlag : Flag Slot := flag .help ["-h", "--help"] false

def commandTitle : Text := Text.ofString "command"

def lifetimeFlag : Flag Slot := flag .lifetime ["--ttl"] true

def programGrammar : Grammar Slot where
  flags := [helpFlag, flag .verbose ["-v", "--verbose"] false]
  positions := [⟨.command, .rest⟩]
  required := [(.command, commandTitle)]

inductive CommandName where
  | generate
  | issue
  | verify
  | exportJwk
  deriving DecidableEq, Repr

namespace CommandName

def all : List CommandName := [generate, issue, verify, exportJwk]

def text : CommandName → Text
  | generate => Text.ofString "generate-keypair"
  | issue => Text.ofString "issue"
  | verify => Text.ofString "verify"
  | exportJwk => Text.ofString "export-jwk"

def grammar : CommandName → Grammar Slot
  | generate =>
    { flags := [helpFlag, flag .withJwk ["--jwk"] false]
      positions := [⟨.base, .optional⟩]
      required := [] }
  | issue =>
    { flags := [helpFlag, flag .username ["--username"] true, flag .group ["--group"] true,
        lifetimeFlag]
      positions := [⟨.base, .optional⟩]
      required := [(.username, Text.ofString "--username")] }
  | verify =>
    { flags := [helpFlag]
      positions := [⟨.wire, .one⟩, ⟨.base, .optional⟩]
      required := [(.wire, Text.ofString "token")] }
  | exportJwk =>
    { flags := [helpFlag]
      positions := [⟨.base, .optional⟩]
      required := [] }

end CommandName

structure Values where
  base : Text
  wire : Text := []
  withJwk : Bool := false
  username : Text := []
  groups : List Text := []
  lifetime : Option Int := none

namespace Values

def take (program : Text) (v : Values) (slot : Slot) (values : List Text) : Except Ending Values :=
  match slot, values with
  | .help, _ => .error .help
  | .withJwk, _ => .ok { v with withJwk := true }
  | .base, [t] => .ok { v with base := t }
  | .wire, [t] => .ok { v with wire := t }
  | .username, [t] => .ok { v with username := t }
  | .group, [t] => .ok { v with groups := v.groups ++ [t] }
  | .lifetime, [t] =>
    match integer? t with
    | some n => .ok { v with lifetime := some n }
    | none => .error (.misused program (.notInteger lifetimeFlag.title t))
  | _, _ => .ok v

def takeAll (program : Text) (v : Values) : List (Slot × List Text) → Except Ending Values
  | [] => .ok v
  | (slot, values) :: rest => do
    let v ← v.take program slot values
    v.takeAll program rest

def command (v : Values) : CommandName → Command
  | .generate => .generate v.base v.withJwk
  | .issue => .issue v.base v.username v.groups v.lifetime
  | .verify => .verify v.wire v.base
  | .exportJwk => .exportJwk v.base

end Values

def checkReading (program : Text) (g : Grammar Slot) (r : Reading Slot) : Except Ending Unit :=
  match r.misuse with
  | some e => .error (.misused program e)
  | none =>
    match g.missing? r.given with
    | some e => .error (.misused program e)
    | none => .ok ()

def readCommand (base : Text) (name : CommandName) (args : List Text) :
    Except Ending (Command × List Text) := do
  let program := programName ++ CodePoint.ofChar ' ' :: name.text
  let r := name.grammar.read args
  let v ← Values.takeAll program { base := base } r.given
  checkReading program name.grammar r
  pure (v.command name, r.spare)

def chooseCommand (base : Text) : List Text → Except Ending (Command × List Text)
  | [] => .error (.misused programName (.slotsMissing [commandTitle]))
  | t :: args =>
    match CommandName.all.find? (·.text == t) with
    | some name => readCommand base name args
    | none =>
      .error (.misused programName
        (.unknownChoice commandTitle t (CommandName.all.map CommandName.text)))

structure Request where
  verbose : Bool := false
  command : Option Command := none
  spare : List Text := []

namespace Request

def take (base : Text) (q : Request) (slot : Slot) (values : List Text) : Except Ending Request :=
  match slot with
  | .help => .error .help
  | .verbose => .ok { q with verbose := true }
  | .command =>
    (chooseCommand base values).map fun (c, spare) => { q with command := some c, spare := spare }
  | _ => .ok q

def takeAll (base : Text) (q : Request) : List (Slot × List Text) → Except Ending Request
  | [] => .ok q
  | (slot, values) :: rest => do
    let q ← q.take base slot values
    q.takeAll base rest

end Request

def parse (base : Text) (args : List Text) : Except Ending Invocation := do
  let r := programGrammar.read args
  let q ← Request.takeAll base {} r.given
  checkReading programName programGrammar r
  let spare := r.spare ++ q.spare
  if spare.isEmpty then
    match q.command with
    | some c => pure ⟨q.verbose, c⟩
    | none => throw (.misused programName (.slotsMissing [commandTitle]))
  else throw (.misused programName (.unrecognized spare))

def usage : Text :=
  Text.ofString "usage: " ++ programName ++ Text.ofString " [-h] [-v] command ...; commands: "
    ++ Misuse.enumerated (CommandName.all.map CommandName.text)

end CommandLine

end SignedToken
