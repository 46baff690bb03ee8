import SignedToken.Directory.Path
import SignedToken.Entries

/-!
This module contains directories as values: files with their modes and contents, in folders. The
operations are single steps that happen as a whole or fail and change nothing.
-/

namespace SignedToken

inductive Node where
  | file (mode : Nat) (content : Bytes)
  | folder
  deriving DecidableEq, Repr

structure Directory where
  home : List Text
  nodes : List (List Text × Node)
  deriving DecidableEq, Repr

namespace Directory

def maxNameSize : Nat := 255

def maxPathSize : Nat := 4095

def node? (d : Directory) (place : List Text) : Option Node :=
  if place.isEmpty then some .folder else Entries.get? place d.nodes

def walk (d : Directory) (here : List Text) : List Text → Except FileError (List Text)
  | [] => .ok here
  | name :: rest =>
    if maxNameSize < Path.size name then .error .nameTooLong
    else
      let next := if name = Path.above then here.dropLast else here ++ [name]
      if rest.isEmpty then .ok next
      else
        match d.node? next with
        | some .folder => d.walk next rest
        | some (.file ..) => .error .notDirectory
        | none => .error .notFound

def locate (d : Directory) (p : Path) : Except FileError (List Text) :=
  if maxPathSize < Path.size p.toText then .error .nameTooLong
  else d.walk (if p.root.isEmpty then d.home else []) p.names

def file (d : Directory) (p : Path) : Except FileError (List Text × Nat × Bytes) := do
  let place ← d.locate p
  match d.node? place with
  | some (.file mode content) => pure (place, mode, content)
  | some .folder => throw .isDirectory
  | none => throw .notFound

def read (d : Directory) (p : Path) : Except FileError Bytes :=
  (d.file p).map (·.2.2)

def put (d : Directory) (place : List Text) (n : Node) : Directory :=
  { d with nodes := Entries.put (· == ·) place n d.nodes }

def erase (d : Directory) (place : List Text) : Directory :=
  { d with nodes := Entries.erase place d.nodes }

def freshEnd (i : Nat) : Text := Text.hexOfNatPadded 8 i

def createFresh (d : Directory) (parent : Path) (start : Text) :
    Except FileError (Path × Directory) :=
  go (d.nodes.length + 1) 0
where
  go : Nat → Nat → Except FileError (Path × Directory)
    | 0, _ => .error .alreadyExists
    | fuel + 1, i => do
      let p := parent.child (start ++ freshEnd i)
      let place ← d.locate p
      match d.node? place with
      | none => pure (p, d.put place (.file 0o600 []))
      | some _ => go fuel (i + 1)

def setMode (d : Directory) (p : Path) (mode : Nat) : Except FileError Directory := do
  let (place, _, content) ← d.file p
  pure (d.put place (.file mode content))

def write (d : Directory) (p : Path) (content : Bytes) : Except FileError Directory := do
  let (place, mode, _) ← d.file p
  pure (d.put place (.file mode content))

def rename (d : Directory) (source target : Path) : Except FileError Directory := do
  let (place, mode, content) ← d.file source
  let goal ← d.locate target
  match d.node? goal with
  | some .folder => throw .isDirectory
  | _ => pure ((d.erase place).put goal (.file mode content))

def remove (d : Directory) (p : Path) : Except FileError Directory := do
  let (place, _, _) ← d.file p
  pure (d.erase place)

def makeFolder (d : Directory) (p : Path) : Except FileError Directory := do
  let place ← d.locate p
  match d.node? place with
  | none => pure (d.put place .folder)
  | some _ => throw .alreadyExists

def save (d : Directory) (p : Path) (mode : Nat) (content : Bytes) : Except FileError Directory := do
  let place ← d.locate p
  match d.node? place with
  | some (.file kept _) => pure (d.put place (.file kept content))
  | some .folder => throw .isDirectory
  | none => pure (d.put place (.file mode content))

def list (d : Directory) : List (List Text × Node) :=
  d.nodes.filterMap fun (place, n) =>
    if d.home.isPrefixOf place ∧ d.home.length < place.length then
      some (place.drop d.home.length, n)
    else none

end Directory

end SignedToken
