import SignedToken.Directory

/-!
This module contains the steps that key files are read and written by, apart from what carries them
out: a directory that is a value, in which any step may be made to fail, or the files of a system.
-/

namespace SignedToken

class FileSteps (m : Type → Type) where
  read (p : Path) : m (Except FileError Bytes)
  createFresh (parent : Path) (start : Text) : m (Except FileError Path)
  setMode (p : Path) (mode : Nat) : m (Except FileError Unit)
  write (p : Path) (content : Bytes) : m (Except FileError Unit)
  sync (p : Path) : m (Except FileError Unit)
  rename (source target : Path) : m (Except FileError Unit)
  remove (p : Path) : m (Except FileError Unit)

/--
A directory, and what is to happen to the next steps on files: each entry is the error that one step
fails with, or nothing if it is left alone. Only the removal of a file is never made to fail.
-/
structure Disk where
  directory : Directory
  faults : List (Option FileError)
  deriving DecidableEq, Repr

namespace Disk

def sound (d : Directory) : Disk := ⟨d, []⟩

def step (change : Directory → Except FileError (α × Directory)) :
    StateM Disk (Except FileError α) := fun disk =>
  match disk.faults.head?.join with
  | some e => (.error e, { disk with faults := disk.faults.tail })
  | none =>
    match change disk.directory with
    | .ok (a, d) => (.ok a, ⟨d, disk.faults.tail⟩)
    | .error e => (.error e, { disk with faults := disk.faults.tail })

def change (f : Directory → Except FileError Directory) : StateM Disk (Except FileError Unit) :=
  step fun d => (f d).map fun d => ((), d)

instance : FileSteps (StateM Disk) where
  read p := step fun d => (d.read p).map fun content => (content, d)
  createFresh parent start := step (·.createFresh parent start)
  setMode p mode := change (·.setMode p mode)
  write p content := change (·.write p content)
  sync p := change fun d => (d.file p).map fun _ => d
  rename source target := change (·.rename source target)
  remove p := fun disk =>
    match disk.directory.remove p with
    | .ok d => (.ok (), { disk with directory := d })
    | .error e => (.error e, disk)

end Disk

end SignedToken
