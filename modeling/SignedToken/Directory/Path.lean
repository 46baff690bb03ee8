import SignedToken.Text.Utf8

/-!
This module contains the paths of files and the reasons for which an operation on files fails.
-/

namespace SignedToken

/--
A path: its root, which is empty for a path that starts where the program runs, and the names on
the way. No name is empty or a single dot.
-/
structure Path where
  root : Text
  names : List Text
  deriving DecidableEq, Repr

namespace Path

def slash : CodePoint := CodePoint.ofChar '/'

def dot : CodePoint := CodePoint.ofChar '.'

def above : Text := Text.ofString ".."

/--
Two slashes at the start are a root of their own, any other number of them is one root.
-/
def rootOf (t : Text) : Text :=
  match (t.takeWhile (· == slash)).length with
  | 0 => []
  | 2 => [slash, slash]
  | _ => [slash]

def ofText (t : Text) : Path where
  root := rootOf t
  names := (Text.splitOn slash t).filter fun name => !name.isEmpty && name != [dot]

def toText (p : Path) : Text :=
  if p.root.isEmpty && p.names.isEmpty then [dot] else p.root ++ Text.join [slash] p.names

def name (p : Path) : Text :=
  p.names.getLastD []

def parent (p : Path) : Path :=
  { p with names := p.names.dropLast }

def child (p : Path) (name : Text) : Path :=
  { p with names := p.names ++ [name] }

/--
The names on a way after one more step. A step up takes the last name away; above a root there is
the root itself.
-/
def step (rooted : Bool) (way : List Text) (name : Text) : List Text :=
  if name ≠ above then way ++ [name]
  else
    match way.getLast? with
    | none => if rooted then [] else [above]
    | some last => if last = above then way ++ [above] else way.dropLast

def straight (p : Path) : Path :=
  { p with names := p.names.foldl (step (!p.root.isEmpty)) [] }

/--
The octets by which a code point stands in the name of a file. The surrogates from DC80 on are the
octets from 80 on that are no part of any text; other surrogates have no octets.
-/
def encodeCodePoint? (c : CodePoint) : Option Bytes :=
  if 0xDC80 ≤ c.val ∧ c.val ≤ 0xDCFF then some [(c.val - 0xDC00).toUInt8] else Utf8.encode? [c]

def encode? (t : Text) : Option Bytes :=
  (t.mapM encodeCodePoint?).map List.flatten

def size (t : Text) : Nat :=
  ((encode? t).getD []).length

end Path

inductive FileError where
  | notFound
  | alreadyExists
  | notDirectory
  | isDirectory
  | nameTooLong
  | denied
  | other (number : Nat) (text : String)
  deriving DecidableEq, Repr

namespace FileError

def number : FileError → Nat
  | notFound => 2
  | denied => 13
  | alreadyExists => 17
  | notDirectory => 20
  | isDirectory => 21
  | nameTooLong => 36
  | other n _ => n

def text : FileError → String
  | notFound => "No such file or directory"
  | denied => "Permission denied"
  | alreadyExists => "File exists"
  | notDirectory => "Not a directory"
  | isDirectory => "Is a directory"
  | nameTooLong => "File name too long"
  | other _ t => t

def message (e : FileError) : String :=
  "[Errno " ++ toString e.number ++ "] " ++ e.text

end FileError

end SignedToken
