import SignedToken.Claim.Display
import SignedToken.Text.Blank
import SignedToken.Text.Digit
import SignedToken.Text.Integer

/-!
This module contains the reading of argument lists by a grammar of flags, some of which take a
value, and of positions for all other arguments. What is read is a list of slots with their values,
in order; the meaning of the slots is not known here.

A double hyphen sets flags apart from what follows it, long names may be cut short, and short flags
may be written in one argument.
-/

namespace SignedToken

namespace Arguments

structure Flag (σ : Type) where
  slot : σ
  names : List Text
  takesValue : Bool

inductive Arity where
  | one
  | optional
  | rest
  deriving DecidableEq, Repr

structure Position (σ : Type) where
  slot : σ
  arity : Arity

structure Grammar (σ : Type) where
  flags : List (Flag σ)
  positions : List (Position σ)
  required : List (σ × Text)

inductive Misuse where
  | ambiguous (argument : Text) (names : List Text)
  | valueMissing (flag : Text)
  | valueIgnored (flag value : Text)
  | notInteger (flag value : Text)
  | unknownChoice (position value : Text) (choices : List Text)
  | slotsMissing (names : List Text)
  | unrecognized (arguments : List Text)
  deriving DecidableEq, Repr

namespace Misuse

def enumerated (ts : List Text) : Text :=
  Text.join (Text.ofString ", ") ts

def about (name : Text) (message : Text) : Text :=
  Text.ofString "argument " ++ name ++ Text.ofString ": " ++ message

def message : Misuse → Text
  | ambiguous argument names =>
    Text.ofString "ambiguous option: " ++ argument ++ Text.ofString " could match "
      ++ enumerated names
  | valueMissing flag => about flag (Text.ofString "expected one argument")
  | valueIgnored flag value =>
    about flag (Text.ofString "ignored explicit argument " ++ ClaimValue.displayText value)
  | notInteger flag value =>
    about flag (Text.ofString "invalid int value: " ++ ClaimValue.displayText value)
  | unknownChoice position value choices =>
    about position (Text.ofString "invalid choice: " ++ ClaimValue.displayText value
      ++ Text.ofString " (choose from " ++ enumerated (choices.map ClaimValue.displayText)
      ++ Text.ofString ")")
  | slotsMissing names =>
    Text.ofString "the following arguments are required: " ++ enumerated names
  | unrecognized arguments =>
    Text.ofString "unrecognized arguments: " ++ Text.join (Text.ofString " ") arguments

end Misuse

def hyphen : CodePoint := CodePoint.ofChar '-'

def equalsSign : CodePoint := CodePoint.ofChar '='

def separator : Text := [hyphen, hyphen]

/-! ### Kinds of arguments -/

structure Attached where
  joined : Bool
  text : Text
  deriving DecidableEq, Repr

inductive Kind (σ : Type) where
  | separator
  | value
  | flag (f : Flag σ) (attached : Option Attached)
  | unknownFlag

structure Word (σ : Type) where
  text : Text
  kind : Kind σ

namespace Word

variable {σ : Type}

def isFlag (w : Word σ) : Bool :=
  match w.kind with
  | .flag .. => true
  | .unknownFlag => true
  | _ => false

def isSeparator (w : Word σ) : Bool :=
  match w.kind with
  | .separator => true
  | _ => false

def isValue (w : Word σ) : Bool :=
  match w.kind with
  | .value => true
  | _ => false

end Word

/--
A negative number, with or without a fraction; a line feed may end it.
-/
def isNegativeNumber (t : Text) : Bool :=
  match t with
  | [] => false
  | c :: digits =>
    let isDigit := fun (c : CodePoint) => c.digitValue?.isSome
    let digits := if digits.getLast? = some 0xA then digits.dropLast else digits
    let fraction := (digits.dropWhile isDigit).drop 1
    c == hyphen &&
      (!digits.isEmpty && digits.all isDigit
        || (digits.dropWhile isDigit).head? == some (CodePoint.ofChar '.')
          && !fraction.isEmpty && fraction.all isDigit)

namespace Grammar

variable {σ : Type}

def flagNamed? (g : Grammar σ) (name : Text) : Option (Flag σ) :=
  g.flags.find? (·.names.contains name)

def candidates (g : Grammar σ) (t : Text) : List (Text × Kind σ) :=
  let names := g.flags.flatMap fun f => f.names.map fun name => (name, f)
  if t.startsWith separator then
    let (start, attached) : Text × Option Attached :=
      match Text.cutAt? equalsSign t with
      | some (start, value) => (start, some ⟨false, value⟩)
      | none => (t, none)
    (names.filter fun (name, _) => name.startsWith start).map fun (name, f) =>
      (name, .flag f attached)
  else
    (names.filter fun (name, _) => name == t.take 2).map fun (name, f) =>
      (name, .flag f (some ⟨true, t.drop 2⟩))

def kindOf (g : Grammar σ) (t : Text) : Except Misuse (Kind σ) :=
  match t with
  | [] => .ok .value
  | c :: rest =>
    if c ≠ hyphen then .ok .value
    else
      match g.flagNamed? t with
      | some f => .ok (.flag f none)
      | none =>
        if rest.isEmpty then .ok .value
        else
          match (Text.cutAt? equalsSign t).bind fun (name, value) =>
            (g.flagNamed? name).map fun f => Kind.flag f (some ⟨false, value⟩) with
          | some kind => .ok kind
          | none =>
            match g.candidates t with
            | [(_, kind)] => .ok kind
            | [] =>
              if isNegativeNumber t || t.contains (CodePoint.ofChar ' ') then .ok .value
              else .ok .unknownFlag
            | several => .error (.ambiguous t (several.map (·.1)))

def words (g : Grammar σ) : List Text → Except Misuse (List (Word σ))
  | [] => .ok []
  | t :: rest =>
    if t = separator then .ok (⟨t, .separator⟩ :: rest.map fun t => ⟨t, .value⟩)
    else do
      let kind ← g.kindOf t
      let rest ← g.words rest
      pure (⟨t, kind⟩ :: rest)

end Grammar

/-! ### Readings -/

structure Reading (σ : Type) where
  given : List (σ × List Text)
  spare : List Text
  misuse : Option Misuse

namespace Reading

variable {σ : Type}

def stop (e : Misuse) : Reading σ := ⟨[], [], some e⟩

def give (values : List (σ × List Text)) (r : Reading σ) : Reading σ :=
  { r with given := values ++ r.given }

def leave (texts : List Text) (r : Reading σ) : Reading σ :=
  { r with spare := texts ++ r.spare }

end Reading

namespace Flag

variable {σ : Type}

def title (f : Flag σ) : Text :=
  Text.join [CodePoint.ofChar '/'] f.names

end Flag

structure Cluster (σ : Type) where
  given : List (σ × List Text)
  spare : List Text
  waiting : Option (Flag σ)

namespace Grammar

variable {σ : Type}

/--
A flag with what is attached to it. Behind a short flag without a value there may be others; a text
that names no flag is spare.
-/
def cluster (g : Grammar σ) (isShort : Bool) (f : Flag σ) (joined : Bool) :
    Text → Except Misuse (Cluster σ)
  | [] =>
    if f.takesValue then .ok ⟨[(f.slot, [[]])], [], none⟩ else .error (.valueIgnored f.title [])
  | c :: t =>
    if f.takesValue then .ok ⟨[(f.slot, [c :: t])], [], none⟩
    else if !isShort || !joined || c = hyphen then .error (.valueIgnored f.title (c :: t))
    else
      let given : List (σ × List Text) := [(f.slot, [])]
      match g.flagNamed? [hyphen, c] with
      | none => .ok ⟨given, [hyphen :: c :: t], none⟩
      | some next =>
        match t with
        | [] =>
          if next.takesValue then .ok ⟨given, [], some next⟩
          else .ok ⟨given ++ [(next.slot, [])], [], none⟩
        | d :: t =>
          let more :=
            if d = equalsSign then g.cluster true next false t
            else g.cluster true next true (d :: t)
          more.map fun r => { r with given := given ++ r.given }

def clusterOf (g : Grammar σ) (f : Flag σ) (written : Text) : Option Attached →
    Except Misuse (Cluster σ)
  | some a => g.cluster (!written.startsWith separator) f a.joined a.text
  | none =>
    if f.takesValue then .ok ⟨[], [], some f⟩ else .ok ⟨[(f.slot, [])], [], none⟩

end Grammar

/-! ### Positions -/

namespace Arity

variable {σ : Type}

def take? (a : Arity) (ws : List (Word σ)) : Option (List Text × List (Word σ)) :=
  let before := ws.takeWhile Word.isSeparator
  let ws := ws.dropWhile Word.isSeparator
  let texts := fun (ws : List (Word σ)) => ws.map (·.text)
  match a, ws with
  | .rest, w :: more =>
    if w.isValue then some (texts (before ++ w :: more), []) else none
  | .rest, [] => none
  | a, w :: more =>
    if w.isValue then
      some ((texts (before ++ w :: more.takeWhile Word.isSeparator)).erase separator,
        more.dropWhile Word.isSeparator)
    else if a = .optional then some ((texts before).erase separator, w :: more)
    else none
  | a, [] => if a = .optional then some ((texts before).erase separator, []) else none

end Arity

def fillPositions {σ : Type} : List (Position σ) → List (Word σ) →
    List (σ × List Text) × List (Position σ) × List (Word σ)
  | [], ws => ([], [], ws)
  | p :: ps, ws =>
    match p.arity.take? ws with
    | none => ([], p :: ps, ws)
    | some (values, rest) =>
      let (given, left, rest) := fillPositions ps rest
      ((p.slot, values) :: given, left, rest)

theorem Arity.length_le_of_take? {σ : Type} {a : Arity} {ws rest : List (Word σ)}
    {texts : List Text} (h : a.take? ws = some (texts, rest)) : rest.length ≤ ws.length := by
  have hle := (List.dropWhile_sublist (l := ws) Word.isSeparator).length_le
  unfold take? at h
  dsimp only at h
  split at h
  · split at h <;> simp_all
  · simp at h
  · rename_i w more _ heq
    have hmore := (List.dropWhile_sublist (l := more) Word.isSeparator).length_le
    simp only [heq, List.length_cons] at hle
    split at h
    · simp only [Option.some.injEq, Prod.mk.injEq] at h
      rw [← h.2]
      omega
    · split at h
      · simp only [Option.some.injEq, Prod.mk.injEq] at h
        rw [← h.2, List.length_cons]
        omega
      · simp at h
  · split at h <;> simp_all

theorem length_fillPositions_le {σ : Type} (ps : List (Position σ)) (ws : List (Word σ)) :
    (fillPositions ps ws).2.2.length ≤ ws.length := by
  induction ps generalizing ws with
  | nil => simp [fillPositions]
  | cons p ps ih =>
    unfold fillPositions
    split
    · simp
    · rename_i values rest heq
      exact Nat.le_trans (ih rest) (Arity.length_le_of_take? heq)

def fillFront {σ : Type} (ps : List (Position σ)) (ws : List (Word σ)) :
    List (σ × List Text) × List (Position σ) × List (Word σ) :=
  if ws.head?.any Word.isFlag then ([], ps, ws) else fillPositions ps ws

theorem length_fillFront_le {σ : Type} (ps : List (Position σ)) (ws : List (Word σ)) :
    (fillFront ps ws).2.2.length ≤ ws.length := by
  unfold fillFront
  split
  · exact Nat.le_refl _
  · exact length_fillPositions_le ps ws

namespace Grammar

variable {σ : Type}

def readWords (g : Grammar σ) (ps : List (Position σ)) (ws : List (Word σ)) : Reading σ :=
  let filled := fillFront ps ws
  let isFree := fun (w : Word σ) => !w.isFlag
  let spare := (filled.2.2.takeWhile isFree).map (·.text)
  let more : Reading σ :=
    match h : filled.2.2.dropWhile isFree with
    | [] => ⟨[], [], none⟩
    | w :: rest =>
      have hrest : rest.length < ws.length := by
        have hdrop := (List.dropWhile_sublist (l := filled.2.2) isFree).length_le
        have hfill : filled.2.2.length ≤ ws.length := length_fillFront_le ps ws
        rw [h, List.length_cons] at hdrop
        omega
      match w.kind with
      | .flag f attached =>
        match g.clusterOf f w.text attached with
        | .error e => .stop e
        | .ok c =>
          match c.waiting with
          | none => ((g.readWords filled.2.1 rest).leave c.spare).give c.given
          | some f =>
            match rest with
            | ⟨v, .value⟩ :: after =>
              ((g.readWords filled.2.1 after).leave c.spare).give (c.given ++ [(f.slot, [v])])
            | _ => .stop (.valueMissing f.title)
      | _ => (g.readWords filled.2.1 rest).leave [w.text]
  (more.leave spare).give filled.1
termination_by ws.length
decreasing_by
  · exact hrest
  · rw [List.length_cons] at hrest
    omega
  · exact hrest

def read (g : Grammar σ) (args : List Text) : Reading σ :=
  match g.words args with
  | .error e => .stop e
  | .ok ws => g.readWords g.positions ws

def missing? [BEq σ] (g : Grammar σ) (given : List (σ × List Text)) : Option Misuse :=
  match g.required.filter fun (slot, _) => !given.any (·.1 == slot) with
  | [] => none
  | absent => some (.slotsMissing (absent.map (·.2)))

end Grammar

/--
The integer that a text writes with digits of any script. Blanks may stand around it and single
underscores between its digits.
-/
def integer? (t : Text) : Option Int :=
  let (negative, digits) := Text.cutSign t.trim
  match Text.groupedDigits? CodePoint.digitValue? digits with
  | none => none
  | some ds =>
    if ds.length ≤ maxNumeralDigits then some (Text.signedValue negative ds) else none

end Arguments

end SignedToken
