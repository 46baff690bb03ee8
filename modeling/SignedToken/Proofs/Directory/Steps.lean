import SignedToken.Directory.Steps
import SignedToken.Task

/-!
This module contains how the steps of a task go on a disk: each one as it would on the directory, unless
it is made to fail, and the first failure ends them all. It also contains what tasks have from their parts:
that they touch no file, what records they leave, and what they return.
-/

namespace SignedToken

namespace Disk

variable {d d' : Directory} {faults : List (Option FileError)} {k : Nat}

def fault? (disk : Disk) (k : Nat) : Option FileError := disk.faults[k]?.join

theorem bind_eq (x : StateM Disk α) (f : α → StateM Disk β) (disk : Disk)
    : (x >>= f) disk = f (x disk).1 (x disk).2 := rfl

def carryOut (x : ExceptT FileError (StateM Disk) α) (disk : Disk) : Except FileError α × Disk :=
  x.run disk

theorem carryOut_bind (x : ExceptT FileError (StateM Disk) α)
    (f : α → ExceptT FileError (StateM Disk) β) (disk : Disk)
    : carryOut (x >>= f) disk
        =
      match carryOut x disk with
      | (.ok a, disk') => carryOut (f a) disk'
      | (.error e, disk') => (.error e, disk') := by
  unfold carryOut
  rw [ExceptT.run_bind, bind_eq]
  rcases x.run disk with ⟨e | a, disk'⟩
  . rfl
  . rfl

section Step

variable {f : Directory → Except FileError (α × Directory)} {e : FileError}

theorem step_of_fault (hfault : faults[k]?.join = some e)
    : step f ⟨d, faults.drop k⟩ = (.error e, ⟨d, faults.drop (k + 1)⟩) := by
  unfold step
  dsimp only
  rw [List.head?_drop, List.tail_drop, hfault]

theorem step_of_ok {a : α} (hfault : faults[k]?.join = none) (hf : f d = .ok (a, d'))
    : step f ⟨d, faults.drop k⟩ = (.ok a, ⟨d', faults.drop (k + 1)⟩) := by
  unfold step
  dsimp only
  rw [List.head?_drop, List.tail_drop, hfault]
  dsimp only
  rw [hf]

theorem step_of_error (hfault : faults[k]?.join = none) (hf : f d = .error e)
    : step f ⟨d, faults.drop k⟩ = (.error e, ⟨d, faults.drop (k + 1)⟩) := by
  unfold step
  dsimp only
  rw [List.head?_drop, List.tail_drop, hfault]
  dsimp only
  rw [hf]

end Step

theorem remove_of_ok {p : Path} (h : d.remove p = .ok d')
    : (FileSteps.remove p : StateM Disk _) ⟨d, faults⟩ = (.ok (), ⟨d', faults⟩) := by
  dsimp only [FileSteps.remove]
  rw [h]

def reading (disk : Disk) (p : Path) : Except FileError Bytes :=
  match disk.fault? 0 with
  | some e => .error e
  | none => disk.directory.read p

theorem read_eq (p : Path) (disk : Disk)
    : (FileSteps.read p : StateM Disk _) disk = (disk.reading p, ⟨disk.directory, disk.faults.tail⟩) := by
  obtain ⟨d, faults⟩ := disk
  change step _ ⟨d, faults.drop 0⟩ = _
  unfold reading fault?
  dsimp only
  cases hfault : faults[0]?.join with
  | some e => rw [step_of_fault hfault, List.drop_one]
  | none =>
    cases hread : d.read p with
    | ok content => rw [step_of_ok hfault (by rw [hread]; rfl), List.drop_one]
    | error e => rw [step_of_error hfault (by rw [hread]; rfl), List.drop_one]

@[simp]
theorem reading_sound (p : Path) : (sound d).reading p = d.read p := rfl

section Change

variable {f : Directory → Except FileError Directory} {e : FileError}

theorem change_of_fault (hfault : faults[k]?.join = some e)
    : change f ⟨d, faults.drop k⟩ = (.error e, ⟨d, faults.drop (k + 1)⟩) :=
  step_of_fault hfault

theorem change_of_ok (hfault : faults[k]?.join = none) (hf : f d = .ok d')
    : change f ⟨d, faults.drop k⟩ = (.ok (), ⟨d', faults.drop (k + 1)⟩) :=
  step_of_ok hfault (by rw [hf]; rfl)

theorem change_of_error (hfault : faults[k]?.join = none) (hf : f d = .error e)
    : change f ⟨d, faults.drop k⟩ = (.error e, ⟨d, faults.drop (k + 1)⟩) :=
  step_of_error hfault (by rw [hf]; rfl)

theorem carryOut_change (disk : Disk) : carryOut (ExceptT.mk (change f)) disk = change f disk := rfl

variable {next : Unit → ExceptT FileError (StateM Disk) α}

theorem carryOut_bind_of_fault (hfault : faults[k]?.join = some e)
    : carryOut (ExceptT.mk (change f) >>= next) ⟨d, faults.drop k⟩
        =
      (.error e, ⟨d, faults.drop (k + 1)⟩) := by
  rw [carryOut_bind, carryOut_change, change_of_fault hfault]

theorem carryOut_bind_of_ok (hfault : faults[k]?.join = none) (hf : f d = .ok d')
    : carryOut (ExceptT.mk (change f) >>= next) ⟨d, faults.drop k⟩
        =
      carryOut (next ()) ⟨d', faults.drop (k + 1)⟩ := by
  rw [carryOut_bind, carryOut_change, change_of_ok hfault hf]

end Change

end Disk

namespace Task

variable {records : List LogRecord} {disk : Disk}

def on (x : Task (StateM Disk) α) (records : List LogRecord) (disk : Disk)
    : (Except Failure α × List LogRecord) × Disk :=
  x.run.run records disk

theorem on_bind (x : Task (StateM Disk) α) (f : α → Task (StateM Disk) β)
    : (x >>= f).on records disk
        =
      match x.on records disk with
      | ((.ok a, left), disk') => (f a).on left disk'
      | ((.error e, left), disk') => ((.error e, left), disk') := by
  unfold on
  rw [ExceptT.run_bind, StateT.run_bind, Disk.bind_eq]
  rcases x.run.run records disk with ⟨⟨e | a, left⟩, disk'⟩
  . rfl
  . rfl

theorem on_lift (x : StateM Disk α)
    : (liftM x : Task (StateM Disk) α).on records disk = ((.ok (x disk).1, records), (x disk).2) := rfl

theorem on_pure (a : α)
    : (pure a : Task (StateM Disk) α).on records disk = ((.ok a, records), disk) := rfl

theorem on_throw (e : Failure)
    : (throw e : Task (StateM Disk) α).on records disk = ((.error e, records), disk) := rfl

/-! ### Tasks that only look -/

/--
A task that comes to an outcome whatever was left in the log, and that does not touch the directory.
-/
def Yields (x : Task (StateM Disk) α) (disk : Disk) (outcome : Except Failure α) : Prop :=
  ∀ records, ∃ records' left, x.on records disk = ((outcome, records'), ⟨disk.directory, left⟩)

variable {x : Task (StateM Disk) α} {f : α → Task (StateM Disk) β}

theorem yields_pure (a : α) : (pure a : Task (StateM Disk) α).Yields disk (.ok a) :=
  fun records => ⟨records, disk.faults, rfl⟩

theorem yields_throw (e : Failure) : (throw e : Task (StateM Disk) α).Yields disk (.error e) :=
  fun records => ⟨records, disk.faults, rfl⟩

theorem yields_ofExcept (outcome : Except Failure α) : (ofExcept outcome).Yields disk outcome := by
  cases outcome with
  | ok a => exact yields_pure a
  | error e => exact yields_throw e

theorem yields_ofKeyExcept (outcome : Except KeyError α)
    : (ofKeyExcept outcome).Yields disk (outcome.mapError fun e => .known (.key e)) := by
  cases outcome with
  | ok a => exact yields_pure a
  | error e => exact yields_throw _

theorem Yields.bind {outcome : Except Failure α} {next : α → Except Failure β}
    (hx : x.Yields disk outcome) (hf : ∀ a left, (f a).Yields ⟨disk.directory, left⟩ (next a))
    : (x >>= f).Yields disk (outcome.bind next) := by
  intro records
  obtain ⟨between, left, hx⟩ := hx records
  rw [on_bind, hx]
  cases outcome with
  | error e => exact ⟨between, left, rfl⟩
  | ok a => exact hf a left between

theorem Yields.lift_pure_bind {b : β} {f : β → Task (StateM Disk) α} {result : Except Failure α}
    (h : (f b).Yields disk result) : (liftM (pure b : StateM Disk β) >>= f).Yields disk result :=
  h

theorem Yields.logAll_bind {rs : List LogRecord} {f : Unit → Task (StateM Disk) α}
    {result : Except Failure α} (h : (f ()).Yields disk result)
    : (logAll rs >>= f).Yields disk result :=
  fun records => h (records ++ rs)

def outcome (x : Task (StateM Disk) α) (disk : Disk) : Except Failure α :=
  (x.perform disk).1.1

theorem outcome_eq_of_on {result : Except Failure α} {records : List LogRecord} {disk' : Disk}
    (h : x.on [] disk = ((result, records), disk')) : x.outcome disk = result := by
  change (x.on [] disk).1.1 = result
  rw [h]

theorem Yields.perform {outcome : Except Failure α} (h : x.Yields disk outcome)
    : ∃ records left, x.perform disk = ((outcome, records), ⟨disk.directory, left⟩) :=
  h []

theorem Yields.outcome_eq {result : Except Failure α} (h : x.Yields disk result)
    : x.outcome disk = result := by
  obtain ⟨records, left, hon⟩ := h []
  exact outcome_eq_of_on hon

theorem Yields.self {result : Except Failure α} (h : x.Yields disk result)
    : x.Yields disk (x.outcome disk) := by
  rwa [h.outcome_eq]

/-! ### The records that tasks leave -/

/--
A task that takes nothing out of the log, and puts no records in but those of one kind.
-/
def Leaves (P : LogRecord → Prop) (x : Task (StateM Disk) α) : Prop :=
  ∀ records disk, ∃ left, (x.on records disk).1.2 = records ++ left ∧ ∀ r ∈ left, P r

section Leaves

variable {P : LogRecord → Prop}

theorem leaves_pure (a : α) : (pure a : Task (StateM Disk) α).Leaves P :=
  fun records _ => ⟨[], (List.append_nil records).symm, List.forall_mem_nil P⟩

theorem leaves_throw (e : Failure) : (throw e : Task (StateM Disk) α).Leaves P :=
  fun records _ => ⟨[], (List.append_nil records).symm, List.forall_mem_nil P⟩

theorem leaves_lift (x : StateM Disk α) : (liftM x : Task (StateM Disk) α).Leaves P :=
  fun records _ => ⟨[], (List.append_nil records).symm, List.forall_mem_nil P⟩

theorem leaves_logAll {rs : List LogRecord} (h : ∀ r ∈ rs, P r) : (logAll rs).Leaves P :=
  fun _ _ => ⟨rs, rfl, h⟩

theorem leaves_log {r : LogRecord} (h : P r) : (log r).Leaves P :=
  fun _ _ => ⟨[r], rfl, List.forall_mem_singleton.2 h⟩

theorem leaves_ofExcept (outcome : Except Failure α) : (ofExcept outcome).Leaves P := by
  cases outcome with
  | ok a => exact leaves_pure a
  | error e => exact leaves_throw e

theorem leaves_ofKeyExcept (outcome : Except KeyError α) : (ofKeyExcept outcome).Leaves P := by
  cases outcome with
  | ok a => exact leaves_pure a
  | error e => exact leaves_throw _

theorem Leaves.bind (hx : x.Leaves P) (hf : ∀ a, (f a).Leaves P) : (x >>= f).Leaves P := by
  intro records disk
  obtain ⟨left, hleft, hall⟩ := hx records disk
  rw [on_bind]
  rcases hon : x.on records disk with ⟨⟨e | a, records'⟩, disk'⟩
  . rw [hon] at hleft
    exact ⟨left, hleft, hall⟩
  . rw [hon] at hleft
    obtain ⟨left', hleft', hall'⟩ := hf a records' disk'
    refine ⟨left ++ left', ?_, List.forall_mem_append.2 ⟨hall, hall'⟩⟩
    rw [hleft', ← List.append_assoc]
    exact congrArg (· ++ left') hleft

theorem Leaves.perform (h : x.Leaves P) (disk : Disk) : ∀ r ∈ (x.perform disk).1.2, P r := by
  obtain ⟨left, hleft, hall⟩ := h [] disk
  rw [List.nil_append] at hleft
  change ∀ r ∈ (x.on [] disk).1.2, P r
  rwa [hleft]

end Leaves

/-! ### The results of tasks -/

def Returns (Q : α → Prop) (x : Task (StateM Disk) α) : Prop :=
  ∀ records disk a, (x.on records disk).1.1 = .ok a → Q a

section Returns

variable {P : α → Prop} {Q : β → Prop}

theorem returns_pure {a : α} (h : P a) : (pure a : Task (StateM Disk) α).Returns P := by
  intro records disk b hb
  cases hb
  exact h

theorem returns_ofExcept (outcome : Except Failure α) : (ofExcept outcome).Returns (outcome = .ok ·) := by
  intro records disk a ha
  cases outcome with
  | ok b => exact ha
  | error e => cases ha

theorem Returns.bind (hx : x.Returns P) (hf : ∀ a, P a → (f a).Returns Q) : (x >>= f).Returns Q := by
  intro records disk b hb
  rw [on_bind] at hb
  rcases hon : x.on records disk with ⟨⟨e | a, records'⟩, disk'⟩
  . rw [hon] at hb
    cases hb
  . rw [hon] at hb
    exact hf a (hx records disk a (by rw [hon])) records' disk' b hb

theorem returns_bind (hf : ∀ a, (f a).Returns Q) : (x >>= f).Returns Q :=
  Returns.bind (P := fun _ => True) (fun _ _ _ _ => trivial) fun a _ => hf a

theorem Returns.of_outcome (h : x.Returns P) {disk : Disk} {a : α} (ha : x.outcome disk = .ok a) : P a :=
  h [] disk a ha

end Returns

end Task

end SignedToken
