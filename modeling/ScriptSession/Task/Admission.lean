import ScriptSession.Script.Value
import ScriptSession.Session.Failure
import ScriptSession.Task.Control

/-!
# Admission of tasks

One task is tracked at a time. A submission made while the tracked task is blocked or exclusive
waits for it, and only one submission can wait. A submission made while the tracked task is busy
starts beside it and is tracked from then on.

Every function here is one step that nothing interrupts. A submission takes one turn, and one more
after every wait; an interrupt is a beginning and an end with the wait for the task between them.

A submission that waits is asleep. It looks again only when a notice is given, which happens when
a task's thread is done and when an interrupt ends, and not when another task takes the tracked
place.

Numbers are given out from one in the order in which submissions are admitted, and none is given
out twice.
-/

namespace ScriptSession
namespace Task

open Script (Value)

/-- What the admission is doing. -/
inductive Phase where
  | idle
  | running
  | interrupting
deriving DecidableEq, Repr, Inhabited

/-- The name of a phase. -/
def Phase.name : Phase → String
  | .idle => "Idle"
  | .running => "Running"
  | .interrupting => "Interrupting"

/-- What an interrupt came to: nothing was running, the task stopped, or it was given up. -/
inductive Interruption where
  | idle
  | cooperative
  | forced
deriving DecidableEq, Repr

/-- The name of an interruption. -/
def Interruption.name : Interruption → String
  | .idle => "Idle"
  | .cooperative => "Cooperative"
  | .forced => "Forced"

/-- A task: its control, its result until somebody takes it, whether its work has begun, and
whether its thread has come to its end. -/
structure Record where
  control : Control
  outcome : Option (Except Session.Failure Value)
  hasBegun : Bool
  hasLeft : Bool
deriving Inhabited

/-- The admission and all tasks it has ever admitted, the latest first, with how many numbers it has
given out and how many notices it has given. -/
structure Admission where
  phase : Phase
  current : Option Nat
  isQueued : Bool
  issued : Nat
  notices : Nat
  tasks : List Record

/-- What happens to a submission. -/
inductive Verdict where
  | start
  | queue (behind : Nat)
  | contend (title : String)
deriving DecidableEq, Repr

/-- What a submission says about its task. -/
structure Ticket where
  title : String
  isExclusive : Bool
  listener : Option Listener
deriving DecidableEq, Repr

/-- What a submission comes to in a turn: it is admitted under a number, has to wait behind a task,
is refused, or finds no thread for its task. -/
inductive Reply where
  | admitted (id : Nat)
  | behind (id : Nat)
  | refused
  | unstarted
deriving DecidableEq, Repr

namespace Admission

/-- Nothing admitted yet. -/
def new : Admission := ⟨.idle, none, false, 0, 0, []⟩

instance : Inhabited Admission := ⟨new⟩

/-! ## Tasks -/

/-- The number of the next task. -/
def nextId (a : Admission) : Nat := a.issued + 1

/-- The record of a task. -/
def task? (a : Admission) (id : Nat) : Option Record := a.tasks.find? fun t => t.control.id = id

/-- Change the record of a task. -/
def alterTask (a : Admission) (id : Nat) (f : Record → Record) : Admission :=
  { a with tasks := a.tasks.map fun t => if t.control.id = id then f t else t }

/-- Change the control of a task. -/
def alterControl (a : Admission) (id : Nat) (f : Control → Control) : Admission :=
  a.alterTask id fun t => { t with control := f t.control }

/-- The control of a task. -/
def control? (a : Admission) (id : Nat) : Option Control := (a.task? id).map (·.control)

/-- The control of the tracked task. -/
def tracked? (a : Admission) : Option Control := a.current.bind a.control?

/-- Whether a task has ended. -/
def hasExited (a : Admission) (id : Nat) : Bool := (a.control? id).all (·.hasExited)

/-! ## Submitting -/

/-- What happens to a submission now. -/
def decide (a : Admission) : Verdict :=
  match a.tracked? with
  | none => .start
  | some c =>
    if c.hasExited then .start
    else if a.phase = .interrupting || c.holdsQueue then .queue c.id
    else .contend c.title

/-- Take the place in the queue; nothing when it is taken. -/
def enqueue? (a : Admission) : Option Admission :=
  if a.isQueued then none else some { a with isQueued := true }

/-- Whether a submission that waits behind a task still has to. -/
def isBlocked (a : Admission) (behind : Nat) : Bool :=
  a.current = some behind && !a.hasExited behind

/-- Give out the next number. A submission that comes from the queue frees its place. -/
def issue (a : Admission) (fromQueue : Bool) : Admission :=
  { a with
    issued := a.nextId
    isQueued := if fromQueue then false else a.isQueued }

/-- Track a task from now on. -/
def track (a : Admission) (id : Nat) (t : Ticket) : Admission :=
  { a with
    phase := .running
    current := some id
    tasks := ⟨Control.new id t.title t.isExclusive t.listener, none, false, false⟩ :: a.tasks }

/-- Admit a submission if its task finds a thread. The number is spent in any case. -/
def enroll (a : Admission) (t : Ticket) (fromQueue hasThread : Bool) : Reply × Admission :=
  let admission := a.issue fromQueue
  if hasThread then (.admitted a.nextId, admission.track a.nextId t) else (.unstarted, admission)

/-- A turn of a submission, which may come from the queue. -/
def turn (a : Admission) (t : Ticket) (fromQueue hasThread : Bool) : Reply × Admission :=
  match a.decide with
  | .start | .contend _ => a.enroll t fromQueue hasThread
  | .queue behind =>
    if fromQueue then (.behind behind, a)
    else
      match a.enqueue? with
      | none => (.refused, a)
      | some a => (.behind behind, a)

/-! ## The life of a task -/

/-- The work of a task begins. -/
def begin (a : Admission) (id : Nat) : Admission :=
  a.alterTask id fun t => { t with hasBegun := true }

/-- Keep the result of a task. -/
def keep (a : Admission) (id : Nat) (outcome : Except Session.Failure Value) : Admission :=
  a.alterTask id fun t => { t with outcome := some outcome }

/-- Record how a task ended, and whether this was the first record. -/
def finish (a : Admission) (id : Nat) (exit : Exit) : Bool × Admission :=
  (((a.control? id).map fun c => (c.finish exit).1).getD false,
    a.alterControl id fun c => (c.finish exit).2)

/-- The listener of a task, which no later call finds. -/
def takeListener (a : Admission) (id : Nat) : Option Listener × Admission :=
  ((a.control? id).bind fun c => c.takeListener.1, a.alterControl id fun c => c.takeListener.2)

/-- Track nothing. -/
def clear (a : Admission) : Admission := { a with phase := .idle, current := none }

/-- Give notice to whoever waits. -/
def notify (a : Admission) : Admission := { a with notices := a.notices + 1 }

/-- A task's thread is done. The task is no longer tracked, unless another one is by now. -/
def release (a : Admission) (id : Nat) : Admission :=
  let a := a.alterTask id fun t => { t with hasLeft := true }
  (if a.current = some id then a.clear else a).notify

/-! ## Interrupting -/

/-- Begin to interrupt the tracked task; nothing when there is none. -/
def beginInterrupt? (a : Admission) : Option (Nat × Admission) :=
  match a.current with
  | none => none
  | some id => some (id, { a with phase := .interrupting })

/-- Ask a task to stop. -/
def cancel (a : Admission) (id : Nat) : Admission := a.alterControl id Control.cancel

/-- End an interrupt, and whether the task was still tracked. -/
def endInterrupt (a : Admission) (id : Nat) : Bool × Admission :=
  let isTracked := a.current = some id
  let a := if isTracked then a.clear else a
  (isTracked, (if a.phase = .interrupting then { a with phase := .idle } else a).notify)

/-! ## Joining -/

/-- Take the result of a task that has ended. A second call finds none. -/
def takeResult (a : Admission) (id : Nat) : Except Session.Failure Value × Admission :=
  match a.task? id with
  | none => (.error (.taskFailed "no such task"), a)
  | some t =>
    if t.control.exit = .terminated then
      (.error (.interrupted (t.control.title ++ " was terminated after the grace period")), a)
    else
      (t.outcome.getD (.error (.taskFailed ("no result available for " ++ t.control.title))),
        a.alterTask id fun t => { t with outcome := none })

end Admission
end Task
end ScriptSession
