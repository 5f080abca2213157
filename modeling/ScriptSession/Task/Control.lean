import ScriptSession.Text.Quoted

/-!
# Task controls

The block of facts that a task's own thread, the admission and the holders of handles share about
a task: whether it has been asked to stop, whether it is blocked, how it ended, and who is to be
told about it.

A task ends once. The first end that is recorded stays, and the listener hears of an end at most
once, whoever brings it about.
-/

namespace ScriptSession
namespace Task

/-- How a task's thread ended. -/
inductive Exit where
  | running
  | completed
  | panicked
  | terminated
deriving DecidableEq, Repr, Inhabited

/-- The name of an exit. -/
def Exit.name : Exit → String
  | .running => "Running"
  | .completed => "Completed"
  | .panicked => "Panicked"
  | .terminated => "Terminated"

/-- The exit of a name. -/
def Exit.ofName? (name : String) : Option Exit :=
  [Exit.running, .completed, .panicked, .terminated].find? fun e => e.name.toLower = name.toLower

/-- Who hears of a task's start and end. -/
structure Listener where
  name : String
  hearsStart : Bool
deriving DecidableEq, Repr

/-- What is shared about a task. -/
structure Control where
  id : Nat
  title : String
  isExclusive : Bool
  isCancelled : Bool
  waiting : Nat
  exit : Exit
  listener : Option Listener
deriving Repr

namespace Control

/-- A fresh control. -/
def new (id : Nat) (title : String) (isExclusive : Bool) (listener : Option Listener) : Control :=
  ⟨id, title, isExclusive, false, 0, .running, listener⟩

/-- The control of work that no admission tracks. -/
def detached (title : String) : Control := new 0 title false none

instance : Inhabited Control := ⟨detached ""⟩

/-- Ask the task to stop. -/
def cancel (c : Control) : Control := { c with isCancelled := true }

/-- The task is blocked. -/
def enterWait (c : Control) : Control := { c with waiting := c.waiting + 1 }

/-- The task is no longer blocked. -/
def leaveWait (c : Control) : Control := { c with waiting := c.waiting - 1 }

/-- Whether the task is blocked. -/
def isWaiting (c : Control) : Bool := 0 < c.waiting

/-- Whether the task has ended. -/
def hasExited (c : Control) : Bool := c.exit ≠ .running

/-- Record how the task ended, and whether this was the first record. -/
def finish (c : Control) (exit : Exit) : Bool × Control :=
  if c.exit = .running then (true, { c with exit := exit }) else (false, c)

/-- The listener that hears of the start. -/
def startListener? (c : Control) : Option Listener := c.listener.filter (·.hearsStart)

/-- The listener that hears of the end, which no later call finds. -/
def takeListener (c : Control) : Option Listener × Control :=
  (c.listener, { c with listener := none })

/-- Whether a submission has to wait for the task: it is blocked, or nothing may run beside it. -/
def holdsQueue (c : Control) : Bool := c.isWaiting || c.isExclusive

/-- A control as it is written into diagnostics. -/
def describe (c : Control) : String :=
  "TaskControl \x7b id: " ++ toString c.id ++ ", title: " ++ Text.quoted c.title ++
    ", exclusive: " ++ toString c.isExclusive ++ ", cancelled: " ++ toString c.isCancelled ++
    ", exit: " ++ c.exit.name ++ " \x7d"

end Control
end Task
end ScriptSession
