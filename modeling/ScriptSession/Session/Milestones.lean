import ScriptSession.Session.Jobs
import ScriptSession.Session.Opening

/-!
# Milestones

Watching a session at work from outside: waiting until a task has come to a certain point,
opening gates, and submitting or evaluating on a thread of its own. Since a thread in front of a
pool goes on only when everything else has settled, what is seen at a milestone does not depend
on luck.
-/

namespace ScriptSession
namespace Session

open Concurrency (Thread)

/-- A point in the work of a task. -/
inductive Milestone where
  | ended
  | waiting
  | begun
  | gate (name : String)
  | none
deriving DecidableEq, Repr

namespace Milestone

/-- The milestone of a name. -/
def parse (s : String) : Milestone :=
  match s with
  | "exit" => .ended
  | "waiting" => .waiting
  | "run" => .begun
  | "none" => .none
  | s => .gate (String.ofList (s.toList.drop 5))

/-- The name of a milestone. -/
def text : Milestone → String
  | .ended => "exit"
  | .waiting => "waiting"
  | .begun => "run"
  | .gate name => "gate:" ++ name
  | .none => "none"

/-- Whether work has begun. Work outside the admission begins at once. -/
def hasBegun (w : World) : Owner → Bool
  | .task id => ((w.admission.task? id).map (·.hasBegun)).getD false
  | .loose _ => true

/-- Whether an owner has come to a milestone. -/
def isReached (w : World) (o : Owner) : Milestone → Bool
  | .ended => (w.control o).hasExited
  | .waiting => (w.control o).isWaiting
  | .begun => hasBegun w o
  | .gate name => w.atGate.contains (name, o)
  | .none => true

/-- Wait until an owner has come to a milestone or has ended, and which of them it was. -/
def reach (o : Owner) (m : Milestone) : Act Milestone := do
  Thread.await fun w => m.isReached w o || (w.control o).hasExited
  return if m.isReached (← getThe World) o then m else .ended

end Milestone

/-- Open a gate for good. -/
def openGate (gate : String) : Act Unit :=
  modifyThe World fun w => { w with openGates := gate :: w.openGates }

/-- Submit on a thread of its own, and whether the submission has returned. -/
def submitApart (name : String) (s : Submission) : Act Bool := do
  Thread.start (.submit name s)
  Thread.settle
  return (← getThe World).submissions.any fun x => x.1 = name

/-- The result of a submission on a thread of its own, once it has returned. -/
def admitted (name : String) : Act (Except Failure Nat) := do
  Thread.await fun w => w.submissions.any fun x => x.1 = name
  return (((← getThe World).submissions.find? fun x => x.1 = name).map (·.2)).getD
    (.error (.queueFull name))

/-- The result of an evaluation on a thread of its own, once it has ended. -/
def evaluated (name : String) : Act (Except Evaluation.Fault Script.Value) := do
  Thread.await fun w => w.evaluations.any fun x => x.1 = name
  return (((← getThe World).evaluations.find? fun x => x.1 = name).map (·.2)).getD (.ok .unit)

/-- Run tests on a thread of its own and interrupt them when a test has begun: what the interrupt
came to, and the run. -/
def interruptDuring (name title : String) (cases : List Report.TestCase) :
    Act (Task.Interruption × Except Failure Report.TestRun) := do
  let line := "# Running test " ++ title
  let count (w : World) : Nat := (w.transcript.outputs.filter (· = line)).length
  let before := count (← getThe World)
  Thread.start (.runTests name cases)
  let isDone (w : World) : Bool := w.runs.any fun x => x.1 = name
  Thread.await fun w => before < count w || isDone w
  let outcome ← interrupt
  Thread.await isDone
  let run := ((← getThe World).runs.find? fun x => x.1 = name).map (·.2)
  return (outcome, run.getD (.error .engineNotReady))

/-- How many milliseconds to wait for a watcher to rebuild. -/
def watchPatience : Nat := 5000

/-- Wait for a context that is newer than a generation, stop watching, and whether there was
one. -/
def stopWatchingAfter (generation : Nat) : Act Bool := do
  let isNewer (w : World) : Bool :=
    w.session.context.any fun i => generation < (w.context i).generation
  let came ← Thread.awaitFor watchPatience isNewer
  stopWatching
  return came

end Session
end ScriptSession
