import ScriptSession.Session.World

/-!
# Submitting, interrupting and joining

The steps of the admission, put together with the waits between them. A submission takes a turn,
and while it has to wait behind a task it sleeps and takes another one; it is admitted in the turn
in which nothing is in its way. An interrupt asks the tracked task to stop, gives it some time, and
gives it up otherwise.
-/

namespace ScriptSession
namespace Session

open ScriptSession.Task (Admission Exit Interruption Listener)
open Concurrency (Thread)
open Script (Value)

/-- How many milliseconds an interrupted task gets to stop by itself. -/
def gracePeriod : Nat := 2000

/-- How many turns a submission takes before it gives up. -/
def turns : Nat := Nat.pow 2 60

/-- Change the admission. -/
def alterAdmission (f : Admission → Admission) : Act Unit :=
  modifyThe World fun w => { w with admission := f w.admission }

/-! ## Submitting -/

/-- What a submission says about its task. -/
def Submission.ticket (s : Submission) : Task.Ticket := ⟨s.title, s.isExclusive, s.listener⟩

/-- Wait behind a task: sleep until there is a notice, and look whether it is still in the way. -/
def waitBehind (behind : Nat) : Nat → Act Unit
  | 0 => pure ()
  | n + 1 => do
    let admission := (← getThe World).admission
    if admission.isBlocked behind then
      Thread.await fun w => w.admission.notices ≠ admission.notices
      waitBehind behind n

/-- Take turns until the submission is admitted or refused. Threads can always be had here. -/
def submitWith (s : Submission) : Nat → Bool → Act (Except Failure Nat)
  | 0, _ => return .error (.queueFull s.title)
  | n + 1, fromQueue => do
    let (reply, admission) := (← getThe World).admission.turn s.ticket fromQueue true
    alterAdmission fun _ => admission
    match reply with
    | .admitted id =>
      Thread.start (.task id s.work)
      return .ok id
    | .behind id =>
      waitBehind id n
      submitWith s n true
    | .refused => return .error (.queueFull s.title)
    | .unstarted =>
      return .error (.io (.other "Resource temporarily unavailable (os error 11)"))

/-- Submit a task: its number, or why it is refused. -/
def submit (s : Submission) : Act (Except Failure Nat) := submitWith s turns false

/-! ## The life of a task -/

/-- Tell a listener of a start. -/
def notifyStarted (id : Nat) : Act Unit := do
  match ((← getThe World).admission.control? id).bind (·.startListener?) with
  | some l => modifyThe World (·.record (.started l.name))
  | none => pure ()

/-- Tell the listener of the end, unless it has been told. -/
def notifyEnded (id : Nat) : Act Unit := do
  let (listener, admission) := (← getThe World).admission.takeListener id
  alterAdmission fun _ => admission
  match listener with
  | some l => modifyThe World (·.record (.ended l.name))
  | none => pure ()

/-- What a task comes to: a result, or a panic with its message. -/
inductive Outcome where
  | result (r : Except Failure Value)
  | panic (message : String)

/-- Run the work of a task from its start to its end. -/
def runTask (id : Nat) (work : Act Outcome) : Act Unit := do
  notifyStarted id
  alterAdmission (·.begin id)
  match ← work with
  | .result r =>
    alterAdmission (·.keep id r)
    alterAdmission fun a => (a.finish id .completed).2
  | .panic message =>
    alterAdmission (·.keep id (.error (.taskFailed message)))
    alterAdmission fun a => (a.finish id .panicked).2
  notifyEnded id
  alterAdmission (·.release id)

/-! ## Interrupting -/

/-- End an interrupt. The task is given up unless it has stopped. -/
def endInterruption (id : Nat) (stopped : Bool) : Act Interruption := do
  let isForced ←
    if stopped then pure false
    else do
      let (isFirst, admission) := (← getThe World).admission.finish id .terminated
      alterAdmission fun _ => admission
      pure isFirst
  let (wasTracked, admission) := (← getThe World).admission.endInterrupt id
  alterAdmission fun _ => admission
  if isForced then
    notifyEnded id
    return .forced
  if wasTracked then
    Thread.await fun w => ((w.admission.task? id).map (·.hasLeft)).getD true
  return .cooperative

/-- Interrupt the tracked task. -/
def interruptTask : Act Interruption := do
  match (← getThe World).admission.beginInterrupt? with
  | none => return .idle
  | some (id, admission) =>
    alterAdmission fun _ => admission
    alterAdmission (·.cancel id)
    endInterruption id (← Thread.awaitFor gracePeriod fun w => w.admission.hasExited id)

/-! ## Joining -/

/-- Take the result of a task that has ended. -/
def takeResult (id : Nat) : Act (Except Failure Value) := do
  let (result, admission) := (← getThe World).admission.takeResult id
  alterAdmission fun _ => admission
  return result

/-- Wait for a task and take its result. -/
def join (id : Nat) : Act (Except Failure Value) := do
  Thread.await fun w => w.admission.hasExited id
  takeResult id

/-- Wait for a task for some milliseconds and take its result if it has ended. -/
def joinFor (millis id : Nat) : Act (Option (Except Failure Value)) := do
  if ← Thread.awaitFor millis fun w => w.admission.hasExited id then
    return some (← takeResult id)
  else return none

/-- Wait until no task is tracked, for some milliseconds, and whether it came to that. -/
def waitIdle (millis : Nat) : Act Bool := Thread.awaitFor millis fun w => w.admission.current.isNone

end Session
end ScriptSession
