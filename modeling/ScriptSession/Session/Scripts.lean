import ScriptSession.Script.Evaluate
import ScriptSession.Session.World

/-!
# Scripts on threads

A script's questions, answered by the world: lines go to the sink of the evaluation, sleeping
makes its task a waiting one and ends when the task is cancelled, and files are those of the host.

A module is a file that the loading scope of the context finds. It is run once, and the context
keeps what it made of itself. While it runs it may import modules itself, so imports are nested; no
room is left for more at some depth, and an import that finds none never comes to an end.

An evaluation holds the variables of its context while it runs. One that cannot have them in time
runs on a copy of the published ones.
-/

namespace ScriptSession
namespace Session

open Script (Module Position Run Scope Value)
open Concurrency (Thread)

/-- What an evaluation runs with. -/
structure Running where
  context : Nat
  sink : Sink
  owner : Owner

namespace Running

/-- Whether the owner has been cancelled. -/
def isCancelled (r : Running) (w : World) : Bool := (w.control r.owner).isCancelled

/-- After how many questions whether to go on a busy script lets time pass. -/
def patience : Nat := 1000

/-- Whether a script may go on. A script that has been busy for long lets others go first. -/
def proceed (r : Running) (asked : Nat) : Act Bool := do
  if patience ≤ asked then let _ ← Thread.awaitFor 1 r.isCancelled
  return !r.isCancelled (← getThe World)

/-- Sleep, and whether the sleep was cut short. -/
def sleep (r : Running) (millis : Nat) : Act Bool := do
  modifyThe World (·.alterControl r.owner Task.Control.enterWait)
  let cut ← Thread.awaitFor millis r.isCancelled
  modifyThe World (·.alterControl r.owner Task.Control.leaveWait)
  return cut

/-- How deep imports can be nested. -/
def importRoom : Nat := Nat.pow 2 60

/-- The text of a module file, without a first line that names an interpreter. -/
def moduleText (host : Host) (file : Path) : Except String String :=
  match host.readText file with
  | .error e => .error e.message
  | .ok text =>
    if text.startsWith "#!" then .ok (String.ofList (text.toList.dropWhile (· ≠ '\n')))
    else .ok text

/-- How an import is resolved: the module of a name, or the fault at the place of the import. -/
abbrev Loader := String → Position → Act (Except Script.Fault Module)

/-- Answer a question. -/
def answer (r : Running) (load : Loader) (asked : Nat) : (q : Script.Request) → Act q.Reply
  | .print text => printLine r.sink r.owner text
  | .complain text => modifyThe World (·.writeErr r.sink text)
  | .sleep millis => r.sleep millis
  | .readText path => do
    return match (← getThe World).host.readText ⟨path⟩ with
      | .ok text => .ok text
      | .error e => .error e.message
  | .proceed => r.proceed asked
  | .load name p => load name p

/-- Run a script, answering its questions. -/
def interpret (r : Running) (load : Loader) {α : Type} : Nat → Run α → Act α
  | _, .done a => pure a
  | asked, .ask q k => do
    let x ← r.answer load asked q
    r.interpret load (asked + 1) (k x)

/-- Run a module file. -/
def runFile (r : Running) (load : Loader) (file : Path) : Act (Except Script.Fault Module) := do
  match moduleText (← getThe World).host file with
  | .error e =>
    return .error (.system ("Cannot read script file '" ++ file.text ++ "'") (.io e))
  | .ok text => r.interpret load 0 (Script.runModule text file.text)

/-- Resolve an import: by the module kept for the file, or by running the file, whose own imports
are resolved by `load`. -/
def resolve (r : Running) (load : Loader) : Loader := fun name p => do
  let w ← getThe World
  match (w.context r.context).loading.findModule w.host name with
  | none => return .error (.moduleNotFound name (some p))
  | some file =>
    match (w.context r.context).module? file with
    | some m => return .ok m
    | none =>
      match ← r.runFile load file with
      | .error f => return .error (.inModule name f (some p))
      | .ok m => do
        modifyThe World (·.alterContext r.context (·.keepModule file m))
        return .ok m

/-- Resolve an import with room for some nested imports. One without room never ends. -/
def resolveWithin (r : Running) : Nat → Loader
  | 0 => fun _ p => do
    Thread.await fun _ => false
    return .error (.stackOverflow (some p))
  | depth + 1 => r.resolve (r.resolveWithin depth)

/-- Run a script on variables: its value or fault, and the variables afterwards. -/
def run (r : Running) (script : String) (scope : Scope) :
    Act (Except Evaluation.Fault Value × Scope) := do
  let (outcome, scope) ← r.interpret (r.resolveWithin importRoom) 0 (Script.run script scope)
  return (outcome.mapError Evaluation.Fault.ofScript, scope)

end Running

/-! ## Evaluations -/

/-- Whether nobody holds the variables of a context. -/
def isFree (i : Nat) (w : World) : Bool := !(w.context i).isHeld

/-- Work on the variables of a context and hold them meanwhile: what comes of the work. -/
def onVariables {α : Type} (i : Nat) (bindings : Context.Bindings) (extra : List (String × Value))
    (work : Scope → Act (α × Scope)) : Act α := do
  modifyThe World (·.alterContext i Context.State.acquire)
  let scope := ((← getThe World).context i).scope
  let (a, scope) ← work (Context.bound scope bindings extra)
  modifyThe World (·.alterContext i (·.release scope))
  return a

/-- Work on a copy of the published variables: what comes of the work. The changes are deferred. -/
def onCopy {α : Type} (i : Nat) (bindings : Context.Bindings) (extra : List (String × Value))
    (work : Scope → Act (α × Scope)) : Act α := do
  let before := ((← getThe World).context i).published
  let (a, scope) ← work (Context.bound before bindings extra)
  let changes := Context.changes before scope
  modifyThe World (·.alterContext i (·.defer changes))
  return a

/-- Evaluate a script in a context. -/
def evaluateIn (r : Running) (script : String) (bindings : Context.Bindings)
    (extra : List (String × Value)) : Act (Except Evaluation.Fault Value) := do
  modifyThe World (·.alterContext r.context Context.State.markUsed)
  if ← Thread.awaitFor Context.contentionWait (isFree r.context) then
    onVariables r.context bindings extra (r.run script)
  else onCopy r.context bindings extra (r.run script)

/-! ## Variables -/

/-- Bind a name in a context. -/
def setVariable (i : Nat) (name : String) (v : Value) : Act Unit := do
  if ← Thread.awaitFor Context.contentionWait (isFree i) then
    modifyThe World (·.alterContext i (·.bindFree name v))
  else modifyThe World (·.alterContext i (·.bindDeferred name v))

/-- Remove a name from a context: the value it had. -/
def removeVariable (i : Nat) (name : String) :
    Act (Except Evaluation.Fault (Option Value)) := do
  if ← Thread.awaitFor Context.removalWait (isFree i) then
    let (removed, c) := ((← getThe World).context i).removeFree name
    modifyThe World (·.alterContext i fun _ => c)
    return .ok removed
  else return .error ((← getThe World).context i).unavailable

end Session
end ScriptSession
