import ScriptSession.Context.Loading
import ScriptSession.Evaluation.Fault
import ScriptSession.Report.Snapshot
import ScriptSession.Script.Run

/-!
# Contexts

A context is what scripts run in: the places modules come from, the modules read so far, and the
variables that scripts leave behind. One evaluation at a time holds the variables. Others run on
a copy of the published variables, those of the last finished access; what they change is visible
in the published variables at once and waits to be merged into the held ones.

Every function here is one step that nothing interrupts. Deferring consists of three of them.
-/

namespace ScriptSession
namespace Context

open Script (Entry Scope Value)

/-- A context. -/
structure State where
  generation : Nat
  loading : LoadingScope
  scope : Scope
  isHeld : Bool
  published : Scope
  pending : List Entry
  modules : List (Path × Script.Module)
  isUsed : Bool
  isCorrupted : Bool
deriving Inhabited

/-- How many milliseconds an evaluation waits for the variables before it takes the copy. -/
def contentionWait : Nat := 50

/-- How many milliseconds the removal of a variable waits for the variables. -/
def removalWait : Nat := 2000

/-! ## Merging -/

/-- Merge a change into variables. A constant that is new stays one; any other change binds its
name. -/
def apply (s : Scope) (e : Entry) : Scope :=
  if e.isConstant && !s.contains e.name then s.push (Entry.constant e.name e.value)
  else s.bind e.name e.value

/-- Merge changes in order. -/
def applyAll (s : Scope) (es : List Entry) : Scope := es.foldl apply s

/-- The variables an evaluation starts with: the host's bindings and then its own. -/
def bound (s : Scope) (bindings : Bindings) (extra : List (String × Value)) : Scope :=
  (s.bindAll bindings.entries).bindAll extra

/-- What an evaluation on a copy has changed: the variables that are new or look different, place
by place. -/
def changes (before after : Scope) : List Entry :=
  let old := before.oldestFirst.map fun e => (e.name, e.value.debug)
  (after.oldestFirst.zipIdx.filter fun (e, i) => old[i]? ≠ some (e.name, e.value.debug)).map (·.1)

namespace State

/-- A fresh context with the host's bindings. -/
def new (generation : Nat) (loading : LoadingScope) (bindings : Bindings) : State :=
  let scope : Scope := bindings.entries.foldl (fun s b => s.push (Entry.variable_ b.1 b.2)) .empty
  ⟨generation, loading, scope, false, scope, [], [], false, false⟩

/-! ## Flags -/

/-- An evaluation has begun. -/
def markUsed (c : State) : State := { c with isUsed := true }

/-- A task was given up in the middle of an evaluation. -/
def markCorrupted (c : State) : State := { c with isCorrupted := true }

/-- Add locations; nothing when an evaluation has begun. -/
def augment? (c : State) (locations : List Artifact.CodeLocation) : Option State :=
  if c.isUsed then none else some { c with loading := c.loading.extend locations }

/-- Why the variables cannot be had. -/
def unavailable (c : State) : Evaluation.Fault :=
  let generation := "context generation " ++ toString c.generation
  .raise .engine (generation ++
    (if c.isCorrupted then
      " is held by a task that was abandoned; rebuild the context to continue"
    else " is busy with another evaluation; try again when it finishes"))

/-! ## Steps on the variables -/

/-- Take the pending changes and merge them into the variables. -/
def mergePending (c : State) : State :=
  { c with scope := applyAll c.scope c.pending, pending := [] }

/-- Publish the variables. -/
def publish (c : State) : State := { c with published := c.scope }

/-- Take hold of the variables. -/
def hold (c : State) : State := { c with isHeld := true }

/-- Let go of the variables. -/
def letGo (c : State) : State := { c with isHeld := false }

/-- The holder puts back what has become of the variables. -/
def putBack (c : State) (s : Scope) : State := { c with scope := s }

/-- The first step of deferring: the changes become visible. -/
def showChanges (c : State) (es : List Entry) : State :=
  { c with published := applyAll c.published es }

/-- The second step of deferring: the changes wait to be merged. -/
def queueChanges (c : State) (es : List Entry) : State := { c with pending := c.pending ++ es }

/-- The third step of deferring: if nobody holds the variables, the changes are merged. -/
def mergeIfFree (c : State) : State := if c.isHeld then c else c.mergePending.publish

/-- All of deferring. -/
def defer (c : State) (es : List Entry) : State :=
  ((c.showChanges es).queueChanges es).mergeIfFree

/-- Begin an evaluation that holds the variables. -/
def acquire (c : State) : State := c.hold.mergePending

/-- End an evaluation that held the variables. -/
def release (c : State) (s : Scope) : State := ((c.putBack s).mergePending.publish).letGo

/-! ## Variables -/

/-- Bind a name while nobody holds the variables. -/
def bindFree (c : State) (name : String) (v : Value) : State :=
  let c := c.mergePending
  (c.putBack (c.scope.bind name v)).publish

/-- Bind a name while somebody holds the variables. -/
def bindDeferred (c : State) (name : String) (v : Value) : State :=
  c.defer [Entry.variable_ name v]

/-- The published value of a name. -/
def value? (c : State) (name : String) : Option Value := c.published.get? name

/-- Remove a name while nobody holds the variables: the value it had, and the context. -/
def removeFree (c : State) (name : String) : Option Value × State :=
  let c := c.mergePending
  (c.scope.get? name, (c.putBack (c.scope.without name)).publish)

/-- What is published, as a snapshot. -/
def snapshot (c : State) : Report.Snapshot :=
  ⟨c.generation, Bindings.ofList (c.published.oldestFirst.map fun e => (e.name, e.value))⟩

/-! ## Modules -/

/-- The module read from a file before. Files are the same when their paths are, part by part. -/
def module? (c : State) (file : Path) : Option Script.Module :=
  (c.modules.find? fun m => m.1.same file).map (·.2)

/-- Keep the module read from a file. -/
def keepModule (c : State) (file : Path) (m : Script.Module) : State :=
  { c with modules := (file, m) :: c.modules }

end State
end Context
end ScriptSession
