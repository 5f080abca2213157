import ScriptSession.Session.Watching

/-!
# Jobs

What every job does, and how a world with its threads runs.
-/

namespace ScriptSession
namespace Session

open Concurrency (Pool Thread)

/-- How many steps a world may run. -/
def stepSupply : Nat := Nat.pow 2 60

/-! ## Jobs -/

/-- Stay at the gate of a plan. -/
def stayAtGate (id : Nat) (plan : Plan) (gate : String) : Act Unit := do
  if plan.waits then alterAdmission (·.alterControl id Task.Control.enterWait)
  stopAt gate (.task id)
  if plan.waits then alterAdmission (·.alterControl id Task.Control.leaveWait)
  let w ← getThe World
  set (w.record (.resumed plan.name (w.control (.task id)).isCancelled))

/-- The work of a task with a plan. -/
def planTask (id : Nat) (plan : Plan) : Act Outcome := do
  modifyThe World (·.record (.began plan.name))
  match plan.gate with
  | some gate => stayAtGate id plan gate
  | none => pure ()
  if plan.untilCancelled then Thread.await fun w => (w.control (.task id)).isCancelled
  return match plan.ending with
    | .value v => .result (.ok v)
    | .failure e => .result (.error e)
    | .panic message => .panic message

/-- The work of a task. -/
def perform (id : Nat) : Work → Act Outcome
  | .planned plan => planTask id plan
  | .evaluate i script extra => evaluateTask id i script extra
  | .batch i cases hasSummary => batchTask id i cases hasSummary
  | .rebuild => rebuildTask id

/-- Note the result of an evaluation on a thread of its own. -/
def evaluateJob (name : String) (r : Running) (script : String) (bindings : Context.Bindings)
    (extra : List (String × Script.Value)) : Act Unit := do
  let result ← evaluateIn r script bindings extra
  modifyThe World fun w =>
    { w with evaluations := (name, result) :: w.evaluations }.alterControl r.owner
      fun c => (c.finish .completed).2

/-- What a job does. -/
def body : Job → Act Unit
  | .task id work => runTask id (perform id work)
  | .submit name s => do
    let result ← submit s
    modifyThe World fun w => { w with submissions := (name, result) :: w.submissions }
  | .evaluate name i script bindings extra sink owner =>
    evaluateJob name ⟨i, sink, owner⟩ script bindings extra
  | .runTests name cases => do
    let result ← runTests cases
    modifyThe World fun w => { w with runs := (name, result) :: w.runs }
  | .watch manifest debounce => watchJob manifest debounce

/-! ## Running -/

/-- Run a thread and all that it starts: its result, and the world afterwards. A thread that is
left waiting for ever has no result. -/
def runAct {α : Type} (t : Act α) (w : World) : Option α × World :=
  let pool := Pool.run body stepSupply (Pool.ofThread t w)
  (pool.result?, pool.shared)

end Session
end ScriptSession
