import ScriptSession.Session.Building
import ScriptSession.Session.Tasks

/-!
# What a session does

The operations of a session. Some run on the thread that calls them, others are submitted as
tasks. An evaluation that runs as a task reports to the transcript and, whatever becomes of it,
tells its listener, refreshes the snapshot and prompts.
-/

namespace ScriptSession
namespace Session

open Concurrency (Thread)
open Report (TestCase TestResult TestRun)
open Script (Value)
open ScriptSession.Task (Interruption Listener)

/-! ## The context -/

/-- The number of the current context. -/
def currentContext : Act (Except Failure Nat) := do
  match (← getThe World).session.context with
  | some i => return .ok i
  | none => return .error .engineNotReady

/-- Go on with the current context, if there is one. -/
def withContext {α : Type} (f : Nat → Act (Except Failure α)) : Act (Except Failure α) := do
  match ← currentContext with
  | .ok i => f i
  | .error e => return .error e

/-- Publish what a context shows. -/
def refreshSnapshot (i : Nat) : Act Unit :=
  modifyThe World fun w => w.publish (w.context i).snapshot

/-! ## Evaluating on the calling thread -/

/-- Evaluate in a context under a control outside the admission. -/
def evaluateOn (i : Nat) (script : String) (extra : List (String × Value)) (sink : Sink)
    (title : String) : Act (Except Evaluation.Fault Value) := do
  let (owner, w) := (← getThe World).addLoose title
  set w
  evaluateIn ⟨i, sink, owner⟩ script w.session.bindings extra

/-- Evaluate, writing to the transcript. -/
def evaluate (script : String) (extra : List (String × Value)) : Act (Except Failure Value) :=
  withContext fun i => do
    return (← evaluateOn i script extra .transcript "evaluate").mapError .evaluation

/-- Evaluate, writing to the terminal. -/
def evaluateSilently (script : String) (extra : List (String × Value)) :
    Act (Except Failure Value) :=
  withContext fun i => do
    return (← evaluateOn i script extra .process "evaluate_silent").mapError .evaluation

/-! ## Evaluating as a task -/

/-- The end of a task that evaluates, whatever became of it. -/
def complete (i id : Nat) : Act Unit := do
  notifyEnded id
  refreshSnapshot i
  write .prompt

/-- The work of a task that evaluates a script. -/
def evaluateTask (id i : Nat) (script : String) (extra : List (String × Value)) :
    Act Outcome := do
  let bindings := (← getThe World).session.bindings
  let result ← evaluateIn ⟨i, .transcript, .task id⟩ script bindings extra
  match result with
  | .ok v => unless v.isUnit do write (.output v.display)
  | .error f => write (.warning f.text)
  complete i id
  return .result (result.mapError .evaluation)

/-- Submit a script. -/
def evaluateAsync (script title : String) (listener : Option Listener)
    (extra : List (String × Value)) : Act (Except Failure Nat) :=
  withContext fun i => submit ⟨title, false, listener, .evaluate i script extra⟩

/-! ## Tests -/

/-- Run a test. -/
def runCase (id i : Nat) (case : TestCase) : Act TestResult := do
  let (buffer, w) := (← getThe World).addBuffer
  set w
  let result ←
    evaluateIn ⟨i, .buffer buffer false, .task id⟩ case.script w.session.bindings []
  let captured := (← getThe World).buffers.getD buffer .empty
  let r := match result with
    | .ok _ => TestResult.success case.title
    | .error f => TestResult.ofFault case.title f
  return r.withOutput captured.out captured.err

/-- Run tests in order until the task is cancelled. -/
def runCases (id i : Nat) (hasSummary : Bool) : List TestCase → Act (List TestResult)
  | [] => return []
  | case :: rest => do
    if ((← getThe World).control (.task id)).isCancelled then return []
    if hasSummary then write (.output ("# Running test " ++ case.title))
    let r ← runCase id i case
    (r.entries (if hasSummary then Report.indent else "")).forM write
    return r :: (← runCases id i hasSummary rest)

/-- The work of a task that runs tests. -/
def batchTask (id i : Nat) (cases : List TestCase) (hasSummary : Bool) : Act Outcome := do
  if hasSummary then
    write (.output "Running tests")
    write (.output "-------------")
  let started ← Thread.now
  let results ← runCases id i hasSummary cases
  let run : TestRun := ⟨results, (← Thread.now) - started⟩
  if hasSummary then run.summaryEntries.forM write
  modifyThe World fun w => { w with batches := (id, run) :: w.batches }
  complete i id
  return .result (.ok .unit)

/-- What a batch of tests is called. -/
def batchTitle : List TestCase → String
  | [case] => case.title
  | cases => toString cases.length ++ " tests"

/-- Run tests as a task and wait for it. -/
def runBatch (cases : List TestCase) (hasSummary : Bool) : Act (Except Failure TestRun) :=
  withContext fun i => do
    match ← submit ⟨batchTitle cases, false, none, .batch i cases hasSummary⟩ with
    | .error e => return .error e
    | .ok id =>
      match ← join id with
      | .error e => return .error e
      | .ok _ =>
        match (← getThe World).batches.find? fun b => b.1 = id with
        | some (_, run) => return .ok run
        | none => return .error (.taskFailed "test batch produced no results")

/-- Run tests with a summary. -/
def runTests (cases : List TestCase) : Act (Except Failure TestRun) := runBatch cases true

/-- Run one test. -/
def runTest (script title : String) : Act (Except Failure TestResult) := do
  match ← runBatch [⟨title, script⟩] false with
  | .error e => return .error e
  | .ok run =>
    match run.results.getLast? with
    | some r => return .ok r
    | none => return .error (.taskFailed "test produced no result")

/-! ## Interrupting -/

/-- Interrupt the running task. A task that had to be given up leaves its context in doubt. -/
def interrupt : Act Interruption := do
  let outcome ← interruptTask
  if outcome = .forced then
    match (← getThe World).session.context with
    | some i => modifyThe World (·.alterContext i Context.State.markCorrupted)
    | none => pure ()
    write (.warning ("The running script did not stop and was abandoned; the session state may " ++
      "be inconsistent, restart the session to get a clean context"))
    write .prompt
  return outcome

/-! ## Rebuilding -/

/-- The version in the banner. -/
def version : String := "0.1.0"

/-- The banner that follows a rebuild. -/
def banner : List Report.Entry :=
  let line := "* Rivet " ++ version ++ " (Rhai scripting) *"
  let stars := String.ofList (List.replicate line.length '*')
  [.output stars, .output line, .output stars]

/-- The name of autorun scripts. -/
def autorunFileName : String := "autorun.rhai"

/-- The autorun scripts that settings ask for, those of the installation first. -/
def autorunScripts (core : Core) : List Path :=
  let among (isWanted : Bool) (dir : Option Path) : List Path :=
    match isWanted, dir with
    | true, some dir => [dir.join autorunFileName]
    | _, _ => []
  among core.settings.autorunGlobal core.settings.installDir ++
    among core.settings.autorunProject core.projectDir

/-- Run an autorun script. -/
def runAutorunScript (i : Nat) (path : Path) : Act (Except Failure Unit) := do
  match (← getThe World).host.readText path with
  | .error e => return .error (.io e)
  | .ok script =>
    return ((← evaluateOn i script [] .process "autorun").map fun _ => ()).mapError .evaluation

/-- Run an autorun script if it is there when its turn comes. One that fails is reported. -/
def runAutorunIfThere (i : Nat) (path : Path) : Act Unit := do
  if (← getThe World).host.isFile path then
    match ← runAutorunScript i path with
    | .ok () => pure ()
    | .error e =>
      write (.warning ("Failed to run autorun script " ++ path.text ++ ": " ++ e.message))

/-- Run the autorun scripts, one after the other. -/
def runAutorun (i : Nat) : Act Unit := do
  let w ← getThe World
  (autorunScripts w.session).forM (runAutorunIfThere i)

/-- Build a context, make it the current one and start it up: its generation. -/
def rebuildNow (id : Nat) : Act (Except Failure Nat) := do
  Thread.await fun w => !w.session.isRebuilding
  modifyThe World (·.alterSession fun c => { c with isRebuilding := true })
  let core := (← getThe World).session
  let built ←
    build (.task id) core.baseScope core.manifest core.bindings (optionsOf core.settings)
  let result ← match built with
    | .error e => pure (Except.error e)
    | .ok i => do
      modifyThe World (·.alterSession fun c => { c with context := some i })
      banner.forM write
      runAutorun i
      refreshSnapshot i
      pure (Except.ok ((← getThe World).context i).generation)
  modifyThe World (·.alterSession fun c => { c with isRebuilding := false })
  return result

/-- The work of a task that rebuilds. -/
def rebuildTask (id : Nat) : Act Outcome := do
  return .result ((← rebuildNow id).map fun generation => .int generation)

/-- The submission of a rebuild. -/
def rebuildSubmission : Submission := ⟨"rebuild context", true, none, .rebuild⟩

/-- Submit a rebuild. -/
def rebuild : Act (Except Failure Nat) := submit rebuildSubmission

/-- Rebuild and wait for the new generation. -/
def rebuildBlocking : Act (Except Failure Value) := do
  match ← rebuild with
  | .error e => return .error e
  | .ok id => join id

/-- Mark the transcript and submit a rebuild. -/
def restart : Act (Except Failure Nat) := do
  write (.output "[Session restarted]")
  rebuild

/-! ## Variables -/

/-- Bind a name in the current context. -/
def addVariable (name : String) (v : Value) : Act (Except Failure Unit) :=
  withContext fun i => do
    setVariable i name v
    refreshSnapshot i
    return .ok ()

/-- Remove a name from the current context: the value it had. -/
def dropVariable (name : String) : Act (Except Failure (Option Value)) :=
  withContext fun i => do
    match ← removeVariable i name with
    | .error f => return .error (.evaluation f)
    | .ok v =>
      refreshSnapshot i
      return .ok v

/-- The value of a name in the current context. -/
def fetchVariable (name : String) : Act (Except Failure (Option Value)) :=
  withContext fun i => do return .ok (((← getThe World).context i).value? name)

/-- Bind a name for every evaluation from now on. -/
def setBinding (name : String) (v : Value) : Act Unit :=
  modifyThe World (·.alterSession fun c => { c with bindings := c.bindings.insert name v })

/-- Unbind a name: the value it had. -/
def removeBinding (name : String) : Act (Option Value) := do
  let old := (← getThe World).session.bindings.get name
  modifyThe World (·.alterSession fun c => { c with bindings := c.bindings.remove name })
  return old

/-- Add locations to a context that has not been used. -/
def augment (i : Nat) (locations : List Artifact.CodeLocation) : Act (Except Failure Unit) := do
  let c := (← getThe World).context i
  match c.augment? locations with
  | none => return .error (.contextInUse c.generation)
  | some c =>
    modifyThe World (·.alterContext i fun _ => c)
    return .ok ()

/-! ## Beginning and end -/

/-- A session with the given parts. -/
def open_ (settings : Config.SessionSettings) (cache : Artifact.Cache) (projectDir : Option Path)
    (repositories : List Artifact.Repository) : Core where
  settings := settings
  cache := cache
  projectDir := projectDir
  listener := .transcript
  generation := 0
  context := none
  bindings := .empty
  baseScope := .ofDirectories settings.moduleDirs
  manifest := ⟨repositories, settings.dependencies, none⟩
  reporter := .empty
  isRebuilding := false

/-- Delete what could not be deleted before: how many files went. -/
def runDeletions : Act Nat := do
  let w ← getThe World
  let (n, deletions, host) := w.deletions.run w.host
  set { w with deletions := deletions, host := host }
  return n

/-- Stop what is running and delete what could not be deleted before. -/
def shutdown : Act Unit := do
  if (← getThe World).admission.phase ≠ .idle then
    let _ ← interrupt
  let _ ← runDeletions

end Session
end ScriptSession
