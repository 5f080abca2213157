import ScriptSession.Concurrency.Pool
import ScriptSession.Config.Settings
import ScriptSession.Context.State
import ScriptSession.Evaluation.Slots
import ScriptSession.Report.Testing
import ScriptSession.Task.Admission

/-!
# The world of a session

Everything that the threads of a session share: the host and its files, the terminal and the
transcript, the tasks, the contexts and the session itself. A world also keeps a chronicle of what
happened, and it may have gates: points at which a thread stays until the gate is opened, which
make it possible to look at a session in the middle of its work.
-/

namespace ScriptSession
namespace Session

open Script (Value)
open ScriptSession.Task (Admission Control Listener)

/-! ## What happens -/

/-- An entry of the chronicle. -/
inductive Event where
  | entry (e : Report.Entry)
  | started (name : String)
  | ended (name : String)
  | snapshot (generation : Nat) (names : List String)
  | fetch (repository : String) (coordinate : Artifact.Coordinate)
  | unresolved (cause : Artifact.Failure)
  | began (name : String)
  | resumed (name : String) (isCancelled : Bool)

/-! ## What threads are given -/

/-- Where the output of a script goes. A buffer may be one whose writers stop at gates. -/
inductive Sink where
  | transcript
  | process
  | buffer (index : Nat) (hasGates : Bool)
deriving DecidableEq, Repr

/-- Whose control a script runs under: that of a task, or one outside the admission. -/
inductive Owner where
  | task (id : Nat)
  | loose (index : Nat)
deriving DecidableEq, Repr

/-- A prepared answer for fetching: for a repository or for any, the bytes or why there are none,
and the gate the fetch stops at. -/
structure Offer where
  repository : Option String
  coordinate : Artifact.Coordinate
  answer : Except String ByteArray
  gate : Option String

/-- How a piece of prepared work ends. -/
inductive Ending where
  | value (v : Value)
  | failure (e : Failure)
  | panic (message : String)

/-- A piece of prepared work: it may stop at a gate, as a blocked task or as a busy one, and it may
go on until it is cancelled. -/
structure Plan where
  name : String
  gate : Option String
  waits : Bool
  untilCancelled : Bool
  ending : Ending

/-- What a task does. -/
inductive Work where
  | planned (plan : Plan)
  | evaluate (context : Nat) (script : String) (extra : List (String × Value))
  | batch (context : Nat) (cases : List Report.TestCase) (hasSummary : Bool)
  | rebuild

/-- A submission: what a task is called and does, and who is told about it. -/
structure Submission where
  title : String
  isExclusive : Bool
  listener : Option Listener
  work : Work

/-- What a thread of its own does. -/
inductive Job where
  | task (id : Nat) (work : Work)
  | submit (name : String) (submission : Submission)
  | evaluate (name : String) (context : Nat) (script : String) (bindings : Context.Bindings)
      (extra : List (String × Value)) (sink : Sink) (owner : Owner)
  | runTests (name : String) (cases : List Report.TestCase)
  | watch (manifest : Path) (debounce : Nat)

/-! ## The session -/

/-- How the builder of contexts tells that dependencies could not be resolved. -/
inductive ResolutionListener where
  | transcript
  | chronicle
deriving DecidableEq, Repr

/-- A session. Its context is one of the world's, by number. -/
structure Core where
  settings : Config.SessionSettings
  cache : Artifact.Cache
  projectDir : Option Path
  listener : ResolutionListener
  generation : Nat
  context : Option Nat
  bindings : Context.Bindings
  baseScope : Context.LoadingScope
  manifest : Artifact.Manifest
  reporter : Report.Reporter
  isRebuilding : Bool

instance : Inhabited Core :=
  ⟨⟨default, ⟨⟨""⟩⟩, none, .transcript, 0, none, .empty, .empty, .empty, .empty, false⟩⟩

/-- How a transcript is kept or shown. -/
inductive Display where
  | kept
  | terminal (color : Bool)
deriving DecidableEq, Repr

/-- The watcher of a manifest: whether it is to go on, whether it has left, and the file events it
has not seen yet. -/
structure WatchState where
  isRunning : Bool
  hasLeft : Bool
  events : List (List Path)
deriving Inhabited

/-- What the threads share. -/
structure World where
  host : Host
  deletions : Artifact.Deletions
  offers : Option (List Offer)
  streams : Report.Streams
  display : Display
  transcript : Report.Transcript
  chronicle : List Event
  isMuted : Bool
  hasGates : Bool
  openGates : List String
  atGate : List (String × Owner)
  admission : Admission
  loose : List Control
  contexts : List Context.State
  buffers : List Report.Streams
  session : Core
  submissions : List (String × Except Failure Nat)
  evaluations : List (String × Except Evaluation.Fault Value)
  runs : List (String × Except Failure Report.TestRun)
  batches : List (Nat × Report.TestRun)
  watch : WatchState
  input : List String
  isInputOpen : Bool

/-- What a thread of a session does. -/
abbrev Act := Concurrency.Thread World Job

instance : MonadStateOf Host Act where
  get := return (← getThe World).host
  set h := modifyThe World fun w => { w with host := h }
  modifyGet f := modifyGetThe World fun w => ((f w.host).1, { w with host := (f w.host).2 })

namespace World

/-- A world around a host in which nothing has happened yet. -/
def new (host : Host) : World where
  host := host
  deletions := .none
  offers := none
  streams := .empty
  display := .kept
  transcript := .empty
  chronicle := []
  isMuted := false
  hasGates := false
  openGates := []
  atGate := []
  admission := .new
  loose := []
  contexts := []
  buffers := []
  session := default
  submissions := []
  evaluations := []
  runs := []
  batches := []
  watch := default
  input := []
  isInputOpen := false

/-! ## Parts -/

/-- The control of an owner. -/
def control (w : World) : Owner → Control
  | .task id => (w.admission.control? id).getD default
  | .loose i => w.loose.getD i default

/-- Change the control of an owner. -/
def alterControl (w : World) (o : Owner) (f : Control → Control) : World :=
  match o with
  | .task id => { w with admission := w.admission.alterControl id f }
  | .loose i => { w with loose := w.loose.modify i f }

/-- A new control outside the admission. -/
def addLoose (w : World) (title : String) : Owner × World :=
  (.loose w.loose.length, { w with loose := w.loose ++ [Control.detached title] })

/-- A context by its number. -/
def context (w : World) (i : Nat) : Context.State := w.contexts.getD i default

/-- Change a context. -/
def alterContext (w : World) (i : Nat) (f : Context.State → Context.State) : World :=
  { w with contexts := w.contexts.modify i f }

/-- A further context. -/
def addContext (w : World) (c : Context.State) : Nat × World :=
  (w.contexts.length, { w with contexts := w.contexts ++ [c] })

/-- A new buffer. -/
def addBuffer (w : World) : Nat × World :=
  (w.buffers.length, { w with buffers := w.buffers ++ [.empty] })

/-- Change the session. -/
def alterSession (w : World) (f : Core → Core) : World := { w with session := f w.session }

/-! ## Writing -/

/-- Record that something happened. -/
def record (w : World) (e : Event) : World :=
  if w.isMuted then w else { w with chronicle := e :: w.chronicle }

/-- What has happened since the chronicle was taken last, in order, and a world without it. -/
def takeChronicle (w : World) : List Event × World :=
  (w.chronicle.reverse, { w with chronicle := [] })

/-- What was printed since the streams were taken last. -/
def takeStreams (w : World) : Report.Streams × World := (w.streams, { w with streams := .empty })

/-- Write an entry to the transcript. -/
def writeEntry (w : World) (e : Report.Entry) : World :=
  match w.display with
  | .kept => { w with transcript := w.transcript.write e }.record (.entry e)
  | .terminal color => { w with streams := e.show color w.streams }

/-- Write a line to a sink. -/
def writeOut (w : World) (sink : Sink) (text : String) : World :=
  match sink with
  | .transcript => w.writeEntry (.output text)
  | .process => { w with streams := w.streams.outLine text }
  | .buffer i _ => { w with buffers := w.buffers.modify i fun b => b.outLine text }

/-- Write a line to the error side of a sink. -/
def writeErr (w : World) (sink : Sink) (text : String) : World :=
  match sink with
  | .transcript => w.writeEntry (.warning text)
  | .process => { w with streams := w.streams.errLine text }
  | .buffer i _ => { w with buffers := w.buffers.modify i fun b => b.errLine text }

/-- Publish a snapshot. -/
def publish (w : World) (s : Report.Snapshot) : World :=
  let (reporter, seen) := w.session.reporter.publish s
  seen.foldl (fun w x => w.record (.snapshot x.2.generation x.2.names))
    (w.alterSession fun c => { c with reporter := reporter })

end World

/-! ## Gates -/

/-- Write an entry to the transcript. -/
def write (e : Report.Entry) : Act Unit := modifyThe World (·.writeEntry e)

/-- Stay at a gate until it is opened. -/
def stopAt (gate : String) (owner : Owner) : Act Unit := do
  modifyThe World fun w => { w with atGate := (gate, owner) :: w.atGate }
  Concurrency.Thread.await fun w => w.openGates.contains gate
  modifyThe World fun w => { w with atGate := w.atGate.filter (· ≠ (gate, owner)) }

/-- The gate that a printed line names. -/
def gateOf? (text : String) : Option String :=
  let mark := "@hold ".toList
  let cs := text.toList
  if mark.isPrefixOf cs then some (String.ofList (cs.drop mark.length)) else none

/-- Whether the writers of a sink stop at gates. -/
def sinkHasGates (w : World) : Sink → Bool
  | .transcript => w.hasGates
  | .process => false
  | .buffer _ hasGates => hasGates

/-- Write a line that a script prints. -/
def printLine (sink : Sink) (owner : Owner) (text : String) : Act Unit := do
  match if sinkHasGates (← getThe World) sink then gateOf? text else none with
  | some gate => stopAt gate owner
  | none => modifyThe World (·.writeOut sink text)

end Session
end ScriptSession
