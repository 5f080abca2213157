import ScriptSession.Session.World

/-!
# Records

What happens in a session and what is found there, as JSON, for programs that follow a session
rather than read its transcript. A failure is recorded with its kind, its text and what can be
told apart about it; a value with its type and its text.
-/

namespace ScriptSession

/-- Texts as JSON. -/
def Json.ofTexts (ts : List String) : Json.Value := .array (ts.map .ofString)

/-- An optional thing as JSON. -/
def Json.ofOption {α : Type} (f : α → Json.Value) : Option α → Json.Value
  | some a => f a
  | none => .null

/-! ## Values -/

/-- The type and the text of a value. -/
def Script.Value.record (v : Script.Value) : Json.Value := Json.ofTexts [v.typeName, v.display]

mutual

/-- The value that a JSON document stands for. A number is an integer if it is one of 64 bits. -/
def Script.Value.ofJson : Json.Value → Script.Value
  | .null => .unit
  | .bool b => .bool b
  | .number l =>
    match l.toInt? with
    | some n =>
      if Script.Value.fits n then .int n else .float (Decimal.ofLiteral l.toList)
    | none => .float (Decimal.ofLiteral l.toList)
  | .text s => .text (s.getD "")
  | .array items => .array (Script.Value.ofItems items)
  | .object fields => .ofFields (Script.Value.ofMembers fields)

/-- The values of items. -/
def Script.Value.ofItems : List Json.Value → List Script.Value
  | [] => []
  | v :: rest => Script.Value.ofJson v :: Script.Value.ofItems rest

/-- The values of members whose names are texts. -/
def Script.Value.ofMembers : List (Option String × Json.Value) → List (String × Script.Value)
  | [] => []
  | (some name, v) :: rest => (name, Script.Value.ofJson v) :: Script.Value.ofMembers rest
  | (none, _) :: rest => Script.Value.ofMembers rest

end

/-- A snapshot with its rows. -/
def Report.Snapshot.record (s : Report.Snapshot) : Json.Value :=
  .record [("generation", .ofNat s.generation),
    ("rows", .array (s.rows.map fun (name, type, value) => Json.ofTexts [name, type, value]))]

/-! ## Artifacts -/

namespace Artifact

/-- The kind of a failure. -/
def Failure.name : Failure → String
  | .notFound .. => "NotFound"
  | .fetch .. => "Fetch"
  | .cache .. => "Cache"
  | .manifest .. => "Manifest"
  | .invalidCoordinate _ => "InvalidCoordinate"
  | .duplicateRepository _ => "DuplicateRepository"
  | .client _ => "Client"

/-- The coordinate behind a failure, if there is one. -/
def Failure.coordinateField (e : Failure) : List (String × Json.Value) :=
  (e.coordinate?.map fun c => ("coordinate", .ofString c.text)).toList

/-- A failure. -/
def Failure.record (e : Failure) : Json.Value :=
  .record ([("error", .ofString e.name), ("message", .ofString e.message)] ++ e.coordinateField)

/-- A coordinate with all that is made of it. -/
def Coordinate.record (c : Coordinate) : Json.Value :=
  .record [("group", .ofString c.group), ("artifact", .ofString c.artifact),
    ("version", .ofString c.version), ("display", .ofString c.text),
    ("sub_dir", .ofString c.directory.text), ("file_name", .ofString c.fileName),
    ("relative_path", .ofString c.relativePath.text), ("url_path", .ofString c.urlPath)]

/-- A repository as id, kind and address. -/
def Repository.row (r : Repository) : Json.Value := Json.ofTexts [r.id, r.kind, r.address]

/-- A location. -/
def CodeLocation.record : CodeLocation → Json.Value
  | .directory p => .record [("dir", .ofString p.text)]
  | .artifact c p => .record [("coordinate", .ofString c.text), ("path", .ofString p.text)]

/-- What became of a purge. -/
def PurgeOutcome.name : PurgeOutcome → String
  | .removed => "Removed"
  | .notCached => "NotCached"
  | .deferred => "Deferred"

/-- A cached artifact as path and size. -/
def CachedArtifact.row (a : CachedArtifact) : Json.Value :=
  .array [.ofString a.path.text, .ofNat a.size]

/-- A manifest. -/
def Manifest.fields (m : Manifest) : List (String × Json.Value) :=
  [("repositories", .array (m.repositories.map Repository.row)),
    ("dependencies", Json.ofTexts (m.dependencies.map (·.text))),
    ("manifest_file", Json.ofOption (fun p => .ofString p.text) m.manifestFile)]

end Artifact

/-! ## Failures -/

/-- What can be told about a fault. -/
def Evaluation.Fault.fields (f : Evaluation.Fault) : List (String × Json.Value) :=
  [("kind", .ofString f.kind.name), ("prefix", .ofString f.kind.prefixText),
    ("message", .ofString f.message), ("display", .ofString f.text),
    ("single_line", .ofString f.singleLine), ("has_cause", .bool f.cause.isSome)]

namespace Session

/-- The kind of a failure. -/
def Failure.name : Failure → String
  | .prematureInit _ => "PrematureInit"
  | .engineNotReady => "EngineNotReady"
  | .evaluation _ => "Evaluation"
  | .queueFull _ => "QueueFull"
  | .interrupted _ => "Interrupted"
  | .taskFailed _ => "TaskFailed"
  | .contextInUse _ => "ContextInUse"
  | .resolution _ => "Resolution"
  | .config _ => "ConfigError"
  | .io _ => "Io"

/-- What can be told apart about a failure. -/
def Failure.details : Failure → List (String × Json.Value)
  | .evaluation f => [("fault", .ofString f.kind.name), ("engine_error", .bool f.cause.isSome)]
  | .resolution cause => ("cause", .ofString cause.name) :: cause.coordinateField
  | _ => []

/-- A failure. -/
def Failure.record (e : Failure) : Json.Value :=
  .record ([("error", .ofString e.name), ("message", .ofString e.message)] ++ e.details)

end Session

/-! ## Reports -/

namespace Report

/-- An entry of a transcript. -/
def Entry.record : Entry → Json.Value
  | .output text => Json.ofTexts ["out", text]
  | .warning text => Json.ofTexts ["warn", text]
  | .prompt => Json.ofTexts ["prompt"]

/-- What was printed, on the output and on the error stream. -/
def Streams.record (s : Streams) : Json.Value := Json.ofTexts [s.out, s.err]

/-- What a transcript holds, by kind. -/
def Transcript.fields (t : Transcript) : List (String × Json.Value) :=
  [("outputs", Json.ofTexts t.outputs), ("warnings", Json.ofTexts t.warnings),
    ("prompts", .ofNat t.promptCount)]

/-- The result of a test. -/
def TestResult.record (r : TestResult) : Json.Value :=
  .record [("title", .ofString r.title), ("outcome", .ofString r.outcome.name),
    ("out", .ofString r.out), ("err", .ofString r.err),
    ("issue", Json.ofOption .ofString r.issue), ("banner", .ofString r.banner),
    ("fault", Json.ofOption (fun f => (Session.Failure.evaluation f).record) r.fault)]

/-- A run of tests: its results, how many of each outcome there are, and its summary. -/
def TestRun.fields (r : TestRun) : List (String × Json.Value) :=
  [("results", .array (r.results.map (·.record))), ("all_passed", .bool r.allPassed),
    ("summary", .ofString r.summaryLine),
    ("counts",
      .array ([TestOutcome.success, .failure, .error].map fun o => .ofNat (r.count o)))]

end Report

/-! ## Tasks and contexts -/

/-- What is known of a task. -/
def Task.Control.fields (c : Task.Control) : List (String × Json.Value) :=
  [("id", .ofNat c.id), ("title", .ofString c.title), ("cancelled", .bool c.isCancelled),
    ("waiting", .bool c.isWaiting), ("exit", .ofString c.exit.name)]

/-- What is known of a context. -/
def Context.State.fields (c : Context.State) : List (String × Json.Value) :=
  [("generation", .ofNat c.generation), ("used", .bool c.isUsed)]

/-! ## Events -/

/-- What has happened. -/
def Session.Event.record : Session.Event → Json.Value
  | .entry e => e.record
  | .started name => Json.ofTexts ["started", name]
  | .ended name => Json.ofTexts ["ended", name]
  | .snapshot generation names =>
    .array [.ofString "snapshot", .ofNat generation, Json.ofTexts names]
  | .fetch repository c => Json.ofTexts ["fetch", repository, c.text]
  | .unresolved cause => .array [.ofString "failed", cause.record]
  | .began name => Json.ofTexts ["run", name]
  | .resumed name isCancelled => .array [.ofString "resumed", .ofString name, .bool isCancelled]

end ScriptSession
