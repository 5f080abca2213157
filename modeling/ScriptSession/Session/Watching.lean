import ScriptSession.Session.Operations

/-!
# Watching the manifest

The context is rebuilt when the manifest of the project has changed and has then been left alone
for a while. What the watcher does is a machine with two steps: a file event, a problem or a quiet
moment is taken in, and then the time decides whether a rebuild is due.
-/

namespace ScriptSession
namespace Session

open Concurrency (Thread)

/-! ## File events -/

/-- Kinds of file events. -/
inductive FileEventKind where
  | any
  | access
  | create
  | modify
  | remove
  | other
deriving DecidableEq, Repr

/-- The kind of a name. -/
def FileEventKind.ofName (name : String) : FileEventKind :=
  match name with
  | "any" => .any
  | "access" => .access
  | "create" | "create_folder" => .create
  | "modify" | "modify_data" | "rename" | "metadata" => .modify
  | "remove" => .remove
  | _ => .other

/-- Whether a kind says that files have changed. -/
def FileEventKind.isChange : FileEventKind → Bool
  | .create | .modify | .remove => true
  | _ => false

/-- The same optional path. -/
def samePath : Option Path → Option Path → Bool
  | some p, some q => p.same q
  | none, none => true
  | _, _ => false

/-- Whether a path is that of the manifest. -/
def isManifest (manifest p : Path) : Bool :=
  p.fileName? == manifest.fileName? && samePath p.parent? manifest.parent?

/-- Whether a file event changes the manifest. -/
def touchesManifest (kind : FileEventKind) (paths : List Path) (manifest : Path) : Bool :=
  kind.isChange && paths.any (isManifest manifest)

/-! ## The machine -/

/-- What the watcher takes in. -/
inductive Received where
  | event (kind : FileEventKind) (paths : List Path)
  | problem
  | quiet

/-- Since when a change waits to be acted on. -/
structure Watch where
  pendingSince : Option Nat
deriving DecidableEq, Repr

namespace Watch

/-- Nothing has changed yet. -/
def idle : Watch := ⟨none⟩

/-- Take something in at a time. -/
def receive (manifest : Path) (now : Nat) (r : Received) (w : Watch) : Watch :=
  match r with
  | .event kind paths => if touchesManifest kind paths manifest then ⟨some now⟩ else w
  | .problem | .quiet => w

/-- Whether a rebuild is due at a time. -/
def isDue (debounce now : Nat) (w : Watch) : Bool := w.pendingSince.any fun t => debounce ≤ now - t

/-- A round: what is left waiting, and whether to rebuild. -/
def round (manifest : Path) (debounce : Nat) (received now : Nat) (r : Received) (w : Watch) :
    Watch × Bool :=
  let w := w.receive manifest received r
  if w.isDue debounce now then (idle, true) else (w, false)

end Watch

/-! ## The thread -/

/-- How many milliseconds the watcher waits for an event before it looks around. -/
def pollInterval : Nat := 100

/-- How many milliseconds a manifest has to be left alone if nobody says otherwise. -/
def defaultDebounce : Nat := 500

/-- How many rounds a watcher makes at most. -/
def watchRounds : Nat := Nat.pow 2 60

/-- The next thing to take in. -/
def receiveEvent : Act Received := do
  if ← Thread.awaitFor pollInterval fun w => !w.watch.events.isEmpty then
    let w ← getThe World
    match w.watch.events with
    | [] => return .quiet
    | paths :: rest =>
      set { w with watch := { w.watch with events := rest } }
      return .event .modify paths
  else return .quiet

/-- The rounds of a watcher. -/
def watchLoop (manifest : Path) (debounce : Nat) : Nat → Watch → Act Unit
  | 0, _ => pure ()
  | n + 1, watch => do
    if (← getThe World).watch.isRunning then
      let r ← receiveEvent
      let now ← Thread.now
      let (watch, isDue) := watch.round manifest debounce now now r
      if isDue then let _ ← rebuild
      watchLoop manifest debounce n watch
    else pure ()

/-- What a watcher's thread does. -/
def watchJob (manifest : Path) (debounce : Nat) : Act Unit := do
  watchLoop manifest debounce watchRounds .idle
  modifyThe World fun w => { w with watch := { w.watch with hasLeft := true } }

/-- Why a directory cannot be watched. -/
def watchFailure (host : Host) (project : Path) : Failure :=
  .io (.other ("Failed to watch project directory: " ++ Files.Failure.missing.message ++
    " about [" ++ Text.quoted (host.absolute project).text ++ "]"))

/-- Start to watch the manifest of the project: its path. -/
def startWatching (debounce : Nat) : Act (Except Failure Path) := do
  let w ← getThe World
  match w.session.projectDir with
  | none => return .error noProject
  | some project =>
    let project := (w.host.canonical project).toOption.getD project
    if !w.host.pathExists project then return .error (watchFailure w.host project)
    let manifest := project.join Artifact.manifestFileName
    modifyThe World fun w => { w with watch := ⟨true, false, []⟩ }
    Thread.start (.watch manifest debounce)
    return .ok manifest

/-- Stop watching and wait for the watcher to leave. -/
def stopWatching : Act Unit := do
  if (← getThe World).watch.isRunning then
    modifyThe World fun w => { w with watch := { w.watch with isRunning := false } }
    Thread.await fun w => w.watch.hasLeft

/-- A file has changed; a watcher will hear of it. -/
def announce (p : Path) : Act Unit :=
  modifyThe World fun w =>
    if w.watch.isRunning then
      let dir := p.parent?.bind fun d => (w.host.canonical d).toOption
      let place := match dir, p.fileName? with
        | some d, some name => d.join name
        | _, _ => w.host.absolute p
      { w with watch := { w.watch with events := w.watch.events ++ [[place]] } }
    else w

end Session
end ScriptSession
