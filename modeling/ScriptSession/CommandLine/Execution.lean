import ScriptSession.CommandLine.Command
import ScriptSession.CommandLine.Listing
import ScriptSession.Config.Layers
import ScriptSession.Session.Jobs
import ScriptSession.Session.Opening

/-!
# Carrying out commands

Every command works on a workspace, that is on checked settings with a project directory. Commands
that run scripts open a session for themselves; what the session says goes to the terminal, and
what the command comes to is a text.
-/

namespace ScriptSession
namespace CommandLine

open Config (Settings)
open Session (Act Failure World)

/-! ## Workspaces -/

/-- Load the settings of a command line: of the file that it names, or of its workspace. -/
def Invocation.load (host : Host) (i : Invocation) : Except Failure Settings :=
  let loaded := match i.config with
    | some file => Config.loadFile? host file
    | none => Config.load? host i.workspace
  match loaded with
  | some s => .ok s
  | none => .error (.config "configuration could not be loaded")

/-- Check settings and settle the project directory, which is the workspace unless the settings
name one. -/
def workspaceSettings (host : Host) (workspace : Path) (s : Settings) : Except Failure Settings :=
  match s.violations with
  | [] =>
    let project := s.session.projectDir.getD ((host.canonical workspace).toOption.getD workspace)
    .ok { s with session := { s.session with projectDir := some project } }
  | vs => .error (.config ("; ".intercalate (vs.map (·.text))))

/-! ## Sessions -/

/-- Open a session that speaks to the terminal. -/
def openSession (s : Settings) : Act (Except Failure Unit) := do
  modifyThe World fun w => { w with display := .terminal s.logging.color }
  Session.openUsual s.session

/-- Open a session and build its first context. -/
def openWithContext (s : Settings) : ExceptT Failure Act Unit := do
  ExceptT.mk (openSession s)
  let _ ← ExceptT.mk Session.rebuildBlocking

/-! ## The interactive session -/

/-- What the interactive session says when asked for help. -/
def replHelp : String :=
  "Session commands:\n" ++
  "  :help       Show this help\n" ++
  "  :vars       Show the session bindings\n" ++
  "  :restart    Rebuild the context from scratch\n" ++
  "  :quit       Leave the session\n" ++
  "Anything else is evaluated as a script."

/-- What a line asks for. -/
inductive Line where
  | blank
  | quit
  | help
  | bindings
  | restart
  | script (text : String)
deriving DecidableEq, Repr

/-- What a line asks for. Blanks around it do not matter. -/
def Line.parse (line : String) : Line :=
  match Text.trim line with
  | "" => .blank
  | ":quit" | ":q" => .quit
  | ":help" => .help
  | ":vars" => .bindings
  | ":restart" => .restart
  | text => .script text

/-- The next line of the input, once it is there; nothing at the end of the input. -/
def nextLine : Act (Option String) := do
  Concurrency.Thread.await fun w => !w.input.isEmpty || !w.isInputOpen
  let w ← getThe World
  match w.input with
  | [] => return none
  | line :: rest =>
    set { w with input := rest }
    return some line

/-- Evaluate a line as a script and wait for it. -/
def evaluateLine (text : String) : Act Unit := do
  match ← Session.evaluateAsync text "repl" none [] with
  | .ok id => let _ ← Session.join id
  | .error e =>
    Session.write (.warning e.message)
    Session.write .prompt

/-- Restart the session and wait for its context. -/
def restartSession : ExceptT Failure Act Unit := do
  let id ← ExceptT.mk Session.restart
  let _ ← ExceptT.mk (Session.join id)

/-- Show an output and prompt. -/
def answerLine (text : String) : Act Unit := do
  Session.write (.output text)
  Session.write .prompt

/-- Do what a line asks for, and whether to go on. -/
def obey : Line → ExceptT Failure Act Bool
  | .blank => do
    Session.write .prompt
    return true
  | .quit => return false
  | .help => do
    answerLine replHelp
    return true
  | .bindings => do
    let latest := (← getThe World).session.reporter.latest
    answerLine ((latest.map snapshotTable).getD noBindings)
    return true
  | .restart => do
    restartSession
    Session.write .prompt
    return true
  | .script text => do
    evaluateLine text
    return true

/-- How many lines an interactive session takes at most. -/
def lineSupply : Nat := Nat.pow 2 60

/-- Take lines until one asks to leave or the input ends. -/
def readLines : Nat → ExceptT Failure Act Unit
  | 0 => return ()
  | n + 1 => do
    match ← nextLine with
    | none => return ()
    | some line => if ← obey (.parse line) then readLines n

/-- Watch the manifest, or say why that is not possible. -/
def watchManifest : Act Unit := do
  match ← Session.startWatching Session.defaultDebounce with
  | .ok _ => pure ()
  | .error e => Session.write (.warning ("Not watching the manifest: " ++ e.message))

/-- The lines of an interactive session between its opening and its end. -/
def converse : ExceptT Failure Act Unit := do
  Session.write .prompt
  readLines lineSupply
  Session.shutdown

/-- An interactive session. -/
def runRepl (s : Settings) (watches : Bool) : ExceptT Failure Act String := do
  openWithContext s
  if watches || s.session.watchesManifest then watchManifest
  let result ← ExceptT.lift converse.run
  Session.stopWatching
  ExceptT.mk (pure result)
  return ""

/-! ## Scripts and tests -/

/-- The text of a file. -/
def textOfFile (file : Path) : ExceptT Failure Act String := do
  match (← getThe Host).readText file with
  | .ok text => return text
  | .error e => throw (.io e)

/-- Evaluate a file and show its value. -/
def runFile (s : Settings) (file : Path) : ExceptT Failure Act String := do
  let script ← textOfFile file
  openWithContext s
  let result ← ExceptT.lift (Session.evaluate script [])
  Session.shutdown
  let v ← ExceptT.mk (pure result)
  return if v.isUnit then "" else v.display

/-- The test in a file, which is called after it. -/
def testOfFile (file : Path) : ExceptT Failure Act Report.TestCase := do
  let script ← textOfFile file
  return ⟨file.stem?.getD file.text, script⟩

/-- Run the tests in files. A test that does not succeed makes the command fail. -/
def runTestFiles (s : Settings) (files : List Path) : ExceptT Failure Act String := do
  let cases ← files.mapM testOfFile
  openWithContext s
  let result ← ExceptT.lift (Session.runTests cases)
  Session.shutdown
  let run ← ExceptT.mk (pure result)
  if run.allPassed then return "" else throw (.taskFailed run.summaryLine)

/-! ## Repositories, the cache and dependencies -/

/-- Run an operation on the list of repositories that the user keeps. -/
def onStore {α : Type} (op : Artifact.Store → Artifact.FileOperation α) :
    ExceptT Failure Act α := do
  match Artifact.Store.default? (← getThe Host) with
  | some store => ExceptT.mk (Session.onFiles (op store))
  | none => throw (.config "no configuration directory for the repository list")

/-- Remove one artifact from the cache. -/
def purge (s : Settings) (coordinate : String) : ExceptT Failure Act String := do
  match Artifact.Coordinate.parse coordinate with
  | .error e => throw (.resolution e)
  | .ok c =>
    let w ← getThe World
    let (outcome, host, deletions) :=
      (Session.cacheOf w.host s.session).purge c w.host w.deletions
    set { w with host := host, deletions := deletions }
    return match outcome with
      | .removed => "Purged " ++ c.text
      | .notCached => c.text ++ " is not cached"
      | .deferred => c.text ++ " is in use; it will be removed when rivet exits"

/-- The locations of the dependencies. -/
def resolveAll (s : Settings) : ExceptT Failure Act (List Artifact.CodeLocation) := do
  ExceptT.mk (openSession s)
  let (owner, w) := (← getThe World).addLoose "resolve"
  set w
  ExceptT.mk (Session.resolve owner w.session.manifest)

/-! ## All commands -/

/-- Carry out a command: the text it comes to. -/
def carryOut (s : Settings) : Command → ExceptT Failure Act String
  | .repl watches => runRepl s watches
  | .run file => runFile s file
  | .test files => runTestFiles s files
  | .listRepositories format => do
    return showRepositories (.ofName format) (← onStore (·.load))
  | .addRepository id address kind => do
    let rs ← onStore (·.add ⟨id, kind, address⟩)
    return "Added repository '" ++ id ++ "' (" ++ toString rs.length ++ " configured)"
  | .removeRepository id => do
    return if ← onStore (·.remove id) then "Removed repository '" ++ id ++ "'"
      else "Repository '" ++ id ++ "' not found"
  | .resetRepositories => do return repositoryTable (← onStore (·.reset))
  | .listCache => do
    let host ← getThe Host
    return cacheTable ((Session.cacheOf host s.session).entries host)
  | .purgeCache coordinate => purge s coordinate
  | .resolve format => do return showLocations (.ofName format) (← resolveAll s)

/-- Carry out a command line with the settings that were loaded for it. -/
def Invocation.execute (i : Invocation) (loaded : Settings) : Act (Except Failure String) := do
  match workspaceSettings (← getThe Host) i.workspace loaded with
  | .error e => return .error e
  | .ok s => (carryOut s i.command).run

end CommandLine
end ScriptSession
