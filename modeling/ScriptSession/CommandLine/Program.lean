import ScriptSession.CommandLine.Execution
import ScriptSession.CommandLine.Help
import ScriptSession.Config.Log

/-!
# The program

The whole of a run: the command line is read, settings are loaded, the log is set up, the command
is carried out, and what could not be deleted before is deleted. The result is an exit code; what
is printed is in the streams of the world.
-/

namespace ScriptSession
namespace CommandLine

open Config (Log Severity)
open Session (Act Failure World)

/-! ## Printing -/

/-- Print a line. -/
def printLine (text : String) : Act Unit :=
  modifyThe World fun w => { w with streams := w.streams.outLine text }

/-- Print a line on the error stream. -/
def complain (text : String) : Act Unit :=
  modifyThe World fun w => { w with streams := w.streams.errLine text }

/-- Log that something happened at a place. -/
def note (log : Log) (severity : Severity) (place message : String) : Act Unit :=
  modifyThe World fun w =>
    let (host, streams) := log.write severity place message w.host w.streams
    { w with host := host, streams := streams }

/-! ## Exits -/

/-- The exit code of a run. -/
inductive ExitCode where
  | success
  | failure
  | usage
deriving DecidableEq, Repr

/-- The number of an exit code. -/
def ExitCode.number : ExitCode → Nat
  | .success => 0
  | .failure => 1
  | .usage => 2

/-- End with a failure. -/
def exitWith (log : Log) (e : Failure) (what : String) : Act ExitCode := do
  note log .error "rivet" (what ++ " error=" ++ e.message)
  complain e.forCommandLine
  return .failure

/-- Answer a command line that is not carried out. -/
def refuse : Refusal → Act ExitCode
  | .help path => do
    let text := (helpFor? path).getD (grammar.helpText [])
    modifyThe World fun w => { w with streams := w.streams.putOut text }
    return .success
  | .version => do
    printLine (Host.applicationName ++ " " ++ Session.version)
    return .success
  | .nothingGiven => do
    modifyThe World fun w => { w with streams := w.streams.putErr (grammar.helpText []) }
    return .usage
  | r => do
    complain r.message
    return .usage

/-! ## Running -/

/-- Carry out a command line whose log is set up. -/
def runLogged (log : Log) (i : Invocation) (loaded : Except Failure Config.Settings) :
    Act ExitCode := do
  note log .info "rivet" "Rivet CLI starting"
  let host ← getThe Host
  match loaded.bind (workspaceSettings host i.workspace) with
  | .error e => exitWith log e "Error loading configuration"
  | .ok s => do
    let result ← (carryOut s i.command).run
    note log .info "rivet" "Command finished"
    let _ ← Session.runDeletions
    match result with
    | .ok text => do
      unless text.isEmpty do printLine text
      return .success
    | .error e => exitWith log e "Command failed"

/-- Run the program with the words behind its name. -/
def run (words : List String) : Act ExitCode := do
  match Invocation.parse words with
  | .error r => refuse r
  | .ok i => do
    let host ← getThe Host
    let loaded := i.load host
    match Log.setUp host (i.logging host (loaded.toOption.map (·.logging))) with
    | .error e => do
      complain ("Failed to initialize logging: " ++ e.message)
      return .failure
    | .ok (log, host) => do
      set host
      runLogged log i loaded

end CommandLine
end ScriptSession
