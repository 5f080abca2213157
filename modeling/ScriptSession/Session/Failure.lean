import ScriptSession.Artifact.Failure
import ScriptSession.Evaluation.Fault

/-!
# Session failures

What a session answers instead of a value.
-/

namespace ScriptSession
namespace Session

/-- Why a session could not do what it was asked. -/
inductive Failure where
  | prematureInit (reason : String)
  | engineNotReady
  | evaluation (fault : Evaluation.Fault)
  | queueFull (title : String)
  | interrupted (what : String)
  | taskFailed (message : String)
  | contextInUse (generation : Nat)
  | resolution (cause : Artifact.Failure)
  | config (message : String)
  | io (cause : Files.Failure)
deriving Repr

namespace Failure

/-- The text of a failure. -/
def message : Failure → String
  | .prematureInit reason => "Context built before initialization completed: " ++ reason
  | .engineNotReady =>
    "Script engine not ready: the session is still starting up, retry shortly"
  | .evaluation fault => fault.text
  | .queueFull title => "Execution queue is full: " ++ title ++ " is already waiting"
  | .interrupted what => "Task interrupted: " ++ what
  | .taskFailed message => "Task failed: " ++ message
  | .contextInUse generation =>
    "Context generation " ++ toString generation ++
      " has already been used and cannot be augmented"
  | .resolution cause => "Resolution error: " ++ cause.message
  | .config message => "Configuration error: " ++ message
  | .io cause => "I/O error: " ++ cause.message

/-- The evaluation fault behind a failure. -/
def fault? : Failure → Option Evaluation.Fault
  | .evaluation fault => some fault
  | _ => none

/-- The failure as the command line shows it. -/
def forCommandLine : Failure → String
  | .prematureInit reason =>
    (Failure.prematureInit reason).message ++ " (is --workspace a directory?)"
  | .config message => "Invalid configuration: " ++ message
  | f => f.message

end Failure
end Session
end ScriptSession
