import ScriptSession.Artifact.Store
import ScriptSession.Session.Watching

/-!
# Opening a session

A session of its own has a cache, repositories and a project directory. What the settings do not
say is taken from the user's places and the working directory.
-/

namespace ScriptSession
namespace Session

/-- Run an operation on files. -/
def onFiles {α : Type} (op : Artifact.FileOperation α) : Act (Except Failure α) := do
  let (result, host) := op.run (← getThe Host)
  set host
  return result

/-- The cache that settings ask for. -/
def cacheOf (host : Host) (s : Config.SessionSettings) : Artifact.Cache :=
  ⟨s.cacheDir.getD (Artifact.Cache.defaultRoot host)⟩

/-- The repositories that settings ask for, or else those the user keeps. -/
def repositoriesOf (s : Config.SessionSettings) :
    Act (Except Failure (List Artifact.Repository)) := do
  let host ← getThe Host
  if !s.repositories.isEmpty then return .ok s.repositories
  else
    match Artifact.Store.default? host with
    | some store => onFiles store.load
    | none => return .ok (Artifact.Repository.defaults host)

/-- Begin a session with settings and what they leave open taken from the user. -/
def openUsual (s : Config.SessionSettings) : Act (Except Failure Unit) := do
  match ← repositoriesOf s with
  | .error e => return .error e
  | .ok repositories =>
    let host ← getThe Host
    let core := open_ s (cacheOf host s) (some (s.projectDir.getD host.directory)) repositories
    modifyThe World fun w => { w with session := core }
    return .ok ()

end Session
end ScriptSession
