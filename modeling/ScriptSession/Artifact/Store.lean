import ScriptSession.Artifact.Repository
import ScriptSession.Session.Failure

/-!
# The kept list of repositories

A file holds the repositories a user configured. A missing file stands for the default list; a
file that holds no list is replaced by the default list when it is read. Every change reads the
list, changes it and writes it back as a whole.
-/

namespace ScriptSession
namespace Artifact

/-- The file of a list of repositories. -/
structure Store where
  path : Path
deriving DecidableEq, Repr, Inhabited

/-- An operation on the files of a host that may fail. -/
abbrev FileOperation := ExceptT Session.Failure (StateM Host)

namespace Store

/-- The file of the user's list. -/
def default? (host : Host) : Option Store :=
  host.configDirectory?.map fun dir => ⟨dir.join "repositories.json"⟩

/-- Create a directory and those it is in. -/
def makeDirectories (dir : Path) : FileOperation Unit := do
  let (failure, host) := (← getThe Host).makeDirectories dir
  set host
  match failure with
  | none => pure ()
  | some e => throw (.io e)

/-- Write a file. -/
def write (path : Path) (content : ByteArray) : FileOperation Unit := do
  match (← getThe Host).write path content with
  | .ok host => set host
  | .error e => throw (.io e)

/-- Write a list, creating the directory of the file. -/
def save (store : Store) (rs : List Repository) : FileOperation Unit := do
  match store.path.parent? with
  | some dir => makeDirectories dir
  | none => pure ()
  write store.path (Repository.listText rs).toUTF8

/-- Read the list. -/
def load (store : Store) : FileOperation (List Repository) := do
  let host ← getThe Host
  if !host.pathExists store.path then pure (Repository.defaults host)
  else
    match host.readText store.path with
    | .error e => throw (.io e)
    | .ok text =>
      match Repository.parseList? text with
      | some rs => pure rs
      | none => do
        let defaults := Repository.defaults host
        store.save defaults
        pure defaults

/-- Append a repository with a new id. -/
def add (store : Store) (r : Repository) : FileOperation (List Repository) := do
  let rs ← store.load
  if rs.any (·.id == r.id) then throw (.resolution (.duplicateRepository r.id))
  else do
    store.save (rs ++ [r])
    pure (rs ++ [r])

/-- Remove a repository; whether it was there. A list without it is not written. -/
def remove (store : Store) (id : String) : FileOperation Bool := do
  let rs ← store.load
  let kept := rs.filter fun r => r.id ≠ id
  if kept.length = rs.length then pure false
  else do
    store.save kept
    pure true

/-- Write the default list. -/
def reset (store : Store) : FileOperation (List Repository) := do
  let defaults := Repository.defaults (← getThe Host)
  store.save defaults
  pure defaults

end Store
end Artifact
end ScriptSession
