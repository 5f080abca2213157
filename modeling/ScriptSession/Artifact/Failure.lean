import ScriptSession.Artifact.Coordinate
import ScriptSession.Files.Tree
import ScriptSession.Text.Quoted

/-!
# Resolution failures

Why an artifact or a manifest could not be had. A rebuild reports these and goes on without the
artifacts, so none of them is fatal.
-/

namespace ScriptSession
namespace Artifact

/-- Why resolution failed. -/
inductive Failure where
  | notFound (coordinate : Coordinate) (repositories : List String)
  | fetch (coordinate : Coordinate) (repository message : String)
  | cache (coordinate : Coordinate) (cause : Files.Failure)
  | manifest (path : Path) (message : String)
  | invalidCoordinate (text : String)
  | duplicateRepository (id : String)
  | client (message : String)
deriving DecidableEq, Repr

namespace Failure

/-- A path between double quotes. -/
def quotedPath (p : Path) : String := Text.quoted p.text

/-- The text of a failure. -/
def message : Failure → String
  | .notFound c repositories =>
    "Artifact " ++ c.text ++ " not found in repositories [" ++ ", ".intercalate repositories ++ "]"
  | .fetch c repository message =>
    "Failed to fetch " ++ c.text ++ " from repository '" ++ repository ++ "': " ++ message
  | .cache c cause => "Failed to cache " ++ c.text ++ ": " ++ cause.message
  | .manifest path message => "Invalid manifest " ++ quotedPath path ++ ": " ++ message
  | .invalidCoordinate text =>
    "Invalid coordinate '" ++ text ++ "' (expected group:artifact:version)"
  | .duplicateRepository id => "Duplicate repository id '" ++ id ++ "' in manifest"
  | .client message => "Repository client error: " ++ message

/-- The coordinate that led to the failure. -/
def coordinate? : Failure → Option Coordinate
  | .notFound c _ | .fetch c _ _ | .cache c _ => some c
  | _ => none

/-- The warning a session writes about a failure. -/
def warning (f : Failure) : String :=
  match f.coordinate? with
  | some c => "Failed to resolve dependency: " ++ c.text ++ " (" ++ f.message ++ ")"
  | none => "Failed to resolve dependencies: " ++ f.message

end Failure

/-- Read a coordinate or say what is wrong with it. -/
def Coordinate.parse (s : String) : Except Failure Coordinate :=
  match Coordinate.parse? s with
  | some c => .ok c
  | none => .error (.invalidCoordinate s)

end Artifact
end ScriptSession
