import ScriptSession.Artifact.Repository
import ScriptSession.Toml.Document

/-!
# Manifests

What to resolve and where from: repositories in order, coordinates in order, and perhaps a
manifest file in the project that adds to both. What the file declares comes first, and of two
declarations of one repository the first one counts.
-/

namespace ScriptSession
namespace Artifact

/-- The name of the manifest file of a project. -/
def manifestFileName : String := "rivet.toml"

/-- Repositories, the coordinates to resolve against them, and the file that adds to both. -/
structure Manifest where
  repositories : List Repository
  dependencies : List Coordinate
  manifestFile : Option Path
deriving DecidableEq, Repr, Inhabited

/-- What a manifest file declares. -/
structure ManifestFile where
  repositories : List Repository
  dependencies : List Coordinate
deriving DecidableEq, Repr, Inhabited

namespace Manifest

/-- Nothing to resolve. -/
def empty : Manifest := ⟨[], [], none⟩

/-- The first id that an earlier repository already has. -/
def firstDuplicate (seen : List String) : List Repository → Option String
  | [] => none
  | r :: rest => if seen.contains r.id then some r.id else firstDuplicate (r.id :: seen) rest

/-- Ids have to be unique. -/
def validate (m : Manifest) : Except Failure Unit :=
  match firstDuplicate [] m.repositories with
  | some id => .error (.duplicateRepository id)
  | none => .ok ()

/-- Append the repositories whose ids are not there yet. -/
def addRepositories (kept : List Repository) (more : List Repository) : List Repository :=
  more.foldl (fun acc r => if acc.any (·.id == r.id) then acc else acc ++ [r]) kept

/-- Append the coordinates that are not there yet. -/
def addDependencies (kept : List Coordinate) (more : List Coordinate) : List Coordinate :=
  more.foldl (fun acc c => if acc.contains c then acc else acc ++ [c]) kept

/-- The manifest with a manifest file on top of it. -/
def mergedWith (m : Manifest) (file : ManifestFile) : Manifest where
  repositories := addRepositories file.repositories m.repositories
  dependencies := addDependencies file.dependencies m.dependencies
  manifestFile := m.manifestFile

end Manifest

namespace ManifestFile

/-- What a malformed file is reported with. -/
def malformed : String := "TOML parse error"

/-- A text value. -/
def text? : Toml.Value → Option String
  | .text s => some s
  | _ => none

/-- A repository as a table, or as an array of id, kind and address. -/
def repository? : Toml.Value → Option Repository
  | .table fields => do
    let v := Toml.Value.table fields
    let kind ← match v.field? "kind" with
      | some k => text? k
      | none => some Repository.defaultKind
    some ⟨← text? (← v.field? "id"), kind, ← text? (← v.field? "address")⟩
  | .array (id :: kind :: address :: _) => do
    some ⟨← text? id, ← text? kind, ← text? address⟩
  | _ => none

/-- A coordinate as a text. -/
def coordinate? (v : Toml.Value) : Option Coordinate := (text? v).bind Coordinate.parse?

/-- A list under a name. A missing name stands for the empty list. -/
def list? {α : Type} (item? : Toml.Value → Option α) (name : String) (v : Toml.Value) :
    Option (List α) :=
  match v.field? name with
  | none => some []
  | some (.array items) => items.mapM item?
  | some _ => none

/-- What the text of a manifest file declares. -/
def parse? (text : String) : Option ManifestFile := do
  let v ← Toml.parse text
  some ⟨← list? repository? "repositories" v, ← list? coordinate? "dependencies" v⟩

/-- Read a manifest file. -/
def load (host : Host) (path : Path) : Except Failure ManifestFile :=
  match host.readText path with
  | .error e => .error (.manifest path e.message)
  | .ok text =>
    match parse? text with
    | some file => .ok file
    | none => .error (.manifest path malformed)

end ManifestFile
end Artifact
end ScriptSession
