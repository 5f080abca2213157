import ScriptSession.Artifact.Cache
import ScriptSession.Artifact.Resolution
import ScriptSession.Json.Writer
import ScriptSession.Report.Snapshot
import ScriptSession.Text.Table

/-!
# Listings

How lists are shown on a terminal: as a table, or as JSON whose fields are sorted by name. An
empty list has a sentence of its own.
-/

namespace ScriptSession
namespace CommandLine

open Artifact (CachedArtifact CodeLocation Repository)

/-- How a list is to be shown. -/
inductive ListFormat where
  | table
  | json
deriving DecidableEq, Repr

/-- The format of a name. Every other name means a table. -/
def ListFormat.ofName (name : String) : ListFormat := if name = "json" then .json else .table

/-! ## Repositories -/

/-- Repositories as a table with their number below. -/
def repositoryTable (rs : List Repository) : String :=
  if rs.isEmpty then
    "No repositories configured.\n\nUse 'rivet repos reset' to restore the defaults."
  else
    let row (r : Repository) (i : Nat) : List String := [toString (i + 1), r.id, r.kind, r.address]
    let table : Text.Table := ⟨["#", "Id", "Kind", "Address"], rs.zipIdx.map fun (r, i) => row r i⟩
    table.render ++ "\n\nTotal: " ++ toString rs.length ++ " repositories"

/-- A repository with its fields sorted by name. -/
def repositoryRecord (r : Repository) : Json.Value :=
  .record [("address", .ofString r.address), ("id", .ofString r.id), ("kind", .ofString r.kind)]

/-- Repositories as JSON. -/
def repositoryJson (rs : List Repository) : String :=
  (Json.Value.record [("repositories", .array (rs.map repositoryRecord)),
    ("total", .ofNat rs.length)]).pretty

/-- Repositories in a format. -/
def showRepositories (format : ListFormat) (rs : List Repository) : String :=
  match format with
  | .table => repositoryTable rs
  | .json => repositoryJson rs

/-! ## The cache -/

/-- Cached artifacts with their sizes. -/
def cacheTable (entries : List CachedArtifact) : String :=
  if entries.isEmpty then "Artifact cache is empty."
  else
    (Text.Table.mk ["Artifact", "Size"]
      (entries.map fun e => [e.path.text, toString e.size ++ " B"])).render

/-! ## Code locations -/

/-- What a location stands for. -/
def locationName : CodeLocation → String
  | .directory _ => "(directory)"
  | .artifact c _ => c.text

/-- Locations as a table. -/
def locationTable (ls : List CodeLocation) : String :=
  if ls.isEmpty then "No dependencies resolved."
  else
    (Text.Table.mk ["Dependency", "Location"]
      (ls.map fun l => [locationName l, l.path.text])).render

/-- A location as a record. -/
def locationRecord : CodeLocation → Json.Value
  | .directory p => .record [("directory", .ofString p.text)]
  | .artifact c p => .record [("coordinate", .ofString c.text), ("path", .ofString p.text)]

/-- Locations as JSON. -/
def locationJson (ls : List CodeLocation) : String :=
  (Json.Value.record [("locations", .array (ls.map locationRecord))]).pretty

/-- Locations in a format. -/
def showLocations (format : ListFormat) (ls : List CodeLocation) : String :=
  match format with
  | .table => locationTable ls
  | .json => locationJson ls

/-! ## Snapshots -/

/-- What is said of a session without bindings. -/
def noBindings : String := "No session bindings."

/-- A snapshot as a table. -/
def snapshotTable (s : Report.Snapshot) : String :=
  if s.rows.isEmpty then noBindings
  else (Text.Table.mk ["Name", "Type", "Value"] (s.rows.map fun (n, t, v) => [n, t, v])).render

end CommandLine
end ScriptSession
