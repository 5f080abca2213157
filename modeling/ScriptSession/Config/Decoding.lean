import ScriptSession.Config.Settings
import ScriptSession.Toml.Value

/-!
# Decoding settings

Settings come from JSON documents, which are taken by the letter, and from layers of files and
variables, which are taken more freely: a variable can only hold a text, so a text can stand for
a truth value and a number for a text. Both are read by the same functions; what differs is
collected in a decoder. A setting that is missing has its default.
-/

namespace ScriptSession
namespace Config

/-- How the values of a kind of document are read. A record can also be given as the array of its
fields in their order, from which fields at the end may be missing. -/
structure Decoder (V : Type) where
  fields? : List String → V → Option (List (String × V))
  items? : V → Option (List V)
  bool? : V → Option Bool
  text? : V → Option String
  isAbsent : V → Bool
  resolver? : V → Option Artifact.Strategy
  repository? : V → Option Artifact.Repository

namespace Decoder

variable {V : Type} (d : Decoder V)

/-- A setting that has a default. -/
def setting {α : Type} (read : V → Option α) (default : α) (name : String)
    (fields : List (String × V)) : Option α :=
  match fields.find? fun f => f.1 = name with
  | some f => read f.2
  | none => some default

/-- An optional path. -/
def path? (v : V) : Option (Option Path) :=
  if d.isAbsent v then some none else (d.text? v).map fun s => some ⟨s⟩

/-- A list. -/
def list? {α : Type} (read : V → Option α) (v : V) : Option (List α) := do
  (← d.items? v).mapM read

/-- The names of the settings of a session. -/
def sessionNames : List String := [
  "use_manifest_resolution", "resolver", "include_local_build_output", "build_output_dirs",
  "install_dir", "project_dir", "module_dirs", "repositories", "dependencies", "autorun_global",
  "autorun_project", "cache_dir", "watch_manifest"]

/-- The settings of a session. -/
def session? (v : V) : Option SessionSettings := do
  let fs ← d.fields? sessionNames v
  let s := SessionSettings.default
  some {
    usesManifest := ← setting d.bool? s.usesManifest "use_manifest_resolution" fs
    resolver := ← setting d.resolver? s.resolver "resolver" fs
    includesBuildOutput := ← setting d.bool? s.includesBuildOutput "include_local_build_output" fs
    buildOutputDirs := ← setting (d.list? d.text?) s.buildOutputDirs "build_output_dirs" fs
    installDir := ← setting d.path? none "install_dir" fs
    projectDir := ← setting d.path? none "project_dir" fs
    moduleDirs := ← setting (d.list? fun v => (d.text? v).map Path.mk) [] "module_dirs" fs
    repositories := ← setting (d.list? d.repository?) [] "repositories" fs
    dependencies := ←
      setting (d.list? fun v => (d.text? v).bind Artifact.Coordinate.parse?) [] "dependencies" fs
    autorunGlobal := ← setting d.bool? s.autorunGlobal "autorun_global" fs
    autorunProject := ← setting d.bool? s.autorunProject "autorun_project" fs
    cacheDir := ← setting d.path? none "cache_dir" fs
    watchesManifest := ← setting d.bool? s.watchesManifest "watch_manifest" fs }

/-- The levels of modules, sorted by module. -/
def levels? (v : V) : Option (List (String × String)) := do
  let levels ← (← d.fields? [] v).mapM fun (name, level) => do some (name, ← d.text? level)
  some (levels.mergeSort fun a b => !(b.1 < a.1))

/-- The names of logging settings. -/
def loggingNames : List String := ["level", "format", "output", "file", "color", "modules"]

/-- Logging settings. -/
def logging? (host : Host) (v : V) : Option LoggingSettings := do
  let fs ← d.fields? loggingNames v
  let s := LoggingSettings.default host
  some {
    level := ← setting d.text? s.level "level" fs
    format := ← setting d.text? s.format "format" fs
    output := ← setting d.text? s.output "output" fs
    file := ← setting (fun v => (d.text? v).map Path.mk) s.file "file" fs
    color := ← setting d.bool? s.color "color" fs
    modules := ← setting d.levels? s.modules "modules" fs }

/-- Settings. -/
def settings? (host : Host) (v : V) : Option Settings := do
  let fs ← d.fields? ["session", "logging"] v
  some ⟨← setting d.session? .default "session" fs,
    ← setting (d.logging? host) (.default host) "logging" fs⟩

end Decoder

/-! ## JSON documents -/

/-- The fields of a JSON object whose names are texts, or of an array with a value for some of the
names. -/
def jsonFields? (names : List String) : Json.Value → Option (List (String × Json.Value))
  | .object fields => fields.reverse.mapM fun f => f.1.map fun name => (name, f.2)
  | .array items =>
    if !names.isEmpty && items.length ≤ names.length then some (names.zip items) else none
  | _ => none

/-- Whether a JSON value is null. -/
def isNull : Json.Value → Bool
  | .null => true
  | _ => false

/-- A strategy by its name, or as an object with that name and null. -/
def strictResolver? : Json.Value → Option Artifact.Strategy
  | .object [(some name, .null)] => resolverOfName? name
  | v => v.string?.bind resolverOfName?

/-- Reads JSON by the letter. -/
def strict : Decoder Json.Value where
  fields? := jsonFields?
  items? := Json.Value.items?
  bool? := Json.Value.bool?
  text? := Json.Value.string?
  isAbsent := isNull
  resolver? := strictResolver?
  repository? := Artifact.Repository.ofJson?

/-! ## Layers -/

/-- The texts that stand for truth values. -/
def truthOfText? (s : String) : Option Bool :=
  let s := s.toLower
  if ["1", "true", "on", "yes"].contains s then some true
  else if ["0", "false", "off", "no"].contains s then some false
  else none

/-- A value as a truth value. -/
def looseBool? : Toml.Value → Option Bool
  | .bool b => some b
  | .int n => some (n ≠ 0)
  | .float x => some (x != 0)
  | .text s => truthOfText? s
  | _ => none

/-- The text of a floating point number, without a point when there is nothing behind it. -/
def plainFloat (x : Float) : String :=
  match Decimal.read x with
  | .nan => "NaN"
  | .infinite negative => (if negative then "-" else "") ++ "inf"
  | .finite negative b => (if negative then "-" else "") ++ b.shortest.positional

/-- A value as a text. -/
def looseText? : Toml.Value → Option String
  | .text s | .datetime s => some s
  | .bool b => some (if b then "true" else "false")
  | .int n => some (toString n)
  | .float x => some (plainFloat x)
  | _ => none

/-- The fields of a table. -/
def tableFields? : Toml.Value → Option (List (String × Toml.Value))
  | .table fields => some fields
  | _ => none

/-- The items of an array. -/
def arrayItems? : Toml.Value → Option (List Toml.Value)
  | .array items => some items
  | _ => none

/-- A repository as a table, or as an array of id, kind and address. -/
def looseRepository? : Toml.Value → Option Artifact.Repository
  | .table fields => do
    let field? (name : String) : Option Toml.Value := Toml.Value.field? name (.table fields)
    let kind ← match field? "kind" with
      | some k => looseText? k
      | none => some Artifact.Repository.defaultKind
    some ⟨← looseText? (← field? "id"), kind, ← looseText? (← field? "address")⟩
  | .array (id :: kind :: address :: _) => do
    some ⟨← looseText? id, ← looseText? kind, ← looseText? address⟩
  | _ => none

/-- A strategy by its name in capital or small letters, or as a table with only that name. -/
def looseResolver? : Toml.Value → Option Artifact.Strategy
  | .text s | .table [(s, _)] => resolverOfName? s.toLower
  | _ => none

/-- The fields of a table, or of an array with values for the names. -/
def looseFields? (names : List String) : Toml.Value → Option (List (String × Toml.Value))
  | .table fields => some fields
  | .array items => if names.isEmpty then none else some (names.zip items)
  | _ => none

/-- Reads layers freely. -/
def loose : Decoder Toml.Value where
  fields? := looseFields?
  items? := arrayItems?
  bool? := looseBool?
  text? := looseText?
  isAbsent _ := false
  resolver? := looseResolver?
  repository? := looseRepository?

end Config
end ScriptSession
