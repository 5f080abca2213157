import ScriptSession.Artifact.Resolution
import ScriptSession.Json.Writer

/-!
# Settings

What can be configured: how sessions behave and how the program logs. Settings are checked before
they are used; the check names every violation, in the order of the fields.
-/

namespace ScriptSession
namespace Config

/-! ## Kinds of settings -/

/-- How sessions behave. -/
structure SessionSettings where
  usesManifest : Bool
  resolver : Artifact.Strategy
  includesBuildOutput : Bool
  buildOutputDirs : List String
  installDir : Option Path
  projectDir : Option Path
  moduleDirs : List Path
  repositories : List Artifact.Repository
  dependencies : List Artifact.Coordinate
  autorunGlobal : Bool
  autorunProject : Bool
  cacheDir : Option Path
  watchesManifest : Bool
deriving Repr

/-- How the program logs. The levels of single modules are sorted by module. -/
structure LoggingSettings where
  level : String
  format : String
  output : String
  file : Path
  color : Bool
  modules : List (String × String)
deriving Repr

/-- All settings. -/
structure Settings where
  session : SessionSettings
  logging : LoggingSettings
deriving Repr

/-! ## Defaults -/

/-- The build output directories of a project, relative to it. -/
def defaultBuildOutputDirs : List String := ["build/main", "build/test"]

/-- The settings of a session that configures nothing. -/
def SessionSettings.default : SessionSettings where
  usesManifest := false
  resolver := .manifestFile
  includesBuildOutput := true
  buildOutputDirs := defaultBuildOutputDirs
  installDir := none
  projectDir := none
  moduleDirs := []
  repositories := []
  dependencies := []
  autorunGlobal := true
  autorunProject := true
  cacheDir := none
  watchesManifest := false

instance : Inhabited SessionSettings := ⟨SessionSettings.default⟩

/-- Where the log goes when it goes to a file and nobody says which. -/
def defaultLogFile (host : Host) : Path := host.dataDirectory.join "rivet.log"

/-- The logging settings of a program that configures nothing. -/
def LoggingSettings.default (host : Host) : LoggingSettings where
  level := "warn"
  format := "text"
  output := "stderr"
  file := defaultLogFile host
  color := true
  modules := []

/-- The settings of a program that configures nothing. -/
def Settings.default (host : Host) : Settings := ⟨.default, .default host⟩

/-- Where the configuration of a user lies. -/
def globalFile? (host : Host) : Option Path := host.configDirectory?.map (·.join "config.toml")

/-! ## Checking -/

/-- What is wrong with a setting. -/
inductive Violation where
  | session (text : String)
  | repository (id text : String)
  | logging (text : String)
deriving DecidableEq, Repr

/-- The text of a violation. -/
def Violation.text : Violation → String
  | .session text => "Session: " ++ text
  | .repository id text => "Repository '" ++ id ++ "': " ++ text
  | .logging text => "Logging: " ++ text

/-- What is wrong with the names of build output directories. -/
def checkBuildOutput (dirs : List String) : List Violation :=
  (dirs.filter Text.isBlankText).map fun _ =>
    .session "build output directory names cannot be empty"

/-- What is wrong with the id of a repository, given the ids before it. -/
def checkId (seen : List String) (r : Artifact.Repository) : List Violation :=
  if Text.isBlankText r.id then [.repository r.address "repository id cannot be empty"]
  else if seen.contains r.id then [.repository r.id "duplicate repository id"]
  else []

/-- What is wrong with the address of a repository. -/
def checkAddress (r : Artifact.Repository) : List Violation :=
  if Text.isBlankText r.address then [.repository r.id "repository address cannot be empty"] else []

/-- What is wrong with repositories, given the ids before them. -/
def checkRepositories (seen : List String) : List Artifact.Repository → List Violation
  | [] => []
  | r :: rest => checkId seen r ++ checkAddress r ++ checkRepositories (r.id :: seen) rest

/-- What is wrong with the settings of a session. -/
def SessionSettings.violations (s : SessionSettings) : List Violation :=
  checkBuildOutput s.buildOutputDirs ++ checkRepositories [] s.repositories

/-- What is wrong with a log format. -/
def checkFormat (format : String) : List Violation :=
  if format = "json" ∨ format = "text" then []
  else [.logging ("invalid format '" ++ format ++ "'")]

/-- What is wrong with settings. -/
def Settings.violations (s : Settings) : List Violation :=
  s.session.violations ++ checkFormat s.logging.format

/-! ## As JSON -/

/-- The name of a strategy in settings. -/
def resolverName : Artifact.Strategy → String
  | .manifestFile => "manifest_file"
  | .repositoryList => "repository_list"

/-- The strategy of a name. -/
def resolverOfName? (name : String) : Option Artifact.Strategy :=
  [Artifact.Strategy.manifestFile, .repositoryList].find? fun s => resolverName s = name

/-- An optional path as JSON. -/
def pathJson : Option Path → Json.Value
  | some p => .ofString p.text
  | none => .null

/-- The settings of a session as JSON. -/
def SessionSettings.toJson (s : SessionSettings) : Json.Value :=
  .record [
    ("use_manifest_resolution", .bool s.usesManifest),
    ("resolver", .ofString (resolverName s.resolver)),
    ("include_local_build_output", .bool s.includesBuildOutput),
    ("build_output_dirs", .array (s.buildOutputDirs.map .ofString)),
    ("install_dir", pathJson s.installDir),
    ("project_dir", pathJson s.projectDir),
    ("module_dirs", .array (s.moduleDirs.map fun p => .ofString p.text)),
    ("repositories", .array (s.repositories.map Artifact.Repository.toJson)),
    ("dependencies", .array (s.dependencies.map Artifact.Coordinate.toJson)),
    ("autorun_global", .bool s.autorunGlobal),
    ("autorun_project", .bool s.autorunProject),
    ("cache_dir", pathJson s.cacheDir),
    ("watch_manifest", .bool s.watchesManifest)]

/-- Logging settings as JSON. -/
def LoggingSettings.toJson (s : LoggingSettings) : Json.Value :=
  .record [
    ("level", .ofString s.level),
    ("format", .ofString s.format),
    ("output", .ofString s.output),
    ("file", .ofString s.file.text),
    ("color", .bool s.color),
    ("modules", .record (s.modules.map fun m => (m.1, .ofString m.2)))]

/-- Settings as JSON. -/
def Settings.toJson (s : Settings) : Json.Value :=
  .record [("session", s.session.toJson), ("logging", s.logging.toJson)]

end Config
end ScriptSession
