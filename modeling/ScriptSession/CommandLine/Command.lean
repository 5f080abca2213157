import ScriptSession.CommandLine.Grammar
import ScriptSession.Config.Settings
import ScriptSession.Path

/-!
# Commands

What the program can be told to do, how that is written on its command line, and how it is read
back from there.
-/

namespace ScriptSession
namespace CommandLine

/-- What to do. -/
inductive Command where
  | repl (watches : Bool)
  | run (file : Path)
  | test (files : List Path)
  | listRepositories (format : String)
  | addRepository (id address kind : String)
  | removeRepository (id : String)
  | resetRepositories
  | listCache
  | purgeCache (coordinate : String)
  | resolve (format : String)
deriving Repr

/-- The name of a command. -/
def Command.name : Command → String
  | .repl _ => "repl"
  | .run _ => "run"
  | .test _ => "test"
  | .listRepositories _ => "repos.list"
  | .addRepository .. => "repos.add"
  | .removeRepository _ => "repos.remove"
  | .resetRepositories => "repos.reset"
  | .listCache => "cache.list"
  | .purgeCache _ => "cache.purge"
  | .resolve _ => "resolve"

/-- The arguments of a command by name, as JSON. -/
def Command.arguments : Command → List (String × Json.Value)
  | .repl watches => [("watch", .bool watches)]
  | .run file => [("file", .ofString file.text)]
  | .test files => [("files", .array (files.map fun f => .ofString f.text))]
  | .listRepositories format | .resolve format => [("format", .ofString format)]
  | .addRepository id address kind =>
    [("id", .ofString id), ("address", .ofString address), ("kind", .ofString kind)]
  | .removeRepository id => [("id", .ofString id)]
  | .purgeCache coordinate => [("coordinate", .ofString coordinate)]
  | .resetRepositories | .listCache => []

/-- What the log is asked to be on the command line. -/
structure LogRequest where
  level : Option String
  format : Option String
  output : Option String
  file : Option Path
deriving Repr

/-- A whole command line. -/
structure Invocation where
  command : Command
  workspace : Path
  config : Option Path
  isVerbose : Bool
  log : LogRequest
deriving Repr

/-! ## The grammar -/

/-- An option with a text. -/
def textFlag (name help : String) : Flag := ⟨name, some .text, none, help⟩

/-- An option with a path. -/
def pathFlag (name help : String) : Flag := ⟨name, some .path, none, help⟩

/-- A switch. -/
def switchFlag (name help : String) : Flag := ⟨name, none, none, help⟩

/-- A command without options and commands of its own. -/
def leaf (about : String) (operands : List Operand) : Level := .mk about [] operands []

/-- The format of a list. -/
def formatFlag : Flag := ⟨"format", some .text, some "text", "Output format (text or json)"⟩

/-- The commands on repositories. -/
def repositoryCommands : List (String × Level) := [
  ("list", .mk "List repositories in resolution order" [formatFlag] [] []),
  ("add", .mk "Append a repository"
    [⟨"kind", some .text, some "default", "Repository layout kind"⟩]
    [⟨"id", .text, false, "Unique repository id"⟩,
      ⟨"address", .text, false, "Repository address (http(s):// URL or file: path)"⟩] []),
  ("remove", leaf "Remove a repository by id" [⟨"id", .text, false, ""⟩]),
  ("reset", leaf "Restore the default repository list" [])]

/-- The commands on the cache. -/
def cacheCommands : List (String × Level) := [
  ("list", leaf "List cached artifacts" []),
  ("purge", leaf "Remove one cached artifact"
    [⟨"coordinate", .text, false, "Coordinate (group:artifact:version)"⟩])]

/-- The commands. -/
def commands : List (String × Level) := [
  ("repl", .mk "Start an interactive session"
    [switchFlag "watch" "Rebuild the context whenever the project manifest changes"] [] []),
  ("run", leaf "Evaluate a script file in a fresh session"
    [⟨"file", .path, false, "Script to evaluate"⟩]),
  ("test", leaf "Run test scripts and print a summary"
    [⟨"files", .path, true, "Test scripts; each file is one test named after its file stem"⟩]),
  ("repos", .mk "Manage the persisted repository list" [] [] repositoryCommands),
  ("cache", .mk "Inspect or purge the artifact cache" [] [] cacheCommands),
  ("resolve", .mk "Resolve the project's dependencies and list the resulting code locations"
    [formatFlag] [] [])]

/-- The options that come before the command. -/
def commonFlags : List Flag := [
  ⟨"workspace", some .path, some ".", "Workspace (project) directory"⟩,
  pathFlag "config" "Configuration file path (overrides default config loading)",
  switchFlag "verbose" "Enable verbose logging (default: off)",
  textFlag "log-level" "Log level (trace, debug, info, warn, error, off)",
  textFlag "log-format" "Log format (json, text)",
  textFlag "log-output" "Log output (stdout, stderr, file, both)",
  pathFlag "log-file" "Log file path (if output is \"file\")"]

/-- The grammar of the command line. -/
def grammar : Level :=
  .mk "Interactive Rhai scripting sessions with dependency resolution" commonFlags [] commands

/-! ## Reading back -/

namespace Invocation

/-- The value of a name, or the empty text. -/
def textOf (p : Parsed) (name : String) : String := (p.value? name).getD ""

/-- The command of what was read. -/
def command? (p : Parsed) : Option Command :=
  match p.path with
  | ["repl"] => some (.repl (p.isSet "watch"))
  | ["run"] => some (.run ⟨textOf p "file"⟩)
  | ["test"] => some (.test ((p.valuesOf "files").map Path.mk))
  | ["repos", "list"] => some (.listRepositories ((p.value? "format").getD "text"))
  | ["repos", "add"] =>
    some (.addRepository (textOf p "id") (textOf p "address") ((p.value? "kind").getD "default"))
  | ["repos", "remove"] => some (.removeRepository (textOf p "id"))
  | ["repos", "reset"] => some .resetRepositories
  | ["cache", "list"] => some .listCache
  | ["cache", "purge"] => some (.purgeCache (textOf p "coordinate"))
  | ["resolve"] => some (.resolve ((p.value? "format").getD "text"))
  | _ => none

/-- What was read. -/
def ofParsed (p : Parsed) : Except Refusal Invocation :=
  match command? p with
  | none => .error .missingCommand
  | some command =>
    .ok {
      command
      workspace := ⟨(p.value? "workspace").getD "."⟩
      config := (p.value? "config").map Path.mk
      isVerbose := p.isSet "verbose"
      log := ⟨p.value? "log-level", p.value? "log-format", p.value? "log-output",
        (p.value? "log-file").map Path.mk⟩ }

/-- Read the words behind the program's name. -/
def parse (words : List String) : Except Refusal Invocation := do ofParsed (← grammar.parse words)

/-- What the log of an invocation is to be. Unless it is verbose nothing is logged. What the command
line asks for wins over the configuration, and an interactive session keeps its terminal free of
the log. -/
def logging (host : Host) (i : Invocation) (configured : Option Config.LoggingSettings) :
    Config.LoggingSettings :=
  if i.isVerbose then
    let s := configured.getD (.default host)
    let output := match i.command with
      | .repl _ => "file"
      | _ => s.output
    { s with
      level := i.log.level.getD s.level
      format := i.log.format.getD s.format
      output := i.log.output.getD output
      file := i.log.file.getD s.file }
  else { Config.LoggingSettings.default host with level := "off" }

end Invocation
end CommandLine
end ScriptSession
