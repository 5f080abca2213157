import ScriptSession.Config.Settings
import ScriptSession.Session.Failure

/-!
# The log

Whether a log can be set up as it is configured. Variables win over settings. The filter is
checked first, then the format, then where the log goes, and last the file.
-/

namespace ScriptSession
namespace Config

open Session (Failure)

/-! ## Where the log goes -/

/-- Where the log goes. -/
inductive LogTarget where
  | stdout
  | stderr
  | both
  | file
deriving DecidableEq, Repr

/-- The name of a target. -/
def LogTarget.name : LogTarget → String
  | .stdout => "Stdout"
  | .stderr => "Stderr"
  | .both => "Both"
  | .file => "File"

/-- The target that a text names. -/
def LogTarget.parse (s : String) : Except Failure LogTarget :=
  match Text.trim s with
  | "stdout" => .ok .stdout
  | "stderr" => .ok .stderr
  | "both" => .ok .both
  | "file" => .ok .file
  | other =>
    .error (.config ("Invalid log output: " ++ other ++
      " (must be 'stdout', 'stderr', 'file', or 'both')"))

/-! ## Filters -/

/-- What is wrong with a directive of a filter. -/
inductive DirectiveFault where
  | malformed
  | level
deriving DecidableEq, Repr

/-- The text of what is wrong with a directive. -/
def DirectiveFault.text : DirectiveFault → String
  | .malformed => "invalid filter directive"
  | .level =>
    "error parsing level filter: expected one of \"off\", \"error\", \"warn\", \"info\", " ++
      "\"debug\", \"trace\", or a number 0-5"

/-- Whether a text names a level. -/
def isLevel (s : List Char) : Bool :=
  let digits := match s with
    | '+' :: rest => rest
    | s => s
  if !digits.isEmpty && digits.all Char.isDigit then
    digits.foldl (fun n d => 10 * n + (d.toNat - '0'.toNat)) 0 ≤ 5
  else
    ["", "off", "error", "warn", "info", "debug", "trace"].contains (String.ofList s).toLower

/-- Where the reader of a directive is. The parts that matter later are kept in reverse. -/
inductive DirectiveState where
  | start
  | name
  | span (isEmpty : Bool)
  | fieldName (isEmpty : Bool)
  | fields
  | target
  | level (seen : List Char)
  | complete

/-- One character of a directive. -/
def DirectiveState.next (s : DirectiveState) (c : Char) : Except DirectiveFault DirectiveState :=
  match s, c with
  | .start, '[' => .ok (.span true)
  | .start, c =>
    if c = '-' ∨ c = ':' ∨ c = '_' ∨ c.isAlphanum ∨ 0x80 ≤ c.toNat then .ok .name
    else .error .malformed
  | .name, '=' => .ok (.level [])
  | .name, '[' => .ok (.span true)
  | .name, ',' => .ok .complete
  | .name, _ => .ok .name
  | .target, '=' => .ok (.level [])
  | .span _, ']' => .ok .target
  | .span _, '\x7b' => .ok (.fieldName true)
  | .span _, _ => .ok (.span false)
  | .fieldName true, '\x7d' => .error .malformed
  | .fieldName true, ',' => .error .malformed
  | .fieldName false, '\x7d' => .ok .fields
  | .fieldName false, ',' => .ok (.fieldName true)
  | .fieldName _, _ => .ok (.fieldName false)
  | .fields, ']' => .ok .target
  | .level seen, ',' => if isLevel seen.reverse then .ok .complete else .error .level
  | .level seen, c => .ok (.level (c :: seen))
  | _, _ => .error .malformed

/-- Whether a directive may end where the reader is. -/
def DirectiveState.finish : DirectiveState → Except DirectiveFault Unit
  | .name | .target | .complete => .ok ()
  | .level seen => if isLevel seen.reverse then .ok () else .error .level
  | _ => .error .malformed

/-- Check a directive. -/
def checkDirective (s : String) : Except DirectiveFault Unit := do
  ((← (Text.trim s).toList.foldlM DirectiveState.next .start)).finish

/-- Whether a whole filter is well formed. -/
def isFilter (s : String) : Bool :=
  (Text.splitOn ',' s).all fun part => part.isEmpty || (checkDirective part).isOk

/-- The text before and behind the first equals sign. -/
def splitAtEquals? (s : String) : Option (String × String) :=
  let cs := s.toList
  let before := cs.takeWhile (· ≠ '=')
  if before.length < cs.length then
    some (String.ofList before, String.ofList (cs.drop (before.length + 1)))
  else none

/-- The levels of modules that a variable sets. -/
def variableLevels (host : Host) : List (String × String) :=
  ((Text.splitOn ',' ((host.environmentValue? "RIVET_LOG_MODULES").getD "")).filterMap
    splitAtEquals?).map fun (name, level) => (Text.trim name, Text.trim level)

/-- Check the filter. A variable with a well-formed filter stands for the whole of it, and with the
level switched off the modules do not matter. -/
def checkFilter (host : Host) (s : LoggingSettings) : Except Failure Unit :=
  if (host.environmentValue? "RIVET_LOG").any isFilter || s.level == "off" then .ok ()
  else
    (s.modules ++ variableLevels host).forM fun (name, level) =>
      match checkDirective (name ++ "=" ++ level) with
      | .ok () => .ok ()
      | .error e =>
        .error (.config ("Invalid log directive '" ++ name ++ "=" ++ level ++ "': " ++ e.text))

/-! ## Setting up -/

/-- Check the format. -/
def checkLogFormat (host : Host) (s : LoggingSettings) : Except Failure Unit :=
  let fits (format : String) : Bool := format == "json" || format == "text"
  if (host.environmentValue? "RIVET_LOG_FORMAT").any fits || fits s.format then .ok ()
  else
    .error (.config ("Invalid log format: " ++ s.format ++ " (must be 'json' or 'text')"))

/-- Where the log goes. -/
def logTarget (host : Host) (s : LoggingSettings) : Except Failure LogTarget :=
  LogTarget.parse ((host.environmentValue? "RIVET_LOG_OUTPUT").getD s.output)

/-- Open the log file for appending. -/
def openLogFile (host : Host) (path : Path) : Except Failure Host :=
  let directories : Except Files.Failure Host :=
    match path.parent? with
    | some dir => host.createDirectories dir
    | none => .ok host
  match directories with
  | .error e => .error (.config ("Failed to create log directory: " ++ e.message))
  | .ok host =>
    if host.isFile path then .ok host
    else
      match host.write path .empty with
      | .ok host => .ok host
      | .error e =>
        .error (.config ("Failed to open log file " ++ Text.quoted path.text ++ ": " ++ e.message))

/-- Set up the log: what has become of the files. -/
def setUpLog (host : Host) (s : LoggingSettings) : Except Failure Host := do
  checkFilter host s
  checkLogFormat host s
  match ← logTarget host s with
  | .file => openLogFile host s.file
  | _ => .ok host

end Config
end ScriptSession
