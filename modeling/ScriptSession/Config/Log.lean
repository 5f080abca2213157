import ScriptSession.Config.Logging
import ScriptSession.Report.Transcript

/-!
# Writing the log

A filter is a list of directives, each with a level for the places whose names start with its own.
Of the directives that fit a place the one with the longest name counts. Without any directive
only errors are logged.
-/

namespace ScriptSession
namespace Config

open Session (Failure)

/-- How much something matters. -/
inductive Severity where
  | error
  | warning
  | info
deriving DecidableEq, Repr

namespace Severity

/-- The number of a severity. The more it matters the smaller it is. -/
def rank : Severity → Nat
  | .error => 1
  | .warning => 2
  | .info => 3

/-- The word for a severity. -/
def word : Severity → String
  | .error => "ERROR"
  | .warning => "WARN"
  | .info => "INFO"

end Severity

/-! ## Filters -/

/-- A directive: the start of the names it is for, and up to which rank it lets things through. -/
structure Directive where
  place : String
  level : Nat
deriving DecidableEq, Repr

/-- The rank that a level stands for. -/
def rankOfLevel? (s : String) : Option Nat :=
  match s.toLower with
  | "off" | "0" => some 0
  | "error" | "1" | "" => some 1
  | "warn" | "2" => some 2
  | "info" | "3" => some 3
  | "debug" | "4" => some 4
  | "trace" | "5" => some 5
  | _ => none

/-- The directive of a text. A name alone lets everything through. -/
def Directive.parse (s : String) : Directive :=
  match splitAtEquals? s with
  | some (place, level) => ⟨place, (rankOfLevel? level).getD 5⟩
  | none =>
    match rankOfLevel? s with
    | some level => ⟨"", level⟩
    | none => ⟨s, 5⟩

/-- The directives of a filter. -/
def directivesOf (filter : String) : List Directive :=
  (((Text.splitOn ',' filter).map Text.trim).filter (!·.isEmpty)).map Directive.parse

/-- The directives that a log is set up with. -/
def directives (host : Host) (s : LoggingSettings) : List Directive :=
  match (host.environmentValue? "RIVET_LOG").filter isFilter with
  | some filter => directivesOf filter
  | none =>
    if s.level == "off" then [⟨"", 0⟩]
    else
      directivesOf s.level ++
        (s.modules ++ variableLevels host).map fun (name, level) =>
          Directive.parse (name ++ "=" ++ level)

/-- The more specific of two directives, the later one if they are alike. -/
def moreSpecific (best : Option Directive) (d : Directive) : Option Directive :=
  match best with
  | some b => if d.place.length < b.place.length then some b else some d
  | none => some d

/-- Whether something that happens at a place is logged. -/
def isLogged (ds : List Directive) (place : String) (severity : Severity) : Bool :=
  if ds.isEmpty then severity.rank ≤ 1
  else
    let fitting := ds.filter fun d => place.startsWith d.place
    match fitting.foldl moreSpecific none with
    | some d => severity.rank ≤ d.level
    | none => false

/-! ## Logs -/

/-- A log that has been set up. -/
structure Log where
  directives : List Directive
  target : LogTarget
  file : Path

namespace Log

/-- A log that takes nothing. -/
def silent : Log := ⟨[⟨"", 0⟩], .stderr, ⟨""⟩⟩

/-- Set up a log: the log, and what has become of the files. -/
def setUp (host : Host) (s : LoggingSettings) : Except Failure (Log × Host) := do
  let after ← setUpLog host s
  let target ← logTarget host s
  return (⟨Config.directives host s, target, s.file⟩, after)

/-- Append a text to a file. -/
def append (host : Host) (file : Path) (text : String) : Host :=
  let before := (host.read file).toOption.getD .empty
  (host.write file (before ++ text.toUTF8)).toOption.getD host

/-- Log that something happened at a place. -/
def write (l : Log) (severity : Severity) (place message : String)
    (host : Host) (streams : Report.Streams) : Host × Report.Streams :=
  if isLogged l.directives place severity then
    let line := severity.word ++ " " ++ place ++ ": " ++ message
    match l.target with
    | .stdout => (host, streams.outLine line)
    | .stderr => (host, streams.errLine line)
    | .both => (host, (streams.outLine line).errLine line)
    | .file => (append host l.file (line ++ "\n"), streams)
  else (host, streams)

end Log
end Config
end ScriptSession
