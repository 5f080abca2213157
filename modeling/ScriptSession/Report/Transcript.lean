/-!
# Transcripts

A session writes outputs, warnings and prompts to its transcript. A transcript can be kept as a
list of entries or shown on a terminal; the terminal gets one line per entry, warnings on the
error stream and, when colour is wanted, in yellow.
-/

namespace ScriptSession
namespace Report

/-- One entry of a transcript. -/
inductive Entry where
  | output (text : String)
  | warning (text : String)
  | prompt
deriving DecidableEq, Repr

namespace Entry

/-- The text of an output. -/
def output? : Entry → Option String
  | .output text => some text
  | _ => none

/-- The text of a warning. -/
def warning? : Entry → Option String
  | .warning text => some text
  | _ => none

/-- The text of an output or a warning. -/
def text? : Entry → Option String
  | .output text | .warning text => some text
  | .prompt => none

end Entry

/-- A transcript that keeps everything, in order. -/
structure Transcript where
  entries : List Entry
deriving DecidableEq, Repr, Inhabited

namespace Transcript

/-- Nothing written yet. -/
def empty : Transcript := ⟨[]⟩

/-- Append an entry. -/
def write (t : Transcript) (e : Entry) : Transcript := ⟨t.entries ++ [e]⟩

/-- The outputs. -/
def outputs (t : Transcript) : List String := t.entries.filterMap Entry.output?

/-- The warnings. -/
def warnings (t : Transcript) : List String := t.entries.filterMap Entry.warning?

/-- How many prompts there are. -/
def promptCount (t : Transcript) : Nat := (t.entries.filter (· == .prompt)).length

/-- Outputs and warnings, one after the other on lines. -/
def text (t : Transcript) : String := "\n".intercalate (t.entries.filterMap Entry.text?)

end Transcript

/-! ## The terminal -/

/-- What reached the two streams of a terminal. -/
structure Streams where
  out : String
  err : String
deriving DecidableEq, Repr, Inhabited

namespace Streams

/-- Nothing written. -/
def empty : Streams := ⟨"", ""⟩

/-- Append a text to the output stream. -/
def putOut (s : Streams) (text : String) : Streams := { s with out := s.out ++ text }

/-- Append a text to the error stream. -/
def putErr (s : Streams) (text : String) : Streams := { s with err := s.err ++ text }

/-- Append a line to the output stream. -/
def outLine (s : Streams) (text : String) : Streams := s.putOut (text ++ "\n")

/-- Append a line to the error stream. -/
def errLine (s : Streams) (text : String) : Streams := s.putErr (text ++ "\n")

end Streams

/-- A text in yellow. -/
def yellow (text : String) : String := "\x1b[33m" ++ text ++ "\x1b[39m"

/-- Show an entry on a terminal. -/
def Entry.show (color : Bool) (e : Entry) (s : Streams) : Streams :=
  match e with
  | .output text => s.outLine text
  | .warning text => s.errLine (if color then yellow text else text)
  | .prompt => s.putOut "> "

end Report
end ScriptSession
