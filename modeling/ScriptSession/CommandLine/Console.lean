import ScriptSession.CommandLine.Program

/-!
# The program at a terminal

A run of the program that is fed line by line: it goes on until it waits for a line or ends, hands
over what it has printed, and takes the next line. What it has done to the files is the difference
between the trees before and after.
-/

namespace ScriptSession
namespace CommandLine

open Concurrency (Pool)
open Files (Entry Place Tree)
open Session (Job World)

/-! ## Running -/

/-- A run of the program. -/
abbrev Run := Pool World Job ExitCode

namespace Run

/-- A run that has not begun. -/
def start (host : Host) (words : List String) : Run :=
  Pool.ofThread (run words) { World.new host with isInputOpen := true }

/-- Go on until the run waits for input or has ended: what it printed, and the run. -/
def advance (r : Run) : Report.Streams × Run :=
  let r := Pool.run Session.body Session.stepSupply r
  let (streams, w) := r.shared.takeStreams
  (streams, { r with shared := w })

/-- The exit code of a run that has ended. -/
def exitCode? (r : Run) : Option ExitCode := r.result?

/-- Give a line to a run, or tell it that there are no more. -/
def feed (r : Run) (line : Option String) : Run :=
  let w := r.shared
  { r with shared := match line with
    | some line => { w with input := w.input ++ [line] }
    | none => { w with isInputOpen := false } }

end Run

/-! ## What has become of the files -/

/-- A change of one place. -/
inductive Change where
  | makeDirectory (place : Place)
  | writeFile (place : Place) (content : ByteArray)
  | remove (place : Place) (wasDirectory : Bool)

/-- What has to be done at a place that a tree holds, given the tree before. -/
def changeAt (before : Tree) (place : Place) (entry : Entry) : Option Change :=
  if before.get? place = some entry then none
  else
    match entry with
    | .directory => some (.makeDirectory place)
    | .file content => some (.writeFile place content)

/-- What leads from one tree to another: what is gone, the innermost places first, and then what
is new. -/
def changes (before after : Tree) : List Change :=
  let gone := before.entries.filter fun e => (after.get? e.1).isNone
  let inner := gone.mergeSort fun a b => b.1.length ≤ a.1.length
  (inner.map fun e => .remove e.1 (e.2 = .directory)) ++
    after.entries.filterMap fun e => changeAt before e.1 e.2

end CommandLine
end ScriptSession
