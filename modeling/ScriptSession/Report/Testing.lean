import ScriptSession.Evaluation.Fault
import ScriptSession.Report.Transcript

/-!
# Test results

A test is a script; it succeeds when its evaluation has a value. A fault of the script is a
failure of the test, any other fault an error. A batch of tests counts its outcomes.
-/

namespace ScriptSession
namespace Report

open Script (FaultKind)

/-- The indent of lines that belong to a test of a batch. -/
def indent : String := "  "

/-- How a test ended. -/
inductive TestOutcome where
  | success
  | failure
  | error
deriving DecidableEq, Repr

namespace TestOutcome

/-- The outcome of a test with a fault. -/
def ofFault (f : Evaluation.Fault) : TestOutcome :=
  match f.kind with
  | .script => .failure
  | _ => .error

/-- The name of an outcome. -/
def name : TestOutcome → String
  | .success => "Success"
  | .failure => "Failure"
  | .error => "Error"

end TestOutcome

/-- A named test script. -/
structure TestCase where
  title : String
  script : String
deriving DecidableEq, Repr, Inhabited

/-- What became of a test: its outcome, what it wrote, and the fault with a short word on it. -/
structure TestResult where
  title : String
  outcome : TestOutcome
  out : String
  err : String
  fault : Option Evaluation.Fault
  issue : Option String
deriving Repr

namespace TestResult

/-- A test that succeeded. -/
def success (title : String) : TestResult := ⟨title, .success, "", "", none, none⟩

/-- A test that ended with a fault. -/
def ofFault (title : String) (f : Evaluation.Fault) : TestResult :=
  let outcome := TestOutcome.ofFault f
  let issue := match outcome with
    | .failure => "Script fault executing test " ++ title
    | _ => f.kind.name ++ " fault occurred running test " ++ title
  ⟨title, outcome, "", "", some f, some issue⟩

/-- The result with what the test wrote. -/
def withOutput (r : TestResult) (out err : String) : TestResult := { r with out, err }

/-- Whether the test succeeded. -/
def isSuccess (r : TestResult) : Bool := r.outcome == .success

/-- The line that reports a test. -/
def banner (r : TestResult) : String :=
  match r.fault with
  | none => "# " ++ r.title ++ ": Success"
  | some f => "# " ++ r.title ++ ": Failure detected: " ++ f.singleLine

/-- What the transcript gets of a result: the captured output, indented, and the banner. -/
def entries (r : TestResult) (indent : String) : List Entry :=
  let captured (text : String) : List Entry :=
    let lines := Text.indentLines text indent
    if lines.isEmpty then [] else [.output lines]
  let line := indent ++ r.banner
  captured r.out ++ captured r.err ++ [if r.isSuccess then .output line else .warning line]

end TestResult

/-- A number with zeros in front up to a width. -/
def padded (width n : Nat) : String :=
  let digits := toString n
  String.ofList (List.replicate (width - digits.length) '0') ++ digits

/-- A duration in milliseconds as minutes, seconds and milliseconds. -/
def formatMillis (ms : Nat) : String :=
  padded 2 (ms / 60000) ++ " minutes, " ++ padded 2 (ms / 1000 % 60) ++ " seconds, " ++
    padded 3 (ms % 1000) ++ " millis"

/-- The results of a batch and how long it took. -/
structure TestRun where
  results : List TestResult
  elapsedMillis : Nat
deriving Repr

namespace TestRun

/-- No test run yet. -/
def empty : TestRun := ⟨[], 0⟩

/-- How many tests had an outcome. -/
def count (r : TestRun) (outcome : TestOutcome) : Nat :=
  (r.results.filter fun t => t.outcome == outcome).length

/-- Whether every result is a success. -/
def allPassed (r : TestRun) : Bool := r.results.all TestResult.isSuccess

/-- The counts of a batch on one line. -/
def summaryLine (r : TestRun) : String :=
  "Tests run: " ++ toString r.results.length ++ ", Successes: " ++ toString (r.count .success) ++
    ", Failures: " ++ toString (r.count .failure) ++ ", Errors: " ++ toString (r.count .error)

/-- What the transcript gets at the end of a batch. -/
def summaryEntries (r : TestRun) : List Entry :=
  [.output "", .output "Tests summary:", .output "--------------", .output r.summaryLine,
    .output ("Time: " ++ formatMillis r.elapsedMillis)]

end TestRun
end Report
end ScriptSession
