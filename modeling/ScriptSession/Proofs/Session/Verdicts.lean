import ScriptSession.Proofs.Text.Pieces
import ScriptSession.Report.Testing

/-!
# Verdicts on tests

What the result of a test says about the evaluation of its script, and what a transcript gets of it.
A fault that has passed out of functions and modules is judged by the fault inside all of them
(`Script.Fault.rootCause`). Main statements: the result of a test is the verdict on its evaluation
(`Report.TestResult.judges_ofEvaluation`), and the numbers that a run counts add up to the number of
its results (`Report.TestRun.tallies`).
-/

namespace ScriptSession

/-! ## Root causes -/

namespace Script

namespace Fault

/-- The fault inside all functions and modules that a fault has passed out of. -/
def rootCause : Fault → Fault
  | .inFunctionCall _ _ inner _ => inner.rootCause
  | .inModule _ inner _ => inner.rootCause
  | f => f

/-- An error in the language of scripts: in the syntax, in names, in types, in bounds, in
arithmetic, or one that a script has thrown. -/
def IsOfLanguage : Fault → Prop
  | .parsing .. | .variableExists .. | .variableNotFound .. | .propertyNotFound ..
  | .indexNotFound .. | .functionNotFound .. | .unboundThis .. | .mismatchData ..
  | .mismatchOutput .. | .indexing .. | .arrayBounds .. | .stringBounds .. | .notIterable ..
  | .assignmentToConstant .. | .dotExpression .. | .arithmetic .. | .thrown .. => True
  | _ => False

end Fault

/-- A fault is one of scripts if and only if its root cause is an error in their language. -/
theorem FaultKind.classify_eq_script_iff (f : Fault) :
    classify f = .script ↔ f.rootCause.IsOfLanguage := by
  induction f with
  | inFunctionCall name source inner p ih => exact ih
  | inModule name inner p ih => exact ih
  | system text source => cases source <;> simp [classify, Fault.rootCause, Fault.IsOfLanguage]
  | _ => simp [classify, Fault.rootCause, Fault.IsOfLanguage]

end Script

/-! ## Captured text -/

namespace Text

/-- A line that begins with something else than a blank is not empty. -/
theorem dropCarriageReturn_ne_nil {c : Char} (hc : isBlank c = false) (rest : List Char) :
    dropCarriageReturn (c :: rest) ≠ [] := by
  unfold dropCarriageReturn
  split
  · rename_i line hline
    intro hempty
    rw [List.reverse_eq_nil_iff] at hempty
    subst hempty
    have hcr : c :: rest = ['\r'] := by rw [← List.reverse_inj, hline]; rfl
    cases hcr
    cases hc
  · exact List.cons_ne_nil c rest

/-- The lines of a text that begins with something else than a blank. -/
theorem exists_lines_eq_cons {c : Char} (hc : isBlank c = false) (rest : List Char) :
    ∃ line more, lines (String.ofList (c :: rest)) = String.ofList line :: more ∧ line ≠ [] := by
  have hne : c ≠ '\n' := by
    rintro rfl
    cases hc
  have hpieces : ∃ piece pieces, splitChars '\n' (c :: rest) = (c :: piece) :: pieces := by
    rw [splitChars, if_neg hne]
    split
    · exact ⟨[], [], rfl⟩
    · exact ⟨_, _, rfl⟩
  obtain ⟨piece, pieces, hpieces⟩ := hpieces
  rw [lines, String.toList_ofList, hpieces]
  cases pieces with
  | nil => exact ⟨c :: piece, [], rfl, List.cons_ne_nil c piece⟩
  | cons next pieces =>
    refine ⟨dropCarriageReturn (c :: piece), ?_⟩
    split
    · exact ⟨_, rfl, dropCarriageReturn_ne_nil hc piece⟩
    · exact ⟨_, rfl, dropCarriageReturn_ne_nil hc piece⟩

/-- Nothing is indented if and only if there are only blanks. -/
theorem indentLines_eq_empty_iff (s indent : String) :
    indentLines s indent = "" ↔ isBlankText s = true := by
  rw [isBlankText]
  cases hblank : s.toList.all isBlank with
  | true =>
    rw [indentLines, trim, trimChars_of_all hblank]
    exact iff_of_true rfl rfl
  | false =>
    obtain ⟨c, rest, htrim, hc⟩ := exists_trimChars_eq_cons hblank
    obtain ⟨line, more, hlines, hline⟩ := exists_lines_eq_cons hc rest
    refine iff_of_false (fun hempty => hline ?_) Bool.false_ne_true
    rw [indentLines, trim, htrim, hlines, List.map_cons] at hempty
    -- The first line is not empty and is part of the text, be there more lines or not.
    have hchars := congrArg String.toList hempty
    cases more with
    | nil =>
      rw [List.map_nil, String.intercalate_singleton] at hchars
      simp only [String.toList_append, String.toList_ofList] at hchars
      exact (List.append_eq_nil_iff.mp hchars).2
    | cons next more =>
      rw [List.map_cons, String.intercalate_cons_cons] at hchars
      simp only [String.toList_append, String.toList_ofList] at hchars
      exact (List.append_eq_nil_iff.mp (List.append_eq_nil_iff.mp
        (List.append_eq_nil_iff.mp hchars).1).1).2

end Text

namespace Report

open Script (FaultKind)

/-- What the transcript gets of a stream of a test: its lines, unless there are only blanks. -/
def told (text indent : String) : List Entry :=
  if Text.isBlankText text then [] else [.output (Text.indentLines text indent)]

theorem told_eq (text indent : String) : told text indent =
    if (Text.indentLines text indent).isEmpty then []
    else [.output (Text.indentLines text indent)] := by
  have hempty : (Text.indentLines text indent).isEmpty = Text.isBlankText text := by
    rw [Bool.eq_iff_iff, String.isEmpty_iff, Text.indentLines_eq_empty_iff]
  rw [told, hempty]

/-! ## Results -/

namespace TestResult

/-- What the transcript gets of a result: what the test wrote on either stream, and a banner, which
is a warning unless the test has succeeded. -/
def block (r : TestResult) (indent : String) : List Entry :=
  told r.out indent ++ told r.err indent ++
    [match r.outcome with
      | .success => .output (indent ++ r.banner)
      | .failure | .error => .warning (indent ++ r.banner)]

theorem entries_eq_block (r : TestResult) (indent : String) :
    r.entries indent = r.block indent := by
  rw [entries, block, told_eq, told_eq, isSuccess]
  cases r.outcome <;> rfl

/-- The result of a test is the verdict on the evaluation of its script: a success if the script has
come to a value, a failure if its fault has an error in the language of scripts as its root cause,
and an error if the root cause is anything else. The result has what the script has written. -/
structure Judges (case : TestCase) (result : Except Evaluation.Fault Script.Value)
    (captured : Streams) (r : TestResult) : Prop where
  title : r.title = case.title
  success : r.outcome = .success ↔ ∃ v, result = .ok v
  failure : r.outcome = .failure ↔
    ∃ f, result = .error (.ofScript f) ∧ f.rootCause.IsOfLanguage
  error : r.outcome = .error ↔ ∃ f, result = .error (.ofScript f) ∧ ¬f.rootCause.IsOfLanguage
  out : r.out = captured.out
  err : r.err = captured.err
  fault : r.fault = match result with
    | .ok _ => none
    | .error f => some f

/-- The result of a test whose script has been evaluated. -/
def ofEvaluation (case : TestCase) (result : Except Evaluation.Fault Script.Value)
    (captured : Streams) : TestResult :=
  (match result with
    | .ok _ => success case.title
    | .error f => ofFault case.title f).withOutput captured.out captured.err

/-- A fault of a script makes a failure if and only if its root cause is an error in the language of
scripts, and an error otherwise. -/
theorem outcome_ofFault (f : Script.Fault) :
    f.rootCause.IsOfLanguage ∧ TestOutcome.ofFault (.ofScript f) = .failure ∨
      ¬f.rootCause.IsOfLanguage ∧ TestOutcome.ofFault (.ofScript f) = .error := by
  rw [← FaultKind.classify_eq_script_iff, TestOutcome.ofFault, Evaluation.Fault.ofScript]
  cases FaultKind.classify f with
  | script => exact .inl ⟨rfl, rfl⟩
  | engine | io | unknown => exact .inr ⟨nofun, rfl⟩

theorem judges_ofEvaluation (case : TestCase) (outcome : Except Script.Fault Script.Value)
    (captured : Streams) : (ofEvaluation case (outcome.mapError .ofScript) captured).Judges case
      (outcome.mapError .ofScript) captured := by
  cases outcome with
  | ok v =>
    exact ⟨rfl, iff_of_true rfl ⟨v, rfl⟩, iff_of_false nofun nofun, iff_of_false nofun nofun, rfl,
      rfl, rfl⟩
  | error f =>
    have hcause : ∀ f', (Except.error (.ofScript f) : Except Evaluation.Fault Script.Value) =
        .error (.ofScript f') → f' = f := by
      intro f' h
      exact (Option.some.inj (congrArg Evaluation.Fault.cause (Except.error.inj h))).symm
    have houtcome : (ofEvaluation case (.error (.ofScript f)) captured).outcome =
        TestOutcome.ofFault (.ofScript f) := rfl
    obtain ⟨hlanguage, hfailure⟩ | ⟨hlanguage, herror⟩ := outcome_ofFault f
    · have hfailure := houtcome.trans hfailure
      refine ⟨rfl, ?_, ?_, ?_, rfl, rfl, rfl⟩
      · exact iff_of_false (fun h => by cases hfailure.symm.trans h) nofun
      · exact iff_of_true hfailure ⟨f, rfl, hlanguage⟩
      · refine iff_of_false (fun h => by cases hfailure.symm.trans h) ?_
        rintro ⟨f', hf', hnot⟩
        exact hnot (hcause f' hf' ▸ hlanguage)
    · have herror := houtcome.trans herror
      refine ⟨rfl, ?_, ?_, ?_, rfl, rfl, rfl⟩
      · exact iff_of_false (fun h => by cases herror.symm.trans h) nofun
      · refine iff_of_false (fun h => by cases herror.symm.trans h) ?_
        rintro ⟨f', hf', hscript⟩
        exact hlanguage (hcause f' hf' ▸ hscript)
      · exact iff_of_true herror ⟨f, rfl, hlanguage⟩

end TestResult

/-! ## Runs -/

namespace TestRun

/-- The numbers of successes, failures and errors among the results of a run, which add up to the
number of results. -/
structure Tallies (run : TestRun) (successes failures errors : Nat) : Prop where
  success : (run.results.filter fun r => r.outcome = .success).length = successes
  failure : (run.results.filter fun r => r.outcome = .failure).length = failures
  error : (run.results.filter fun r => r.outcome = .error).length = errors
  total : successes + failures + errors = run.results.length

theorem length_filter_outcomes (results : List TestResult) :
    (results.filter fun r => r.outcome = .success).length +
        (results.filter fun r => r.outcome = .failure).length +
      (results.filter fun r => r.outcome = .error).length = results.length := by
  induction results with
  | nil => rfl
  | cons r rest ih =>
    cases h : r.outcome <;> simp [h] <;> omega

theorem tallies (run : TestRun) :
    run.Tallies (run.count .success) (run.count .failure) (run.count .error) := by
  have hcount : ∀ outcome, run.count outcome =
      (run.results.filter fun r => r.outcome = outcome).length := fun outcome => rfl
  rw [hcount, hcount, hcount]
  exact ⟨rfl, rfl, rfl, length_filter_outcomes run.results⟩

/-- The five lines at the end of a report. -/
def summary (run : TestRun) (successes failures errors : Nat) : List Entry :=
  [.output "", .output "Tests summary:", .output "--------------",
    .output ("Tests run: " ++ toString run.results.length ++
      ", Successes: " ++ toString successes ++ ", Failures: " ++ toString failures ++
      ", Errors: " ++ toString errors),
    .output ("Time: " ++ formatMillis run.elapsedMillis)]

end TestRun

/-- The two lines at the head of a report. -/
def heading : List Entry := [.output "Running tests", .output "-------------"]

/-- What a report has for a test of a batch. -/
def TestResult.chapter (r : TestResult) : List Entry :=
  .output ("# Running test " ++ r.title) :: r.block indent

end Report

end ScriptSession
