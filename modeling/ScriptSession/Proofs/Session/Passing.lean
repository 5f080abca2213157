import ScriptSession.Proofs.Concurrency.Pools
import ScriptSession.Session.Jobs

/-!
# Passing changes

What scripts and the tasks around them change in a world in passing: they print, sleep, read files,
keep modules and bind variables. What these changes leave alone an evaluation leaves alone, so a
statement on evaluations is one on the few kinds of changes. Main statement: an evaluation makes
only passing changes and starts no jobs, whatever its script is and whatever others do meanwhile
(`quiet_evaluateIn`).
-/

namespace ScriptSession
namespace Session

open Concurrency (IsKept Thread)
open Report (TestCase TestResult)
open Script (Run Scope Value)

/-- A change in passing. A context that is changed keeps its generation. -/
inductive Passing : World → World → Prop
  | host (w : World) (host : Host) : Passing w { w with host := host }
  | atGate (w : World) (atGate : List (String × Owner)) : Passing w { w with atGate := atGate }
  | record (w : World) (e : Event) : Passing w (w.record e)
  | entry (w : World) (e : Report.Entry) : Passing w (w.writeEntry e)
  | out (w : World) (sink : Sink) (text : String) : Passing w (w.writeOut sink text)
  | err (w : World) (sink : Sink) (text : String) : Passing w (w.writeErr sink text)
  | enterWait (w : World) (o : Owner) : Passing w (w.alterControl o Task.Control.enterWait)
  | leaveWait (w : World) (o : Owner) : Passing w (w.alterControl o Task.Control.leaveWait)
  | loose (w : World) (title : String) : Passing w (w.addLoose title).2
  | buffer (w : World) : Passing w w.addBuffer.2
  | context (w : World) (i : Nat) (f : Context.State → Context.State)
      (hf : (f (w.context i)).generation = (w.context i).generation) :
      Passing w (w.alterContext i f)

/-! ## Threads that make only some changes -/

/-- The thread makes only changes in `R` and starts no jobs, whatever it sees at its looks, and it
has only results in `Q`. -/
structure Makes (R : World → World → Prop) {α : Type} (Q : α → Prop) (t : Act α) : Prop where
  only : ∀ w, t.Only R Q w

namespace Makes

variable {R R' : World → World → Prop} {α β : Type} {Q : α → Prop} {Q' : β → Prop} {t : Act α}

theorem pure {a : α} (ha : Q a) : Makes R Q (pure a : Act α) := ⟨fun _ => ha⟩

theorem bind {f : α → Act β} (h : Makes R Q t) (hf : ∀ a, Q a → Makes R Q' (f a)) :
    Makes R Q' (t >>= f) := ⟨fun w => (h.only w).bind fun a w ha => (hf a ha).only w⟩

theorem get_bind {f : World → Act α} (hf : ∀ w, Makes R Q (f w)) :
    Makes R Q (getThe World >>= f) := ⟨fun _ w => (hf w).only w⟩

theorem modify {f : World → World} (hf : ∀ w, R w (f w)) :
    Makes R (fun _ => True) (modifyThe World f) := ⟨fun _ w => ⟨hf w, trivial⟩⟩

theorem await (isReady : World → Bool) : Makes R (fun _ => True) (Thread.await isReady) :=
  ⟨fun _ _ _ => trivial⟩

theorem awaitFor (limit : Nat) (isReady : World → Bool) :
    Makes R (fun _ => True) (Thread.awaitFor limit isReady) := ⟨fun _ _ _ => trivial⟩

theorem getHost_bind {f : Host → Act α} (hf : ∀ h, Makes R Q (f h)) :
    Makes R Q (getThe Host >>= f) := ⟨fun _ w => (hf w.host).only w⟩

theorem setHost (hR : ∀ w host, R w { w with host := host }) (h : Host) :
    Makes R (fun _ => True) (set h : Act Unit) := ⟨fun _ w => ⟨hR w h, trivial⟩⟩

theorem now : Makes R (fun _ => True) (Thread.now : Act Nat) := ⟨fun _ _ => trivial⟩

theorem forM {f : α → Act Unit} (hf : ∀ a, Makes R (fun _ => True) (f a)) (as : List α) :
    Makes R (fun _ => True) (as.forM f) := by
  induction as with
  | nil => exact .pure trivial
  | cons a rest ih => exact .bind (hf a) fun _ _ => ih

theorem mono (h : Makes R Q t) (hR : ∀ w w', R w w' → R' w w') : Makes R' Q t :=
  ⟨fun w => (h.only w).mono hR fun _ h => h⟩

theorem forget (h : Makes R Q t) : Makes R (fun _ => True) t :=
  ⟨fun w => (h.only w).mono (fun _ _ h => h) fun _ _ => trivial⟩

end Makes

/-- The thread makes only passing changes and starts no jobs, whatever it sees at its looks. -/
abbrev Quiet {α : Type} (t : Act α) : Prop := Makes Passing (fun _ => True) t

namespace Quiet

variable {α β : Type} {t : Act α}

theorem pure (a : α) : Quiet (pure a : Act α) := Makes.pure trivial

theorem bind {f : α → Act β} (h : Quiet t) (hf : ∀ a, Quiet (f a)) : Quiet (t >>= f) :=
  Makes.bind h fun a _ => hf a

theorem get_bind {f : World → Act α} (hf : ∀ w, Quiet (f w)) : Quiet (getThe World >>= f) :=
  Makes.get_bind hf

theorem getHost_bind {f : Host → Act α} (hf : ∀ h, Quiet (f h)) : Quiet (getThe Host >>= f) :=
  Makes.getHost_bind hf

theorem setHost (h : Host) : Quiet (set h : Act Unit) := Makes.setHost .host h

end Quiet

/-! ## Publishing -/

/-- To publish a snapshot is to replace what is published last and to record that for every
observer. What records keep is kept from the first of them on. -/
theorem World.publish_records {R : World → World → Prop} (hR : IsKept R)
    (hrecord : ∀ v e, R v (v.record e)) (w : World) (shot : Report.Snapshot) :
    R (w.alterSession fun c => { c with reporter := { c.reporter with latest := some shot } })
      (w.publish shot) := by
  have hrecords : ∀ (seen : List (String × Report.Snapshot)) (v : World),
      R v (seen.foldl (fun v x => v.record (.snapshot x.2.generation x.2.names)) v) := by
    intro seen
    induction seen with
    | nil => exact hR.refl
    | cons x rest ih => exact fun v => hR.trans (hrecord v _) (ih _)
  exact hrecords _ _

/-! ## Scripts -/

theorem quiet_write (e : Report.Entry) : Quiet (write e) := .modify fun w => .entry w e

theorem makes_stopAt {R : World → World → Prop}
    (hR : ∀ w atGate, R w { w with atGate := atGate }) (gate : String) (owner : Owner) :
    Makes R (fun _ => True) (stopAt gate owner) :=
  .bind (.modify fun w => hR w _) fun _ _ => .bind (.await _) fun _ _ => .modify fun w => hR w _

/-- What a script changes while it speaks and sleeps is in a relation. -/
structure Running.Speaks (r : Running) (R : World → World → Prop) : Prop where
  atGate : ∀ w atGate, R w { w with atGate := atGate }
  out : ∀ w text, R w (w.writeOut r.sink text)
  err : ∀ w text, R w (w.writeErr r.sink text)
  enterWait : ∀ w, R w (w.alterControl r.owner Task.Control.enterWait)
  leaveWait : ∀ w, R w (w.alterControl r.owner Task.Control.leaveWait)

/-- What a script changes while it runs in an evaluation is in a relation. -/
structure Running.Works (r : Running) (R : World → World → Prop) : Prop extends r.Speaks R where
  module : ∀ w file m, R w (w.alterContext r.context (·.keepModule file m))

/-- What an evaluation changes is in a relation. A context that is changed keeps its generation. -/
structure Running.Covers (r : Running) (R : World → World → Prop) : Prop extends r.Works R where
  context : ∀ w (f : Context.State → Context.State),
    (f (w.context r.context)).generation = (w.context r.context).generation →
      R w (w.alterContext r.context f)

theorem Running.covers_passing (r : Running) : r.Covers Passing where
  atGate := .atGate
  out w := .out w r.sink
  err w := .err w r.sink
  enterWait w := .enterWait w r.owner
  leaveWait w := .leaveWait w r.owner
  module w _ _ := .context w r.context _ rfl
  context w := .context w r.context

namespace Running

variable {r : Running} {R : World → World → Prop}

section

variable (hR : r.Speaks R)
include hR

theorem makes_printLine (text : String) :
    Makes R (fun _ => True) (printLine r.sink r.owner text) := by
  refine .get_bind fun w => ?_
  split
  · exact makes_stopAt hR.atGate _ r.owner
  · exact .modify fun w => hR.out w text

theorem makes_sleep (millis : Nat) : Makes R (fun _ => True) (r.sleep millis) :=
  .bind (.modify hR.enterWait) fun _ _ => .bind (.awaitFor _ _) fun _ _ =>
    .bind (.modify hR.leaveWait) fun _ _ => .pure trivial

omit hR in
theorem makes_proceed (asked : Nat) : Makes R (fun _ => True) (r.proceed asked) := by
  have hend : Makes R (fun _ => True) (do return !r.isCancelled (← getThe World)) :=
    .get_bind fun _ => .pure trivial
  rw [proceed]
  split
  · exact .bind (.awaitFor _ _) fun _ _ => hend
  · exact hend

/-- Answering a question makes only changes of the script if resolving the import does that it may
be. -/
theorem makes_answer {load : Loader} (asked : Nat) (q : Script.Request)
    (hload : ∀ name p, q = .load name p → Makes R (fun _ => True) (load name p)) :
    Makes R (fun _ => True) (r.answer load asked q) := by
  cases q with
  | print text => exact makes_printLine hR text
  | complain text => exact .modify fun w => hR.err w text
  | sleep millis => exact makes_sleep hR millis
  | proceed => exact makes_proceed asked
  | readText => exact .get_bind fun _ => .pure trivial
  | load name p => exact hload name p rfl

end

variable (hR : r.Works R)
include hR

section

variable {load : Loader} (hload : ∀ name p, Makes R (fun _ => True) (load name p))
include hload

/-- The induction is on the questions of the script. -/
theorem makes_interpret {α : Type} (asked : Nat) (run : Run α) :
    Makes R (fun _ => True) (r.interpret load asked run) := by
  induction run generalizing asked with
  | done a => exact .pure trivial
  | ask q k ih =>
    exact .bind (makes_answer hR.toSpeaks asked q fun name p _ => hload name p) fun x _ =>
      ih x (asked + 1)

theorem makes_runFile (file : Path) : Makes R (fun _ => True) (r.runFile load file) := by
  refine .get_bind fun w => ?_
  split
  · exact .pure trivial
  · exact makes_interpret hR hload 0 _

theorem makes_resolve (name : String) (p : Script.Position) :
    Makes R (fun _ => True) (r.resolve load name p) := by
  refine .get_bind fun w => ?_
  split
  · exact .pure trivial
  · rename_i file _
    split
    · exact .pure trivial
    · refine .bind (makes_runFile hR hload file) fun found _ => ?_
      split
      · exact .pure trivial
      · exact .bind (.modify fun w => hR.module w file _) fun _ _ => .pure trivial

end

theorem makes_resolveWithin (depth : Nat) (name : String) (p : Script.Position) :
    Makes R (fun _ => True) (r.resolveWithin depth name p) := by
  induction depth generalizing name p with
  | zero => exact .bind (.await _) fun _ _ => .pure trivial
  | succ depth ih => exact makes_resolve hR ih name p

theorem makes_run (script : String) (scope : Scope) :
    Makes R (fun _ => True) (r.run script scope) :=
  .bind (makes_interpret hR (makes_resolveWithin hR _) 0 _) fun _ _ => .pure trivial

end Running

/-! ## Evaluations -/

section
variable {R : World → World → Prop} {i : Nat}
  (hR : ∀ w (f : Context.State → Context.State),
    (f (w.context i)).generation = (w.context i).generation → R w (w.alterContext i f))
include hR

theorem makes_onVariables {α : Type} (bindings : Context.Bindings)
    (extra : List (String × Value)) {work : Scope → Act (α × Scope)}
    (hwork : ∀ scope, Makes R (fun _ => True) (work scope)) :
    Makes R (fun _ => True) (onVariables i bindings extra work) :=
  .bind (.modify fun w => hR w _ rfl) fun _ _ => .get_bind fun _ => .bind (hwork _) fun _ _ =>
    .bind (.modify fun w => hR w _ rfl) fun _ _ => .pure trivial

omit hR in
theorem generation_mergeIfFree (c : Context.State) : c.mergeIfFree.generation = c.generation := by
  rw [Context.State.mergeIfFree]
  split <;> rfl

theorem makes_onCopy {α : Type} (bindings : Context.Bindings)
    (extra : List (String × Value)) {work : Scope → Act (α × Scope)}
    (hwork : ∀ scope, Makes R (fun _ => True) (work scope)) :
    Makes R (fun _ => True) (onCopy i bindings extra work) :=
  .get_bind fun _ => .bind (hwork _) fun _ _ =>
    .bind (.modify fun w => hR w _ (generation_mergeIfFree _)) fun _ _ => .pure trivial

end

/-- An evaluation makes only the changes that one makes, whatever its script is. -/
theorem makes_evaluateIn {r : Running} {R : World → World → Prop} (hR : r.Covers R)
    (script : String) (bindings : Context.Bindings) (extra : List (String × Value)) :
    Makes R (fun _ => True) (evaluateIn r script bindings extra) := by
  refine .bind (.modify fun w => hR.context w _ rfl) fun _ _ =>
    .bind (.awaitFor _ _) fun isFree _ => ?_
  split
  · exact makes_onVariables hR.context bindings extra (Running.makes_run hR.toWorks script)
  · exact makes_onCopy hR.context bindings extra (Running.makes_run hR.toWorks script)

/-- An evaluation makes only passing changes, whatever its script is. -/
theorem quiet_evaluateIn (r : Running) (script : String) (bindings : Context.Bindings)
    (extra : List (String × Value)) : Quiet (evaluateIn r script bindings extra) :=
  makes_evaluateIn r.covers_passing script bindings extra

theorem quiet_evaluateOn (i : Nat) (script : String) (extra : List (String × Value))
    (sink : Sink) (title : String) : Quiet (evaluateOn i script extra sink title) :=
  ⟨fun _ w => ⟨.loose w title, (quiet_evaluateIn _ script _ extra).only _⟩⟩

/-! ## Variables -/

theorem quiet_setVariable (i : Nat) (name : String) (v : Value) : Quiet (setVariable i name v) := by
  refine .bind (.awaitFor _ _) fun isFree => ?_
  split
  · exact .modify fun w => .context w i _ rfl
  · exact .modify fun w => .context w i _ (generation_mergeIfFree _)

/-! ## Building -/

/-- What a builder does when it knows the locations: it takes a number and keeps a context. -/
def keepContext (scope : Context.LoadingScope) (bindings : Context.Bindings) :
    Act (Except Failure Nat) := do
  let generation := (← getThe World).session.generation + 1
  modifyThe World (·.alterSession fun c => { c with generation := generation })
  let (i, w) := (← getThe World).addContext (.new generation scope bindings)
  set w
  return .ok i

/-! ## Tasks -/

/-- What becomes of a test, from the result of its script and the buffer of its output. -/
def endCase (case : TestCase) (buffer : Nat) (result : Except Evaluation.Fault Value) :
    Act TestResult := do
  let captured := (← getThe World).buffers.getD buffer .empty
  let r := match result with
    | .ok _ => TestResult.success case.title
    | .error f => TestResult.ofFault case.title f
  return r.withOutput captured.out captured.err

theorem makes_endCase (case : TestCase) (buffer : Nat) (result : Except Evaluation.Fault Value) :
    Makes Passing (fun r => r.title = case.title) (endCase case buffer result) := by
  refine .get_bind fun w => .pure ?_
  cases result <;> rfl

/-- A test makes only passing changes, and its result bears its title. -/
theorem makes_runCase (id i : Nat) (case : TestCase) :
    Makes Passing (fun r => r.title = case.title) (runCase id i case) := by
  refine ⟨fun _ w => ⟨.buffer w, ?_⟩⟩
  have heval := quiet_evaluateIn ⟨i, .buffer w.buffers.length false, .task id⟩ case.script
    w.session.bindings []
  exact (Makes.bind heval fun result _ => makes_endCase case w.buffers.length result).only _

/-- Tests in a row make only passing changes. -/
theorem quiet_runCases (id i : Nat) (hasSummary : Bool) (cases : List TestCase) :
    Quiet (runCases id i hasSummary cases) := by
  induction cases with
  | nil => exact .pure _
  | cons case rest ih =>
    have htest : Quiet (runCase id i case) := (makes_runCase id i case).forget
    -- Whether there is a title before it or not, a test is run, reported, and followed by the rest.
    have hend : ∀ indent, Quiet (do
        let r ← runCase id i case
        (r.entries indent).forM write
        return r :: (← runCases id i hasSummary rest)) := by
      intro indent
      refine .bind htest fun r => ?_
      generalize r.entries _ = entries
      exact .bind (.forM quiet_write entries) fun _ => .bind ih fun _ => .pure _
    refine .get_bind fun w => ?_
    split
    · exact .pure _
    · split
      · exact .bind (quiet_write _) fun _ => hend _
      · exact hend _

theorem quiet_runAutorun (i : Nat) : Quiet (runAutorun i) := by
  refine .get_bind fun w => .forM (fun path => ?_) _
  have hscript : Quiet (runAutorunScript i path) := by
    refine .get_bind fun w => ?_
    split
    · exact .pure _
    · exact .bind (quiet_evaluateOn i _ [] .process _) fun _ => .pure _
  refine .get_bind fun w => ?_
  split
  · refine Quiet.bind hscript fun result => ?_
    split
    · exact .pure _
    · exact quiet_write _
  · exact Quiet.pure _

theorem quiet_stayAtGate (id : Nat) (plan : Plan) (gate : String) :
    Quiet (stayAtGate id plan gate) := by
  have hrecord : Quiet (do
      let w ← getThe World
      set (w.record (.resumed plan.name (w.control (.task id)).isCancelled))) :=
    ⟨fun _ w => ⟨.record w _, trivial⟩⟩
  rw [stayAtGate]
  cases plan.waits with
  | true =>
    exact .bind (.modify fun w => .enterWait w (.task id)) fun _ =>
      .bind (makes_stopAt .atGate _ _) fun _ =>
        .bind (.modify fun w => .leaveWait w (.task id)) fun _ => hrecord
  | false => exact .bind (makes_stopAt .atGate _ _) fun _ => hrecord

theorem quiet_planTask (id : Nat) (plan : Plan) : Quiet (planTask id plan) := by
  have hend : ∀ outcome : Outcome, Quiet (do
      if plan.untilCancelled then Thread.await fun w => (w.control (.task id)).isCancelled
      return outcome) := by
    intro outcome
    split
    · exact .bind (.await _) fun _ => .pure _
    · exact .pure _
  refine .bind (.modify fun w => .record w _) fun _ => ?_
  cases plan.gate with
  | some gate => exact .bind (quiet_stayAtGate id plan gate) fun _ => hend _
  | none => exact hend _

end Session
end ScriptSession
