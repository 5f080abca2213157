import ScriptSession.Proofs.Session.Showing
import ScriptSession.Proofs.Session.Verdicts

/-!
# Reports on tests

A call that runs tests in a context that nobody else works in, and that nobody cancels. Its batch
evaluates one test after the other, each on the variables that the one before has left and with the
bindings of the host (`Evaluated`). Main statement: the call returns the verdicts on these
evaluations, and the transcript shows them test by test with a head and a summary, or with neither
for a test by itself (`tests_reported`). A call whose scripts come to an end can be brought to its
end whatever has happened so far.
-/

namespace ScriptSession
namespace Session

open Concurrency (Call IsKept Pool Thread runFrom)
open Report (Entry Streams TestCase TestOutcome TestResult TestRun)
open Script (Scope Value)
open ScriptSession.Task (Admission)

/-! ## Tests one after the other -/

/-- What others may do beside a task that works in a context: anything that shows nothing and leaves
the context, the buffers, the task and the run under its number alone. -/
structure LeavesAlone (i id : Nat) (w w' : World) : Prop where
  display : w'.display = w.display
  transcript : w'.transcript = w.transcript
  streams : w'.streams = w.streams
  context : w'.contexts[i]? = w.contexts[i]?
  buffers : w'.buffers = w.buffers
  task : w'.admission.task? id = w.admission.task? id
  run : w'.run? id = w.run? id

theorem isKept_leavesAlone (i id : Nat) : IsKept (LeavesAlone i id) where
  refl _ := ⟨rfl, rfl, rfl, rfl, rfl, rfl, rfl⟩
  trans h h' := ⟨h'.display.trans h.display, h'.transcript.trans h.transcript,
    h'.streams.trans h.streams, h'.context.trans h.context, h'.buffers.trans h.buffers,
    h'.task.trans h.task, h'.run.trans h.run⟩

namespace World

/-- The evaluation of a test begins: the test has been announced, there is a buffer for what its
script writes, and the variables of the context are held. -/
def enter (w : World) (i : Nat) (announcement : List Entry) : World :=
  ((announcement.foldl writeEntry w).addBuffer.2.alterContext i Context.State.markUsed).alterContext
    i Context.State.acquire

/-- The evaluation of a test has ended: the context has the variables that the script has left, and
the result has been written down. -/
def leave (w : World) (i : Nat) (scope : Scope) (entries : List Entry) : World :=
  entries.foldl writeEntry (w.alterContext i (·.release scope))

end World

/-- The line that announces a test of a batch. A test by itself has none. -/
def announcement (hasSummary : Bool) (title : String) : List Entry :=
  if hasSummary then [.output ("# Running test " ++ title)] else []

/-- The indent of what is written about a test. -/
def indentOf (hasSummary : Bool) : String := if hasSummary then Report.indent else ""

/-- The script of a test, run on variables in a context with its output in a buffer. -/
def scriptOf (i id buffer : Nat) (case : TestCase) (bindings : Context.Bindings) (scope : Scope) :
    Act (Except Evaluation.Fault Value × Scope) :=
  Running.run ⟨i, .buffer buffer false, .task id⟩ case.script (Context.bound scope bindings [])

/-- Tests evaluated one after the other, from a world and the variables of its context to those in
the end. Each test is evaluated once, on the variables that the one before has left and with the
bindings of the host, and its result is the verdict on this evaluation. -/
inductive Evaluated (i id : Nat) (hasSummary : Bool) :
    World → Scope → List TestCase → List TestResult → Scope → World → Prop
  | nil (w : World) (scope : Scope) : Evaluated i id hasSummary w scope [] [] scope w
  | cons {w v w' : World} {scope scope' left : Scope} {case : TestCase} {rest : List TestCase}
    {result : Except Evaluation.Fault Value} {r : TestResult} {results : List TestResult}
    (heval : (scriptOf i id w.buffers.length case w.session.bindings scope).Ends (LeavesAlone i id)
      (w.enter i (announcement hasSummary case.title)) (result, scope') v)
    (hjudges : r.Judges case result (v.buffers.getD w.buffers.length .empty))
    (hrest : Evaluated i id hasSummary (v.leave i scope' (r.block (indentOf hasSummary))) scope'
      rest results left w') :
    Evaluated i id hasSummary w scope (case :: rest) (r :: results) left w'

/-- The scripts of tests come to an end, one after the other. -/
inductive AllEnd (i id : Nat) (hasSummary : Bool) : World → Scope → List TestCase → Prop
  | nil (w : World) (scope : Scope) : AllEnd i id hasSummary w scope []
  | cons {w : World} {scope : Scope} {case : TestCase} {rest : List TestCase}
    {Q : Except Evaluation.Fault Value × Scope → World → Prop}
    (hcase : (scriptOf i id w.buffers.length case w.session.bindings scope).Finishes
      (LeavesAlone i id) (w.enter i (announcement hasSummary case.title)) Q)
    (hrest : ∀ p v, Q p v → AllEnd i id hasSummary (v.leave i p.2
      ((TestResult.ofEvaluation case p.1 (v.buffers.getD w.buffers.length .empty)).block
        (indentOf hasSummary))) p.2 rest) :
    AllEnd i id hasSummary w scope (case :: rest)

/-- The variables of a context are free, and an evaluation that takes them finds these. -/
def Offers (i : Nat) (scope : Scope) (w : World) : Prop :=
  ∃ c, w.contexts[i]? = some c ∧ c.isHeld = false ∧ c.mergePending.scope = scope

/-- A task is under way: it has not ended, and it has not been cancelled. -/
def UnderWay (id : Nat) (w : World) : Prop :=
  ∃ t, w.admission.task? id = some t ∧ t.control.exit = .running ∧ t.control.isCancelled = false

/-! ## Inside a script -/

/-- What does not change while a script runs, whoever acts: what is shown, which changes wait to be
merged, and that the task is under way. -/
structure Interim (i id : Nat) (w w' : World) : Prop where
  display : w'.display = w.display
  transcript : w'.transcript = w.transcript
  streams : w'.streams = w.streams
  pending : ∀ c, w.contexts[i]? = some c → ∃ c', w'.contexts[i]? = some c' ∧ c'.pending = c.pending
  task : UnderWay id w → UnderWay id w'

theorem isKept_interim (i id : Nat) : IsKept (Interim i id) where
  refl _ := ⟨rfl, rfl, rfl, fun c hc => ⟨c, hc, rfl⟩, fun h => h⟩
  trans h h' := by
    refine ⟨h'.display.trans h.display, h'.transcript.trans h.transcript,
      h'.streams.trans h.streams, fun c hc => ?_, fun hw => h'.task (h.task hw)⟩
    obtain ⟨c', hc', hpending⟩ := h.pending c hc
    obtain ⟨c'', hc'', hpending'⟩ := h'.pending c' hc'
    exact ⟨c'', hc'', hpending'.trans hpending⟩

theorem Interim.of_leavesAlone {i id : Nat} {w w' : World} (h : LeavesAlone i id w w') :
    Interim i id w w' := by
  refine ⟨h.display, h.transcript, h.streams, fun c hc => ⟨c, by rw [h.context, hc], rfl⟩, ?_⟩
  rintro ⟨t, ht, hrunning⟩
  exact ⟨t, by rw [h.task, ht], hrunning⟩

/-- A script whose output goes to a buffer changes nothing else than what may change meanwhile. -/
theorem works_interim (i id buffer : Nat) :
    Running.Works ⟨i, .buffer buffer false, .task id⟩ (Interim i id) := by
  -- Writing to the buffer touches none of what is looked at here; a wait touches the control of the
  -- task.
  have hsame : ∀ w w' : World, w'.display = w.display → w'.transcript = w.transcript →
      w'.streams = w.streams → w'.contexts = w.contexts → w'.admission = w.admission →
      Interim i id w w' := by
    intro w w' hdisplay htranscript hstreams hcontexts hadmission
    refine ⟨hdisplay, htranscript, hstreams, fun c hc => ⟨c, by rw [hcontexts, hc], rfl⟩, ?_⟩
    rintro ⟨t, ht, hrunning⟩
    exact ⟨t, by rw [hadmission, ht], hrunning⟩
  have hwait : ∀ (w : World) (f : Task.Control → Task.Control), (∀ c, (f c).id = c.id) →
      (∀ c, (f c).exit = c.exit) → (∀ c, (f c).isCancelled = c.isCancelled) →
      Interim i id w (w.alterControl (.task id) f) := by
    intro w f hid hexit hcancelled
    refine ⟨rfl, rfl, rfl, fun c hc => ⟨c, hc, rfl⟩, ?_⟩
    rintro ⟨t, ht, hrunning, hgoing⟩
    refine ⟨{ t with control := f t.control }, ?_, (hexit _).trans hrunning,
      (hcancelled _).trans hgoing⟩
    show (w.admission.alterControl id f).task? id = _
    rw [Admission.task?_alterControl _ id hid, ht]
    rfl
  refine ⟨⟨fun _ _ => hsame _ _ rfl rfl rfl rfl rfl, fun _ _ => hsame _ _ rfl rfl rfl rfl rfl,
    fun _ _ => hsame _ _ rfl rfl rfl rfl rfl,
    fun w => hwait w _ (fun _ => rfl) (fun _ => rfl) fun _ => rfl,
    fun w => hwait w _ (fun _ => rfl) (fun _ => rfl) fun _ => rfl⟩, fun w file m => ?_⟩
  refine ⟨rfl, rfl, rfl, fun c hc => ⟨c.keepModule file m, ?_, rfl⟩, fun h => h⟩
  rw [World.alterContext, List.getElem?_modify_eq, hc]
  rfl

/-! ## Evaluating a test -/

variable {i id : Nat} {w : World} {scope : Scope} {ends : Prop}

theorem UnderWay.hasExited (h : UnderWay id w) : w.admission.hasExited id = false := by
  obtain ⟨t, ht, hrunning, -⟩ := h
  rw [Admission.hasExited_of_task? ht, Task.Control.hasExited, hrunning]
  rfl

theorem UnderWay.isCancelled (h : UnderWay id w) :
    (w.control (.task id)).isCancelled = false := by
  obtain ⟨t, ht, -, hgoing⟩ := h
  show ((w.admission.control? id).getD default).isCancelled = false
  rw [Admission.control?, ht]
  exact hgoing

/-- What a script comes to is a value or a fault of the script. -/
theorem exists_outcome_of_ends {R : World → World → Prop} {buffer : Nat} {case : TestCase}
    {bindings : Context.Bindings} {result : Except Evaluation.Fault Value} {scope' : Scope}
    {v : World} (h : (scriptOf i id buffer case bindings scope).Ends R w (result, scope') v) :
    ∃ outcome : Except Script.Fault Value, result = outcome.mapError .ofScript := by
  obtain ⟨⟨outcome, left⟩, v', -, heq, -⟩ := Thread.ends_bind'.mp h
  exact ⟨outcome, (Prod.mk.inj heq).1⟩

theorem context_alterContext {c : Context.State} (hc : w.contexts[i]? = some c)
    (f : Context.State → Context.State) : (w.alterContext i f).contexts[i]? = some (f c) := by
  rw [World.alterContext, List.getElem?_modify_eq, hc]
  rfl

theorem context_eq {c : Context.State} (hc : w.contexts[i]? = some c) : w.context i = c := by
  rw [World.context, List.getD_eq_getElem?_getD, hc]
  rfl

/-- An evaluation that finds the variables free runs its script on them and puts back what it has
left. -/
theorem proceeds_evaluateIn {R : World → World → Prop} {P : World → Prop} {r : Running}
    {script : String} {bindings : Context.Bindings}
    {Q : Except Evaluation.Fault Value → World → Prop} (hw : Offers r.context scope w)
    (h : (r.run script (Context.bound scope bindings [])).Proceeds R P ends
      ((w.alterContext r.context Context.State.markUsed).alterContext r.context
        Context.State.acquire) fun p v => Q p.1 (v.alterContext r.context (·.release p.2))) :
    (evaluateIn r script bindings []).Proceeds R P ends w Q := by
  obtain ⟨c, hc, hfree, hscope⟩ := hw
  have hused := context_alterContext hc Context.State.markUsed
  have hheld := context_alterContext hused Context.State.acquire
  -- Nobody holds the variables, so it does not wait for them, and those that it finds are the ones
  -- on offer.
  have hready : isFree r.context (w.alterContext r.context Context.State.markUsed) = true := by
    rw [isFree, context_eq hused]
    show (!c.isHeld) = true
    rw [hfree]
    rfl
  have hfound : (((w.alterContext r.context Context.State.markUsed).alterContext r.context
      Context.State.acquire).context r.context).scope = scope := by
    rw [context_eq hheld]
    exact hscope
  refine Or.inl ⟨hready, ?_⟩
  show Thread.Proceeds R P ends ((r.run script (Context.bound
    (((w.alterContext r.context Context.State.markUsed).alterContext r.context
      Context.State.acquire).context r.context).scope bindings [])).bind _) _ Q
  rw [hfound]
  exact .bind h

/-- A test that finds the variables free: its script is evaluated once, on them, and its result is
that of this evaluation. -/
theorem proceeds_runCase (case : TestCase) (ends : Prop)
    {Q : Except Evaluation.Fault Value × Scope → World → Prop} (hw : Offers i scope w)
    (hway : UnderWay id w)
    (hends : ends → (scriptOf i id w.buffers.length case w.session.bindings scope).Finishes
      (LeavesAlone i id) (w.enter i []) Q) :
    (runCase id i case).Proceeds (LeavesAlone i id) (fun w => w.admission.hasExited id = false) ends
      w fun r w' => ∃ result scope' v,
        (scriptOf i id w.buffers.length case w.session.bindings scope).Ends (LeavesAlone i id)
          (w.enter i []) (result, scope') v ∧
        r = .ofEvaluation case result (v.buffers.getD w.buffers.length .empty) ∧
        w' = v.alterContext i (·.release scope') ∧ Interim i id (w.enter i []) v ∧
        (ends → Q (result, scope') v) := by
  let r : Running := ⟨i, .buffer w.buffers.length false, .task id⟩
  have hoffers : Offers i scope w.addBuffer.2 := hw
  have hscript : (scriptOf i id w.buffers.length case w.session.bindings scope).Proceeds
      (LeavesAlone i id) (Interim i id (w.enter i [])) ends (w.enter i []) fun p v =>
        (scriptOf i id w.buffers.length case w.session.bindings scope).Ends (LeavesAlone i id)
          (w.enter i []) p v ∧ Interim i id (w.enter i []) v ∧ (ends → Q p v) :=
    ((Running.makes_run (works_interim i id w.buffers.length) _ _).only _).proceeds
      (fun _ _ h h' => (isKept_interim i id).trans h' h)
      (fun _ _ h h' => (isKept_interim i id).trans h' (.of_leavesAlone h))
      (isKept_leavesAlone i id).refl ((isKept_interim i id).refl _) hends
  have hentered : UnderWay id (w.enter i []) := hway
  show Thread.Proceeds _ _ _ (evaluateIn r case.script w.session.bindings [] >>=
    endCase case w.buffers.length) w.addBuffer.2 _
  refine Thread.Proceeds.bind (proceeds_evaluateIn hoffers (hscript.mono
    (fun v hv => (hv.task hentered).hasExited) fun p v hv => ?_))
  obtain ⟨hevals, hinterim, hfinish⟩ := hv
  exact ⟨p.1, p.2, v, hevals, rfl, rfl, hinterim, hfinish⟩

/-! ## Evaluating tests in a row -/

theorem writes_writeAll (id : Nat) (w : World) (es : List Entry) :
    Writes id es (fun t => t) w (es.foldl World.writeEntry w) := by
  induction es generalizing w with
  | nil => exact .refl w
  | cons e rest ih => exact (writes_writeEntry id w e).trans (ih _)

theorem session_writeAll (w : World) (es : List Entry) :
    (es.foldl World.writeEntry w).session = w.session := by
  have hrecord : ∀ (w : World) (e : Event), (w.record e).session = w.session := by
    intro w e
    rw [World.record]
    split <;> rfl
  have hwrite : ∀ (w : World) (e : Entry), (w.writeEntry e).session = w.session := by
    intro w e
    rw [World.writeEntry]
    split
    · exact hrecord _ _
    · rfl
  induction es generalizing w with
  | nil => rfl
  | cons e rest ih => exact (ih _).trans (hwrite w e)

theorem Writes.offers {es : List Entry} {f : Task.Record → Task.Record} {w' : World}
    (h : Writes id es f w w') (hw : Offers i scope w) : Offers i scope w' := by
  obtain ⟨c, hc, hoffers⟩ := hw
  exact ⟨c, by rw [h.contexts, hc], hoffers⟩

theorem Writes.underWay {es : List Entry} {w' : World} (h : Writes id es (fun t => t) w w')
    (hw : UnderWay id w) : UnderWay id w' := by
  obtain ⟨t, ht, hrunning⟩ := hw
  exact ⟨t, by rw [h.task, ht]; rfl, hrunning⟩

/-- Writing entries one after the other. -/
theorem proceeds_writes {R : World → World → Prop} {P : World → Prop} {Q : Unit → World → Prop}
    {es : List Entry} (h : Q () (es.foldl World.writeEntry w)) :
    (es.forM write).Proceeds R P ends w Q := by
  induction es generalizing w with
  | nil => exact h
  | cons e rest ih => exact .bind (ih h)

/-- The look before a test, and the test with what is written about it. -/
theorem runCases_eq_cons (i id : Nat) (hasSummary : Bool) (case : TestCase) (rest : List TestCase) :
    runCases id i hasSummary (case :: rest) = getThe World >>= fun w =>
      if (w.control (.task id)).isCancelled then pure [] else do
        (announcement hasSummary case.title).forM write
        let r ← runCase id i case
        (r.block (indentOf hasSummary)).forM write
        return r :: (← runCases id i hasSummary rest) := by
  refine congrArg Thread.get (funext fun w => ?_)
  show (if (w.control (.task id)).isCancelled then pure [] else _) = _
  simp only [← TestResult.entries_eq_block]
  cases hasSummary <;> rfl

/-- What the transcript gets of a test that has been evaluated. -/
def reported (hasSummary : Bool) (r : TestResult) : List Entry :=
  announcement hasSummary r.title ++ r.block (indentOf hasSummary)

/-- A context that a script has left offers the variables that the script has left. -/
theorem offers_release {v : World} (hw : Offers i scope w)
    (hv : Interim i id (w.enter i []) v) (scope' : Scope) :
    Offers i scope' (v.alterContext i (·.release scope')) := by
  obtain ⟨c, hc, -, -⟩ := hw
  have hheld : (w.enter i []).contexts[i]? = some c.markUsed.acquire :=
    context_alterContext (context_alterContext hc _) _
  obtain ⟨c', hc', hpending⟩ := hv.pending _ hheld
  have hnone : c'.pending = [] := hpending
  refine ⟨c'.release scope', context_alterContext hc' _, rfl, ?_⟩
  simp only [Context.State.release, Context.State.putBack, Context.State.mergePending,
    Context.State.publish, Context.State.letGo, hnone]
  rfl

/-- A test that has been evaluated is shown with all that is written about it. -/
theorem shows_leave {v : World} {announced block : List Entry}
    (hv : Interim i id (w.enter i announced) v) (scope' : Scope) :
    w.Shows (announced ++ block) (v.leave i scope' block) := by
  have hannounced := (writes_writeAll id w announced).shows
  have hentered : World.Shows [] (announced.foldl World.writeEntry w) (w.enter i announced) :=
    .of_eq rfl rfl rfl
  have hscript : World.Shows [] (w.enter i announced) v :=
    .of_eq hv.display hv.transcript hv.streams
  have hreleased : World.Shows [] v (v.alterContext i (·.release scope')) := .of_eq rfl rfl rfl
  have hblock := (writes_writeAll id (v.alterContext i (·.release scope')) block).shows
  have hall := (((hannounced.trans hentered).trans hscript).trans hreleased).trans hblock
  rwa [List.append_nil, List.append_nil, List.append_nil] at hall

/-- The induction is on the tests. Each one leaves the variables free for the next one. -/
theorem proceeds_runCases {hasSummary : Bool} {cases : List TestCase} (hw : Offers i scope w)
    (hway : UnderWay id w) (hends : ends → AllEnd i id hasSummary w scope cases) :
    (runCases id i hasSummary cases).Proceeds (LeavesAlone i id)
      (fun w => w.admission.hasExited id = false) ends w fun results w' => ∃ left,
        Evaluated i id hasSummary w scope cases results left w' ∧
        w.Shows (results.flatMap (reported hasSummary)) w' ∧ Offers i left w' ∧
        UnderWay id w' := by
  induction cases generalizing w scope with
  | nil => exact ⟨scope, .nil w scope, .refl w, hw, hway⟩
  | cons case rest ih =>
    rw [runCases_eq_cons]
    show Thread.Proceeds _ _ _ (if (w.control (.task id)).isCancelled then _ else _) w _
    rw [hway.isCancelled, if_neg Bool.false_ne_true]
    -- The announcement is written first; it leaves the variables and the buffers alone.
    have hannounced := writes_writeAll id w (announcement hasSummary case.title)
    have hbindings := session_writeAll w (announcement hasSummary case.title)
    refine .bind (proceeds_writes (.bind ?_))
    have htest := proceeds_runCase case ends (hannounced.offers hw) (hannounced.underWay hway)
      (Q := fun p v => AllEnd i id hasSummary (v.leave i p.2
        ((TestResult.ofEvaluation case p.1 (v.buffers.getD w.buffers.length .empty)).block
          (indentOf hasSummary))) p.2 rest)
    rw [hannounced.buffers, hbindings] at htest
    refine (htest fun he => ?_).mono (fun _ h => h) ?_
    · obtain ⟨⟩ | ⟨hcase, hrest⟩ := hends he
      exact hcase.mono hrest
    rintro r w' ⟨result, scope', v, hevals, hr, rfl, hinterim, hrest⟩
    obtain ⟨outcome, houtcome⟩ := exists_outcome_of_ends hevals
    have hjudges : r.Judges case result (v.buffers.getD w.buffers.length .empty) := by
      rw [hr, houtcome]
      exact TestResult.judges_ofEvaluation case outcome _
    have hblock := writes_writeAll id (v.alterContext i (·.release scope'))
      (r.block (indentOf hasSummary))
    have hleft : UnderWay id v := hinterim.task (hannounced.underWay hway)
    refine .bind (proceeds_writes (.bind ?_))
    refine (ih (hblock.offers (offers_release (hannounced.offers hw) hinterim scope'))
      (hblock.underWay hleft) fun he => ?_).mono (fun _ h => h) ?_
    · rw [hr]
      exact hrest he
    · rintro results w' ⟨left, hrest, hshows, hoffers, hway⟩
      have hscript : Interim i id (w.enter i (announcement hasSummary case.title)) v := hinterim
      refine ⟨left, .cons hevals hjudges hrest, ?_, hoffers, hway⟩
      rw [List.flatMap_cons, reported, hjudges.title]
      exact (shows_leave hscript scope').trans hshows

/-! ## The thread of a batch -/

/-- What is at the head of a report. A test by itself has nothing there. -/
def headOf (hasSummary : Bool) : List Entry := if hasSummary then Report.heading else []

/-- What is at the end of a report. A test by itself has nothing there. -/
def footOf (hasSummary : Bool) (run : TestRun) : List Entry :=
  if hasSummary then run.summaryEntries else []

/-- What the thread of a batch does before its tests. -/
def openWith (id : Nat) (hasSummary : Bool) : Act Unit := do
  notifyStarted id
  alterAdmission (·.begin id)
  (headOf hasSummary).forM write

/-- What the thread of a batch does after its tests. -/
def closeWith (id i started : Nat) (hasSummary : Bool) (results : List TestResult) : Act Unit := do
  let run : TestRun := ⟨results, (← Thread.now) - started⟩
  (footOf hasSummary run).forM write
  leaveRun id i run

theorem body_batch_eq (id i : Nat) (cases : List TestCase) (hasSummary : Bool) :
    body (.task id (.batch i cases hasSummary)) = openWith id hasSummary >>= fun _ =>
      Thread.now >>= fun started => runCases id i hasSummary cases >>= fun results =>
        closeWith id i started hasSummary results := by
  cases hasSummary <;>
    simp only [body, perform, runTask, batchTask, openWith, closeWith, bind_eq, Thread.bind_assoc,
      if_true, Bool.false_eq_true, if_false] <;> rfl

/-- The record of a batch that has begun. -/
def begunBatch (id : Nat) (cases : List TestCase) : Task.Record :=
  ⟨Task.Control.new id (batchTitle cases) false none, none, true, false⟩

/-- The world `w₁` in which a batch that is called for in `w` begins with its tests. -/
structure Opens (i id : Nat) (hasSummary : Bool) (cases : List TestCase) (w w₁ : World) : Prop where
  shows : w.Shows (headOf hasSummary) w₁
  context : w₁.contexts[i]? = w.contexts[i]?
  buffers : w₁.buffers = w.buffers
  task : w₁.admission.task? id = some (begunBatch id cases)

/-- A batch that was called for in `w` has evaluated its tests, the first one on the variables
`scope`, and the variables that the last one has left are on offer in `w'`. -/
def Ran (i id : Nat) (hasSummary : Bool) (scope : Scope) (cases : List TestCase)
    (results : List TestResult) (w w' : World) : Prop :=
  ∃ w₁ w₂ left, Opens i id hasSummary cases w w₁ ∧
    Evaluated i id hasSummary w₁ scope cases results left w₂ ∧ Offers i left w'

/-- A batch that was called for in `w` has evaluated its tests, and `w'` shows what has become of
them. -/
structure Reports (i id : Nat) (hasSummary : Bool) (scope : Scope) (cases : List TestCase)
    (w : World) (run : TestRun) (w' : World) : Prop where
  ran : Ran i id hasSummary scope cases run.results w w'
  shows : w.Shows (headOf hasSummary ++ run.results.flatMap (reported hasSummary) ++
    footOf hasSummary run ++ [.prompt]) w'

/-- The task of a batch has come to its end, and its run can be found. -/
def Filed (id : Nat) (run : TestRun) (w : World) : Prop :=
  w.run? id = some run ∧ ∃ t, w.admission.task? id = some t ∧ t.control.exit = .completed ∧
    t.outcome = some (.ok .unit)

variable {hasSummary : Bool} {cases : List TestCase}

theorem Reports.of_shows {run : TestRun} {v v' : World}
    (h : Reports i id hasSummary scope cases w run v) (hshows : v.Shows [] v')
    (hcontext : v'.contexts[i]? = v.contexts[i]?) :
    Reports i id hasSummary scope cases w run v' := by
  obtain ⟨w₁, w₂, left, hopens, hevaluated, c, hc, hoffers⟩ := h.ran
  refine ⟨⟨w₁, w₂, left, hopens, hevaluated, c, by rw [hcontext, hc], hoffers⟩, ?_⟩
  have hall := h.shows.trans hshows
  rwa [List.append_nil] at hall

theorem LeavesAlone.shows {v v' : World} (h : LeavesAlone i id v v') : v.Shows [] v' :=
  .of_eq h.display h.transcript h.streams

theorem Filed.of_leavesAlone {run : TestRun} {v v' : World} (h : Filed id run v)
    (hv : LeavesAlone i id v v') : Filed id run v' := by
  obtain ⟨hrun, t, ht, hended⟩ := h
  exact ⟨hv.run.trans hrun, t, hv.task.trans ht, hended⟩

theorem tells_openWith (id : Nat) (hasSummary : Bool) :
    Tells id (headOf hasSummary) (fun t => { t with hasBegun := true }) (openWith id hasSummary) :=
  .bind (tells_notifyStarted id) (.bind (tells_begin id) (.writes _) rfl rfl) rfl rfl

/-- The end of a batch leaves its run and its report behind. -/
theorem proceeds_closeWith {R : World → World → Prop} {P : World → Prop} {started : Nat}
    {results : List TestResult} (hw : Offers i scope w) (hway : UnderWay id w) :
    (closeWith id i started hasSummary results).Proceeds R P ends w fun _ w' => ∃ run : TestRun,
      run.results = results ∧ w.Shows (footOf hasSummary run ++ [.prompt]) w' ∧ Offers i scope w' ∧
        Filed id run w' := by
  intro now
  let run : TestRun := ⟨results, now - started⟩
  show Thread.Proceeds R P ends ((footOf hasSummary run).forM write >>= fun _ => leaveRun id i run)
    w _
  have hfoot := writes_writeAll id w (footOf hasSummary run)
  refine .bind (proceeds_writes ?_)
  refine ((tells_endBatch id i).proceeds R P ends _).mono (fun _ h => h) fun _ w' hend => ?_
  -- To file the run is to show nothing.
  have hpushed : ∀ v : World, World.Shows [] v { v with batches := (id, run) :: v.batches } :=
    fun v => .of_eq rfl rfl rfl
  refine ⟨run, rfl, ?_, ?_, ?_, ?_⟩
  · have hshows := (hfoot.shows.trans (hpushed _)).trans hend.shows
    rwa [List.append_nil] at hshows
  · exact hend.offers (hfoot.offers hw)
  · rw [World.run?, hend.batches]
    simp
  · obtain ⟨t, ht, hrunning, -⟩ := hfoot.underWay hway
    refine ⟨{ tellEnd (conclude (tellEnd t)) with hasLeft := true }, ?_, ?_, rfl⟩
    · rw [hend.task]
      show (Admission.task? _ id).map _ = _
      rw [ht]
      rfl
    · simp [tellEnd, conclude, Task.Control.takeListener, Task.Control.finish, hrunning]

/-- The thread of a batch, from its first action to its last one. -/
theorem proceeds_body {v : World} (hw : Offers i scope w) (hshows : w.Shows [] v)
    (hcontext : v.contexts[i]? = w.contexts[i]?) (hbuffers : v.buffers = w.buffers)
    (htask : v.admission.task? id =
      some ⟨Task.Control.new id (batchTitle cases) false none, none, false, false⟩)
    (hends : ends → ∀ w₁, Opens i id hasSummary cases w w₁ →
      AllEnd i id hasSummary w₁ scope cases) :
    (body (.task id (.batch i cases hasSummary))).Proceeds (LeavesAlone i id)
      (fun w => w.admission.hasExited id = false) ends v fun _ w' => ∃ run,
        Reports i id hasSummary scope cases w run w' ∧ Filed id run w' := by
  rw [body_batch_eq]
  refine .bind (((tells_openWith id hasSummary).proceeds _ _ _ v).mono
    (fun _ h => h) fun _ w₁ hopened => ?_)
  have hopens : Opens i id hasSummary cases w w₁ :=
    ⟨hshows.trans hopened.shows, by rw [hopened.contexts, hcontext], hopened.buffers.trans hbuffers,
      by rw [hopened.task, htask]; rfl⟩
  have hoffers : Offers i scope w₁ := by
    obtain ⟨c, hc, hoffers⟩ := hw
    exact ⟨c, by rw [hopens.context, hc], hoffers⟩
  have hway : UnderWay id w₁ := ⟨begunBatch id cases, hopens.task, rfl, rfl⟩
  intro started
  show Thread.Proceeds _ _ _ (runCases id i hasSummary cases >>= closeWith id i started hasSummary)
    w₁ _
  refine .bind
    ((proceeds_runCases hoffers hway fun he => hends he w₁ hopens).mono (fun _ h => h) ?_)
  rintro results w₂ ⟨left, hevaluated, hreported, hleft, hway⟩
  refine (proceeds_closeWith hleft hway).mono (fun _ h => h) ?_
  rintro - w' ⟨run, rfl, hclosed, hoffered, hfiled⟩
  refine ⟨run, ⟨⟨w₁, w₂, left, hopens, hevaluated, hoffered⟩, ?_⟩, hfiled⟩
  rw [List.append_assoc]
  exact (hopens.shows.trans hreported).trans hclosed

/-! ## The calling thread -/

/-- A world in which tests can be run at once: there is a current context, its variables are free,
and no task keeps a submission waiting. -/
structure IsReady (i : Nat) (scope : Scope) (w : World) : Prop where
  context : w.session.context = some i
  offers : Offers i scope w
  admits : ∀ id, w.admission.decide ≠ .queue id

/-- The world after a batch has been admitted. -/
def admitBatch (cases : List TestCase) (w : World) : World :=
  { w with admission := (w.admission.enroll ⟨batchTitle cases, false, none⟩ false true).2 }

variable {α : Type}

/-- The record of a batch that has been admitted. -/
theorem task?_admitBatch (cases : List TestCase) (w : World) :
    (admitBatch cases w).admission.task? w.admission.nextId =
      some ⟨Task.Control.new w.admission.nextId (batchTitle cases) false none, none, false,
        false⟩ := by
  show ((w.admission.issue false).track w.admission.nextId ⟨batchTitle cases, false, none⟩).task?
    w.admission.nextId = _
  rw [Admission.task?_track, if_pos rfl]

theorem hasExited_admitBatch (cases : List TestCase) (w : World) :
    (admitBatch cases w).admission.hasExited w.admission.nextId = false := by
  rw [Admission.hasExited_of_task? (task?_admitBatch cases w)]
  rfl

/-- A caller that goes on with a run of tests submits a batch and waits for it. -/
theorem delegates_runBatch (hw : IsReady i scope w) (cases : List TestCase) (hasSummary : Bool)
    (f : Except Failure TestRun → Act α) :
    Call.Delegates ((runBatch cases hasSummary).bind f) w
      (.task w.admission.nextId (.batch i cases hasSummary)) (admitBatch cases w)
      (fun v => v.admission.hasExited w.admission.nextId) ((pickUp w.admission.nextId).bind f) := by
  -- Nobody is before it, so it is admitted on its first turn and then waits for the exit.
  have hturn : w.admission.turn ⟨batchTitle cases, false, none⟩ false true =
      (.admitted w.admission.nextId, (admitBatch cases w).admission) := by
    obtain ⟨-, h⟩ | ⟨id, h, -⟩ | ⟨id, h, -⟩ | ⟨id, h, -⟩ :=
      w.admission.turn_cases ⟨batchTitle cases, false, none⟩ false true
    · exact h
    all_goals exact absurd h (hw.admits id)
  obtain ⟨n, hn⟩ : ∃ n, turns = n + 1 := Nat.exists_eq_succ_of_ne_zero (by decide)
  have hdrive : ∀ now, Pool.drive now (runBatch cases hasSummary) w [] = (admitBatch cases w,
      .asleep ⟨fun v => v.admission.hasExited w.admission.nextId, none,
        fun _ => pickUp w.admission.nextId⟩,
      [.task w.admission.nextId (.batch i cases hasSummary)]) := by
    intro now
    rw [runBatch_eq]
    simp only [Pool.drive, hw.context, Pool.drive_bind, submit, hn, drive_submitWith,
      Submission.ticket, hturn, List.nil_append]
    show (if (admitBatch cases w).admission.hasExited w.admission.nextId then _ else _) = _
    rw [hasExited_admitBatch, if_neg Bool.false_ne_true]
    rfl
  refine ⟨fun now => ?_, hasExited_admitBatch cases w⟩
  rw [Pool.drive_bind, hdrive]
  rfl

/-- The calling thread takes the result of a batch that has come to its end and finds its run. -/
theorem proceeds_pickUp {R : World → World → Prop} {P : World → Prop} {run : TestRun}
    {Q : Except Failure TestRun → World → Prop} (hw : Filed id run w)
    (hQ : Q (.ok run) { w with admission := (w.admission.takeResult id).2 }) :
    (pickUp id).Proceeds R P ends w Q := by
  obtain ⟨hrun, t, ht, hended, houtcome⟩ := hw
  have htake : (w.admission.takeResult id).1 = .ok .unit := by
    rw [Admission.takeResult, ht]
    simp [hended, houtcome]
  obtain ⟨b, hb, rfl⟩ := Option.map_eq_some_iff.mp hrun
  have htaken : ∀ f : Except Failure Value → Act (Except Failure TestRun),
      (f (.ok .unit)).Proceeds R P ends { w with admission := (w.admission.takeResult id).2 } Q →
        (takeResult id >>= f).Proceeds R P ends w Q := by
    intro f hf
    show (f (w.admission.takeResult id).1).Proceeds R P ends _ Q
    rwa [htake]
  refine htaken _ ?_
  show Thread.Proceeds R P ends (answer (w.batches.find? fun b => b.1 = id)) _ Q
  rw [hb]
  exact hQ

/-- A call that runs tests and goes on with their run. -/
theorem goesOn_of_filed {f : Except Failure TestRun → Act α} {Q : α → World → Prop}
    {run : TestRun} {v : World} (hreports : Reports i id hasSummary scope cases w run v)
    (hfiled : Filed id run v)
    (hQ : ∀ v, Reports i id hasSummary scope cases w run v →
      (f (.ok run)).Proceeds (LeavesAlone i id) (fun _ => True) ends v Q) :
    Call.GoesOn (LeavesAlone i id) ends (fun v => v.admission.hasExited id)
      ((pickUp id).bind f) Q v := by
  intro v' hv'
  have hfiled' := hfiled.of_leavesAlone hv'
  have hreports' := hreports.of_shows hv'.shows hv'.context
  refine ⟨?_, .bind (proceeds_pickUp hfiled' (hQ _ (hreports'.of_shows (.of_eq rfl rfl rfl) rfl)))⟩
  obtain ⟨-, t, ht, hended, -⟩ := hfiled'
  show v'.admission.hasExited id = true
  rw [Admission.hasExited_of_task? ht, Task.Control.hasExited, hended]
  rfl

section

variable (hw : IsReady i scope w) {f : Except Failure TestRun → Act α} {S : TestRun → α → Prop}
  (hf : ∀ run v, Reports i w.admission.nextId hasSummary scope cases w run v →
    ∃ a, f (.ok run) = .done a ∧ S run a)
include hw hf

/-- The job of a call that runs tests and goes on with their run. -/
theorem proceeds_job
    (hends : ends → ∀ w₁, Opens i w.admission.nextId hasSummary cases w w₁ →
      AllEnd i w.admission.nextId hasSummary w₁ scope cases) (v : World)
    (hv : LeavesAlone i w.admission.nextId (admitBatch cases w) v) :
    (body (.task w.admission.nextId (.batch i cases hasSummary))).Proceeds
      (LeavesAlone i w.admission.nextId)
      (fun v => v.admission.hasExited w.admission.nextId = false) ends v fun _ =>
        Call.GoesOn (LeavesAlone i w.admission.nextId) ends
          (fun v => v.admission.hasExited w.admission.nextId)
          ((pickUp w.admission.nextId).bind f) fun a v => ∃ run,
            Reports i w.admission.nextId hasSummary scope cases w run v ∧ S run a := by
  have hadmitted : World.Shows [] w (admitBatch cases w) := .of_eq rfl rfl rfl
  refine (proceeds_body hw.offers (hadmitted.trans hv.shows) hv.context hv.buffers
    (hv.task.trans (task?_admitBatch cases w)) hends).mono (fun _ h => h) ?_
  rintro - v ⟨run, hreports, hfiled⟩
  refine goesOn_of_filed hreports hfiled fun v hreports => ?_
  obtain ⟨a, ha, hS⟩ := hf run v hreports
  rw [ha]
  exact ⟨run, hreports, hS⟩

/-- A call that runs tests and goes on with their run comes to nothing else, and it can be brought
to its end if the scripts of the tests end. -/
theorem call_runBatch (turns : List (Call.Turn World)) :
    let after := runFrom (Call.step body (LeavesAlone i w.admission.nextId))
      (.start ((runBatch cases hasSummary).bind f) w)
    (∀ a, (after turns).result? = some a → ∃ run,
      Reports i w.admission.nextId hasSummary scope cases w run (after turns).shared ∧ S run a) ∧
    ((∀ w₁, Opens i w.admission.nextId hasSummary cases w w₁ →
        AllEnd i w.admission.nextId hasSummary w₁ scope cases) →
      ∃ more, (after (turns ++ more)).result?.isSome) := by
  have hkept := isKept_leavesAlone i w.admission.nextId
  -- What others do leaves the task alone, so they cannot end it.
  have hready : ∀ v v' : World, LeavesAlone i w.admission.nextId v v' →
      v.admission.hasExited w.admission.nextId = false →
      v'.admission.hasExited w.admission.nextId = false := by
    intro v v' hv h
    rw [Admission.hasExited, Admission.control?] at h ⊢
    rwa [hv.task]
  have hdelegates := delegates_runBatch hw cases hasSummary f
  refine ⟨fun a ha => ?_, fun hends => ?_⟩
  · obtain ⟨v, ⟨run, hreports, hS⟩, hv⟩ := Call.of_result hkept hready hdelegates
      (proceeds_job hw hf fun h : False => h.elim) turns ha
    exact ⟨run, hreports.of_shows hv.shows hv.context, hS⟩
  · exact Call.exists_result hkept hready hdelegates
      (proceeds_job hw hf fun _ => hends) turns

end

/-- There is one result for each test that has been evaluated. -/
theorem Evaluated.length_eq {results : List TestResult} {left : Scope} {w' : World}
    (h : Evaluated i id hasSummary w scope cases results left w') :
    results.length = cases.length := by
  induction h with
  | nil => rfl
  | cons _ _ _ ih => rw [List.length_cons, List.length_cons, ih]

/-- What a caller makes of the run of a single test. -/
def onlyResult (r : Except Failure TestRun) : Act (Except Failure TestResult) :=
  match r with
  | .error e => return .error e
  | .ok run =>
    match run.results.getLast? with
    | some r => return .ok r
    | none => return .error (.taskFailed "test produced no result")

theorem runTest_eq (script title : String) :
    runTest script title = (runBatch [⟨title, script⟩] false).bind onlyResult := by
  refine congrArg (runBatch [⟨title, script⟩] false).bind (funext fun r => ?_)
  cases r <;> rfl

/-- A call after some turns, among others that leave alone its context and the task of its batch. -/
noncomputable def inTurns (i : Nat) (t : Act α) (w : World) (turns : List (Call.Turn World)) :
    Call World Job α :=
  runFrom (Call.step body (LeavesAlone i w.admission.nextId)) (.start t w) turns

/-- A world with a fresh context and nothing else in it. -/
def freshWorld : World :=
  { World.new ⟨⟨[]⟩, [], [], []⟩ with
    contexts := [.new 1 .empty .empty]
    session := { (default : Core) with context := some 0 } }

theorem isReady_freshWorld : IsReady 0 .empty freshWorld :=
  ⟨rfl, ⟨_, rfl, rfl, rfl⟩, nofun⟩

/-- Three tests, of which the second one reads a variable of the first one and the third one
fails. -/
def threeTests : List TestCase :=
  [⟨"sets", "let x = 1; print(x)"⟩, ⟨"reads", "x"⟩, ⟨"throws", "throw 1"⟩]

/-- The turns of a call in which nobody interferes. -/
def threeTurns : List (Call.Turn World) := [.caller 0, .worker 0, .caller 0]

/-- Two tests whose scripts only have a value. -/
def twoLiterals : List TestCase := [⟨"one", "1"⟩, ⟨"two", "2"⟩]

/-- Tests end of which the first one asks nothing and the others end whatever it leaves. -/
theorem AllEnd.cons_of_done {hasSummary : Bool} {case : TestCase} {rest : List TestCase}
    {outcome : Except Script.Fault Value} {scope' : Scope}
    (hcase : Script.run case.script (Context.bound scope w.session.bindings []) =
      .done (outcome, scope'))
    (hrest : ∀ v, AllEnd i id hasSummary v scope' rest) :
    AllEnd i id hasSummary w scope (case :: rest) := by
  refine .cons (Q := fun p _ => p.2 = scope') ?_ fun p v hp => hp ▸ hrest _
  rw [scriptOf, Running.run, hcase]
  rfl

theorem allEnd_twoLiterals (i id : Nat) (hasSummary : Bool) (w : World) (scope : Scope) :
    AllEnd i id hasSummary w scope twoLiterals := by
  have hone : ∀ scope, Script.run "1" scope = .done (.ok (.int 1), scope) := fun _ => rfl
  have htwo : ∀ scope, Script.run "2" scope = .done (.ok (.int 2), scope) := fun _ => rfl
  exact .cons_of_done (hone _) fun _ => .cons_of_done (htwo _) fun _ => .nil _ _

end Session
end ScriptSession
