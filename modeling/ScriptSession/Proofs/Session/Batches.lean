import ScriptSession.Proofs.Session.Publishers

/-!
# Batches of tests

The thread of a batch, cut where it looks at what it shares with others. It looks before each test
whether its task has been cancelled and goes no further then. Others may act before each of its
looks, and cancel it at any point. Main statement: the run that a batch leaves behind has results
for all its tests unless it has found itself cancelled before a test, and fewer results if it has
(`Progress.accounts`).
-/

namespace ScriptSession
namespace Session

open Concurrency (Follows Member Pool Thread runFrom)
open Report (TestCase TestResult TestRun)

/-! ## The thread of a batch -/

theorem bind_eq {α β : Type} (t : Act α) (f : α → Act β) : (t >>= f) = t.bind f := rfl

/-- What the thread of a batch does before its tests: the time at which they start. -/
def openBatch (id : Nat) : Act Nat := do
  notifyStarted id
  alterAdmission (·.begin id)
  write (.output "Running tests")
  write (.output "-------------")
  Thread.now

/-- A test of a batch with what is written about it. -/
def testAndTell (id i : Nat) (case : TestCase) : Act TestResult := do
  write (.output ("# Running test " ++ case.title))
  let r ← runCase id i case
  (r.entries Report.indent).forM write
  return r

/-- Sum up the results of a batch. -/
def sumUp (started : Nat) (results : List TestResult) : Act TestRun := do
  let run : TestRun := ⟨results, (← Thread.now) - started⟩
  run.summaryEntries.forM write
  return run

/-- The end of the thread of a batch. -/
def endBatch (id i : Nat) : Act Unit := do
  complete i id
  alterAdmission (·.keep id (.ok .unit))
  alterAdmission fun a => (a.finish id .completed).2
  notifyEnded id
  alterAdmission (·.release id)

/-- Leave a run behind. -/
def leaveRun (id i : Nat) (run : TestRun) : Act Unit := do
  modifyThe World fun w => { w with batches := (id, run) :: w.batches }
  endBatch id i

/-- What the thread of a batch does after its tests. -/
def afterTests (id i started : Nat) (results : List TestResult) : Act Unit :=
  sumUp started results >>= leaveRun id i

/-- The thread of a batch that has results and is about to look whether to go on with tests. -/
def testsFrom (id i started : Nat) (done : List TestResult) (rest : List TestCase) : Act Unit :=
  runCases id i true rest >>= fun results => afterTests id i started (done ++ results)

/-- The thread of a batch opens it and goes on with all of its tests. -/
theorem body_batch (id i : Nat) (cases : List TestCase) :
    body (.task id (.batch i cases true)) =
      (openBatch id).bind fun started => testsFrom id i started [] cases := by
  simp only [body, perform, runTask, batchTask, openBatch, testsFrom, afterTests, sumUp, bind_eq,
    Thread.bind_assoc, List.nil_append, if_true]
  rfl

theorem testsFrom_nil (id i started : Nat) (done : List TestResult) :
    testsFrom id i started done [] = afterTests id i started done :=
  congrArg (afterTests id i started) (List.append_nil done)

/-- The look before a test. -/
theorem runCases_cons (id i : Nat) (case : TestCase) (rest : List TestCase) :
    runCases id i true (case :: rest) = Thread.get fun w =>
      if (w.control (.task id)).isCancelled then .done []
      else (testAndTell id i case).bind fun r =>
        (runCases id i true rest).bind fun results => .done (r :: results) := by
  refine congrArg Thread.get (funext fun w => ?_)
  show (if (w.control (.task id)).isCancelled then pure [] else _) = _
  simp only [if_true, testAndTell, bind_eq, Thread.bind_assoc]
  rfl

theorem testsFrom_cons (id i started : Nat) (done : List TestResult) (case : TestCase)
    (rest : List TestCase) :
    testsFrom id i started done (case :: rest) = Thread.get fun w =>
      if (w.control (.task id)).isCancelled then afterTests id i started done
      else (testAndTell id i case).bind fun r => testsFrom id i started (done ++ [r]) rest := by
  rw [testsFrom, runCases_cons]
  refine congrArg Thread.get (funext fun w => ?_)
  show Thread.bind (if (w.control (.task id)).isCancelled then .done [] else _) _ = _
  split
  · exact testsFrom_nil id i started done
  · simp only [testsFrom, bind_eq, Thread.bind_assoc, List.append_assoc]
    rfl

/-! ## What a batch leaves alone -/

/-- A change that leaves the recorded runs alone. -/
def SameRuns (w w' : World) : Prop := w'.batches = w.batches

theorem SameRuns.refl (w : World) : SameRuns w w := rfl

theorem SameRuns.trans (w w' w'' : World) (h : SameRuns w w') (h' : SameRuns w' w'') :
    SameRuns w w'' := Eq.trans h' h

namespace World

/-- The run that a batch has left behind under its number. -/
def run? (w : World) (id : Nat) : Option TestRun :=
  (w.batches.find? fun b => b.1 = id).map (·.2)

variable {w w' : World}

theorem run?_of_sameRuns (h : SameRuns w w') {id : Nat} {run : Option TestRun}
    (hrun : w.run? id = run) : w'.run? id = run := by
  unfold run? at hrun ⊢
  rw [h]
  exact hrun

theorem batches_record (w : World) (e : Event) : (w.record e).batches = w.batches := by
  unfold record
  split <;> rfl

theorem batches_writeEntry (w : World) (e : Report.Entry) :
    (w.writeEntry e).batches = w.batches := by
  unfold writeEntry
  split
  · exact batches_record _ _
  · rfl

theorem batches_alterControl (w : World) (o : Owner) (f : Task.Control → Task.Control) :
    (w.alterControl o f).batches = w.batches := by cases o <;> rfl

theorem batches_publish (w : World) (shot : Report.Snapshot) :
    (w.publish shot).batches = w.batches :=
  publish_records (R := SameRuns) ⟨SameRuns.refl, SameRuns.trans _ _ _⟩ batches_record w shot

end World

/-- What is changed in passing is not a run. -/
theorem Passing.sameRuns {w w' : World} (h : Passing w w') : SameRuns w w' := by
  cases h with
  | host | atGate | loose | buffer | context => exact rfl
  | record e => exact w.batches_record e
  | entry e => exact w.batches_writeEntry e
  | out sink text =>
    cases sink with
    | transcript => exact w.batches_writeEntry _
    | process | buffer => exact rfl
  | err sink text =>
    cases sink with
    | transcript => exact w.batches_writeEntry _
    | process | buffer => exact rfl
  | enterWait o | leaveWait o => exact w.batches_alterControl o _

/-- The thread records no runs and starts no jobs, and it has only results in `Q`. -/
abbrev SparesRuns {α : Type} (Q : α → Prop) (t : Act α) : Prop := Makes SameRuns Q t

theorem Quiet.sparesRuns {α : Type} {t : Act α} (h : Quiet t) : SparesRuns (fun _ => True) t :=
  h.mono fun _ _ => Passing.sameRuns

theorem sparesRuns_write (e : Report.Entry) : SparesRuns (fun _ => True) (write e) :=
  (quiet_write e).sparesRuns

theorem sparesRuns_notifyStarted (id : Nat) :
    SparesRuns (fun _ => True) (notifyStarted id) := by
  refine .get_bind fun w => ?_
  split
  · exact .modify fun w => w.batches_record _
  · exact .pure trivial

theorem sparesRuns_notifyEnded (id : Nat) : SparesRuns (fun _ => True) (notifyEnded id) := by
  refine .get_bind fun w => .bind (.modify fun _ => rfl) fun _ _ => ?_
  split
  · exact .modify fun w => w.batches_record _
  · exact .pure trivial

theorem sparesRuns_openBatch (id : Nat) : SparesRuns (fun _ => True) (openBatch id) :=
  .bind (sparesRuns_notifyStarted id) fun _ _ => .bind (.modify fun _ => rfl) fun _ _ =>
    .bind (sparesRuns_write _) fun _ _ => .bind (sparesRuns_write _) fun _ _ => .now

theorem makes_testAndTell (id i : Nat) (case : TestCase) :
    Makes Passing (fun r => r.title = case.title) (testAndTell id i case) :=
  .bind (quiet_write _) fun _ _ => .bind (makes_runCase id i case) fun _ hr =>
    .bind (.forM quiet_write _) fun _ _ => .pure hr

theorem sparesRuns_sumUp (started : Nat) (results : List TestResult) :
    SparesRuns (fun run => run.results = results) (sumUp started results) :=
  .bind .now fun _ _ => .bind (.forM sparesRuns_write _) fun _ _ => .pure rfl

theorem sparesRuns_complete (i id : Nat) : SparesRuns (fun _ => True) (complete i id) :=
  .bind (sparesRuns_notifyEnded id) fun _ _ =>
    .bind (.modify fun w => w.batches_publish _) fun _ _ => sparesRuns_write _

theorem sparesRuns_endBatch (id i : Nat) : SparesRuns (fun _ => True) (endBatch id i) :=
  .bind (sparesRuns_complete i id) fun _ _ => .bind (.modify fun _ => rfl) fun _ _ =>
    .bind (.modify fun _ => rfl) fun _ _ => .bind (sparesRuns_notifyEnded id) fun _ _ =>
      .modify fun _ => rfl

theorem sparesRuns_alterAdmission (f : Task.Admission → Task.Admission) :
    SparesRuns (fun _ => True) (alterAdmission f) := .modify fun _ => rfl

/-- The end of an interrupt from where it is known whether the task had to be given up. -/
def untrack (id : Nat) (isForced : Bool) : Act Task.Interruption := do
  let (wasTracked, admission) := (← getThe World).admission.endInterrupt id
  alterAdmission fun _ => admission
  if isForced then
    notifyEnded id
    return .forced
  if wasTracked then
    Thread.await fun w => ((w.admission.task? id).map (·.hasLeft)).getD true
  return .cooperative

theorem sparesRuns_untrack (id : Nat) (isForced : Bool) :
    SparesRuns (fun _ => True) (untrack id isForced) := by
  refine .get_bind fun w => .bind (sparesRuns_alterAdmission _) fun _ _ => ?_
  split
  · exact .bind (sparesRuns_notifyEnded id) fun _ _ => .pure trivial
  · split
    · exact .bind (.await _) fun _ _ => .pure trivial
    · exact .pure trivial

theorem sparesRuns_endInterruption (id : Nat) (stopped : Bool) :
    SparesRuns (fun _ => True) (endInterruption id stopped) := by
  cases stopped with
  | true => exact sparesRuns_untrack id false
  | false =>
    exact .get_bind fun w => .bind (sparesRuns_alterAdmission _) fun _ _ =>
      sparesRuns_untrack id _

theorem sparesRuns_interrupt : SparesRuns (fun _ => True) interrupt := by
  have htask : SparesRuns (fun _ => True) interruptTask := by
    refine .get_bind fun w => ?_
    split
    · exact .pure trivial
    · exact .bind (sparesRuns_alterAdmission _) fun _ _ =>
        .bind (sparesRuns_alterAdmission _) fun _ _ => .bind (.awaitFor _ _) fun stopped _ =>
          sparesRuns_endInterruption _ stopped
  refine .bind htask fun outcome _ => ?_
  split
  · refine .get_bind fun w => ?_
    split
    · exact .bind (.modify fun _ => rfl) fun _ _ => .bind (sparesRuns_write _) fun _ _ =>
        .bind (sparesRuns_write _) fun _ _ => .pure trivial
    · exact .bind (sparesRuns_write _) fun _ _ => .bind (sparesRuns_write _) fun _ _ =>
        .pure trivial
  · exact .pure trivial

/-- The end of a session takes no run away. -/
theorem sparesRuns_shutdown : SparesRuns (fun _ => True) shutdown := by
  have hdelete : SparesRuns (fun _ => True) (do let _ ← runDeletions : Act Unit) :=
    ⟨fun _ _ => ⟨rfl, trivial⟩⟩
  refine .get_bind fun w => ?_
  split
  · exact .bind sparesRuns_interrupt fun _ _ => hdelete
  · exact hdelete

/-! ## The progress of a batch -/

/-- The thread of a batch is about to look before a test and finds its task cancelled. -/
def FindsCancelled (id : Nat) (cases : List TestCase) (t : Act Unit) (w : World) : Prop :=
  w.run? id = none ∧ (w.control (.task id)).isCancelled = true ∧
    ∃ i started done case rest, t = testsFrom id i started done (case :: rest) ∧
      done.length < cases.length

/-- The results are those of all tests, or of fewer if the batch has found itself cancelled. -/
def Accounts (cases : List TestCase) (found : Prop) (results : List TestResult) : Prop :=
  (found → results.length < cases.length) ∧
    (¬found → results.map (·.title) = cases.map (·.title))

/-- Where the thread of a batch is between two looks, in a world, and whether it has found itself
cancelled. -/
inductive Progress (id : Nat) (cases : List TestCase) (found : Prop) : World × Act Unit → Prop
  | opening {i : Nat} {m : Act Nat} {w : World} (hm : m.AboutToLook)
      (h : m.Only SameRuns (fun _ => True) w) (hrun : w.run? id = none) (hfound : ¬found) :
      Progress id cases found (w, m.bind fun started => testsFrom id i started [] cases)
  | looking {i started : Nat} {done : List TestResult} {case : TestCase} {rest : List TestCase}
      {w : World} (hrun : w.run? id = none) (hfound : ¬found)
      (hdone : done.map (·.title) ++ (case :: rest).map (·.title) = cases.map (·.title)) :
      Progress id cases found (w, testsFrom id i started done (case :: rest))
  | testing {i started : Nat} {done : List TestResult} {case : TestCase} {rest : List TestCase}
      {m : Act TestResult} {w : World} (hm : m.AboutToLook)
      (h : m.Only SameRuns (fun r => r.title = case.title) w) (hrun : w.run? id = none)
      (hfound : ¬found)
      (hdone : done.map (·.title) ++ (case :: rest).map (·.title) = cases.map (·.title)) :
      Progress id cases found (w, m.bind fun r => testsFrom id i started (done ++ [r]) rest)
  | closing {i : Nat} {results : List TestResult} {m : Act TestRun} {w : World}
      (hm : m.AboutToLook) (h : m.Only SameRuns (fun run => run.results = results) w)
      (hrun : w.run? id = none) (hresults : Accounts cases found results) :
      Progress id cases found (w, m.bind (leaveRun id i))
  | leaving {i : Nat} {run : TestRun} {w : World} (hrun : w.run? id = none)
      (hresults : Accounts cases found run.results) :
      Progress id cases found (w, leaveRun id i run)
  | ended {t : Act Unit} {run : TestRun} {w : World} (h : ∀ w, t.Only SameRuns (fun _ => True) w)
      (hrun : w.run? id = some run) (hresults : Accounts cases found run.results) :
      Progress id cases found (w, t)

namespace Progress

variable {id i started now : Nat} {isLate : Bool} {cases : List TestCase} {found : Prop}
  {t : Act Unit} {w : World} {r : World × Act Unit}

/-- Where a batch is that has come to the end of its tests. -/
theorem of_closing {results : List TestResult} (hrun : w.run? id = none)
    (hresults : Accounts cases found results)
    (hgoes : Thread.GoesOn SameRuns (fun run => run.results = results) (leaveRun id i) now w r) :
    Progress id cases found r := by
  cases hgoes with
  | before hm h hs => exact .closing hm h (World.run?_of_sameRuns hs hrun) hresults
  | @after _ run ha hs =>
    subst ha
    exact .leaving (World.run?_of_sameRuns hs hrun) hresults

theorem settleDown_afterTests {results : List TestResult} (hrun : w.run? id = none)
    (hresults : Accounts cases found results) :
    Progress id cases found ((afterTests id i started results).settleDown now w) :=
  of_closing hrun hresults
    (((sparesRuns_sumUp started results).only w).settleDown_bind .refl .trans (leaveRun id i) now)

/-- Where a batch is that has come to the tests that are left. -/
theorem settleDown_testsFrom {done : List TestResult} {rest : List TestCase}
    (hrun : w.run? id = none) (hfound : ¬found)
    (hdone : done.map (·.title) ++ rest.map (·.title) = cases.map (·.title)) :
    Progress id cases found ((testsFrom id i started done rest).settleDown now w) := by
  cases rest with
  | nil =>
    rw [List.map_nil, List.append_nil] at hdone
    rw [testsFrom_nil]
    exact settleDown_afterTests hrun ⟨fun h => absurd h hfound, fun _ => hdone⟩
  | cons case rest => exact .looking hrun hfound hdone

theorem of_opening (hrun : w.run? id = none) (hfound : ¬found)
    (hgoes : Thread.GoesOn SameRuns (fun _ => True)
      (fun started => testsFrom id i started [] cases) now w r) : Progress id cases found r := by
  cases hgoes with
  | before hm h hs => exact .opening hm h (World.run?_of_sameRuns hs hrun) hfound
  | after ha hs => exact settleDown_testsFrom (World.run?_of_sameRuns hs hrun) hfound rfl

/-- Where a batch is that has begun a test. -/
theorem of_testing {done : List TestResult} {case : TestCase} {rest : List TestCase}
    (hrun : w.run? id = none) (hfound : ¬found)
    (hdone : done.map (·.title) ++ (case :: rest).map (·.title) = cases.map (·.title))
    (hgoes : Thread.GoesOn SameRuns (fun r => r.title = case.title)
      (fun r => testsFrom id i started (done ++ [r]) rest) now w r) :
    Progress id cases found r := by
  cases hgoes with
  | before hm h hs => exact .testing hm h (World.run?_of_sameRuns hs hrun) hfound hdone
  | after ha hs =>
    refine settleDown_testsFrom (World.run?_of_sameRuns hs hrun) hfound ?_
    rw [← hdone, List.map_append, List.append_assoc, List.map_cons, List.map_cons, ha]
    rfl

/-- The run that a batch leaves behind is found under its number. -/
theorem settleDown_leaveRun {run : TestRun} (hresults : Accounts cases found run.results) :
    Progress id cases found ((leaveRun id i run).slice now isLate w) := by
  have hend := ((sparesRuns_endBatch id i).only
    { w with batches := (id, run) :: w.batches }).settleDown .refl .trans now
  have hleft : World.run? { w with batches := (id, run) :: w.batches } id = some run := by
    simp [World.run?]
  exact .ended hend.2 (World.run?_of_sameRuns hend.1 hleft) hresults

/-- A batch that finds itself cancelled goes no further and has fewer results than tests. -/
theorem slice_of_findsCancelled (h : FindsCancelled id cases t w) :
    Progress id cases True (t.slice now isLate w) := by
  obtain ⟨hrun, hcancelled, i, started, done, case, rest, rfl, hlt⟩ := h
  rw [testsFrom_cons]
  simp only [Thread.slice, hcancelled, if_true]
  exact settleDown_afterTests hrun ⟨fun _ => hlt, fun h => absurd trivial h⟩

/-- A batch that does not find itself cancelled goes on with all of its tests. -/
theorem slice_of_not_findsCancelled (h : Progress id cases found (w, t))
    (hnot : ¬FindsCancelled id cases t w) :
    Progress id cases found (t.slice now isLate w) := by
  cases h with
  | opening hm h hrun hfound =>
    exact of_opening hrun hfound (h.slice_bind .refl .trans hm _ now isLate)
  | @looking i started done case rest _ hrun hfound hdone =>
    -- Here it looks whether it is cancelled, and it would have found that.
    have hlength : done.length < cases.length := by
      have h := congrArg List.length hdone
      simp only [List.length_append, List.length_map, List.length_cons] at h
      omega
    have hgoing : (w.control (.task id)).isCancelled = false := by
      rw [← Bool.not_eq_true]
      exact fun h => hnot ⟨hrun, h, i, started, done, case, rest, rfl, hlength⟩
    have hspares : SparesRuns (fun r => r.title = case.title) (testAndTell id i case) :=
      (makes_testAndTell id i case).mono fun _ _ => Passing.sameRuns
    have htest := (hspares.only w).settleDown_bind .refl .trans
      (fun r => testsFrom id i started (done ++ [r]) rest) now
    rw [testsFrom_cons]
    simp only [Thread.slice, hgoing, Bool.false_eq_true, if_false]
    exact of_testing hrun hfound hdone htest
  | testing hm h hrun hfound hdone =>
    exact of_testing hrun hfound hdone (h.slice_bind .refl .trans hm _ now isLate)
  | closing hm h hrun hresults =>
    exact of_closing hrun hresults (h.slice_bind .refl .trans hm _ now isLate)
  | leaving hrun hresults => exact settleDown_leaveRun hresults
  | ended h hrun hresults =>
    have hgoes := (h w).slice .refl .trans now isLate
    exact .ended hgoes.2 (World.run?_of_sameRuns hgoes.1 hrun) hresults

/-- The first look of a batch, which has left nothing behind yet. -/
theorem body (hrun : w.run? id = none) (hfound : ¬found) :
    Progress id cases found (w, body (.task id (.batch i cases true))) := by
  rw [body_batch]
  exact .opening trivial ((sparesRuns_openBatch id).only w) hrun hfound

/-- What others do between two looks does not change where a batch is, unless they record runs under
its number. -/
theorem of_others {w' : World} (h : Progress id cases found (w, t))
    (hrun' : w'.run? id = w.run? id) : Progress id cases found (w', t) := by
  cases h with
  | opening hm h hrun hfound =>
    exact .opening hm (h.of_aboutToLook hm w') (hrun'.trans hrun) hfound
  | looking hrun hfound hdone => exact .looking (hrun'.trans hrun) hfound hdone
  | testing hm h hrun hfound hdone =>
    exact .testing hm (h.of_aboutToLook hm w') (hrun'.trans hrun) hfound hdone
  | closing hm h hrun hresults =>
    exact .closing hm (h.of_aboutToLook hm w') (hrun'.trans hrun) hresults
  | leaving hrun hresults => exact .leaving (hrun'.trans hrun) hresults
  | ended h hrun hresults => exact .ended h (hrun'.trans hrun) hresults

/-- A batch that has left a run behind leaves no other one. -/
theorem run?_slice {run : TestRun} (h : Progress id cases found (w, t))
    (hrun' : w.run? id = some run) : (t.slice now isLate w).1.run? id = some run := by
  cases h with
  | opening _ _ hrun | looking hrun | testing _ _ hrun | closing _ _ hrun | leaving hrun =>
    rw [hrun] at hrun'
    cases hrun'
  | ended h => exact World.run?_of_sameRuns ((h w).slice .refl .trans now isLate).1 hrun'

/-- The run that is found under the number of a batch accounts for its tests. -/
theorem accounts {run : TestRun} (h : Progress id cases found (w, t))
    (hrun' : w.run? id = some run) : Accounts cases found run.results := by
  cases h with
  | opening _ _ hrun | looking hrun | testing _ _ hrun | closing _ _ hrun | leaving hrun =>
    rw [hrun] at hrun'
    cases hrun'
  | ended h hrun hresults =>
    rw [hrun] at hrun'
    cases hrun'
    exact hresults

end Progress

end Session
end ScriptSession
