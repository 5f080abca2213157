import ScriptSession.Proofs.Script.Stopping
import ScriptSession.Proofs.Session.Renewals

/-!
# Cancellation

What the cancellation of a task does to the scripts that its work runs. A script looks at the
control of its owner when it asks whether it may go on and while it sleeps, and it is over once it
finds the owner cancelled there (`Running.yields_of_answers`). A task stays cancelled along every
run of a session in progress (`Activity.isCancelled_run`), and what its work evaluates is evaluated
under its own control, so the cancellation reaches the scripts (`cancellation_reaches_scripts`).

Autorun scripts are different. A rebuild evaluates them under controls outside the admission
(`Evaluator.rebuildNow_eq_of_loose`), which nobody cancels with its task, so it goes on with them
whatever becomes of the task.
-/

namespace ScriptSession

/-! ## Going on with a result -/

namespace Concurrency

variable {σ ι α : Type}

/-- Whatever comes after it, the thread can take a turn, and in this turn it goes on with a result
that is as required. -/
def Member.Yields (S : α → Prop) (m : Member σ ι α) (s : σ) : Prop :=
  ∀ {β : Type} (f : α → Thread σ ι β) (now : Nat) (jobs : List ι), ∃ t a s', S a ∧
    Pool.wake now s (m.bind f) = some t ∧ Pool.drive now t s jobs = Pool.drive now (f a) s' jobs

end Concurrency

namespace Session

open Concurrency (Follows Member Pool Sleeper Thread runFrom_relates)
open Report (TestCase TestResult TestRun)
open Script (Run Value)
open ScriptSession.Task (Admission)

/-! ## At a check -/

namespace Running

variable (r : Running) {load : Loader} {asked : Nat} {w : World}

/-- A change of the owner's control that is no cancellation. -/
theorem isCancelled_alterControl (w : World) {f : Task.Control → Task.Control}
    (hid : ∀ c, (f c).id = c.id) (hf : ∀ c, (f c).isCancelled = c.isCancelled) :
    r.isCancelled (w.alterControl r.owner f) = r.isCancelled w := by
  obtain ⟨i, sink, owner⟩ := r
  cases owner with
  | task id =>
    show (((w.admission.alterControl id f).control? id).getD default).isCancelled =
      ((w.admission.control? id).getD default).isCancelled
    rw [Admission.control?, Admission.control?, Admission.task?_alterControl _ id hid]
    cases w.admission.task? id with
    | none => rfl
    | some t => exact hf t.control
  | loose j =>
    show ((w.loose.modify j f).getD j default).isCancelled = (w.loose.getD j default).isCancelled
    rw [List.getD_eq_getElem?_getD, List.getD_eq_getElem?_getD, List.getElem?_modify_eq]
    cases w.loose[j]? with
    | none => rfl
    | some c => exact hf c

theorem isCancelled_enterWait (w : World) :
    r.isCancelled (w.alterControl r.owner Task.Control.enterWait) = r.isCancelled w :=
  r.isCancelled_alterControl w (fun _ => rfl) fun _ => rfl

theorem proceed_eq (asked : Nat) : r.proceed asked =
    if patience ≤ asked then
      .wait r.isCancelled (some 1) fun _ => .get fun w => .done (!r.isCancelled w)
    else .get fun w => .done (!r.isCancelled w) := by
  rw [proceed]
  split <;> rfl

theorem sleep_eq (millis : Nat) : r.sleep millis = .get fun w =>
    .set (w.alterControl r.owner Task.Control.enterWait) (.wait r.isCancelled (some millis)
      fun cut => .get fun w => .set (w.alterControl r.owner Task.Control.leaveWait) (.done cut)) :=
  rfl

/-- A script whose owner has been cancelled is told to stop at once. -/
theorem drive_answer {q : Script.Request} {x : q.Reply} (hq : q.stop? = some x)
    (hw : r.isCancelled w = true) (now : Nat) (jobs : List Job) :
    ∃ w', Pool.drive now (r.answer load asked q) w jobs = (w', .finished x, jobs) := by
  cases q with
  | proceed =>
    cases hq
    refine ⟨w, ?_⟩
    rw [answer, proceed_eq]
    split
    · simp only [Pool.drive, hw, if_true, Bool.not_true]
    · simp only [Pool.drive, hw, Bool.not_true]
  | sleep millis =>
    cases hq
    -- Going to sleep is noted before the look, and noting it does not undo the cancellation.
    let asleep := w.alterControl r.owner Task.Control.enterWait
    refine ⟨asleep.alterControl r.owner Task.Control.leaveWait, ?_⟩
    have hasleep : r.isCancelled asleep = true := (r.isCancelled_enterWait w).trans hw
    rw [answer, sleep_eq]
    simp only [Pool.drive]
    rw [if_pos hasleep]
  | print | complain | readText | load => cases hq

/-- A script that waits at a check is told to stop as soon as its owner is cancelled. -/
theorem wake_answer {q : Script.Request} {x : q.Reply} (hq : q.stop? = some x) {v v' : World}
    {before : Nat} {jobs jobs' : List Job} {z : Sleeper World Job q.Reply}
    (hz : Pool.drive before (r.answer load asked q) v jobs = (v', .asleep z, jobs'))
    (hw : r.isCancelled w = true) (now : Nat) :
    ∃ t, Pool.wake now w (.asleep z) = some t ∧
      ∀ jobs, ∃ w', Pool.drive now t w jobs = (w', .finished x, jobs) := by
  cases q with
  | proceed =>
    cases hq
    rw [answer, proceed_eq] at hz
    split at hz
    · simp only [Pool.drive] at hz
      split at hz
      · cases hz
      · cases hz
        refine ⟨_, if_pos hw, fun jobs => ⟨w, ?_⟩⟩
        simp only [Pool.drive, hw, Bool.not_true]
    · cases hz
  | sleep millis =>
    cases hq
    rw [answer, sleep_eq] at hz
    simp only [Pool.drive] at hz
    split at hz
    · cases hz
    · cases hz
      -- The clock plays no part: a sleeper whose owner is cancelled wakes before its time.
      exact ⟨_, if_pos hw, fun jobs => ⟨_, rfl⟩⟩
  | print | complain | readText | load => cases hq

section

variable {α : Type} {S : α → Prop}

/-- A thread that interprets a script has come to a question and goes on with the reply: it is about
to ask, or it waits for the reply. -/
inductive Answers (r : Running) (load : Loader) (asked : Nat) (q : Script.Request)
    (k : q.Reply → Run α) : Member World Job α → Prop
  | asks : Answers r load asked q k (.active (r.interpret load asked (.ask q k)))
  | waits {before : Nat} {v v' : World} {jobs jobs' : List Job} {z : Sleeper World Job q.Reply}
    (hz : Pool.drive before (r.answer load asked q) v jobs = (v', .asleep z, jobs')) :
    Answers r load asked q k
      ((Member.asleep z).bind fun x => r.interpret load (asked + 1) (k x))

theorem bind_interpret {q : Script.Request} {k : q.Reply → Run α} {x : q.Reply} {a : α}
    (hk : k x = .done a) {β : Type} (f : α → Act β) :
    (r.interpret load asked (k x)).bind f = f a := by
  rw [hk]
  rfl

/-- A script at a check is over with its next turn if its owner has been cancelled. -/
theorem yields_of_answers {q : Script.Request} {k : q.Reply → Run α} {m : Member World Job α}
    (hm : r.Answers load asked q k m) {x : q.Reply} (hq : q.stop? = some x)
    (hk : (k x).EndsIn S) (hw : r.isCancelled w = true) : m.Yields S w := by
  intro β f now jobs
  obtain ⟨a, hk, ha⟩ := hk
  cases hm with
  | asks =>
    obtain ⟨w', hdrive⟩ :
        ∃ w', Pool.drive now (r.answer load asked q) w jobs = (w', .finished x, jobs) :=
      r.drive_answer hq hw now jobs
    refine ⟨_, a, w', ha, rfl, ?_⟩
    show Pool.drive now (((r.answer load asked q).bind fun x =>
      r.interpret load (asked + 1) (k x)).bind f) w jobs = _
    rw [Thread.bind_assoc, Pool.drive_bind, hdrive]
    dsimp only
    rw [r.bind_interpret hk]
  | waits hz =>
    obtain ⟨t, hwake, hdrive⟩ := r.wake_answer hq hz hw now
    obtain ⟨w', hdrive⟩ := hdrive jobs
    refine ⟨t.bind fun x => (r.interpret load (asked + 1) (k x)).bind f, a, w', ha, ?_, ?_⟩
    · rw [Member.bind_assoc, Pool.wake_bind, hwake]
      rfl
    · rw [Pool.drive_bind, hdrive]
      dsimp only
      rw [r.bind_interpret hk]

end

end Running

/-! ## After a cancellation -/

namespace Activity

variable {s : Activity} {w : World}

theorem extends_atAdmission (hs : s.Sound) (e : Task.Event) :
    s.world.admission.Extends (s.atAdmission e).world.admission :=
  Task.Traffic.extends_step (s := s.traffic) hs.numbered e

/-- No step takes the record of a task back. -/
theorem Takes.extends (hs : s.Sound) {m : Move} {s' : Activity} (h : s.Takes m s') :
    s.world.admission.Extends s'.world.admission := by
  cases h with
  | nothing | begins => exact .refl _
  | waits | refused | admitted | atAdmission => exact extends_atAdmission hs _
  | works c => exact (c.incidental s.world).extends
  | @goes _ a next f h =>
    show s.world.admission.Extends (f s.world).admission
    rw [h.admission]
    exact .refl _

/-- The records at the end of a run extend those at its beginnings. -/
theorem extends_run (hw : w.Untouched) {past moves : List Move} (h : past <+: moves) :
    (run w past).world.admission.Extends (run w moves).world.admission :=
  runFrom_relates (R := fun s s' : Activity => s.world.admission.Extends s'.world.admission)
    (fun _ => .refl _) (fun _ _ _ => .trans)
    (fun past m => ((run w past).step_takes m).extends (sound_run hw past)) h

/-- A task that has been asked to stop stays cancelled. -/
theorem isCancelled_run (hw : w.Untouched) {past moves : List Move} {id : Nat}
    (hcancel : Follows past (.admission (.cancel id)) moves)
    (hid : ((run w past).world.admission.task? id).isSome) :
    ((run w moves).world.control (.task id)).isCancelled = true := by
  obtain ⟨t, ht⟩ := Option.isSome_iff_exists.mp hid
  have hasked : (run w (past ++ [.admission (.cancel id)])).world.admission.task? id =
      some { t with control := t.control.cancel } := by
    rw [run_concat]
    have hcancelled := Admission.task?_alterControl (run w past).world.admission id
      (f := Task.Control.cancel) fun _ => rfl
    rw [ht] at hcancelled
    exact hcancelled
  obtain ⟨t', ht', hbecomes⟩ := (extends_run hw hcancel).task id _ hasked
  show (((run w moves).world.admission.control? id).getD default).isCancelled = true
  rw [Admission.control?, ht']
  exact hbecomes.isCancelled rfl

end Activity

/-! ## What work evaluates -/

/-- The settings ask for no autorun scripts but these, and none of them is there. -/
def World.LacksAutoruns (paths : List Path) (w : World) : Prop :=
  autorunScripts w.session ⊆ paths ∧ ∀ path ∈ paths, w.host.isFile path = false

/-- A way to evaluate scripts. -/
abbrev Evaluator := Running → String → Context.Bindings → List (String × Value) →
  Act (Except Evaluation.Fault Value)

namespace Evaluator

variable (eval : Evaluator)

/-- The work of a task that evaluates a script, with the scripts evaluated in some way. -/
def evaluateTask (id i : Nat) (script : String) (extra : List (String × Value)) :
    Act Outcome := do
  let bindings := (← getThe World).session.bindings
  let result ← eval ⟨i, .transcript, .task id⟩ script bindings extra
  match result with
  | .ok v => unless v.isUnit do write (.output v.display)
  | .error f => write (.warning f.text)
  complete i id
  return .result (result.mapError .evaluation)

/-- A test, with its script evaluated in some way. -/
def runCase (id i : Nat) (case : TestCase) : Act TestResult := do
  let (buffer, w) := (← getThe World).addBuffer
  set w
  let result ← eval ⟨i, .buffer buffer false, .task id⟩ case.script w.session.bindings []
  endCase case buffer result

/-- Tests in order, with their scripts evaluated in some way. -/
def runCases (id i : Nat) (hasSummary : Bool) : List TestCase → Act (List TestResult)
  | [] => return []
  | case :: rest => do
    if ((← getThe World).control (.task id)).isCancelled then return []
    if hasSummary then write (.output ("# Running test " ++ case.title))
    let r ← eval.runCase id i case
    (r.entries (if hasSummary then Report.indent else "")).forM write
    return r :: (← runCases id i hasSummary rest)

/-- The work of a task that runs tests, with their scripts evaluated in some way. -/
def batchTask (id i : Nat) (cases : List TestCase) (hasSummary : Bool) : Act Outcome := do
  if hasSummary then
    write (.output "Running tests")
    write (.output "-------------")
  let started ← Thread.now
  let results ← eval.runCases id i hasSummary cases
  let run : TestRun := ⟨results, (← Thread.now) - started⟩
  if hasSummary then run.summaryEntries.forM write
  modifyThe World fun w => { w with batches := (id, run) :: w.batches }
  complete i id
  return .result (.ok .unit)

/-- An autorun script, evaluated in some way. -/
def runAutorunScript (i : Nat) (path : Path) : Act (Except Failure Unit) := do
  match (← getThe World).host.readText path with
  | .error e => return .error (.io e)
  | .ok script =>
    let (owner, w) := (← getThe World).addLoose "autorun"
    set w
    let result ← eval ⟨i, .process, owner⟩ script w.session.bindings []
    return (result.map fun _ => ()).mapError .evaluation

/-- An autorun script, evaluated in some way if it is there when its turn comes. -/
def runAutorunIfThere (i : Nat) (path : Path) : Act Unit := do
  if (← getThe World).host.isFile path then
    match ← eval.runAutorunScript i path with
    | .ok () => pure ()
    | .error e =>
      write (.warning ("Failed to run autorun script " ++ path.text ++ ": " ++ e.message))

/-- The autorun scripts, evaluated in some way. -/
def runAutorun (i : Nat) : Act Unit := do
  let w ← getThe World
  (autorunScripts w.session).forM (eval.runAutorunIfThere i)

/-- A rebuild, with its autorun scripts evaluated in some way. -/
def rebuildNow (id : Nat) : Act (Except Failure Nat) := do
  Thread.await fun w => !w.session.isRebuilding
  modifyThe World (·.alterSession fun c => { c with isRebuilding := true })
  let built ← buildAnew id (← getThe World).session
  let result ← match built with
    | .error e => pure (Except.error e)
    | .ok i => do
      modifyThe World (·.alterSession fun c => { c with context := some i })
      banner.forM write
      eval.runAutorun i
      refreshSnapshot i
      pure (Except.ok ((← getThe World).context i).generation)
  modifyThe World (·.alterSession fun c => { c with isRebuilding := false })
  return result

/-- The work of a task, with all its scripts evaluated in some way. -/
def perform (id : Nat) : Work → Act Outcome
  | .planned plan => planTask id plan
  | .evaluate i script extra => eval.evaluateTask id i script extra
  | .batch i cases hasSummary => eval.batchTask id i cases hasSummary
  | .rebuild => return .result ((← eval.rebuildNow id).map fun generation => .int generation)

theorem runCases_evaluateIn (id i : Nat) (hasSummary : Bool) (cases : List TestCase) :
    Evaluator.runCases evaluateIn id i hasSummary cases =
      Session.runCases id i hasSummary cases := by
  induction cases with
  | nil => rfl
  | cons case rest ih =>
    simp only [Evaluator.runCases, Session.runCases, ih]
    rfl

/-- This is the work of a task, with scripts evaluated as they are. -/
theorem perform_evaluateIn (id : Nat) (work : Work) :
    Evaluator.perform evaluateIn id work = Session.perform id work := by
  cases work with
  | planned plan => rfl
  | evaluate i script extra => rfl
  | batch i cases hasSummary =>
    simp only [Evaluator.perform, Session.perform, Evaluator.batchTask, Session.batchTask,
      runCases_evaluateIn]
  | rebuild => rfl

variable {eval : Evaluator} {id : Nat}

section

variable (heval : ∀ r : Running, r.owner = .task id → eval r = evaluateIn r)
include heval

theorem evaluateTask_eq (i : Nat) (script : String) (extra : List (String × Value)) :
    eval.evaluateTask id i script extra = Evaluator.evaluateTask evaluateIn id i script extra := by
  simp only [Evaluator.evaluateTask, heval ⟨i, .transcript, .task id⟩ rfl]

theorem runCase_eq (i : Nat) (case : TestCase) :
    eval.runCase id i case = Evaluator.runCase evaluateIn id i case := by
  have hcase : ∀ sink, eval ⟨i, sink, .task id⟩ = evaluateIn ⟨i, sink, .task id⟩ :=
    fun sink => heval _ rfl
  simp only [Evaluator.runCase, hcase]

theorem runCases_eq (i : Nat) (hasSummary : Bool) (cases : List TestCase) :
    eval.runCases id i hasSummary cases = Evaluator.runCases evaluateIn id i hasSummary cases := by
  induction cases with
  | nil => rfl
  | cons case rest ih => simp only [Evaluator.runCases, runCase_eq heval, ih]

end

/-- A rebuild that finds no autorun scripts evaluates nothing. -/
theorem sameWhile_rebuildNow (eval eval' : Evaluator) (id : Nat) (paths : List Path) :
    (eval.rebuildNow id).SameWhile (World.LacksAutoruns paths) (eval'.rebuildNow id) := by
  have hautorun : ∀ i, (eval.runAutorun i).SameWhile (World.LacksAutoruns paths)
      (eval'.runAutorun i) := by
    refine fun i => .get_bind fun w hw => .forM (fun path hpath => .get_bind fun v hv => ?_)
    rw [if_neg (Bool.eq_false_iff.mp (hv.2 path (hw.1 hpath))),
      if_neg (Bool.eq_false_iff.mp (hv.2 path (hw.1 hpath)))]
    exact .refl _
  refine .bind (.refl _) fun _ => .bind (.refl _) fun _ => .bind (.refl _) fun core =>
    .bind (.refl _) fun built => ?_
  cases built with
  | error e => exact .refl _
  | ok i =>
    exact .bind (.refl _) fun _ => .bind (.refl _) fun _ => .bind (hautorun i) fun _ => .refl _

/-- Whatever a task evaluates but autorun scripts, it evaluates under its own control: evaluated in
another way under other controls, its scripts make it do the same. -/
theorem sameWhile_perform (heval : ∀ r : Running, r.owner = .task id → eval r = evaluateIn r)
    (work : Work) (paths : List Path) :
    (eval.perform id work).SameWhile (fun w => work = .rebuild → w.LacksAutoruns paths)
      (Session.perform id work) := by
  rw [← perform_evaluateIn]
  cases work with
  | planned plan => exact .refl _
  | evaluate i script extra =>
    rw [Evaluator.perform, evaluateTask_eq heval]
    exact .refl _
  | batch i cases hasSummary =>
    rw [Evaluator.perform, Evaluator.batchTask, runCases_eq heval]
    exact .refl _
  | rebuild =>
    have hrebuild : (eval.rebuildNow id).SameWhile
        (fun w => Work.rebuild = .rebuild → w.LacksAutoruns paths)
        (Evaluator.rebuildNow evaluateIn id) :=
      (sameWhile_rebuildNow eval evaluateIn id paths).mono fun w hw => hw rfl
    exact hrebuild.bind fun _ => .refl _

/-- A rebuild evaluates its scripts under controls outside the admission. -/
theorem rebuildNow_eq_of_loose
    (heval : ∀ r : Running, (∃ k, r.owner = .loose k) → eval r = evaluateIn r) (id : Nat) :
    eval.rebuildNow id = Session.rebuildNow id := by
  have hscript : ∀ i path, eval.runAutorunScript i path =
      Evaluator.runAutorunScript evaluateIn i path := by
    intro i path
    have hloose : ∀ k, eval ⟨i, .process, .loose k⟩ = evaluateIn ⟨i, .process, .loose k⟩ :=
      fun k => heval _ ⟨k, rfl⟩
    simp only [Evaluator.runAutorunScript, World.addLoose, hloose]
  have hautorun : ∀ i, eval.runAutorun i = Evaluator.runAutorun evaluateIn i := by
    intro i
    have hthere : eval.runAutorunIfThere i = Evaluator.runAutorunIfThere evaluateIn i := by
      funext path
      simp only [Evaluator.runAutorunIfThere, hscript]
    simp only [Evaluator.runAutorun, hthere]
  simp only [Evaluator.rebuildNow, hautorun]
  rfl

end Evaluator

/-! ## Every script of a task -/

/-- At each of its checks the script is over with its thread's next turn, with a result that is as
required. -/
def Running.StopsIn (r : Running) {α : Type} (S : α → Prop) (run : Run α) (w : World) : Prop :=
  ∀ (load : Loader) (asked : Nat) (q : Script.Request) (k : q.Reply → Run α)
    (m : Member World Job α), run.Reaches (.ask q k) → q.stop?.isSome = true →
      r.Answers load asked q k m → m.Yields S w

theorem Running.stopsIn {r : Running} {α : Type} {S : α → Prop} {run : Run α} {w : World}
    (hrun : run.Heeds S) (hw : r.isCancelled w = true) : r.StopsIn S run w := by
  intro load asked q k m hreaches hq hm
  obtain ⟨x, hx⟩ := Option.isSome_iff_exists.mp hq
  exact r.yields_of_answers hm hx ((hrun.of_reaches hreaches).1 x hx) hw

/-- The world is that of a session in progress after a task has been cancelled. -/
def World.FollowsCancel (id : Nat) (v : World) : Prop :=
  ∃ (w : World) (past moves : List Move), w.Untouched ∧
    Follows past (.admission (.cancel id)) moves ∧
      ((Activity.run w past).world.admission.task? id).isSome = true ∧
        v = (Activity.run w moves).world

/-- The cancellation of a task reaches the scripts that its work runs, but for autorun scripts. -/
structure ReachesScripts (id : Nat) (work : Work) : Prop where
  /-- All but autorun scripts are evaluated under the control of the task: if scripts under other
  controls were evaluated in another way, the work would be the same. -/
  evaluations : ∀ eval : Evaluator, (∀ r : Running, r.owner = .task id → eval r = evaluateIn r) →
    ∀ paths : List Path,
      (eval.perform id work).SameWhile (fun w => work = .rebuild → w.LacksAutoruns paths)
        (perform id work)
  /-- The turns of the thread are moves of a session in progress. -/
  moves : ∀ a, Retires a work.stage (perform id work)
  /-- After the cancellation each check of a script or a module ends it. -/
  checks : ∀ w : World, w.FollowsCancel id → ∀ r : Running, r.owner = .task id →
    (∀ (script : String) (scope : Script.Scope),
      r.StopsIn (fun out => ∃ f, out.1 = .error f ∧ f.IsInterruption) (Script.run script scope) w) ∧
    ∀ text file : String,
      r.StopsIn (fun out => ∃ f, out = .error f ∧ f.IsInterruption) (Script.runModule text file) w

/-- The cancellation of a task reaches every script that its work runs, whatever the work is, unless
it is a rebuild that finds autorun scripts. -/
theorem cancellation_reaches_scripts (id : Nat) (work : Work) : ReachesScripts id work where
  evaluations _ heval := Evaluator.sameWhile_perform heval work
  moves a := retires_perform a id work
  checks := by
    rintro _ ⟨w, past, moves, hw, hcancel, hid, rfl⟩ r hr
    have hcancelled : r.isCancelled (Activity.run w moves).world = true := by
      rw [Running.isCancelled, hr]
      exact Activity.isCancelled_run hw hcancel hid
    exact ⟨fun script scope => r.stopsIn (Script.heeds_run script scope) hcancelled,
      fun text file => r.stopsIn (Script.heeds_runModule text file) hcancelled⟩

/-- A session whose project has an autorun script. -/
def autorunWorld : World :=
  let host := (Host.empty ["w"]).put ⟨"project/autorun.rhai"⟩ "sleep(300); let a = 1;".toUTF8
  let settings : Config.SessionSettings :=
    { (default : Config.SessionSettings) with autorunProject := true }
  { World.new host with session := open_ settings ⟨⟨"cache"⟩⟩ (some ⟨"project"⟩) [] }

/-- Cancel a task that has just been submitted, and wait for its end. -/
def cancelAtOnce (submitted : Except Failure Nat) : Act (Except Failure Value) := do
  match submitted with
  | .error e => return .error e
  | .ok id =>
    alterAdmission (·.cancel id)
    join id

/-- A script that is submitted and cancelled does not come to its end. -/
example :
    let ran := runAct (do
      let _ ← rebuildBlocking
      cancelAtOnce (← evaluateAsync "sleep(300); let b = 1;" "b" none [])) autorunWorld
    (ran.2.control (.task 2)).isCancelled = true ∧
      ((ran.2.context 0).value? "b").map (·.display) = none := by
  decide +kernel

/-- An autorun script is not among them: it sleeps and goes on to its end though the rebuild that
runs it has been cancelled before it began. -/
theorem autorun_outlives_cancellation :
    let ran := runAct (do cancelAtOnce (← rebuild)) autorunWorld
    (ran.2.control (.task 1)).isCancelled = true ∧
      ((ran.2.context 0).value? "a").map (·.display) = some "1" := by
  decide +kernel

end Session
end ScriptSession
