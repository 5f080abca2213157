import ScriptSession.Proofs.Session.Batches

/-!
# Trials

A call that runs tests, from its submission to the run it returns, among others who may do anything
before each look of its threads. The calling thread submits a batch, waits for it and picks up the
run that the batch has left behind under its number; the batch goes on from look to look. Main
statement: a passed run is complete if and only if the batch has not found itself cancelled before
a test (`Trial.complete_iff`). A batch that is cancelled inside a test has a failed test instead,
or finds it before the next one.
-/

namespace ScriptSession
namespace Session

open Concurrency (Follows Member Pool Thread follows_concat runFrom)
open Report (TestCase TestResult TestRun)

/-! ## Submitting a batch -/

/-- What a turn of a submitting thread comes to: it is over, it waits, or its task is started under
a fresh number. -/
inductive Submits (s : Submission) (w : World) :
    World × Member World Job (Except Failure Nat) × List Job → Prop
  | refused {a : Task.Admission} (e : Failure) (ha : w.admission.issued ≤ a.issued) :
      Submits s w ({ w with admission := a }, .finished (.error e), [])
  | waits {a : Task.Admission} (behind seen looks turns : Nat)
      (ha : w.admission.issued ≤ a.issued) :
      Submits s w ({ w with admission := a }, sleeping s behind seen looks turns, [])
  | admitted {a : Task.Admission} {id : Nat} (hid : w.admission.issued < id) (ha : id ≤ a.issued) :
      Submits s w ({ w with admission := a }, .finished (.ok id), [.task id s.work])

variable (s : Submission) (now : Nat)

theorem submits_submitWith (n : Nat) (fromQueue : Bool) (w : World) :
    Submits s w (Pool.drive now (submitWith s n fromQueue) w []) := by
  cases n with
  | zero => exact .refused _ (Nat.le_refl w.admission.issued)
  | succ n =>
    -- Behind another task the turn ends in a wait, since that task blocks it at once.
    have hbehind : ∀ j a, w.admission.turn s.ticket fromQueue true = (.behind j, a) →
        w.admission.issued ≤ a.issued →
        Submits s w (Pool.drive now (submitWith s (n + 1) fromQueue) w []) := by
      intro j a hturn ha
      have hblocked : a.isBlocked j = true := by
        have h : (w.admission.turn s.ticket fromQueue true).1 = .behind j := by rw [hturn]
        simpa only [hturn] using Task.Admission.isBlocked_turn h
      rw [drive_submitWith, hturn]
      cases n with
      | zero => exact .refused _ ha
      | succ n =>
        dsimp only
        rw [drive_waitBehind_of_isBlocked s now [] n (n + 1) hblocked]
        exact .waits j a.notices n (n + 1) ha
    obtain ⟨-, hturn⟩ | ⟨j, -, -, hturn⟩ | ⟨j, -, -, -, hturn⟩ | ⟨j, -, -, -, hturn⟩ :=
      w.admission.turn_cases s.ticket fromQueue true
    · rw [drive_submitWith, hturn]
      exact .admitted (Nat.lt_succ_self _) (Nat.le_refl _)
    · exact hbehind j _ hturn (Nat.le_refl _)
    · rw [drive_submitWith, hturn]
      exact .refused _ (Nat.le_refl w.admission.issued)
    · exact hbehind j _ hturn (Nat.le_refl w.admission.issued)

/-- A submission that has slept comes to no more than one that has not. -/
theorem submits_waitBehind (behind looks turns : Nat) (w : World) :
    Submits s w (Pool.drive now ((waitBehind behind looks).bind fun _ => submitWith s turns true)
      w []) := by
  cases looks with
  | zero => exact submits_submitWith s now turns true w
  | succ looks =>
    cases hblocked : w.admission.isBlocked behind with
    | true =>
      rw [drive_waitBehind_of_isBlocked s now [] looks turns hblocked]
      exact .waits behind w.admission.notices looks turns (Nat.le_refl w.admission.issued)
    | false =>
      rw [drive_waitBehind_of_not s now [] looks turns hblocked]
      exact submits_submitWith s now turns true w

/-! ## The calling thread -/

/-- The submission of a batch. -/
def batchOf (i : Nat) (cases : List TestCase) : Submission :=
  ⟨batchTitle cases, false, none, .batch i cases true⟩

/-- What the calling thread makes of the run that it has looked for. -/
def answer (found : Option (Nat × TestRun)) : Act (Except Failure TestRun) :=
  match found with
  | some (_, run) => return .ok run
  | none => return .error (.taskFailed "test batch produced no results")

/-- What the calling thread does when its batch has ended. -/
def pickUp (id : Nat) : Act (Except Failure TestRun) := do
  match ← takeResult id with
  | .error e => return .error e
  | .ok _ => answer ((← getThe World).batches.find? fun b => b.1 = id)

/-- What the calling thread does when its submission is over. -/
def collect (submitted : Except Failure Nat) : Act (Except Failure TestRun) :=
  match submitted with
  | .error e => return .error e
  | .ok id => (Thread.await fun w => w.admission.hasExited id).bind fun _ => pickUp id

/-- The calling thread submits a batch for the current context and collects its run. -/
theorem runBatch_eq (cases : List TestCase) (hasSummary : Bool) :
    runBatch cases hasSummary = Thread.get fun w =>
      match w.session.context with
      | some i =>
        (submit ⟨batchTitle cases, false, none, .batch i cases hasSummary⟩).bind collect
      | none => .done (.error .engineNotReady) := by
  rw [runBatch, withContext_eq]
  refine congrArg Thread.get (funext fun w => ?_)
  show (match w.session.context with | some i => _ | none => _) = _
  cases w.session.context with
  | none => rfl
  | some i =>
    refine congrArg (submit ⟨batchTitle cases, false, none, .batch i cases hasSummary⟩).bind
      (funext fun submitted => ?_)
    cases submitted <;> rfl

theorem runTests_eq (cases : List TestCase) :
    runTests cases = Thread.get fun w =>
      match w.session.context with
      | some i => (submit (batchOf i cases)).bind collect
      | none => .done (.error .engineNotReady) := runBatch_eq cases true

/-- The calling thread waits for a batch to end, or has found what it has left behind. -/
def Awaits (id : Nat) (w : World) (m : Member World Job (Except Failure TestRun)) : Prop :=
  m = .asleep ⟨fun w => w.admission.hasExited id, none, fun _ => pickUp id⟩ ∨
    ∃ r, m = .finished r ∧ ∀ run, r = .ok run → w.run? id = some run

/-- A run that the calling thread picks up is the one that the batch has left behind. -/
theorem drive_pickUp (id : Nat) (w : World) (jobs : List Job) :
    ∃ a m, Pool.drive now (pickUp id) w jobs = ({ w with admission := a }, m, jobs) ∧
      Awaits id w m := by
  have hfinished : ∀ r : Except Failure TestRun, (∀ run, r = .ok run → w.run? id = some run) →
      Awaits id w (.finished r) := fun r hr => .inr ⟨r, rfl, hr⟩
  simp only [pickUp, takeResult, bind, getThe, MonadStateOf.get, Thread.bind, Pool.drive,
    alterAdmission, modifyThe, MonadStateOf.modifyGet, pure]
  cases (w.admission.takeResult id).1 with
  | error e => exact ⟨_, _, rfl, hfinished _ fun _ h => by cases h⟩
  | ok v =>
    -- The run is looked for under the number of the batch, so it is what is recorded there.
    cases hfound : w.batches.find? fun b => b.1 = id with
    | none =>
      simp only [Pool.drive, hfound]
      exact ⟨_, _, rfl, hfinished _ fun _ h => by cases h⟩
    | some b =>
      simp only [Pool.drive, hfound]
      refine ⟨_, _, rfl, hfinished _ fun run hrun => ?_⟩
      cases hrun
      rw [World.run?, hfound]
      rfl

theorem drive_collect (id : Nat) (w : World) (jobs : List Job) :
    ∃ a m, Pool.drive now (collect (.ok id)) w jobs = ({ w with admission := a }, m, jobs) ∧
      Awaits id w m := by
  show ∃ a m, (if w.admission.hasExited id then _ else _) = _ ∧ _
  split
  · exact drive_pickUp now id w jobs
  · exact ⟨w.admission, _, rfl, .inl rfl⟩

/-! ## Trials -/

/-- A call of `runTests` in progress: the world, the calling thread, and the thread of its batch
under its number once it has been started. -/
structure Trial where
  world : World
  caller : Member World Job (Except Failure TestRun)
  batch : Option (Nat × Act Unit)

namespace World

/-- Runs are recorded under numbers that have been given out. -/
def RunsNumbered (w : World) : Prop := ∀ b ∈ w.batches, b.1 ≤ w.admission.issued

theorem run?_eq_none_of_issued_lt {w : World} (hw : w.RunsNumbered) {id : Nat}
    (hid : w.admission.issued < id) : w.run? id = none := by
  unfold run?
  rw [Option.map_eq_none_iff, List.find?_eq_none]
  intro b hb heq
  have hle := hw b hb
  rw [decide_eq_true_eq] at heq
  omega

end World

namespace Trial

/-- What happens next: the calling thread takes a turn, the batch goes on from one look to the next
one, or others change the world in any way. -/
inductive Turn
  | caller (now : Nat)
  | batch (now : Nat) (isLate : Bool)
  | others (f : World → World)

/-- The call of `runTests` before its first turn. -/
def start (cases : List TestCase) (w : World) : Trial := ⟨w, .active (runTests cases), none⟩

/-- The thread of the task that is started first. -/
def started? : List Job → Option (Nat × Act Unit)
  | .task id work :: _ => some (id, body (.task id work))
  | _ => none

/-- The others do not record runs under the number of the batch, nor under one that has not been
given out. -/
def Spares (s : Trial) (w : World) : Prop :=
  match s.batch with
  | some (id, _) => w.run? id = s.world.run? id
  | none => w.RunsNumbered

open Classical in
/-- One step of a trial. -/
noncomputable def step (s : Trial) : Turn → Trial
  | .caller now =>
    match Pool.wake now s.world s.caller with
    | some t =>
      let (w, caller, jobs) := Pool.drive now t s.world []
      ⟨w, caller, (started? jobs).or s.batch⟩
    | none => s
  | .batch now isLate =>
    match s.batch with
    | some (id, t) =>
      let (w, t) := t.slice now isLate s.world
      { s with world := w, batch := some (id, t) }
    | none => s
  | .others f => if s.Spares (f s.world) then { s with world := f s.world } else s

/-- What the call has come to. -/
def result? (s : Trial) : Option (Except Failure TestRun) :=
  match s.caller with
  | .finished r => some r
  | _ => none

/-- The batch is about to look before a test and finds its task cancelled. -/
def FindsCancelled (cases : List TestCase) (s : Trial) : Prop :=
  ∃ id t, s.batch = some (id, t) ∧ Session.FindsCancelled id cases t s.world

/-- The batch has found itself cancelled before a test. -/
def IsCutShort (cases : List TestCase) (w : World) (turns : List Turn) : Prop :=
  ∃ past now isLate, Follows past (.batch now isLate) turns ∧
    (runFrom step (start cases w) past).FindsCancelled cases

/-! ## Every reachable trial -/

/-- The calling thread has not submitted its batch. -/
def Asks (cases : List TestCase) (m : Member World Job (Except Failure TestRun)) : Prop :=
  m = .active (runTests cases) ∨ (∃ e, m = .finished (.error e)) ∨
    ∃ i behind seen looks turns,
      m = (sleeping (batchOf i cases) behind seen looks turns).bind collect

/-- What holds of every trial that can be reached. -/
inductive Sound (cases : List TestCase) (found : Prop) : Trial → Prop
  | asking {w : World} {m : Member World Job (Except Failure TestRun)} (hw : w.RunsNumbered)
      (hm : Asks cases m) (hfound : ¬found) : Sound cases found ⟨w, m, none⟩
  | running {w : World} {m : Member World Job (Except Failure TestRun)} {id : Nat} {t : Act Unit}
      (hm : Awaits id w m) (ht : Progress id cases found (w, t)) :
      Sound cases found ⟨w, m, some (id, t)⟩

variable {cases : List TestCase} {found : Prop} {now : Nat} {w : World}

/-- A turn in which the calling thread submits its batch. -/
theorem sound_of_submits {i : Nat} {t : Act (Except Failure Nat)} (hw : w.RunsNumbered)
    (hfound : ¬found) (h : Submits (batchOf i cases) w (Pool.drive now t w [])) :
    let r := Pool.drive now (t.bind collect) w []
    Sound cases found ⟨r.1, r.2.1, (started? r.2.2).or none⟩ := by
  have hkeeps : ∀ a : Task.Admission, w.admission.issued ≤ a.issued →
      World.RunsNumbered { w with admission := a } :=
    fun a ha b hb => Nat.le_trans (hw b hb) ha
  rw [Pool.drive_bind]
  generalize Pool.drive now t w [] = r at h
  cases h with
  | refused e ha => exact .asking (hkeeps _ ha) (.inr (.inl ⟨e, rfl⟩)) hfound
  | waits behind seen looks turns ha =>
    exact .asking (hkeeps _ ha) (.inr (.inr ⟨i, behind, seen, looks, turns, rfl⟩)) hfound
  | @admitted a id hid ha =>
    obtain ⟨a', m, hdrive, hm⟩ := drive_collect now id { w with admission := a }
      [.task id (batchOf i cases).work]
    dsimp only
    rw [hdrive]
    have hrun : World.run? { w with admission := a' } id = none :=
      World.run?_eq_none_of_issued_lt hw hid
    exact .running hm (.body hrun hfound)

theorem step_caller_of_wake_none {s : Trial} (h : Pool.wake now s.world s.caller = none) :
    s.step (.caller now) = s := by
  rw [step, h]

theorem step_caller_of_wake {s : Trial} {t : Act (Except Failure TestRun)}
    (h : Pool.wake now s.world s.caller = some t) :
    s.step (.caller now) =
      let r := Pool.drive now t s.world []
      ⟨r.1, r.2.1, (started? r.2.2).or s.batch⟩ := by
  rw [step, h]

/-- A turn of the calling thread. -/
theorem sound_caller {s : Trial} (hs : Sound cases found s) :
    Sound cases found (s.step (.caller now)) := by
  cases hwake : Pool.wake now s.world s.caller with
  | none =>
    rw [step_caller_of_wake_none hwake]
    exact hs
  | some t =>
    rw [step_caller_of_wake hwake]
    cases hs with
    | @asking w m hw hm hfound =>
      obtain rfl | ⟨e, rfl⟩ | ⟨i, behind, seen, looks, turns, rfl⟩ := hm
      · cases hwake
        rw [runTests_eq]
        simp only [Pool.drive]
        cases w.session.context with
        | none => exact .asking hw (.inr (.inl ⟨_, rfl⟩)) hfound
        | some i => exact sound_of_submits hw hfound (submits_submitWith _ now _ false w)
      · cases hwake
      · -- A sleeper without a deadline wakes for a notice only.
        obtain ⟨-, rfl⟩ | ⟨-, ⟨_, hdeadline, -⟩, -⟩ := Pool.wake_asleep_eq_some.mp hwake
        · exact sound_of_submits hw hfound (submits_waitBehind _ now behind looks turns w)
        · cases hdeadline
    | @running w m id t hm ht =>
      obtain rfl | ⟨r, rfl, hr⟩ := hm
      · obtain ⟨-, rfl⟩ | ⟨-, ⟨_, hdeadline, -⟩, -⟩ := Pool.wake_asleep_eq_some.mp hwake
        · obtain ⟨a, m, hdrive, hm⟩ := drive_pickUp now id w []
          rw [hdrive]
          exact .running hm (ht.of_others rfl)
        · cases hdeadline
      · cases hwake

/-- A slice of the batch, which may find itself cancelled in it. -/
theorem sound_batch {s : Trial} {isLate : Bool} (hs : Sound cases found s) :
    Sound cases (found ∨ s.FindsCancelled cases) (s.step (.batch now isLate)) := by
  cases hs with
  | @asking w m hw hm hfound =>
    have hnot : ¬(found ∨ FindsCancelled cases ⟨w, m, none⟩) := by
      rintro (h | ⟨id, t, hbatch, -⟩)
      · exact hfound h
      · cases hbatch
    exact .asking hw hm hnot
  | @running w m id t hm ht =>
    have hiff : FindsCancelled cases ⟨w, m, some (id, t)⟩ ↔
        Session.FindsCancelled id cases t w := by
      constructor
      · rintro ⟨id', t', hbatch, h⟩
        cases hbatch
        exact h
      · exact fun h => ⟨id, t, rfl, h⟩
    -- A batch that has left its run behind leaves it alone, so the calling thread stays right.
    have hkeeps : ∀ run, w.run? id = some run → (t.slice now isLate w).1.run? id = some run :=
      fun run hrun => ht.run?_slice hrun
    have hm' : Awaits id (t.slice now isLate w).1 m := by
      obtain hm | ⟨r, hm, hr⟩ := hm
      · exact .inl hm
      · exact .inr ⟨r, hm, fun run hrun => hkeeps run (hr run hrun)⟩
    by_cases hfinds : Session.FindsCancelled id cases t w
    · have htrue : (found ∨ FindsCancelled cases ⟨w, m, some (id, t)⟩) = True :=
        eq_true (.inr (hiff.mpr hfinds))
      rw [htrue]
      exact .running hm' (.slice_of_findsCancelled hfinds)
    · have hsame : (found ∨ FindsCancelled cases ⟨w, m, some (id, t)⟩) = found :=
        propext ⟨fun h => h.resolve_right fun h => hfinds (hiff.mp h), .inl⟩
      rw [hsame]
      exact .running hm' (ht.slice_of_not_findsCancelled hfinds)

theorem sound_others {s : Trial} {f : World → World} (hs : Sound cases found s) :
    Sound cases found (s.step (.others f)) := by
  rw [step]
  split
  · rename_i hspares
    cases hs with
    | asking hw hm hfound => exact .asking hspares hm hfound
    | @running w m id t hm ht =>
      have hrun : (f w).run? id = w.run? id := hspares
      refine .running ?_ (ht.of_others hrun)
      obtain hm | ⟨r, hm, hr⟩ := hm
      · exact .inl hm
      · exact .inr ⟨r, hm, fun run h => hrun.trans (hr run h)⟩
  · exact hs

theorem not_isCutShort_nil : ¬IsCutShort cases w [] := by
  rintro ⟨past, now, isLate, hfollows, -⟩
  have hlength := List.IsPrefix.length_le hfollows
  simp at hlength

/-- A run with one more turn is cut short if it was so before, or if the turn is the batch's and
finds it cancelled. -/
theorem isCutShort_concat (turns : List Turn) (turn : Turn) :
    IsCutShort cases w (turns ++ [turn]) ↔ IsCutShort cases w turns ∨
      (∃ now isLate, turn = .batch now isLate) ∧
        (runFrom step (start cases w) turns).FindsCancelled cases := by
  constructor
  · rintro ⟨past, now, isLate, hfollows, hfinds⟩
    obtain ⟨rfl, rfl⟩ | hbefore := follows_concat hfollows
    · exact .inr ⟨⟨now, isLate, rfl⟩, hfinds⟩
    · exact .inl ⟨past, now, isLate, hbefore, hfinds⟩
  · rintro (⟨past, now, isLate, hfollows, hfinds⟩ | ⟨⟨now, isLate, rfl⟩, hfinds⟩)
    · exact ⟨past, now, isLate, hfollows.trans_prefix (List.prefix_append turns [turn]), hfinds⟩
    · exact ⟨turns, now, isLate, List.prefix_refl _, hfinds⟩

theorem sound_run (hw : w.RunsNumbered) (turns : List Turn) :
    Sound cases (IsCutShort cases w turns) (runFrom step (start cases w) turns) := by
  induction turns using List.reverseRecOn with
  | nil => exact .asking hw (.inl rfl) not_isCutShort_nil
  | append_singleton turns turn ih =>
    have hconcat : IsCutShort cases w (turns ++ [turn]) ↔ _ := isCutShort_concat turns turn
    rw [Concurrency.runFrom_concat]
    cases turn with
    | caller now =>
      -- Only a slice of the batch can find it cancelled.
      have hsame : IsCutShort cases w (turns ++ [.caller now]) = IsCutShort cases w turns :=
        propext (hconcat.trans ⟨fun h => h.resolve_right nofun, .inl⟩)
      rw [hsame]
      exact sound_caller ih
    | batch now isLate =>
      have hsame : IsCutShort cases w (turns ++ [.batch now isLate]) =
          (IsCutShort cases w turns ∨
            (runFrom step (start cases w) turns).FindsCancelled cases) :=
        propext (hconcat.trans (or_congr_right (and_iff_right ⟨now, isLate, rfl⟩)))
      rw [hsame]
      exact sound_batch ih
    | others f =>
      have hsame : IsCutShort cases w (turns ++ [.others f]) = IsCutShort cases w turns :=
        propext (hconcat.trans ⟨fun h => h.resolve_right nofun, .inl⟩)
      rw [hsame]
      exact sound_others ih

/-- A run of tests that holds one success for each of them, in order. -/
def IsComplete (cases : List TestCase) (run : TestRun) : Prop :=
  run.results.map (fun r => (r.title, r.outcome)) = cases.map fun c => (c.title, .success)

theorem isComplete_iff {run : TestRun} (hpassed : run.allPassed = true) :
    IsComplete cases run ↔ run.results.map (·.title) = cases.map (·.title) := by
  have hresults : run.results.map (fun r => (r.title, r.outcome)) =
      (run.results.map (·.title)).map fun title => (title, Report.TestOutcome.success) := by
    rw [List.map_map]
    refine List.map_congr_left fun r hr => ?_
    have hsuccess : r.outcome = .success := by
      rw [TestRun.allPassed, List.all_eq_true] at hpassed
      simpa [TestResult.isSuccess] using hpassed r hr
    rw [Function.comp_apply, hsuccess]
  have hcases : cases.map (fun c => (c.title, Report.TestOutcome.success)) =
      (cases.map (·.title)).map fun title => (title, Report.TestOutcome.success) := by
    rw [List.map_map]
    rfl
  rw [IsComplete, hresults, hcases]
  exact (List.map_injective_iff.mpr fun _ _ h => (Prod.mk.inj h).1).eq_iff

/-- A passed run is complete if and only if its batch has not found itself cancelled before a test,
whatever the others do and at whatever point they cancel it. -/
theorem complete_iff (hw : w.RunsNumbered) (turns : List Turn) {run : TestRun}
    (hrun : (runFrom step (start cases w) turns).result? = some (.ok run))
    (hpassed : run.allPassed = true) :
    IsComplete cases run ↔ ¬IsCutShort cases w turns := by
  have haccounts : Accounts cases (IsCutShort cases w turns) run.results := by
    have hsound : Sound cases (IsCutShort cases w turns) (runFrom step (start cases w) turns) :=
      sound_run hw turns
    generalize runFrom step (start cases w) turns = s at hrun hsound
    cases hsound with
    | asking _ hm =>
      obtain rfl | ⟨e, rfl⟩ | ⟨i, behind, seen, looks, turns, rfl⟩ := hm <;> cases hrun
    | running hm ht =>
      obtain rfl | ⟨r, rfl, hr⟩ := hm
      · cases hrun
      · cases hrun
        exact ht.accounts (hr run rfl)
  rw [isComplete_iff hpassed]
  constructor
  · intro htitles hcut
    -- A batch that has been cut short has results for some of the tests only.
    have hlength := congrArg List.length htitles
    rw [List.length_map, List.length_map] at hlength
    have hlt := haccounts.1 hcut
    omega
  · exact haccounts.2

end Trial

end Session
end ScriptSession
