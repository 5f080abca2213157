import ScriptSession.Proofs.Task.Rest
import ScriptSession.Session.Tasks

/-!
# The threads behind the traffic

The threads of a session that submit and interrupt take the steps of the traffic at the admission.
A submission that has slept before takes a turn from the queue, sleeps where the turn says so and
looks again when there is a notice; an interrupt marks and cancels the tracked task, and when its
time is over or the task has ended it ends as the end of an interrupt does. The thread of a task
begins, keeps the outcome of its work, ends, tells the listener and leaves, whatever the outcome is.
-/

namespace ScriptSession
namespace Session

open Concurrency (Member Pool Thread runFrom)
open ScriptSession.Task (Admission Call Reply Ticket Traffic)

variable (s : Submission) (now : Nat) (jobs : List Job) {T : Traffic} {t : Nat} {w : World}

/-! ## Submitting -/

/-- A submission that sleeps behind a task and knows the notices given so far, with what it has left
of looks and turns. -/
def sleeping (s : Submission) (behind seen looks turns : Nat) :
    Member World Job (Except Failure Nat) :=
  .asleep ⟨fun w => w.admission.notices ≠ seen, none,
    fun _ => (waitBehind behind looks).bind fun _ => submitWith s turns true⟩

/-- A thread of a submission is where a call of the traffic says. -/
def Stands (s : Submission) : Call → Member World Job (Except Failure Nat) → Prop
  | .none, m => ∃ r, m = .finished r
  | .asleep ticket behind _ seen, m =>
    ticket = s.ticket ∧ ∃ looks turns, m = sleeping s behind seen looks turns
  | .interrupting _, _ => False

/-- A turn of a submission: it is over, or it waits behind a task and takes another one. -/
theorem drive_submitWith (n : Nat) (fromQueue : Bool) (w : World) :
    Pool.drive now (submitWith s (n + 1) fromQueue) w jobs =
      match w.admission.turn s.ticket fromQueue true with
      | (.admitted id, a) =>
        ({ w with admission := a }, .finished (.ok id), jobs ++ [.task id s.work])
      | (.behind id, a) =>
        Pool.drive now ((waitBehind id n).bind fun _ => submitWith s n true)
          { w with admission := a } jobs
      | (.refused, a) => ({ w with admission := a }, .finished (.error (.queueFull s.title)), jobs)
      | (.unstarted, a) =>
        ({ w with admission := a }, .finished (.error (.io
          (.other "Resource temporarily unavailable (os error 11)"))), jobs) := by
  rw [submitWith]
  simp only [bind, getThe, MonadStateOf.get, Thread.bind, Pool.drive]
  generalize w.admission.turn s.ticket fromQueue true = turn
  obtain ⟨reply, a⟩ := turn
  cases reply <;> rfl

theorem waitBehind_succ (behind n : Nat) : waitBehind behind (n + 1) = Thread.get fun w =>
    if w.admission.isBlocked behind then
      (Thread.await fun v => v.admission.notices ≠ w.admission.notices).bind
        fun _ => waitBehind behind n
    else .done () := rfl

/-- Where the task is in the way still, the submission sleeps until the next notice. -/
theorem drive_waitBehind_of_isBlocked {behind : Nat} (n k : Nat)
    (h : w.admission.isBlocked behind = true) :
    Pool.drive now ((waitBehind behind (n + 1)).bind fun _ => submitWith s k true) w jobs =
      (w, sleeping s behind w.admission.notices n k, jobs) := by
  rw [waitBehind_succ]
  show Pool.drive now (Thread.bind (if w.admission.isBlocked behind then _ else _) _) w jobs = _
  rw [if_pos h]
  show (if decide (w.admission.notices ≠ w.admission.notices) then _ else _) = _
  rw [if_neg (by simp)]
  rfl

/-- Where it is not, the submission takes another turn. -/
theorem drive_waitBehind_of_not {behind : Nat} (n k : Nat)
    (h : w.admission.isBlocked behind = false) :
    Pool.drive now ((waitBehind behind (n + 1)).bind fun _ => submitWith s k true) w jobs =
      Pool.drive now (submitWith s k true) w jobs := by
  rw [waitBehind_succ]
  show Pool.drive now (Thread.bind (if w.admission.isBlocked behind then _ else _) _) w jobs = _
  rw [if_neg (by simp [h])]
  rfl

/-- A turn of a submitting thread is a turn in the traffic. -/
theorem submitWith_takesTurn (n : Nat) (slept : List Nat) (hw : w.admission = T.admission) :
    (Pool.drive now (submitWith s (n + 2) (!slept.isEmpty)) w jobs).1.admission =
        (T.takeTurn t s.ticket slept true).admission ∧
      Stands s ((T.takeTurn t s.ticket slept true).calls t)
        (Pool.drive now (submitWith s (n + 2) (!slept.isEmpty)) w jobs).2.1 := by
  have hcall : (T.takeTurn t s.ticket slept true).calls t =
      Call.after s.ticket slept (w.admission.turn s.ticket (!slept.isEmpty) true).2.notices
        (w.admission.turn s.ticket (!slept.isEmpty) true).1 := by
    rw [hw]
    exact Function.update_self ..
  have hadmission : (T.takeTurn t s.ticket slept true).admission =
      (w.admission.turn s.ticket (!slept.isEmpty) true).2 := by
    rw [hw]
    rfl
  rw [hcall, hadmission, drive_submitWith]
  cases hturn : w.admission.turn s.ticket (!slept.isEmpty) true with
  | mk reply a =>
  cases reply with
  | behind id =>
    -- Nothing has happened since the turn, so the first look finds the task in the way still.
    have hblocked : a.isBlocked id = true := by
      have hbehind : (w.admission.turn s.ticket (!slept.isEmpty) true).1 = .behind id := by
        rw [hturn]
      simpa only [hturn] using Admission.isBlocked_turn hbehind
    dsimp only
    rw [drive_waitBehind_of_isBlocked s now jobs n (n + 1) hblocked]
    exact ⟨rfl, rfl, n, n + 1, rfl⟩
  | admitted id => exact ⟨rfl, _, rfl⟩
  | refused => exact ⟨rfl, _, rfl⟩
  | unstarted => exact ⟨rfl, _, rfl⟩

/-- A thread that submits takes the step of a submission. -/
theorem submitWith_steps (n : Nat) (hw : w.admission = T.admission) (ht : T.calls t = .none) :
    (Pool.drive now (submitWith s (n + 2) false) w jobs).1.admission =
        (T.step (.submit t s.ticket true)).admission ∧
      Stands s ((T.step (.submit t s.ticket true)).calls t)
        (Pool.drive now (submitWith s (n + 2) false) w jobs).2.1 := by
  rw [Traffic.step, if_pos ht]
  exact submitWith_takesTurn s now jobs n [] hw

/-- A sleeping submission that finds a notice takes the step of one that wakes up. -/
theorem sleeping_steps {behind seen : Nat} {before : List Nat} (n k : Nat)
    (hw : w.admission = T.admission) (ht : T.calls t = .asleep s.ticket behind before seen) :
    match Pool.wake now w (sleeping s behind seen (n + 1) (k + 2)) with
    | none => T.step (.wake t true) = T
    | some thread =>
      (Pool.drive now thread w jobs).1.admission = (T.step (.wake t true)).admission ∧
        Stands s ((T.step (.wake t true)).calls t) (Pool.drive now thread w jobs).2.1 := by
  by_cases hnotice : w.admission.notices = seen
  · -- Without a notice the sleeper is not woken, and the traffic stays.
    have hnone : Pool.wake now w (sleeping s behind seen (n + 1) (k + 2)) = none := by
      simp [Pool.wake, sleeping, hnotice]
    rw [hnone]
    simp only [Traffic.step, ht, ← hw, hnotice, if_true]
  · have hsome : Pool.wake now w (sleeping s behind seen (n + 1) (k + 2)) =
        some ((waitBehind behind (n + 1)).bind fun _ => submitWith s (k + 2) true) := by
      simp [Pool.wake, sleeping, hnotice]
    rw [hsome]
    cases hblocked : w.admission.isBlocked behind with
    | true =>
      simp only [drive_waitBehind_of_isBlocked s now jobs n (k + 2) hblocked, Traffic.step, ht,
        ← hw, hnotice, if_false, hblocked, if_true, Traffic.call, Function.update_self]
      exact ⟨trivial, rfl, n, k + 2, rfl⟩
    | false =>
      simp only [drive_waitBehind_of_not s now jobs n (k + 2) hblocked, Traffic.step, ht, ← hw,
        hnotice, if_false, hblocked, Bool.false_eq_true]
      exact submitWith_takesTurn s now jobs k (behind :: before) hw

/-! ## Interrupting -/

/-- An interrupt finds nothing tracked, or marks and cancels the tracked task and waits for it. -/
theorem drive_interruptTask (w : World) :
    Pool.drive now interruptTask w jobs =
      match w.admission.current with
      | none => (w, .finished .idle, jobs)
      | some id =>
        Pool.drive now
          ((Thread.awaitFor gracePeriod fun w => w.admission.hasExited id).bind
            (endInterruption id))
          { w with admission := { w.admission with phase := .interrupting }.cancel id } jobs := by
  rw [interruptTask]
  simp only [bind, getThe, MonadStateOf.get, Thread.bind, Pool.drive, Admission.beginInterrupt?]
  cases w.admission.current <;> rfl

/-- What an interrupt does before it waits is its beginning and the cancellation of its task. -/
theorem interruptTask_steps {id : Nat} (hw : w.admission = T.admission) (ht : T.calls t = .none)
    (hid : w.admission.current = some id) :
    { w.admission with phase := .interrupting }.cancel id =
        (runFrom Traffic.step T [.interrupt t, .cancel id]).admission ∧
      (runFrom Traffic.step T [.interrupt t, .cancel id]).calls t = .interrupting id := by
  rw [hw] at hid
  simp only [runFrom, List.foldl_cons, List.foldl_nil, Traffic.step, ht, hw,
    Admission.beginInterrupt?, hid, Traffic.alter, Traffic.call, Function.update_self, and_self]

theorem world_await {α : Type} (isReady : World → Bool) (a : α) (w : World) :
    (Pool.drive now ((Thread.await isReady).bind fun _ => (Thread.done a : Act α)) w jobs).1 =
      w := by
  show (if isReady w then _ else _ : World × Member World Job α × List Job).1 = w
  split <;> rfl

theorem admission_record (w : World) (e : Event) : (w.record e).admission = w.admission := by
  rw [World.record]
  split <;> rfl

theorem drive_notifyEnded {α : Type} (id : Nat) (f : Unit → Act α) (w : World) :
    ∃ w', w'.admission = (w.admission.takeListener id).2 ∧
      Pool.drive now ((notifyEnded id).bind f) w jobs = Pool.drive now (f ()) w' jobs := by
  simp only [notifyEnded, bind, getThe, MonadStateOf.get, Thread.bind, Pool.drive, alterAdmission,
    modifyThe, MonadStateOf.modifyGet]
  cases (w.admission.takeListener id).1 with
  | none => exact ⟨_, rfl, rfl⟩
  | some l => exact ⟨World.record _ (.ended l.name), admission_record .., rfl⟩

theorem admission_notifyEnded {α : Type} (id : Nat) (a : α) (w : World) :
    (Pool.drive now ((notifyEnded id).bind fun _ => (Thread.done a : Act α)) w
        jobs).1.admission = (w.admission.takeListener id).2 := by
  obtain ⟨w', hw', hdrive⟩ := drive_notifyEnded now jobs id (fun _ => (.done a : Act α)) w
  rw [hdrive]
  exact hw'

/-- The admission after the end of an interrupt: the task is given up unless it has stopped, it is
no longer tracked, and its listener hears of the end if it was given up. -/
theorem admission_endInterruption (id : Nat) (stopped : Bool) (w : World) :
    (Pool.drive now (endInterruption id stopped) w jobs).1.admission =
      if stopped then (w.admission.endInterrupt id).2
      else
        let a := ((w.admission.finish id .terminated).2.endInterrupt id).2
        if (w.admission.finish id .terminated).1 then (a.takeListener id).2 else a := by
  cases stopped with
  | true =>
    simp only [endInterruption, bind, getThe, MonadStateOf.get, Thread.bind, Pool.drive, if_true,
      pure, alterAdmission, modifyThe, MonadStateOf.modifyGet, Bool.false_eq_true, if_false]
    split
    · rw [world_await]
    · rfl
  | false =>
    simp only [endInterruption, bind, getThe, MonadStateOf.get, Thread.bind, Pool.drive, pure,
      alterAdmission, modifyThe, MonadStateOf.modifyGet, Bool.false_eq_true, if_false]
    split
    · rw [admission_notifyEnded]
    · split
      · rw [world_await]
      · rfl

/-- How an interrupt ends in the traffic. -/
def endings (t id : Nat) (stopped isFirst : Bool) : List Task.Event :=
  if stopped then [.endInterrupt t]
  else if isFirst then [.finish id .terminated, .endInterrupt t, .note id .tellsEnd]
  else [.finish id .terminated, .endInterrupt t]

/-- The end of an interrupting thread is the end of an interrupt in the traffic. -/
theorem endInterruption_steps {id : Nat} (stopped : Bool) (hw : w.admission = T.admission)
    (ht : T.calls t = .interrupting id) (hstopped : stopped = true → w.admission.hasExited id) :
    (Pool.drive now (endInterruption id stopped) w jobs).1.admission =
      (runFrom Traffic.step T
        (endings t id stopped (w.admission.finish id .terminated).1)).admission := by
  rw [admission_endInterruption]
  cases stopped with
  | true =>
    have hexit : T.admission.hasExited id = true := hw ▸ hstopped rfl
    simp only [endings, if_true, runFrom, List.foldl_cons, List.foldl_nil, Traffic.step, ht, hexit,
      hw]
    rfl
  | false =>
    have hexit : (T.admission.finish id .terminated).2.hasExited id = true :=
      Admission.hasExited_finish _ id (by decide)
    simp only [endings, Bool.false_eq_true, if_false, hw]
    split
    · simp only [runFrom, List.foldl_cons, List.foldl_nil, Traffic.step, Traffic.alter, ht, hexit,
        if_true, Traffic.call]
      rfl
    · simp only [runFrom, List.foldl_cons, List.foldl_nil, Traffic.step, Traffic.alter, ht, hexit,
        if_true, Traffic.call]

/-! ## Tasks -/

/-- What is kept of the outcome of a task's work. -/
def Outcome.kept : Outcome → Except Failure Script.Value
  | .result r => r
  | .panic message => .error (.taskFailed message)

/-- How a task ends after its work. -/
def Outcome.exit : Outcome → Task.Exit
  | .result _ => .completed
  | .panic _ => .panicked

/-- What a task's thread does at the admission up to its end. -/
def ending (id : Nat) (outcome : Outcome) : List Task.Event :=
  [.note id .begins, .note id (.keeps outcome.kept), .finish id outcome.exit, .note id .tellsEnd]

theorem admission_end (id : Nat) (w : World) :
    (Pool.drive now ((notifyEnded id).bind fun _ => alterAdmission (·.release id)) w
        jobs).1.admission = (w.admission.takeListener id).2.release id := by
  obtain ⟨w', hw', hdrive⟩ :=
    drive_notifyEnded now jobs id (fun _ => alterAdmission (·.release id)) w
  rw [hdrive, ← hw']
  rfl

/-- The admission after a task's thread is done, whatever the outcome of its work was. -/
theorem admission_runTask (id : Nat) (outcome : Outcome) (w : World) :
    (Pool.drive now (runTask id (pure outcome)) w jobs).1.admission =
      ((((w.admission.begin id).keep id outcome.kept).finish id outcome.exit).2.takeListener
        id).2.release id := by
  cases outcome <;> cases hlistener : (w.admission.control? id).bind (·.startListener?) <;>
    simp only [runTask, notifyStarted, bind, getThe, MonadStateOf.get, Thread.bind, Pool.drive,
      alterAdmission, modifyThe, MonadStateOf.modifyGet, pure, hlistener, admission_record] <;>
    exact admission_end now jobs id _

/-- A task whose thread has not left may leave after the steps up to its end. -/
theorem mayLeave_ending (id : Nat) (outcome : Outcome) (hid : (T.admission.task? id).isSome)
    (hleft : ¬ T.admission.HasLeft id) :
    (runFrom Traffic.step T (ending id outcome)).admission.mayLeave id = true := by
  let kept := (T.admission.note id .begins).note id (.keeps outcome.kept)
  let finished := (kept.finish id outcome.exit).2
  let told := finished.note id .tellsEnd
  have hkept : T.admission.Extends kept :=
    (Admission.extends_note _ id _).trans (Admission.extends_note _ id _)
  have hfinished : kept.Extends finished :=
    Admission.extends_alterTask _ id fun r => r.becomes_finish outcome.exit
  have hexit : finished.hasExited id = true :=
    Admission.hasExited_finish kept id (by cases outcome <;> exact nofun)
  have hended : told.HasEnded id :=
    (Admission.extends_note finished id .tellsEnd).hasEnded (Admission.hasEnded_of_hasExited
      (hfinished.task?_isSome (hkept.task?_isSome hid)) hexit)
  -- None of the steps is the end of the thread.
  have hstays : ¬ told.HasLeft id := fun h =>
    hleft (Admission.hasLeft_note _ (Admission.hasLeft_note _
      (Admission.hasLeft_finish _ (Admission.hasLeft_note _ h))))
  exact Admission.mayLeave_of_hasEnded hended hstays

/-- A task's thread takes the steps of a task's end in the traffic. -/
theorem runTask_steps (id : Nat) (outcome : Outcome) (hw : w.admission = T.admission)
    (hid : (T.admission.task? id).isSome) (hleft : ¬ T.admission.HasLeft id) :
    (Pool.drive now (runTask id (pure outcome)) w jobs).1.admission =
      (runFrom Traffic.step T (ending id outcome ++ [.release id])).admission := by
  rw [admission_runTask, hw, Concurrency.runFrom_concat, Traffic.step,
    if_pos (mayLeave_ending id outcome hid hleft)]
  rfl

end Session
end ScriptSession
