import ScriptSession.Proofs.Concurrency.Pools
import ScriptSession.Proofs.Session.Trials
import ScriptSession.Session.Opening

/-!
# Work that cancels nothing

Nearly all that a session does cancels no task and records no run of tests: submitting, joining,
rebuilding, evaluating. So in a pool in which nothing else is done no task is ever cancelled, and
a batch of tests does not find itself cancelled: the run that it records is one of all its tests
(`behaves_batch`).
-/

namespace ScriptSession

namespace Task
namespace Admission

/-- No task has been cancelled. -/
def Calm (a : Admission) : Prop := ∀ t ∈ a.tasks, t.control.isCancelled = false

variable {a : Admission}

theorem Calm.alterTask (h : a.Calm) (id : Nat) {f : Record → Record}
    (hf : ∀ t, (f t).control.isCancelled = t.control.isCancelled) : (a.alterTask id f).Calm := by
  intro t ht
  obtain ⟨t', ht', rfl⟩ := List.mem_map.mp ht
  split
  · rw [hf]
    exact h t' ht'
  · exact h t' ht'

theorem Calm.note (h : a.Calm) (id : Nat) (n : Note) : (a.note id n).Calm := by
  cases n <;> exact h.alterTask id fun _ => rfl

theorem Calm.finish (h : a.Calm) (id : Nat) (exit : Exit) : (a.finish id exit).2.Calm := by
  refine h.alterTask id fun t => ?_
  simp only [Control.finish]
  split <;> rfl

theorem Calm.release (h : a.Calm) (id : Nat) : (a.release id).Calm := by
  have hleft : (a.alterTask id fun t => { t with hasLeft := true }).Calm :=
    h.alterTask id fun _ => rfl
  unfold Admission.release
  dsimp only
  split <;> exact hleft

theorem Calm.takeResult (h : a.Calm) (id : Nat) : (a.takeResult id).2.Calm := by
  unfold Admission.takeResult
  split
  · exact h
  · split
    · exact h
    · exact h.alterTask id fun _ => rfl

theorem Calm.turn (h : a.Calm) (t : Ticket) (fromQueue hasThread : Bool) :
    (a.turn t fromQueue hasThread).2.Calm := by
  obtain ⟨-, hturn⟩ | ⟨j, -, -, hturn⟩ | ⟨j, -, -, -, hturn⟩ | ⟨j, -, -, -, hturn⟩ :=
    a.turn_cases t fromQueue hasThread <;> rw [hturn]
  · unfold enroll
    dsimp only
    split
    · intro t' ht'
      obtain rfl | ht' := List.mem_cons.mp ht'
      · rfl
      · exact h t' ht'
    · exact h
  all_goals exact h

/-- The control of a task that has not been cancelled, or of none. -/
theorem Calm.control (h : a.Calm) (id : Nat) :
    ((a.control? id).getD default).isCancelled = false := by
  unfold control? task?
  cases hfound : a.tasks.find? fun t => t.control.id = id with
  | none => rfl
  | some t => exact h t (List.mem_of_find?_eq_some hfound)

end Admission
end Task

namespace Session

open Concurrency (Thread)
open Report (TestCase TestResult TestRun)
open ScriptSession.Task (Admission)

/-! ## Gentle threads -/

/-- A change that cancels nothing and records no run. -/
structure Mild (w w' : World) : Prop where
  batches : w'.batches = w.batches
  calm : w.admission.Calm → w'.admission.Calm

theorem Passing.mild {w w' : World} (h : Passing w w') : Mild w w' := by
  refine ⟨h.sameRuns, fun hcalm => ?_⟩
  obtain ⟨notes, hnotes⟩ := h.incidental.notes
  rw [hnotes]
  clear hnotes
  induction notes using List.reverseRecOn with
  | nil => exact hcalm
  | append_singleton notes n ih =>
    rw [List.foldl_concat]
    exact ih.note n.1 n.2

/-- The thread makes only mild changes and starts only jobs in `J`. -/
structure Gentle (J : Job → Prop) {α : Type} (t : Act α) : Prop where
  behaves : ∀ w, t.Behaves Mild J (fun _ _ => True) w

namespace Gentle

variable {J : Job → Prop} {α β : Type} {t : Act α}

theorem pure (a : α) : Gentle J (pure a : Act α) := ⟨fun _ => trivial⟩

theorem bind {f : α → Act β} (h : Gentle J t) (hf : ∀ a, Gentle J (f a)) : Gentle J (t >>= f) :=
  ⟨fun w => (h.behaves w).bind fun a w _ => (hf a).behaves w⟩

theorem get_bind {f : World → Act α} (hf : ∀ w, Gentle J (f w)) :
    Gentle J (getThe World >>= f) := ⟨fun w => (hf w).behaves w⟩

theorem modify {f : World → World} (hf : ∀ w, Mild w (f w)) : Gentle J (modifyThe World f) :=
  ⟨fun w => ⟨hf w, trivial⟩⟩

theorem await (isReady : World → Bool) : Gentle J (Thread.await isReady) :=
  ⟨fun _ => ⟨fun _ _ => trivial, fun _ _ => trivial⟩⟩

theorem of_quiet (h : Quiet t) : Gentle J t := ⟨fun w => (h.only w).behaves fun _ _ => Passing.mild⟩

theorem forM {f : α → Act Unit} (hf : ∀ a, Gentle J (f a)) (as : List α) :
    Gentle J (as.forM f) := by
  induction as with
  | nil => exact .pure _
  | cons a rest ih => exact .bind (hf a) fun _ => ih

theorem alterAdmission {f : Admission → Admission} (hf : ∀ a, a.Calm → (f a).Calm) :
    Gentle J (alterAdmission f) := .modify fun _ => ⟨rfl, hf _⟩

end Gentle

variable {J : Job → Prop}

theorem mild_record (w : World) (e : Event) : Mild w (w.record e) := (Passing.record w e).mild

theorem gentle_notifyStarted (id : Nat) : Gentle J (notifyStarted id) := by
  refine .get_bind fun w => ?_
  split
  · exact .modify fun w => mild_record w _
  · exact .pure _

/-- What is recorded about a listener that is told of the end. -/
def tellEnded (listener : Option Task.Listener) : Act Unit :=
  match listener with
  | some l => modifyThe World (·.record (.ended l.name))
  | none => pure ()

theorem gentle_tellEnded (listener : Option Task.Listener) : Gentle J (tellEnded listener) := by
  cases listener with
  | some l => exact .modify fun w => mild_record w _
  | none => exact .pure _

theorem gentle_notifyEnded (id : Nat) : Gentle J (notifyEnded id) :=
  ⟨fun _ => ⟨⟨rfl, fun h => h.alterTask id fun _ => rfl⟩, (gentle_tellEnded _).behaves _⟩⟩

theorem gentle_refreshSnapshot (i : Nat) : Gentle J (refreshSnapshot i) := by
  refine .modify fun w => ⟨w.batches_publish _, fun h => ?_⟩
  rw [(w.session_publish _).2.2]
  exact h

theorem gentle_complete (i id : Nat) : Gentle J (complete i id) :=
  .bind (gentle_notifyEnded id) fun _ => .bind (gentle_refreshSnapshot i) fun _ =>
    .of_quiet (quiet_write _)

/-! ## Tasks -/

/-- The thread of a task is gentle if its work is. -/
theorem gentle_runTask (id : Nat) {work : Act Outcome} (hwork : Gentle J work) :
    Gentle J (runTask id work) := by
  have hend : Gentle J (do
      notifyEnded id
      alterAdmission (·.release id)) :=
    .bind (gentle_notifyEnded id) fun _ => .alterAdmission fun _ h => h.release id
  refine .bind (gentle_notifyStarted id) fun _ =>
    .bind (.alterAdmission fun _ h => h.alterTask id fun _ => rfl) fun _ =>
      .bind hwork fun outcome => ?_
  cases outcome <;>
    exact .bind (.alterAdmission fun _ h => h.alterTask id fun _ => rfl) fun _ =>
      .bind (.alterAdmission fun _ h => h.finish id _) fun _ => hend

theorem gentle_waitBehind (behind looks : Nat) : Gentle J (waitBehind behind looks) := by
  induction looks with
  | zero => exact .pure _
  | succ n ih =>
    refine .get_bind fun w => ?_
    dsimp only
    split
    · exact .bind (.await _) fun _ => ih
    · exact .pure _

/-- What a submission does with the reply to its turn. -/
def followUp (s : Submission) (n : Nat) (reply : Task.Reply) : Act (Except Failure Nat) :=
  match reply with
  | .admitted id => do
    Thread.start (.task id s.work)
    return .ok id
  | .behind id => do
    waitBehind id n
    submitWith s n true
  | .refused => return .error (.queueFull s.title)
  | .unstarted =>
    return .error (.io (.other "Resource temporarily unavailable (os error 11)"))

/-- A submission starts nothing but its task. -/
theorem gentle_submitWith {s : Submission} (hs : ∀ id, J (.task id s.work)) (n : Nat)
    (fromQueue : Bool) : Gentle J (submitWith s n fromQueue) := by
  induction n generalizing fromQueue with
  | zero => exact .pure _
  | succ n ih =>
    have hend : ∀ reply, Gentle J (followUp s n reply) := by
      intro reply
      cases reply with
      | admitted id => exact ⟨fun _ => ⟨hs id, trivial⟩⟩
      | behind id => exact .bind (gentle_waitBehind id n) fun _ => ih true
      | refused | unstarted => exact .pure _
    exact ⟨fun w => ⟨⟨rfl, fun h => h.turn s.ticket fromQueue true⟩, (hend _).behaves _⟩⟩

theorem gentle_takeResult (id : Nat) : Gentle J (takeResult id) :=
  ⟨fun _ => ⟨⟨rfl, fun h => h.takeResult id⟩, trivial⟩⟩

theorem gentle_join (id : Nat) : Gentle J (join id) :=
  .bind (.await _) fun _ => gentle_takeResult id

/-! ## Rebuilds -/

theorem gentle_build (owner : Owner) (parent : Context.LoadingScope) (m : Artifact.Manifest)
    (bindings : Context.Bindings) (options : RebuildOptions) :
    Gentle J (build owner parent m bindings options) := by
  have hend : ∀ scope, Gentle J (keepContext scope bindings) := fun scope =>
    .get_bind fun w => .bind (.modify fun _ => ⟨rfl, fun h => h⟩) fun _ =>
      ⟨fun _ => ⟨⟨rfl, fun h => h⟩, trivial⟩⟩
  refine .get_bind fun w => ?_
  cases w.session.projectDir with
  | none => exact .pure _
  | some project =>
    refine .get_bind fun w => ?_
    dsimp only
    split
    · exact .bind (.of_quiet (quiet_withDependencies owner project m _)) fun _ => hend _
    · exact hend _

theorem gentle_rebuildNow (id : Nat) : Gentle J (rebuildNow id) := by
  have hsession : ∀ f : Core → Core, Gentle J (modifyThe World (·.alterSession f)) :=
    fun f => .modify fun _ => ⟨rfl, fun h => h⟩
  have hclose : ∀ result : Except Failure Nat, Gentle J (do
      modifyThe World (·.alterSession fun c => { c with isRebuilding := false })
      return result) := fun result => .bind (hsession _) fun _ => .pure _
  refine .bind (.await _) fun _ => .bind (hsession _) fun _ => .get_bind fun w =>
    .bind (gentle_build ..) fun built => ?_
  cases built with
  | error e => exact hclose _
  | ok i =>
    refine .bind (hsession _) fun _ => .bind (.forM (fun e => .of_quiet (quiet_write e)) _)
      fun _ => .bind (.of_quiet (quiet_runAutorun i)) fun _ =>
        .bind (gentle_refreshSnapshot i) fun _ => .get_bind fun w => hclose _

theorem gentle_rebuild (id : Nat) : Gentle J (body (.task id .rebuild)) :=
  gentle_runTask id (.bind (gentle_rebuildNow id) fun _ => .pure _)

theorem gentle_rebuildBlocking (hJ : ∀ id, J (.task id .rebuild)) :
    Gentle J rebuildBlocking := by
  refine .bind (gentle_submitWith hJ turns false) fun submitted => ?_
  cases submitted with
  | error e => exact .pure _
  | ok id => exact gentle_join id

/-! ## Batches -/

/-- Every passed run that has been recorded is complete, and no task has been cancelled. -/
structure InOrder (cases : List TestCase) (w : World) : Prop where
  calm : w.admission.Calm
  complete : ∀ b ∈ w.batches, b.2.allPassed = true → Trial.IsComplete cases b.2

/-- A change that loses no run, and keeps the order there is. -/
structure KeepsOrder (cases : List TestCase) (w w' : World) : Prop where
  keeps : ∀ b ∈ w.batches, b ∈ w'.batches
  inOrder : InOrder cases w → InOrder cases w'

variable {cases : List TestCase} {w w' : World}

theorem Mild.keepsOrder (h : Mild w w') : KeepsOrder cases w w' := by
  refine ⟨fun b hb => h.batches ▸ hb, fun hw => ⟨h.calm hw.calm, fun b hb => ?_⟩⟩
  rw [h.batches] at hb
  exact hw.complete b hb

theorem isKept_keepsOrder (cases : List TestCase) :
    Concurrency.IsKept (KeepsOrder cases) := by
  constructor
  · exact fun w => ⟨fun b hb => hb, fun hw => hw⟩
  · exact fun h h' => ⟨fun b hb => h'.keeps b (h.keeps b hb), fun hw => h'.inOrder (h.inOrder hw)⟩

theorem Gentle.keepsOrder {α : Type} {t : Act α} (h : Gentle J t) (w : World) :
    t.Behaves (KeepsOrder cases) J (fun _ _ => True) w :=
  (h.behaves w).mono (fun _ _ => Mild.keepsOrder) (fun _ h => h) fun _ _ h => h

/-- The tests of a batch have results for all of them, unless a task has been cancelled. -/
theorem behaves_runCases (id i : Nat) (cases : List TestCase) (w : World) :
    (runCases id i true cases).Behaves Mild J
      (fun results w => w.admission.Calm → results.map (·.title) = cases.map (·.title)) w := by
  induction cases generalizing w with
  | nil => exact fun _ => rfl
  | cons case rest ih =>
    rw [runCases_cons]
    show Thread.Behaves Mild J _ (if (w.control (.task id)).isCancelled then _ else _) w
    split
    · rename_i hcancelled
      intro hcalm
      have hnot : (w.control (.task id)).isCancelled = false := hcalm.control id
      rw [hnot] at hcancelled
      cases hcancelled
    · have htest : (testAndTell id i case).Behaves Mild J (fun r _ => r.title = case.title) w :=
        ((makes_testAndTell id i case).only w).behaves fun _ _ => Passing.mild
      refine htest.bind fun r w hr => (ih w).bind fun results w hresults hcalm => ?_
      rw [List.map_cons, List.map_cons, hr, hresults hcalm]

theorem admission_writeEntry (w : World) (e : Report.Entry) :
    (w.writeEntry e).admission = w.admission := by
  unfold World.writeEntry
  split
  · unfold World.record
    split <;> rfl
  · rfl

theorem behaves_writes (entries : List Report.Entry) (w : World) :
    (entries.forM write).Behaves Mild J (fun _ w' => w'.admission = w.admission) w := by
  induction entries generalizing w with
  | nil => exact rfl
  | cons e rest ih =>
    refine ⟨(Passing.entry w e).mild, (ih (w.writeEntry e)).mono (fun _ _ h => h) (fun _ h => h) ?_⟩
    intro _ w' hw'
    rw [hw', admission_writeEntry]

theorem behaves_sumUp (started : Nat) (results : List TestResult) (w : World) :
    (sumUp started results).Behaves Mild J
      (fun run w' => run.results = results ∧ w'.admission = w.admission) w := by
  intro now
  exact (behaves_writes _ w).bind fun _ w' hw' => ⟨rfl, hw'⟩

theorem gentle_endBatch (id i : Nat) : Gentle J (endBatch id i) :=
  .bind (gentle_complete i id) fun _ =>
    .bind (.alterAdmission fun _ h => h.alterTask id fun _ => rfl) fun _ =>
      .bind (.alterAdmission fun _ h => h.finish id _) fun _ =>
        .bind (gentle_notifyEnded id) fun _ => .alterAdmission fun _ h => h.release id

/-- A batch leaves a run behind that keeps the order: if no task has been cancelled, it is one of
all its tests. -/
theorem behaves_leaveRun (id i : Nat) {run : TestRun}
    (hrun : w.admission.Calm → run.results.map (·.title) = cases.map (·.title)) :
    (leaveRun id i run).Behaves (KeepsOrder cases) J (fun _ _ => True) w := by
  refine ⟨⟨fun b hb => List.mem_cons_of_mem _ hb, fun hw => ⟨hw.calm, fun b hb => ?_⟩⟩,
    (gentle_endBatch id i).keepsOrder _⟩
  obtain rfl | hb := List.mem_cons.mp hb
  · exact fun hpassed => (Trial.isComplete_iff hpassed).mpr (hrun hw.calm)
  · exact hw.complete b hb

/-- The thread of a batch keeps the order. -/
theorem behaves_batch (id i : Nat) (cases : List TestCase) (w : World) :
    (body (.task id (.batch i cases true))).Behaves (KeepsOrder cases) J (fun _ _ => True) w := by
  have hopen : Gentle J (openBatch id) :=
    .bind (gentle_notifyStarted id) fun _ =>
      .bind (.alterAdmission fun _ h => h.alterTask id fun _ => rfl) fun _ =>
        .bind (.of_quiet (quiet_write _)) fun _ => .bind (.of_quiet (quiet_write _)) fun _ =>
          ⟨fun _ _ => trivial⟩
  rw [body_batch]
  refine (hopen.keepsOrder w).bind fun started w _ => ?_
  have hmild : ∀ w w', Mild w w' → KeepsOrder cases w w' := fun _ _ => Mild.keepsOrder
  refine ((behaves_runCases id i cases w).mono hmild (fun _ h => h) fun _ _ h => h).bind
    fun results w hresults => ?_
  refine ((behaves_sumUp started results w).mono hmild (fun _ h => h) fun _ _ h => h).bind ?_
  rintro run w' ⟨rfl, hw'⟩
  exact behaves_leaveRun id i fun hcalm => hresults (hw' ▸ hcalm)

/-! ## Running tests -/

/-- A call that runs tests comes to a run that has been recorded. -/
theorem behaves_runTests (hJ : ∀ id i, J (.task id (.batch i cases true))) (w : World) :
    (runTests cases).Behaves Mild J
      (fun r w => ∀ run, r = .ok run → ∃ id, (id, run) ∈ w.batches) w := by
  rw [runTests_eq]
  rw [Thread.behaves_get]
  cases w.session.context with
  | none => exact fun _ h => by cases h
  | some i =>
    have hsubmit : Gentle J (submit (batchOf i cases)) :=
      gentle_submitWith (fun id => hJ id i) turns false
    refine (hsubmit.behaves w).bind fun submitted w _ => ?_
    cases submitted with
    | error e => exact fun _ h => by cases h
    | ok id =>
      refine ⟨fun w _ => ?_, fun h => by cases h⟩
      refine ((gentle_takeResult id).behaves w).bind fun result w _ => ?_
      cases result with
      | error e => exact fun _ h => by cases h
      | ok v =>
        show (answer (w.batches.find? fun b => b.1 = id)).Behaves Mild J _ w
        cases hfound : w.batches.find? fun b => b.1 = id with
        | none => exact fun _ h => by cases h
        | some b =>
          rintro run ⟨⟩
          exact ⟨b.1, List.mem_of_find?_eq_some hfound⟩

end Session
end ScriptSession
