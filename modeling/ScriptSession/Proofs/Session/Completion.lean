import ScriptSession.Proofs.Session.Charges

/-!
# The completion of a task

A task that evaluates a script, next to others. The thread of the task does one action at a time,
while other threads submit, interrupt, end, write and publish in between; they do not end the task
themselves (`Beside`). Somebody joins the task meanwhile.

The course of the task consists of three courses, one after the other: that of what comes before the
evaluation, that of the evaluation itself, which writes its own entries and comes to its conclusion,
and that of what follows the conclusion (`Charge.Stage`). Main statement: each of them does, step by
step, what the protocol of the task says, all of it has been done before a handle of the task is
joined, and it comes to that when the evaluation has come to its conclusion (`Charge.completes`).
-/

namespace ScriptSession
namespace Session
namespace Completion

open Concurrency (Course Member Pool Thread runFrom runFrom_keeps)
open Report (Entry)
open Script (Value)
open ScriptSession.Task (Admission Standing Traffic)

/-! ## A task among others -/

/-- What others do: a step of the traffic that leaves the end of the task to the task, taking its
result, or any change that is not one of the admission. -/
inductive Beside (id : Nat) (w : World) : World → Prop
  | step (calls : Nat → Task.Call) (e : Task.Event) (h : e.LeavesTo id w.admission) :
      Beside id w { w with admission := (Traffic.step ⟨w.admission, calls⟩ e).admission }
  | takeResult (j : Nat) : Beside id w { w with admission := (w.admission.takeResult j).2 }
  | elsewhere {w' : World} (h : w'.admission = w.admission) : Beside id w w'

theorem Beside.spares {id : Nat} {w w' : World} (h : Beside id w w')
    (hid : id ≤ w.admission.issued) : Admission.Spares id w.admission w'.admission := by
  cases h with
  | step calls e h => exact Traffic.spares_step (s := ⟨w.admission, calls⟩) hid h
  | takeResult j => exact .takeResult w.admission j
  | elsewhere h => exact h ▸ .refl id w.admission

/-- The thread of a task and one that joins it, next to others. -/
structure Scene where
  task : Course World Job Unit
  joiner : Member World Job (Except Failure Value)

/-- What happens next: an action of the task, a change by others, or a turn of the one that joins
it. -/
inductive Turn where
  | task (now : Nat) (isLate : Bool)
  | others (w : World)
  | join (now : Nat)

namespace Scene

open Classical in
/-- What becomes of the scene. Something that cannot happen now changes nothing. -/
noncomputable def step (id : Nat) (s : Scene) : Turn → Scene
  | .task now isLate => { s with task := s.task.act now isLate }
  | .others w => { s with task := s.task.others (Beside id) w }
  | .join now =>
    if s.task.thread.Pauses then
      match Pool.wake now s.task.shared s.joiner with
      | none => s
      | some t =>
        let (w, joiner, _) := Pool.drive now t s.task.shared []
        ⟨{ s.task with shared := w }, joiner⟩
    else s

/-- The scene of a task that has just been admitted. -/
def start (id : Nat) (t : Act Unit) (w : World) : Scene := ⟨⟨w, t, []⟩, .active (join id)⟩

/-- The task has ended, its thread is over, or somebody has joined it. -/
def IsOver (id : Nat) (s : Scene) : Prop :=
  s.task.shared.admission.hasExited id = true ∨ s.task.thread = .done () ∨
    ∃ r, s.joiner = .finished r

end Scene

/-! ## How far a scene has come -/

/-- A history of changes shows some deeds, in order: each change is the next deed or is made
aside. -/
inductive Shows (id : Nat) : List (World × World) → List Deed → Prop
  | nil : Shows id [] []
  | deed {changes : List (World × World)} {deeds : List Deed} (h : Shows id changes deeds)
      (d : Deed) (w : World) : Shows id (changes ++ [(w, d.run id w)]) (deeds ++ [d])
  | aside {changes : List (World × World)} {deeds : List Deed} {w w' : World}
      (h : Shows id changes deeds) (hw : Aside w w') : Shows id (changes ++ [(w, w')]) deeds

theorem shows_of_chain {id : Nat} {standing : Standing} {g : Progress}
    {changes : List (World × World)} (h : (advances id).Chain ⟨[], standing⟩ g changes) :
    Shows id changes g.deeds := by
  induction h with
  | nil => exact .nil
  | concat _ hstep ih =>
    obtain ⟨⟨hdeeds, haside⟩ | ⟨d, hdeeds, rfl⟩, -⟩ := hstep
    · exact hdeeds ▸ ih.aside haside
    · exact hdeeds ▸ ih.deed d _

/-- Where the one is that joins a task: before its first look, waiting for the task to end, or done
after the end of the task. -/
inductive Joins (id : Nat) (w : World) : Member World Job (Except Failure Value) → Prop
  | before : Joins id w (.active (join id))
  | waits :
      Joins id w (.asleep ⟨fun w => w.admission.hasExited id, none, fun _ => takeResult id⟩)
  | after (r : Except Failure Value) (h : w.admission.hasExited id = true) :
      Joins id w (.finished r)

theorem Joins.mono {id : Nat} {w w' : World} {m : Member World Job (Except Failure Value)}
    (h : Joins id w m)
    (hexit : w.admission.hasExited id = true → w'.admission.hasExited id = true) :
    Joins id w' m := by
  cases h with
  | before => exact .before
  | waits => exact .waits
  | after r h => exact .after r (hexit h)

theorem drive_join (id now : Nat) (w : World) :
    Pool.drive now (join id) w [] =
      if w.admission.hasExited id then Pool.drive now (takeResult id) w []
      else (w, .asleep ⟨fun w => w.admission.hasExited id, none, fun _ => takeResult id⟩, []) :=
  rfl

/-- A turn of the one that joins: it is over only if the task has ended. -/
theorem Joins.turn {id now : Nat} {m : Member World Job (Except Failure Value)}
    {t : Act (Except Failure Value)} {w : World} (h : Joins id w m)
    (hwake : Pool.wake now w m = some t) :
    Beside id w (Pool.drive now t w []).1 ∧
      Joins id (Pool.drive now t w []).1 (Pool.drive now t w []).2.1 := by
  have htake : w.admission.hasExited id = true →
      Beside id w (Pool.drive now (takeResult id) w []).1 ∧
        Joins id (Pool.drive now (takeResult id) w []).1
          (Pool.drive now (takeResult id) w []).2.1 :=
    fun hexited => ⟨.takeResult id,
      .after _ ((Admission.Spares.takeResult w.admission id).hasExited.trans hexited)⟩
  -- It takes the result when it finds the exit, be it on its first look or after a wake; there is
  -- no deadline that could end the wait before.
  cases h with
  | before =>
    cases hwake
    rw [drive_join]
    split
    · rename_i hexited
      exact htake hexited
    · exact ⟨.elsewhere rfl, .waits⟩
  | waits =>
    obtain ⟨hexited, rfl⟩ | ⟨-, ⟨time, hdeadline, -⟩, -⟩ := Pool.wake_asleep_eq_some.mp hwake
    · exact htake hexited
    · cases hdeadline
  | after r h => cases hwake

/-! ## The parts of a task -/

namespace Charge

/-- The evaluation of a task within the task. It begins when the listener has been told, in the
world that this leaves, and it has written some entries of its own and no prompt. -/
structure Evaluates (k : Charge) (w : World) (o : Course World Job Unit)
    (e : Course World Job Conclusion) (own : List Entry) : Prop where
  opens : Course.Comes (Beside k.id) ⟨w, begins k.id, []⟩ o
  opened : o.thread = .done ()
  tells : Shows k.id o.changes k.opening
  evaluates : Course.Comes (Beside k.id) ⟨o.shared, k.evaluation, []⟩ e
  writes : Shows k.id e.changes (own.map .write)
  noPrompt : ∀ entry ∈ own, entry ≠ .prompt

/-- The task has begun with its protocol. It is telling the listener, or its evaluation is under way
and has written what it has written, or the evaluation has come to its conclusion and the task is
doing what follows it. -/
inductive HasBegun (k : Charge) (w : World) (task : Course World Job Unit) : Prop
  | opening {deeds : List Deed} (hshows : Shows k.id task.changes deeds)
      (hdeeds : deeds <+: k.opening)
  | evaluating {o : Course World Job Unit} {e : Course World Job Conclusion} {own : List Entry}
      (h : k.Evaluates w o e own) (htask : task.changes = o.changes ++ e.changes)
  | ending {o : Course World Job Unit} {e : Course World Job Conclusion} {own : List Entry}
      {c : Conclusion} {last : List (World × World)} {deeds : List Deed}
      (h : k.Evaluates w o e own) (hc : e.thread = .done c)
      (htask : task.changes = o.changes ++ (e.changes ++ last)) (hshows : Shows k.id last deeds)
      (hdeeds : deeds <+: k.ending c)

/-- The task has done everything: the evaluation has written its entries and come to its conclusion,
and all that follows this conclusion has been done after it. -/
def HasDone (k : Charge) (w : World) (task : Course World Job Unit) : Prop :=
  ∃ o e own c last, k.Evaluates w o e own ∧ e.thread = .done c ∧
    task.changes = o.changes ++ (e.changes ++ last) ∧ Shows k.id last (k.ending c)

/-- Where the course of a task is, and that it stands by the protocol of the part at hand. -/
inductive Stage (k : Charge) (w : World) : Course World Job Unit → Prop
  | opening {o : Course World Job Unit} {g : Progress}
      (h : o.Stands (advances k.id) (Tracks k.id k.IsOpening) (fun g _ => g = k.opened) k.start g) :
      Stage k w (o.bind fun _ => k.evaluation.bind (afterwards k.id k.context))
  | evaluating {o : Course World Job Unit} {e : Course World Job Conclusion} {own : List Entry}
      {g : Progress} (h : k.Evaluates w o e own) (hw : Tracks k.id k.IsPrinting g e.shared) :
      Stage k w ((e.bind (afterwards k.id k.context)).after o.changes)
  | ending {o r : Course World Job Unit} {e : Course World Job Conclusion} {own : List Entry}
      {c : Conclusion} {g : Progress} (h : k.Evaluates w o e own) (hc : e.thread = .done c)
      (hr : r.Stands (advances k.id) (Tracks k.id (k.IsEnding c))
        (fun g _ => g.standing.exit ≠ .running) k.start g) :
      Stage k w ((r.after e.changes).after o.changes)

variable {k : Charge} {w : World} {task task' : Course World Job Unit}

theorem beside_tracks {A : Progress → Prop} (g : Progress) (w w' : World) (h : Beside k.id w w')
    (hw : Tracks k.id A g w) : Tracks k.id A g w' :=
  hw.of_spares (h.spares hw.issued)

/-- A part of the task that goes by its protocol stands by it wherever its course has come to. -/
theorem exists_stands {α : Type} {A : Progress → Prop} {Q : Progress → α → Prop} {t : Act α}
    {c : Course World Job α} (ht : k.Goes A Q t k.start w) (hw : Tracks k.id A k.start w)
    (h : Course.Comes (Beside k.id) ⟨w, t, []⟩ c) :
    ∃ g, c.Stands (advances k.id) (Tracks k.id A) Q k.start g := by
  have hstart : Course.Stands (advances k.id) (Tracks k.id A) Q k.start k.start ⟨w, t, []⟩ :=
    ⟨.nil, hw, ht⟩
  obtain ⟨g, hg, -⟩ := hstart.comes (F := fun _ => True) beside_tracks (fun _ _ _ _ _ h => h) h
  exact ⟨g, hg⟩

/-- An evaluation after the opening writes some entries of its own, and the task still runs. -/
theorem exists_evaluates {Q : Conclusion → Prop} {o : Course World Job Unit}
    {e : Course World Job Conclusion} (heval : Makes (Prints k.id) Q k.evaluation)
    (hw : Tracks k.id k.IsOpening k.start w)
    (ho : Course.Comes (Beside k.id) ⟨w, begins k.id, []⟩ o) (hdone : o.thread = .done ())
    (he : Course.Comes (Beside k.id) ⟨o.shared, k.evaluation, []⟩ e) :
    ∃ own g, k.Evaluates w o e own ∧ Tracks k.id k.IsPrinting g e.shared := by
  obtain ⟨g, hg⟩ := exists_stands (goes_begins hw) hw ho
  have hopened : g = k.opened := by
    have hend := hg.thread
    rw [hdone] at hend
    exact hend
  subst hopened
  have hbegins : Tracks k.id k.IsPrinting k.start o.shared :=
    hg.shared.of_standing_eq rfl k.isPrinting_start
  obtain ⟨g, hprints⟩ := exists_stands (goes_evaluation heval hbegins) hbegins he
  obtain ⟨own, hown, rfl⟩ := hprints.shared.account
  exact ⟨own, _, ⟨ho, hdone, shows_of_chain hg.chain, he, shows_of_chain hprints.chain, hown⟩,
    hprints.shared⟩

/-- The task is in one of its parts, wherever its course has come to. -/
theorem stage_of_comes {Q : Conclusion → Prop} (heval : Makes (Prints k.id) Q k.evaluation)
    (hw : Tracks k.id k.IsOpening k.start w)
    (h : Course.Comes (Beside k.id)
      ⟨w, runTask k.id (concluding k.id k.context k.evaluation), []⟩ task) : k.Stage w task := by
  rw [runTask_concluding] at h
  obtain ⟨o, ho, rfl⟩ | ⟨o, _, rest, ho, hdone, hrest, rfl⟩ :=
    Course.Comes.bind_cases (c := ⟨w, begins k.id, []⟩) h
  · obtain ⟨g, hg⟩ := exists_stands (goes_begins hw) hw ho
    exact .opening hg
  obtain ⟨e, he, rfl⟩ | ⟨e, c, r, he, hc, hr, rfl⟩ :=
    Course.Comes.bind_cases (c := ⟨o.shared, k.evaluation, []⟩) hrest
  · obtain ⟨own, g, hevaluates, htracks⟩ := exists_evaluates heval hw ho hdone he
    exact .evaluating hevaluates htracks
  · obtain ⟨own, g, hevaluates, htracks⟩ := exists_evaluates heval hw ho hdone he
    obtain ⟨_, -, rfl⟩ := htracks.account
    have hends : Tracks k.id (k.IsEnding c) k.start e.shared :=
      htracks.of_standing_eq rfl (k.owes_start c).isEnding
    obtain ⟨g, hg⟩ := exists_stands (goes_afterwards hends) hends hr
    exact .ending hevaluates hc hg

/-- A task has not ended while its evaluation is under way, nor before. -/
theorem IsPrinting.not_hasExited {g : Progress} (hw : Tracks k.id k.IsPrinting g w) :
    ¬w.admission.hasExited k.id = true := by
  obtain ⟨_, -, rfl⟩ := hw.account
  exact fun hexited => hw.hasExited_iff.mp hexited rfl

theorem IsOpening.not_hasExited {g : Progress} (hw : Tracks k.id k.IsOpening g w) :
    ¬w.admission.hasExited k.id = true :=
  fun hexited => hw.hasExited_iff.mp hexited (congrArg Standing.exit hw.account.standing)

theorem Stage.hasBegun (h : k.Stage w task) : k.HasBegun w task := by
  cases h with
  | opening h => exact .opening (shows_of_chain h.chain) h.shared.account.begun
  | evaluating h _ => exact .evaluating h rfl
  | ending h hc hr => exact .ending h hc rfl (shows_of_chain hr.chain) hr.shared.account.begun

/-- A task that has ended and one whose thread is over have done everything. -/
theorem Stage.hasDone (h : k.Stage w task)
    (hended : task.shared.admission.hasExited k.id = true ∨ task.thread = .done ()) :
    k.HasDone w task := by
  cases h with
  | opening h =>
    obtain hexited | hthread := hended
    · exact absurd hexited (IsOpening.not_hasExited h.shared)
    · obtain ⟨_, -, hrest⟩ := Thread.bind_eq_done hthread
      exact absurd hrest (bind_afterwards_ne_done k.id k.context _ ())
  | evaluating h hw =>
    obtain hexited | hthread := hended
    · exact absurd hexited (IsPrinting.not_hasExited hw)
    · exact absurd hthread (bind_afterwards_ne_done k.id k.context _ ())
  | @ending o r e own c g h hc hr =>
    have hexit : g.standing.exit ≠ .running := by
      obtain hexited | hthread := hended
      · exact hr.shared.hasExited_iff.mp hexited
      · have hover := hr.thread
        rw [show r.thread = .done () from hthread] at hover
        exact hover
    exact ⟨o, e, own, c, r.changes, h, hc, rfl,
      hr.shared.account.done hexit ▸ shows_of_chain hr.chain⟩

/-- The end of a task is final. -/
theorem Stage.hasExited_of_comes (h : k.Stage w task)
    (hexited : task.shared.admission.hasExited k.id = true)
    (hlater : task.Comes (Beside k.id) task') :
    task'.shared.admission.hasExited k.id = true := by
  cases h with
  | opening h => exact absurd hexited (IsOpening.not_hasExited h.shared)
  | evaluating h hw => exact absurd hexited (IsPrinting.not_hasExited hw)
  | ending h hc hr =>
    obtain ⟨_, hafter, rfl⟩ := hlater.of_after
    obtain ⟨r', hcomes, rfl⟩ := hafter.of_after
    obtain ⟨g', hr', hfinal⟩ := hr.comes (F := fun g => g.standing.exit ≠ .running) beside_tracks
      (fun _ _ _ _ hstep => hstep.2) hcomes
    exact hr'.shared.hasExited_iff.mpr (hfinal (hr.shared.hasExited_iff.mp hexited))

end Charge

/-! ## A scene -/

namespace Scene

/-- The course of the task is one among others, and the one that joins it is where it may be. -/
structure Stands (k : Charge) (w : World) (s : Scene) : Prop where
  task : Course.Comes (Beside k.id)
    ⟨w, runTask k.id (concluding k.id k.context k.evaluation), []⟩ s.task
  joiner : Joins k.id s.task.shared s.joiner

variable {k : Charge} {w : World} {s : Scene}

theorem Stands.step {Q : Conclusion → Prop} (heval : Makes (Prints k.id) Q k.evaluation)
    (hw : Tracks k.id k.IsOpening k.start w) (h : s.Stands k w) (turn : Turn) :
    (s.step k.id turn).Stands k w := by
  have hlater : ∀ {task}, s.task.Comes (Beside k.id) task → Joins k.id task.shared s.joiner :=
    fun hcomes => h.joiner.mono fun hexited =>
      (Charge.stage_of_comes heval hw h.task).hasExited_of_comes hexited hcomes
  cases turn with
  | task now isLate => exact ⟨h.task.act now isLate, hlater (.act .refl now isLate)⟩
  | others v => exact ⟨h.task.others v, hlater (.others .refl v)⟩
  | join now =>
    rw [Scene.step]
    split
    · rename_i hpauses
      split
      · exact h
      · rename_i t hwake
        obtain ⟨hbeside, hjoiner⟩ := h.joiner.turn hwake
        -- To the task, the turn is a change by others like any other.
        have htask := h.task.others (Pool.drive now t s.task.shared []).1
        rw [Course.others, if_pos ⟨hpauses, hbeside⟩] at htask
        exact ⟨htask, hjoiner⟩
    · exact h

/-- A task that is over has done everything. -/
theorem Stands.hasDone {Q : Conclusion → Prop} (heval : Makes (Prints k.id) Q k.evaluation)
    (hw : Tracks k.id k.IsOpening k.start w) (h : s.Stands k w) (hover : s.IsOver k.id) :
    k.HasDone w s.task := by
  refine (Charge.stage_of_comes heval hw h.task).hasDone ?_
  obtain hexited | hthread | ⟨r, hjoiner⟩ := hover
  · exact .inl hexited
  · exact .inr hthread
  · have hafter := h.joiner
    rw [hjoiner] at hafter
    cases hafter with
    | after _ hexited => exact .inl hexited

end Scene

/-- An action of the task. -/
def Turn.isTask : Turn → Bool
  | .task _ _ => true
  | .others _ | .join _ => false

/-- The others do not delay a thread that waits for nothing. -/
theorem Scene.isOver_of_within {id : Nat} {s : Scene} (turns : List Turn)
    (h : s.task.thread.Within (turns.countP Turn.isTask)) :
    (runFrom (Scene.step id) s turns).IsOver id := by
  -- Turns of the task use the bound up, and those of the others leave its thread as it is.
  induction turns generalizing s with
  | nil =>
    obtain ⟨_, hdone⟩ := Thread.within_zero.mp h
    exact .inr (.inl hdone)
  | cons turn rest ih =>
    refine ih ?_
    cases turn with
    | task now isLate =>
      rw [List.countP_cons_of_pos rfl] at h
      exact Course.within_act h now isLate
    | others w =>
      rw [List.countP_cons_of_neg Bool.false_ne_true] at h
      show (s.task.others (Beside id) w).thread.Within _
      rw [Course.others]
      split <;> exact h
    | join now =>
      rw [List.countP_cons_of_neg Bool.false_ne_true] at h
      rw [Scene.step]
      split
      · split <;> exact h
      · exact h

namespace Charge

/-- What is known of a task at every moment. It has begun with its protocol. It has told the
listener, its evaluation has written what it has written and come to its conclusion, and what
follows this conclusion has been done, all before the thread of the task is over and before somebody
has joined it. A task whose evaluation has come to a conclusion is over some actions later, whatever
others do. -/
structure Completes (k : Charge) (w : World) (s : Scene) : Prop where
  hasBegun : k.HasBegun w s.task
  hasDone : s.IsOver k.id → k.HasDone w s.task
  ends : ∀ c later, s.task.thread = afterwards k.id k.context c →
    22 ≤ later.countP Turn.isTask → (runFrom (Scene.step k.id) s later).IsOver k.id

/-- A task that is admitted to evaluate completes by its protocol, whatever its evaluation writes
and comes to, and whatever others do in between. -/
theorem completes (k : Charge) {t : Act Unit} {w : World} {a : Admission} {title : String}
    {fromQueue : Bool} (ht : k.Runs t)
    (hturn : w.admission.turn ⟨title, false, k.listener⟩ fromQueue true = (.admitted k.id, a))
    (turns : List Turn) :
    k.Completes { w with admission := a }
      (runFrom (Scene.step k.id) (.start k.id t { w with admission := a }) turns) := by
  obtain ⟨⟨Q, heval⟩, rfl⟩ := ht.makes_evaluation
  obtain ⟨hstanding, hissued⟩ := Admission.standing?_of_turn hturn
  have hw : Tracks k.id k.IsOpening k.start { w with admission := a } :=
    ⟨hstanding, hissued, List.nil_prefix, rfl⟩
  have hbegins : (Scene.start k.id (runTask k.id (concluding k.id k.context k.evaluation))
      { w with admission := a }).Stands k { w with admission := a } := ⟨.refl, .before⟩
  have hs := runFrom_keeps hbegins (fun _ turn h => h.step heval hw turn) turns
  refine ⟨(stage_of_comes heval hw hs.task).hasBegun, hs.hasDone heval hw, ?_⟩
  intro c later hthread hlater
  refine Scene.isOver_of_within later ?_
  rw [hthread]
  exact (within_afterwards k.id k.context c).mono hlater

/-- A task whose evaluation panics half-way tells of its end and prompts like any other. -/
theorem completed_after_panic :
    let k : Charge := ⟨1, 0, some ⟨"listener", true⟩, do
      write (.output "so far")
      return .panic "out of luck"⟩
    let w := { World.new (Host.empty []) with
      admission := (Admission.new.turn ⟨"sum", false, k.listener⟩ false true).2 }
    let s := runFrom (Scene.step k.id)
      (.start k.id (runTask k.id (concluding k.id k.context k.evaluation)) w)
      (.replicate 21 (.task 0 false))
    s.task.shared.admission.hasExited k.id = true ∧ k.HasDone w s.task := by
  refine ⟨by decide +kernel, ?_⟩
  let k : Charge := ⟨1, 0, some ⟨"listener", true⟩, do
    write (.output "so far")
    return .panic "out of luck"⟩
  -- The panic is a conclusion like another: what counts is that only the output comes before it.
  have heval : Makes (Prints 1) (fun c => c = .panic "out of luck") k.evaluation :=
    .bind (.modify fun w => .entry w (.output "so far") nofun) fun _ _ => .pure rfl
  have hturn : (World.new (Host.empty [])).admission.turn ⟨"sum", false, k.listener⟩ false true =
      (.admitted 1, (Admission.new.turn ⟨"sum", false, k.listener⟩ false true).2) := rfl
  exact (completes k (.of heval) hturn (.replicate 21 (.task 0 false))).hasDone
    (.inl (by decide +kernel))

end Charge
end Completion
end Session
end ScriptSession
