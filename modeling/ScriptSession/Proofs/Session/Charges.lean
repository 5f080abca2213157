import ScriptSession.Proofs.Concurrency.Courses
import ScriptSession.Proofs.Session.Incidental
import ScriptSession.Proofs.Session.Threads
import ScriptSession.Proofs.Session.Undisturbed
import ScriptSession.Proofs.Task.Standing

/-!
# The protocol of a task

What the others get to see of a task that evaluates a script: the calls of its listener, its entries
in the transcript, the snapshot of its context, its result and its end. The thread of the task has
three parts (`runTask_concluding`): it opens, it evaluates, and it ends as the conclusion of the
evaluation says. Main statements: each part does one after the other what the protocol says, in
whatever states it looks at what is shared, as long as nobody else ends the task. The opening tells
the listener (`Charge.goes_begins`), an evaluation writes what it likes except prompts
(`Charge.goes_evaluation`), and what follows it echoes the conclusion, tells the listener,
publishes, prompts and ends the task (`Charge.goes_afterwards`).
-/

namespace ScriptSession
namespace Session
namespace Completion

open Concurrency (Protocol Thread)
open Report (Entry)
open Script (Value)
open ScriptSession.Task (Admission Listener Standing)

/-! ## Evaluations -/

/-- What an evaluation comes to. -/
inductive Conclusion where
  | value (v : Value)
  | fault (f : Evaluation.Fault)
  | panic (message : String)

namespace Conclusion

/-- What a script comes to. -/
def ofResult : Except Evaluation.Fault Value → Conclusion
  | .ok v => .value v
  | .error f => .fault f

/-- What the task writes about it. -/
def echo : Conclusion → List Entry
  | .value v => if v.isUnit then [] else [.output v.display]
  | .fault f => [.warning f.text]
  | .panic _ => []

/-- What the work of the task comes to. -/
def outcome : Conclusion → Outcome
  | .value v => .result (.ok v)
  | .fault f => .result (.error (.evaluation f))
  | .panic message => .panic message

theorem exit_outcome_ne (c : Conclusion) : c.outcome.exit ≠ .running := by
  cases c <;> exact nofun

end Conclusion

/-- Nothing is written, nobody is told anything, and nothing is published. -/
structure Aside (w w' : World) : Prop where
  transcript : w'.transcript = w.transcript
  streams : w'.streams = w.streams
  chronicle : w'.chronicle = w.chronicle
  session : w'.session = w.session

theorem Aside.admission (w : World) (a : Admission) : Aside w { w with admission := a } :=
  ⟨rfl, rfl, rfl, rfl⟩

/-- What an evaluation of a task changes: it writes an entry, no prompt, or it changes something
aside and leaves the task as it stands. -/
inductive Prints (id : Nat) : World → World → Prop
  | entry (w : World) (e : Entry) (he : e ≠ .prompt) : Prints id w (w.writeEntry e)
  | aside {w w' : World} (h : Aside w w') (hs : Admission.Spares id w.admission w'.admission) :
      Prints id w w'

theorem covers_prints (i id : Nat) :
    Running.Covers ⟨i, .transcript, .task id⟩ (Prints id) where
  atGate _ _ := .aside ⟨rfl, rfl, rfl, rfl⟩ (.refl ..)
  out w text := .entry w (.output text) nofun
  err w text := .entry w (.warning text) nofun
  enterWait w := .aside (.admission ..) (.alterTask w.admission id (fun _ => rfl) fun _ _ => rfl)
  leaveWait w := .aside (.admission ..) (.alterTask w.admission id (fun _ => rfl) fun _ _ => rfl)
  module _ _ _ := .aside ⟨rfl, rfl, rfl, rfl⟩ (.refl ..)
  context _ _ _ := .aside ⟨rfl, rfl, rfl, rfl⟩ (.refl ..)

/-- The work of a task around an evaluation. What follows the evaluation follows a panic too. -/
def concluding (id i : Nat) (eval : Act Conclusion) : Act Outcome := do
  let c ← eval
  c.echo.forM write
  complete i id
  return c.outcome

/-- The end of a task's thread. -/
def endTask (id : Nat) (outcome : Outcome) : Act Unit := do
  alterAdmission (·.keep id outcome.kept)
  alterAdmission fun a => (a.finish id outcome.exit).2
  notifyEnded id
  alterAdmission (·.release id)

/-- The thread of a task notes its start, works, and ends the task as the work has come out. -/
theorem runTask_eq (id : Nat) (work : Act Outcome) :
    runTask id work = (do
      notifyStarted id
      alterAdmission (·.begin id)
      endTask id (← work)) := by
  refine congrArg (notifyStarted id).bind (funext fun _ => ?_)
  refine congrArg (alterAdmission (·.begin id)).bind (funext fun _ => ?_)
  refine congrArg work.bind (funext fun outcome => ?_)
  cases outcome <;> rfl

/-- What comes before the evaluation. -/
def begins (id : Nat) : Act Unit := do
  notifyStarted id
  alterAdmission (·.begin id)

/-- What is left to the thread when the evaluation has come to a conclusion. -/
def afterwards (id i : Nat) (c : Conclusion) : Act Unit := do
  c.echo.forM write
  complete i id
  endTask id c.outcome

theorem runTask_concluding (id i : Nat) (eval : Act Conclusion) :
    runTask id (concluding id i eval) = (do
      begins id
      afterwards id i (← eval)) := by
  simp only [runTask_eq, concluding, begins, afterwards, bind_assoc, pure_bind]

theorem afterwards_ne_done (id i : Nat) (c : Conclusion) (u : Unit) :
    afterwards id i c ≠ .done u := by
  intro h
  obtain ⟨_, -, hrest⟩ := Thread.bind_eq_done h
  obtain ⟨_, hcomplete, -⟩ := Thread.bind_eq_done hrest
  obtain ⟨_, hnotify, -⟩ := Thread.bind_eq_done hcomplete
  cases hnotify

/-- A task is not over while its evaluation is under way. -/
theorem bind_afterwards_ne_done (id i : Nat) (eval : Act Conclusion) (u : Unit) :
    eval.bind (afterwards id i) ≠ .done u := by
  intro h
  obtain ⟨c, -, hafter⟩ := Thread.bind_eq_done h
  exact afterwards_ne_done id i c u hafter

/-- The evaluation of a script with the bindings of the session. -/
def evaluating (id i : Nat) (script : String) (extra : List (String × Value)) :
    Act Conclusion := do
  let bindings := (← getThe World).session.bindings
  return .ofResult (← evaluateIn ⟨i, .transcript, .task id⟩ script bindings extra)

theorem perform_evaluate (id i : Nat) (script : String) (extra : List (String × Value)) :
    perform id (.evaluate i script extra) = concluding id i (evaluating id i script extra) := by
  refine congrArg Thread.get (funext fun w => ?_)
  let eval := evaluateIn ⟨i, .transcript, .task id⟩ script w.session.bindings extra
  show eval.bind _ = (eval.bind _).bind _
  rw [Thread.bind_assoc]
  refine congrArg eval.bind (funext fun result => ?_)
  cases result with
  | error f => rfl
  | ok v =>
    show (if v.isUnit then _ else _) =
      Thread.bind ((if v.isUnit then [] else [Entry.output v.display]).forM write) _
    split <;> rfl

theorem makes_evaluating (id i : Nat) (script : String) (extra : List (String × Value)) :
    Makes (Prints id) (fun c => ∃ r, c = .ofResult r) (evaluating id i script extra) :=
  .get_bind fun w =>
    .bind (makes_evaluateIn (covers_prints i id) script w.session.bindings extra) fun r _ =>
      .pure ⟨r, rfl⟩

/-! ## The protocol -/

/-- What a task does that others get to see. -/
inductive Deed where
  | tell (e : Event)
  | write (e : Entry)
  | publish (context : Nat)
  | keep (result : Except Failure Value)
  | finish (exit : Task.Exit)

/-- The world after a deed. -/
def Deed.run (id : Nat) : Deed → World → World
  | .tell e, w => w.record e
  | .write e, w => w.writeEntry e
  | .publish i, w => w.publish (w.context i).snapshot
  | .keep r, w => { w with admission := w.admission.keep id r }
  | .finish exit, w => { w with admission := (w.admission.finish id exit).2 }

/-- A task that evaluates: its number, its context, its listener, and its evaluation. -/
structure Charge where
  id : Nat
  context : Nat
  listener : Option Listener
  evaluation : Act Conclusion

namespace Charge

variable (k : Charge)

/-- The thread of the task: that of a script, or that of any evaluation, which may panic. -/
inductive Runs : Act Unit → Prop
  | script (script : String) (extra : List (String × Value))
      (h : k.evaluation = evaluating k.id k.context script extra) :
      Runs (body (.task k.id (.evaluate k.context script extra)))
  | of {Q : Conclusion → Prop} (h : Makes (Prints k.id) Q k.evaluation) :
      Runs (runTask k.id (concluding k.id k.context k.evaluation))

variable {k} in
theorem Runs.makes_evaluation {t : Act Unit} (h : k.Runs t) :
    (∃ Q, Makes (Prints k.id) Q k.evaluation) ∧
      t = runTask k.id (concluding k.id k.context k.evaluation) := by
  cases h with
  | script script extra h =>
    rw [h]
    exact ⟨⟨_, makes_evaluating k.id k.context script extra⟩,
      congrArg (runTask k.id) (perform_evaluate k.id k.context script extra)⟩
  | of h => exact ⟨⟨_, h⟩, rfl⟩

/-- The listener hears of the start. -/
def opening : List Deed :=
  (k.listener.filter (·.hearsStart)).toList.map fun l => .tell (.started l.name)

/-- The listener hears of the end. -/
def closing : List Deed := k.listener.toList.map fun l => .tell (.ended l.name)

/-- What is left to a task that has told of its end. -/
def leaving (c : Conclusion) : List Deed :=
  [.publish k.context, .write .prompt, .keep c.outcome.kept, .finish c.outcome.exit]

/-- What a task does whose evaluation has come to a conclusion. -/
def ending (c : Conclusion) : List Deed := c.echo.map .write ++ (k.closing ++ k.leaving c)

end Charge

/-! ## How far a part of a task is -/

/-- What a part of a task has done, and how the task stands. -/
structure Progress where
  deeds : List Deed
  standing : Standing

/-- A change that a task makes is its next deed, or it is made aside. An end is final. -/
def advances (id : Nat) : Protocol Progress World := fun g w g' w' =>
  (g'.deeds = g.deeds ∧ Aside w w' ∨ ∃ d, g'.deeds = g.deeds ++ [d] ∧ w' = d.run id w) ∧
    (g.standing.exit ≠ .running → g'.standing.exit ≠ .running)

/-- The world knows how the task stands, and the account of its deeds is in order. -/
structure Tracks (id : Nat) (A : Progress → Prop) (g : Progress) (w : World) : Prop where
  standing : w.admission.standing? id = some g.standing
  issued : id ≤ w.admission.issued
  account : A g

theorem Tracks.of_spares {id : Nat} {A : Progress → Prop} {g : Progress} {w w' : World}
    (h : Tracks id A g w) (hs : Admission.Spares id w.admission w'.admission) : Tracks id A g w' :=
  ⟨hs.standing.trans h.standing, Nat.le_trans h.issued hs.issued, h.account⟩

theorem Tracks.hasExited_iff {id : Nat} {A : Progress → Prop} {g : Progress} {w : World}
    (h : Tracks id A g w) : w.admission.hasExited id = true ↔ g.standing.exit ≠ .running :=
  Admission.hasExited_of_standing? h.standing

/-- Another account may be kept of a task that stands the same. -/
theorem Tracks.of_standing_eq {id : Nat} {A B : Progress → Prop} {g g' : Progress} {w : World}
    (h : Tracks id A g w) (hg : g'.standing = g.standing) (hB : B g') : Tracks id B g' w :=
  ⟨h.standing.trans (congrArg some hg.symm), h.issued, hB⟩

namespace Charge

variable (k : Charge)

/-- The task runs, and the part at hand has done nothing so far. -/
def start : Progress := ⟨[], ⟨k.listener, .running⟩⟩

/-- The listener has heard of the start if it wants to. -/
def opened : Progress := ⟨k.opening, ⟨k.listener, .running⟩⟩

/-- The listener may have heard of the start. -/
structure IsOpening (g : Progress) : Prop where
  begun : g.deeds <+: k.opening
  standing : g.standing = ⟨k.listener, .running⟩

/-- The evaluation has written some entries. -/
def IsPrinting (g : Progress) : Prop :=
  ∃ own : List Entry, (∀ e ∈ own, e ≠ .prompt) ∧ g = ⟨own.map .write, ⟨k.listener, .running⟩⟩

/-- What follows a conclusion is under way, and all of it has been done if the task has ended. -/
structure IsEnding (c : Conclusion) (g : Progress) : Prop where
  begun : g.deeds <+: k.ending c
  done : g.standing.exit ≠ .running → g.deeds = k.ending c

/-- Some of the deeds that follow a conclusion are left to do. -/
structure Owes (c : Conclusion) (listener : Option Listener) (todo : List Deed) (g : Progress) :
    Prop where
  account : g.deeds ++ todo = k.ending c
  standing : g.standing = ⟨listener, .running⟩

variable {k} {g : Progress} {w w' : World} {A : Progress → Prop} {c : Conclusion}
  {listener : Option Listener} {todo : List Deed}

theorem Owes.isEnding (h : k.Owes c listener todo g) : k.IsEnding c g :=
  ⟨h.account ▸ List.prefix_append .., fun hexit => absurd (congrArg Standing.exit h.standing) hexit⟩

theorem Owes.next {d : Deed} (h : k.Owes c listener (d :: todo) g) :
    k.Owes c listener todo ⟨g.deeds ++ [d], g.standing⟩ :=
  ⟨by rw [← h.account, List.append_assoc, List.singleton_append], h.standing⟩

/-! ## What the thread does -/

variable (k) in
/-- The thread does as the protocol of the task says, and the account of it stays in order. -/
abbrev Goes {α : Type} (A : Progress → Prop) (Q : Progress → α → Prop) (t : Act α) (g : Progress)
    (w : World) : Prop :=
  t.Abides (advances k.id) (Tracks k.id A) Q g w

/-- A change of the admission that leaves the task as it stands. -/
theorem goes_alter {f : Admission → Admission} {Q : Progress → Prop}
    (hf : ∀ a, Admission.Spares k.id a (f a)) (hQ : Q g) :
    k.Goes A (fun g' _ => Q g') (alterAdmission f) g w :=
  fun w hw => ⟨g, ⟨.inl ⟨rfl, .admission ..⟩, fun h => h⟩, hw.of_spares (hf w.admission), hQ⟩

theorem spares_record (id : Nat) (w : World) (e : Event) :
    Admission.Spares id w.admission (w.record e).admission := by
  rw [admission_record]
  exact .refl ..

theorem spares_writeEntry (id : Nat) (w : World) (e : Entry) :
    Admission.Spares id w.admission (w.writeEntry e).admission := by
  rw [admission_writeEntry]
  exact .refl ..

/-- The next deed, if it is not the end. -/
theorem goes_deed {d : Deed} {Q : Progress → Prop}
    (hd : ∀ w, Admission.Spares k.id w.admission (d.run k.id w).admission)
    (hA : A ⟨g.deeds ++ [d], g.standing⟩) (hQ : Q ⟨g.deeds ++ [d], g.standing⟩) :
    k.Goes A (fun g' _ => Q g') (modifyThe World (d.run k.id)) g w :=
  fun w hw => ⟨⟨g.deeds ++ [d], g.standing⟩, ⟨.inr ⟨d, rfl, rfl⟩, fun h => h⟩,
    (hw.of_spares (hd w)).of_standing_eq rfl hA, hQ⟩

/-! ### The opening -/

/-- The listener hears of the start, if it wants to. -/
theorem goes_notifyStarted (w : World) :
    k.Goes k.IsOpening (fun g _ => g = k.opened) (notifyStarted k.id) k.start w := by
  intro w hw
  have hstanding : w.admission.standing? k.id = some ⟨k.listener, .running⟩ := hw.standing
  dsimp only [Thread.bind]
  rw [Admission.startListener?_of_standing? hstanding]
  cases hlistener : k.listener.filter (·.hearsStart) with
  | none =>
    show k.start = k.opened
    rw [start, opened, opening, hlistener]
    rfl
  | some l =>
    have hopening : k.opening = [.tell (.started l.name)] := by rw [opening, hlistener]; rfl
    refine goes_deed (d := .tell (.started l.name)) (Q := (· = k.opened))
      (fun w => spares_record ..) ⟨?_, rfl⟩ ?_
    · exact hopening ▸ List.prefix_rfl
    · rw [opened, hopening]
      rfl

theorem goes_begins (hw : Tracks k.id k.IsOpening k.start w) :
    k.Goes k.IsOpening (fun g _ => g = k.opened) (begins k.id) k.start w :=
  (goes_notifyStarted w).bind hw fun _ _ _ _ hg =>
    goes_alter (Q := (· = k.opened)) (fun a => .alterTask a k.id (fun _ => rfl) fun _ _ => rfl) hg

/-! ### The evaluation -/

theorem isPrinting_start (k : Charge) : k.IsPrinting k.start := ⟨[], List.forall_mem_nil _, rfl⟩

/-- An evaluation writes its own entries. -/
theorem goes_evaluation {Q : Conclusion → Prop} (h : Makes (Prints k.id) Q k.evaluation)
    (hw : Tracks k.id k.IsPrinting k.start w) :
    k.Goes k.IsPrinting (fun g c => k.IsPrinting g ∧ Q c) k.evaluation k.start w := by
  refine (h.only w).abides k.IsPrinting (fun g w w' hg hw hchange => ?_) k.isPrinting_start hw
  cases hchange with
  | entry e he =>
    obtain ⟨own, hown, rfl⟩ := hg
    have hprints : k.IsPrinting ⟨own.map .write ++ [.write e], ⟨k.listener, .running⟩⟩ := by
      refine ⟨own ++ [e], fun e' he' => ?_, by rw [List.map_append]; rfl⟩
      obtain he' | he' := List.mem_append.mp he'
      · exact hown e' he'
      · exact List.mem_singleton.mp he' ▸ he
    have hwritten := hw.of_spares (spares_writeEntry k.id w e)
    exact ⟨_, hprints, ⟨.inr ⟨.write e, rfl, rfl⟩, fun h => h⟩,
      hwritten.of_standing_eq rfl hprints⟩
  | aside h hs => exact ⟨g, hg, ⟨.inl ⟨rfl, h⟩, fun h => h⟩, hw.of_spares hs⟩

/-! ### What follows it -/

/-- Some deeds are left to do, and the next one is not the end. -/
theorem goes_owed {d : Deed} (hd : ∀ w, Admission.Spares k.id w.admission (d.run k.id w).admission)
    (h : k.Owes c listener (d :: todo) g) :
    k.Goes (k.IsEnding c) (fun g' _ => k.Owes c listener todo g') (modifyThe World (d.run k.id)) g
      w :=
  goes_deed hd h.next.isEnding h.next

/-- Entries that are to be written are written one after the other. -/
theorem goes_writes (entries : List Entry) (h : k.Owes c listener (entries.map .write ++ todo) g)
    (hw : Tracks k.id (k.IsEnding c) g w) :
    k.Goes (k.IsEnding c) (fun g' _ => k.Owes c listener todo g') (entries.forM write) g w := by
  induction entries generalizing g w with
  | nil => exact h
  | cons e rest ih =>
    have hfirst : k.Goes (k.IsEnding c)
        (fun g' _ => k.Owes c listener (rest.map .write ++ todo) g') (write e) g w :=
      goes_owed (d := .write e) (fun w => spares_writeEntry k.id w e) h
    exact hfirst.bind hw fun g' _ w' hw' h' => ih h' hw'

/-- The listener is taken, and then it hears of the end if there is one. -/
theorem goes_notifyEnded {Q : Progress → Prop}
    (hnone : g.standing.listener = none → Q ⟨g.deeds, ⟨none, g.standing.exit⟩⟩)
    (hsome : ∀ l, g.standing.listener = some l → ∀ w,
      k.Goes (k.IsEnding c) (fun g' _ => Q g') (modifyThe World (·.record (.ended l.name)))
        ⟨g.deeds, ⟨none, g.standing.exit⟩⟩ w) :
    k.Goes (k.IsEnding c) (fun g' _ => Q g') (notifyEnded k.id) g w := by
  intro w hw v hv
  -- The admission is that of the first look, and the task stands there as it does now.
  have htaken : Tracks k.id (k.IsEnding c) ⟨g.deeds, ⟨none, g.standing.exit⟩⟩
      { v with admission := (w.admission.takeListener k.id).2 } := by
    refine ⟨?_, hw.issued, hw.account.begun, hw.account.done⟩
    show (w.admission.takeListener k.id).2.standing? k.id = _
    rw [Admission.standing?_takeListener, hw.standing]
    rfl
  refine ⟨⟨g.deeds, ⟨none, g.standing.exit⟩⟩, ⟨.inl ⟨rfl, .admission ..⟩, fun h => h⟩, htaken, ?_⟩
  have hlistener : ((w.admission.control? k.id).bind fun c => c.takeListener.1) =
      g.standing.listener := Admission.takeListener_fst_of_standing? hw.standing
  dsimp only [Thread.bind]
  rw [hlistener]
  cases hlast : g.standing.listener with
  | none => exact hnone hlast
  | some l => exact hsome l hlast _

/-- The listener hears of the end. -/
theorem goes_tellEnd (h : k.Owes c k.listener (k.closing ++ todo) g) :
    k.Goes (k.IsEnding c) (fun g' _ => k.Owes c none todo g') (notifyEnded k.id) g w := by
  have hlistener : g.standing.listener = k.listener := congrArg Standing.listener h.standing
  have howes : k.Owes c none (k.closing ++ todo) ⟨g.deeds, ⟨none, g.standing.exit⟩⟩ :=
    ⟨h.account, by rw [h.standing]⟩
  refine goes_notifyEnded (fun hnone => ?_) fun l hsome w => ?_
  · rw [closing, ← hlistener, hnone] at howes
    exact howes
  · rw [closing, ← hlistener, hsome] at howes
    exact goes_owed (d := .tell (.ended l.name)) (fun w => spares_record ..) howes

/-- A task that has ended has no listener left to tell. -/
theorem goes_tellNobody (h : g.standing.listener = none) :
    k.Goes (k.IsEnding c) (fun g' _ => g'.standing.exit = g.standing.exit) (notifyEnded k.id) g w :=
  goes_notifyEnded (Q := fun g' => g'.standing.exit = g.standing.exit) (fun _ => rfl)
    fun l hsome => by rw [h] at hsome; cases hsome

/-- The end of the evaluation, whatever became of it: listener, snapshot and prompt. -/
theorem goes_complete (h : k.Owes c k.listener (k.closing ++ k.leaving c) g)
    (hw : Tracks k.id (k.IsEnding c) g w) :
    k.Goes (k.IsEnding c)
      (fun g' _ => k.Owes c none [.keep c.outcome.kept, .finish c.outcome.exit] g')
      (complete k.context k.id) g w := by
  have hpublish : ∀ w, Admission.Spares k.id w.admission
      ((Deed.publish k.context).run k.id w).admission := by
    intro w
    have hsame : ((Deed.publish k.context).run k.id w).admission = w.admission :=
      (w.session_publish _).2.2
    rw [hsame]
    exact .refl ..
  refine (goes_tellEnd h).bind hw fun g _ w hw h => ?_
  refine (goes_owed hpublish h).bind hw fun g _ w hw h => ?_
  exact goes_owed (d := .write .prompt) (fun w => spares_writeEntry ..) h

/-- The end of the task. -/
theorem goes_finish (h : k.Owes c none [.finish c.outcome.exit] g) :
    k.Goes (k.IsEnding c) (fun g' _ => g'.standing = ⟨none, c.outcome.exit⟩)
      (alterAdmission fun a => (a.finish k.id c.outcome.exit).2) g w := by
  intro w hw
  have hdone : g.deeds ++ [.finish c.outcome.exit] = k.ending c := h.account
  refine ⟨⟨g.deeds ++ [.finish c.outcome.exit], ⟨none, c.outcome.exit⟩⟩,
    ⟨.inr ⟨.finish c.outcome.exit, rfl, rfl⟩, fun _ => c.exit_outcome_ne⟩,
    ⟨?_, hw.issued, hdone ▸ List.prefix_rfl, fun _ => hdone⟩, rfl⟩
  show ((w.admission.finish k.id c.outcome.exit).2.standing? k.id) = _
  rw [Admission.standing?_finish, hw.standing, h.standing]
  rfl

theorem goes_endTask (h : k.Owes c none [.keep c.outcome.kept, .finish c.outcome.exit] g)
    (hw : Tracks k.id (k.IsEnding c) g w) :
    k.Goes (k.IsEnding c) (fun g' _ => g'.standing.exit ≠ .running) (endTask k.id c.outcome) g
      w := by
  have hkeep : ∀ w : World, Admission.Spares k.id w.admission
      ((Deed.keep c.outcome.kept).run k.id w).admission :=
    fun w => .alterTask w.admission k.id (fun _ => rfl) fun _ _ => rfl
  refine (goes_owed hkeep h).bind hw fun g _ w hw h => ?_
  refine (goes_finish h).bind hw fun g _ w hw hg => ?_
  refine (goes_tellNobody (congrArg Standing.listener hg)).bind hw fun g' _ w hw hexit => ?_
  have hended : g'.standing.exit ≠ .running := by
    rw [hexit, hg]
    exact c.exit_outcome_ne
  exact goes_alter (Q := fun g => g.standing.exit ≠ .running) (fun a => .release a k.id) hended

theorem owes_start (k : Charge) (c : Conclusion) :
    k.Owes c k.listener (c.echo.map .write ++ (k.closing ++ k.leaving c)) k.start := ⟨rfl, rfl⟩

/-- What follows the evaluation is done as the protocol says, and it is over after the task. -/
theorem goes_afterwards (hw : Tracks k.id (k.IsEnding c) k.start w) :
    k.Goes (k.IsEnding c) (fun g' _ => g'.standing.exit ≠ .running) (afterwards k.id k.context c)
      k.start w := by
  refine (goes_writes c.echo (k.owes_start c) hw).bind hw fun g _ w hw h => ?_
  exact (goes_complete h hw).bind hw fun g _ w hw h => goes_endTask h hw

end Charge

/-! ## How long it takes -/

theorem within_modify (f : World → World) : (modifyThe World f : Act Unit).Within 2 :=
  fun _ => trivial

theorem within_notifyEnded (id : Nat) : (notifyEnded id).Within 5 := by
  refine fun w v => ?_
  dsimp only [Thread.bind]
  cases (w.admission.control? id).bind fun c => c.takeListener.1 with
  | some l => exact within_modify _
  | none => exact trivial

theorem within_echo (c : Conclusion) : (c.echo.forM write : Act Unit).Within 2 := by
  have hone : ∀ e, ([e].forM write : Act Unit).Within 2 := fun e =>
    (within_modify (·.writeEntry e)).bind fun _ => Thread.within_done 0 ()
  cases c with
  | value v =>
    show ((if v.isUnit then [] else [Entry.output v.display]).forM write : Act Unit).Within 2
    split
    · exact Thread.within_done 2 ()
    · exact hone _
  | fault f => exact hone _
  | panic message => exact Thread.within_done 2 ()

/-- What follows an evaluation takes a bounded number of actions and waits for nothing. -/
theorem within_afterwards (id i : Nat) (c : Conclusion) : (afterwards id i c).Within 22 := by
  have hcomplete : (complete i id).Within (5 + (2 + 2)) :=
    (within_notifyEnded id).bind fun _ => (within_modify _).bind fun _ => within_modify _
  have hend : (endTask id c.outcome).Within (2 + (2 + (5 + 2))) :=
    (within_modify _).bind fun _ => (within_modify _).bind fun _ =>
      (within_notifyEnded id).bind fun _ => within_modify _
  exact (within_echo c).bind fun _ => hcomplete.bind fun _ => hend

end Completion
end Session
end ScriptSession
