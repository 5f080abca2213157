import ScriptSession.Proofs.Concurrency.Strides
import ScriptSession.Proofs.Session.Charges
import ScriptSession.Proofs.Session.Showing

/-!
# Who prompts

Which threads of a session prompt, and when. Rebuilds and the watcher of the manifest never do, and
an evaluation does once, after everything else that it shows and before its task ends. None of them
ends another task. Main statements: the thread of an evaluation, of a rebuild and of a watcher has
its role in this (`Speaking.follows_evaluation`, `Speaking.follows_rebuild`,
`Speaking.follows_watchJob`), wherever it is interrupted and whatever it finds then.
-/

namespace ScriptSession

namespace Report
namespace Streams

/-! ## Telling a prompt -/

theorem ne_putOut (s : Streams) : s ≠ s.putOut "> " := by
  intro h
  have hout : s.out.toList = s.out.toList ++ "> ".toList :=
    (congrArg (fun s => s.out.toList) h).trans String.toList_append
  simp at hout

theorem errLine_ne_putOut (s : Streams) (text : String) : s.errLine text ≠ s.putOut "> " :=
  fun h => s.ne_putOut (Streams.mk.injEq .. ▸ ⟨(Streams.mk.inj h).1, rfl⟩)

/-- A line ends in a line break, which a prompt does not. -/
theorem outLine_ne_putOut (s : Streams) (text : String) : s.outLine text ≠ s.putOut "> " := by
  intro h
  have hout := congrArg (fun s => s.out.toList) h
  simp only [outLine, putOut, String.toList_append, List.append_cancel_left_eq] at hout
  have hlast := congrArg List.getLast? hout
  simp at hlast

end Streams
end Report

namespace Session

open Concurrency (Protocol Thread)
open Report (Entry)
open Script (Value)
open ScriptSession.Task (Admission)

namespace World

variable {w w' : World}

theorem Shows.not_prompt (h : w.Shows [] w') : ¬ w.Shows [.prompt] w' := by
  intro hprompt
  have hshown := hprompt.shown
  have hnone := h.shown
  cases hdisplay : w.display with
  | kept =>
    rw [hdisplay] at hshown hnone
    have hentries := hshown.1
    rw [hnone.1] at hentries
    simp at hentries
  | terminal color =>
    rw [hdisplay] at hshown hnone
    exact w.streams.ne_putOut (hnone.2.symm.trans hshown.2)

theorem Shows.not_prompt_of_ne {e : Entry} (h : w.Shows [e] w') (he : e ≠ .prompt) :
    ¬ w.Shows [.prompt] w' := by
  intro hprompt
  have hshown := hprompt.shown
  have hentry := h.shown
  cases hdisplay : w.display with
  | kept =>
    rw [hdisplay] at hshown hentry
    have hentries := hentry.1.symm.trans hshown.1
    simp only [List.append_cancel_left_eq, List.cons.injEq, and_true] at hentries
    exact he hentries
  | terminal color =>
    rw [hdisplay] at hshown hentry
    have hstreams := hentry.2.symm.trans hshown.2
    cases e with
    | output text => exact w.streams.outLine_ne_putOut text hstreams
    | warning text => exact w.streams.errLine_ne_putOut _ hstreams
    | prompt => exact he rfl

/-- A change of the streams only, which is not shown where the transcript is kept. -/
theorem not_prompt_of_streams {s : Report.Streams} (hs : s ≠ w.streams.putOut "> ") :
    ¬ w.Shows [.prompt] { w with streams := s } := by
  intro hprompt
  have hshown := hprompt.shown
  cases hdisplay : w.display with
  | kept =>
    rw [hdisplay] at hshown
    have hentries : w.transcript.entries = w.transcript.entries ++ [.prompt] := hshown.1
    simp at hentries
  | terminal color =>
    rw [hdisplay] at hshown
    exact hs hshown.2

/-- A change that is no prompt and ends no task. -/
structure Talks (w w' : World) : Prop where
  noPrompt : ¬ w.Shows [.prompt] w'
  confines : Admission.Confines none w.admission w'.admission

namespace Talks

theorem silent (h : w.Shows [] w') (hadmission : w'.admission = w.admission) : w.Talks w' :=
  ⟨h.not_prompt, .of_eq hadmission⟩

/-- A change that leaves the transcript and the streams alone, wherever these are shown. -/
theorem of_eq (htranscript : w'.transcript = w.transcript) (hstreams : w'.streams = w.streams)
    (hadmission : w'.admission = w.admission) : w.Talks w' := by
  refine ⟨fun hprompt => ?_, .of_eq hadmission⟩
  exact (Shows.of_eq hprompt.display htranscript hstreams).not_prompt hprompt

theorem admission {a : Admission} (h : Admission.Confines none w.admission a) :
    w.Talks { w with admission := a } :=
  ⟨Shows.not_prompt (.of_eq rfl rfl rfl), h⟩

theorem entry (w : World) {e : Entry} (he : e ≠ .prompt) : w.Talks (w.writeEntry e) :=
  ⟨(writes_writeEntry 0 w e).shows.not_prompt_of_ne he, .of_eq (admission_writeEntry w e)⟩

theorem record (w : World) (e : Event) : w.Talks (w.record e) :=
  silent (writes_record 0 w e).shows (admission_record w e)

theorem publish (w : World) (shot : Report.Snapshot) : w.Talks (w.publish shot) :=
  silent (writes_publish 0 w shot).shows (w.session_publish shot).2.2

theorem alterControl (w : World) (o : Owner) {f : Task.Control → Task.Control}
    (hid : ∀ c, (f c).id = c.id) (hexit : ∀ c, (f c).exit = c.exit) :
    w.Talks (w.alterControl o f) := by
  cases o with
  | task id =>
    exact .admission (.alterTask w.admission id (fun r => hid r.control) fun r => hexit r.control)
  | loose i => exact .of_eq rfl rfl rfl

end Talks
end World

/-! ## Threads that follow a protocol -/

section

variable {γ α : Type} {P : Protocol γ World} {F : γ → Job → γ → Prop} {g : γ} {w : World}
  {hasMoved : Bool}

theorem Makes.follows {R : World → World → Prop} {Q : α → Prop}
    {t : Act α} (h : Makes R Q t) (hR : ∀ w w', R w w' → P g w g w') :
    t.Follows P F (fun g' a => g' = g ∧ Q a) hasMoved g w := by
  refine (h.only w).follows (· = g) ?_ rfl
  rintro _ w w' rfl hw
  exact ⟨_, rfl, hR w w' hw⟩

theorem follows_get_bind {Q : γ → α → Prop} {f : World → Act α}
    (h : ∀ w, (f w).Follows P F Q false g w) : (getThe World >>= f).Follows P F Q hasMoved g w :=
  Thread.Follows.of_moved h

theorem follows_awaitFor (limit : Nat) (isReady : World → Bool) :
    (Thread.awaitFor limit isReady : Act Bool).Follows P F (fun g' _ => g' = g) hasMoved g w :=
  ⟨fun _ _ => rfl, fun _ _ => rfl⟩

theorem follows_modify {f : World → World} {g' : γ} (h : ∀ w, P g w g' (f w)) :
    (modifyThe World f : Act Unit).Follows P F (fun g _ => g = g') hasMoved g w :=
  follows_get_bind (f := fun w => .set (f w) (.done ())) fun w => ⟨g', h w, rfl⟩

/-- The listener is taken and told of the end. Nobody acts between the two looks at it. -/
theorem follows_notifyEnded (id : Nat)
    (htake : ∀ w, P g w g { w with admission := (w.admission.takeListener id).2 })
    (hrecord : ∀ w e, P g w g (w.record e)) :
    (notifyEnded id).Follows P F (fun g' _ => g' = g) hasMoved g w := by
  refine follows_get_bind fun w => ⟨g, htake w, ?_⟩
  show Thread.Follows P F _ (tellEnded (w.admission.takeListener id).1) true g _
  cases (w.admission.takeListener id).1 with
  | some l => exact follows_modify fun w => hrecord w _
  | none => rfl

theorem makes_waitBehind {R : World → World → Prop} (behind looks : Nat) :
    Makes R (fun _ => True) (waitBehind behind looks) := by
  induction looks with
  | zero => exact .pure trivial
  | succ n ih =>
    refine .get_bind fun w => ?_
    dsimp only
    split
    · exact .bind (.await _) fun _ _ => ih
    · exact .pure trivial

/-- A submission comes to nothing, or it is admitted under a number that nobody has and starts its
task. -/
theorem follows_submitWith {s : Submission} (free : γ) (held started : Nat → γ)
    (hstay : ∀ w a, Admission.Confines none w.admission a → P free w free { w with admission := a })
    (hholds : ∀ w a id, Admission.Confines none w.admission a → w.admission.issued < id →
      id ≤ a.issued → a.hasExited id = false → P free w (held id) { w with admission := a })
    (hstart : ∀ id, F (held id) (.task id s.work) (started id)) (n : Nat) (fromQueue : Bool) :
    (submitWith s n fromQueue).Follows P F (fun g r => (∃ id, r = .ok id ∧ g = started id) ∨
      ∃ e, r = .error e ∧ g = free) hasMoved free w := by
  induction n generalizing hasMoved fromQueue w with
  | zero => exact .inr ⟨_, rfl, rfl⟩
  | succ n ih =>
    refine follows_get_bind fun w => ?_
    have hconfines := Admission.Confines.turn w.admission s.ticket fromQueue
    show ∃ g', P free w g' { w with admission := (w.admission.turn s.ticket fromQueue true).2 } ∧
      (followUp s n (w.admission.turn s.ticket fromQueue true).1).Follows P F _ true g' _
    cases hturn : w.admission.turn s.ticket fromQueue true with
    | mk reply a =>
    rw [hturn] at hconfines
    cases reply with
    | admitted id =>
      obtain ⟨hfresh, hissued, hrunning⟩ := Admission.fresh_of_turn hturn
      exact ⟨held id, hholds w a id hconfines hfresh hissued hrunning, started id, hstart id,
        .inl ⟨id, rfl, rfl⟩⟩
    | behind id =>
      -- Waiting changes nothing, and then the submission is where it was, with a turn less.
      have hwait : ∀ w, (waitBehind id n).Follows P F (fun g' _ => g' = free ∧ True) true free w :=
        fun w => (makes_waitBehind id n (R := fun _ _ => False)).follows fun _ _ h => h.elim
      refine ⟨free, hstay w a hconfines, (hwait _).bind (f := fun _ => submitWith s n true) ?_⟩
      rintro _ _ w ⟨rfl, -⟩
      exact ih true
    | refused | unstarted => exact ⟨free, hstay w a hconfines, .inr ⟨_, rfl, rfl⟩⟩

end

namespace Speaking

/-! ## Evaluations and rebuilds -/

/-- Whatever a script prints, it does not prompt, and it ends no task. -/
theorem covers_talks (r : Running) : r.Covers World.Talks where
  atGate _ _ := .of_eq rfl rfl rfl
  out w text := by
    cases r.sink with
    | transcript => exact .entry w nofun
    | process => exact ⟨World.not_prompt_of_streams (w.streams.outLine_ne_putOut text), .of_eq rfl⟩
    | buffer i hasGates => exact .of_eq rfl rfl rfl
  err w text := by
    cases r.sink with
    | transcript => exact .entry w nofun
    | process => exact ⟨World.not_prompt_of_streams (w.streams.errLine_ne_putOut text), .of_eq rfl⟩
    | buffer i hasGates => exact .of_eq rfl rfl rfl
  enterWait w := .alterControl w r.owner (fun _ => rfl) fun _ => rfl
  leaveWait w := .alterControl w r.owner (fun _ => rfl) fun _ => rfl
  module _ _ _ := .of_eq rfl rfl rfl
  context _ _ _ := .of_eq rfl rfl rfl

/-- The thread makes no prompt and ends no task. -/
abbrev Chats {α : Type} (t : Act α) : Prop := Makes World.Talks (fun _ => True) t

theorem chats_write {e : Entry} (he : e ≠ .prompt) : Chats (write e) :=
  .modify fun w => .entry w he

theorem chats_alterSession (f : Core → Core) : Chats (modifyThe World (·.alterSession f)) :=
  .modify fun _ => .of_eq rfl rfl rfl

theorem chats_evaluating (id i : Nat) (script : String) (extra : List (String × Value)) :
    Chats (Completion.evaluating id i script extra) :=
  .get_bind fun _ => .bind (makes_evaluateIn (covers_talks _) script _ extra) fun _ _ =>
    .pure trivial

theorem chats_evaluateOn (i : Nat) (script : String) (extra : List (String × Value)) (sink : Sink)
    (title : String) : Chats (evaluateOn i script extra sink title) :=
  ⟨fun _ w => ⟨.of_eq rfl rfl rfl,
    (makes_evaluateIn (covers_talks _) script w.session.bindings extra).only _⟩⟩

theorem chats_runAutorun (i : Nat) : Chats (runAutorun i) := by
  refine .get_bind fun w => .forM (fun path => ?_) _
  have hscript : Chats (runAutorunScript i path) := by
    refine .get_bind fun w => ?_
    split
    · exact .pure trivial
    · exact .bind (chats_evaluateOn i _ [] .process _) fun _ _ => .pure trivial
  refine .get_bind fun w => ?_
  split
  · refine .bind hscript fun result _ => ?_
    split
    · exact .pure trivial
    · exact chats_write nofun
  · exact .pure trivial

theorem chats_resolveFor (owner : Owner) (project : Path) (m : Artifact.Manifest) :
    Chats (resolveFor owner project m) := by
  refine (makes_resolveFor owner project m).mono fun w w' h => ?_
  cases h with
  | host host => exact .of_eq rfl rfl rfl
  | atGate atGate => exact .of_eq rfl rfl rfl
  | asked repository c => exact .record w _

theorem chats_withDependencies (owner : Owner) (project : Path) (m : Artifact.Manifest)
    (scope : Context.LoadingScope) : Chats (withDependencies owner project m scope) := by
  refine .bind (chats_resolveFor owner project m) fun result _ => ?_
  split
  · exact .pure trivial
  · refine Makes.bind (Q := fun _ => True) (.get_bind fun w => ?_) fun _ _ => .pure trivial
    split
    · exact chats_write nofun
    · exact .modify fun w => .record w _

theorem chats_build (owner : Owner) (parent : Context.LoadingScope) (m : Artifact.Manifest)
    (bindings : Context.Bindings) (options : RebuildOptions) :
    Chats (build owner parent m bindings options) := by
  have hend : ∀ scope, Chats (keepContext scope bindings) := fun scope =>
    .get_bind fun _ => .bind (chats_alterSession _) fun _ _ =>
      ⟨fun _ _ => ⟨.of_eq rfl rfl rfl, trivial⟩⟩
  refine .get_bind fun w => ?_
  cases w.session.projectDir with
  | none => exact .pure trivial
  | some project =>
    refine .get_bind fun w => ?_
    dsimp only
    split
    · exact .bind (chats_withDependencies owner project m _) fun _ _ => hend _
    · exact hend _

theorem chats_refreshSnapshot (i : Nat) : Chats (refreshSnapshot i) :=
  .modify fun w => .publish w _

theorem chats_rebuildTask (id : Nat) : Chats (rebuildTask id) := by
  have hclose : ∀ result : Except Failure Nat, Chats (do
      modifyThe World (·.alterSession fun c => { c with isRebuilding := false })
      return result) := fun result => .bind (chats_alterSession _) fun _ _ => .pure trivial
  have hbanner : Chats (banner.forM write) :=
    .bind (chats_write nofun) fun _ _ => .bind (chats_write nofun) fun _ _ =>
      .bind (chats_write nofun) fun _ _ => .pure trivial
  refine Makes.bind (Q := fun _ => True) (.bind (.await _) fun _ _ =>
    .bind (chats_alterSession _) fun _ _ => .get_bind fun w =>
      .bind (chats_build ..) fun built _ => ?_) fun _ _ => .pure trivial
  cases built with
  | error e => exact hclose _
  | ok i =>
    refine .bind (chats_alterSession _) fun _ _ => .bind hbanner fun _ _ =>
      .bind (chats_runAutorun i) fun _ _ =>
        .bind (chats_refreshSnapshot i) fun _ _ =>
        .get_bind fun w => hclose _

/-! ## Roles -/

/-- What a thread has to do with a task: nothing, it has been given a number and has still to start
its task, it works on a task, at the end of which it may have to prompt, or the work is over. -/
inductive Role where
  | free
  | holds (id : Nat)
  | works (id : Nat) (prompts : Bool)
  | finished (id : Nat)

/-- The number of the task that a thread has to do with. -/
def Role.id? : Role → Option Nat
  | .free => none
  | .holds id | .works id _ | .finished id => some id

/-- What a thread may change in its role. Before its work is over it shows what it likes except
prompts, and it ends no task; afterwards it shows nothing, and it ends no other task than its
own. -/
inductive Plays : Role → World → Role → World → Prop
  | looks {w w' : World} (h : w.Talks w') : Plays .free w .free w'
  | admits {w w' : World} {id : Nat} (h : w.Talks w') (hfresh : w.admission.issued < id)
      (hissued : id ≤ w'.admission.issued) : Plays .free w (.holds id) w'
  | works {id : Nat} {prompts : Bool} {w w' : World} (h : w.Talks w') :
      Plays (.works id prompts) w (.works id prompts) w'
  | prompts {id : Nat} {w w' : World} (hshows : w.Shows [.prompt] w')
      (h : Admission.Confines none w.admission w'.admission) :
      Plays (.works id true) w (.finished id) w'
  | ends {id : Nat} {w w' : World} (hshows : w.Shows [] w')
      (h : Admission.Confines (some id) w.admission w'.admission) :
      Plays (.works id false) w (.finished id) w'
  | tidies {id : Nat} {w w' : World} (hshows : w.Shows [] w')
      (h : Admission.Confines (some id) w.admission w'.admission) :
      Plays (.finished id) w (.finished id) w'

/-- What a thread may start in its role. -/
inductive Starts : Role → Job → Role → Prop
  | rebuild (id : Nat) : Starts (.holds id) (.task id .rebuild) .free

variable {α : Type} {w : World} {id i : Nat} {prompts hasMoved : Bool}

/-- The thread keeps to its role. -/
abbrev KeepsTo (Q : Role → α → Prop) (t : Act α) (hasMoved : Bool) (g : Role) (w : World) : Prop :=
  t.Follows Plays Starts Q hasMoved g w

/-- A thread that chats does so while it works. -/
theorem Chats.keepsTo {t : Act α} (h : Chats t) :
    KeepsTo (fun g _ => g = .works id prompts) t hasMoved (.works id prompts) w :=
  (Makes.follows h fun _ _ => .works).mono fun _ _ hg => hg.1

theorem Plays.tidy {w : World} {a : Admission} (h : Admission.Confines none w.admission a) :
    Plays (.finished id) w (.finished id) { w with admission := a } :=
  .tidies (.of_eq rfl rfl rfl) (h.weaken _)

theorem chats_notifyStarted (id : Nat) : Chats (notifyStarted id) := by
  refine .get_bind fun w => ?_
  split
  · exact .modify fun w => .record w _
  · exact .pure trivial

theorem chats_begin (id : Nat) : Chats (alterAdmission (·.begin id)) :=
  .modify fun w => .admission (.alterTask w.admission id (fun _ => rfl) fun _ => rfl)

theorem chats_begins (id : Nat) : Chats (Completion.begins id) :=
  .bind (chats_notifyStarted id) fun _ _ => chats_begin id

theorem chats_echo (c : Completion.Conclusion) : Chats (c.echo.forM write) := by
  cases c with
  | value v =>
    show Chats ((if v.isUnit then [] else [Entry.output v.display]).forM write)
    split
    · exact .pure trivial
    · exact .bind (chats_write nofun) fun _ _ => .pure trivial
  | fault f => exact .bind (chats_write nofun) fun _ _ => .pure trivial
  | panic message => exact .pure trivial

/-- The end of a task's thread: its result is kept, the task ends, and nothing is shown from there
on. -/
theorem keepsTo_endTask {g : Role} (outcome : Outcome)
    (hg : g = .works id false ∨ g = .finished id) :
    KeepsTo (fun _ _ => True) (Completion.endTask id outcome) hasMoved g w := by
  have hkeep : ∀ w : World,
      Plays g w g { w with admission := w.admission.keep id outcome.kept } := by
    intro w
    have hconfines := Admission.Confines.alterTask w.admission id
      (f := fun t => { t with outcome := some outcome.kept }) (fun _ => rfl) fun _ => rfl
    obtain rfl | rfl := hg
    · exact .works (.admission hconfines)
    · exact .tidy hconfines
  have hfinish : ∀ w : World, Plays g w (.finished id)
      { w with admission := (w.admission.finish id outcome.exit).2 } := by
    intro w
    -- The task may have prompted already; then the end of it is tidying up.
    obtain rfl | rfl := hg
    · exact .ends (.of_eq rfl rfl rfl) (.finish ..)
    · exact .tidies (.of_eq rfl rfl rfl) (.finish ..)
  have htell : ∀ w, KeepsTo (fun g _ => g = .finished id) (notifyEnded id) true (.finished id) w :=
    fun w => follows_notifyEnded id
      (fun w => .tidy (.alterTask w.admission id (fun _ => rfl) fun _ => rfl))
      fun w e => .tidies (writes_record 0 w e).shows (.of_eq (admission_record w e))
  refine (follows_modify hkeep).bind ?_
  rintro _ _ w rfl
  refine (follows_modify hfinish).bind ?_
  rintro _ _ w rfl
  refine (htell w).bind ?_
  rintro _ _ w rfl
  have hleave : KeepsTo (fun g _ => g = .finished id) (alterAdmission (·.release id)) true
      (.finished id) w :=
    follows_modify fun w => .tidy (.release w.admission id)
  exact hleave.mono fun _ _ _ => trivial

/-- A thread that evaluates works on its task until it prompts, whatever the evaluation comes to. -/
theorem follows_evaluation {eval : Act Completion.Conclusion} (h : Chats eval) :
    KeepsTo (fun _ _ => True) (runTask id (Completion.concluding id i eval)) hasMoved
      (.works id true) w := by
  have htell : ∀ w, KeepsTo (fun g _ => g = .works id true) (notifyEnded id) true
      (.works id true) w := fun w => follows_notifyEnded id
    (fun w => .works (.admission (.alterTask w.admission id (fun _ => rfl) fun _ => rfl)))
    fun w e => .works (.record w e)
  have hcomplete : ∀ w, KeepsTo (fun g _ => g = .finished id) (complete i id) true
      (.works id true) w := by
    intro w
    refine (htell w).bind ?_
    rintro _ _ w rfl
    refine (chats_refreshSnapshot i).keepsTo.bind ?_
    rintro _ _ w rfl
    exact follows_modify fun w => .prompts (writes_writeEntry 0 w .prompt).shows
      (.of_eq (admission_writeEntry w _))
  -- One part of the thread after the other, each from the role that the one before it has left.
  rw [Completion.runTask_concluding]
  refine (chats_begins id).keepsTo.bind ?_
  rintro _ _ w rfl
  refine h.keepsTo.bind ?_
  rintro _ c w rfl
  refine (chats_echo c).keepsTo.bind ?_
  rintro _ _ w rfl
  refine (hcomplete w).bind ?_
  rintro _ _ w rfl
  exact keepsTo_endTask c.outcome (.inr rfl)

/-- A thread that rebuilds works on its task until this ends. -/
theorem follows_rebuild :
    KeepsTo (fun _ _ => True) (body (.task id .rebuild)) hasMoved (.works id false) w := by
  show KeepsTo _ (runTask id (rebuildTask id)) _ _ _
  rw [Completion.runTask_eq]
  refine (chats_notifyStarted id).keepsTo.bind ?_
  rintro _ _ w rfl
  refine (chats_begin id).keepsTo.bind ?_
  rintro _ _ w rfl
  refine (chats_rebuildTask id).keepsTo.bind ?_
  rintro _ outcome w rfl
  exact keepsTo_endTask outcome (.inl rfl)

/-! ## The watcher -/

theorem keepsTo_receiveEvent :
    KeepsTo (fun g _ => g = .free) receiveEvent hasMoved .free w := by
  refine (follows_awaitFor pollInterval _).bind ?_
  rintro _ isReady _ rfl
  cases isReady with
  | false => exact rfl
  | true =>
    refine follows_get_bind fun w => ?_
    split
    · exact rfl
    · exact ⟨.free, .looks (.of_eq rfl rfl rfl), rfl⟩

/-- The watcher starts rebuilds and does nothing else. The induction is on its rounds. -/
theorem keepsTo_watchLoop (manifest : Path) (debounce rounds : Nat) (watch : Watch) :
    KeepsTo (fun g _ => g = .free) (watchLoop manifest debounce rounds watch) hasMoved .free w := by
  induction rounds generalizing hasMoved watch w with
  | zero => exact rfl
  | succ n ih =>
    have hrebuild : ∀ w, KeepsTo (fun g _ => g = .free) rebuild true .free w := by
      intro w
      have hsubmit : KeepsTo _ (submitWith rebuildSubmission turns false) true .free w :=
        follows_submitWith (P := Plays) (F := Starts) Role.free Role.holds (fun _ => Role.free)
          (fun w a h => .looks (.admission h))
          (fun w a id h hfresh hissued _ => .admits (.admission h) hfresh hissued)
          (fun id => .rebuild id) turns false
      -- Admitted or not, the watcher is free again.
      refine hsubmit.mono ?_
      rintro g r (⟨id, -, hg⟩ | ⟨e, -, hg⟩)
      · exact hg
      · exact hg
    refine follows_get_bind fun w => ?_
    split
    · refine Thread.Follows.bind keepsTo_receiveEvent ?_
      rintro _ r w rfl now
      dsimp only [Thread.bind]
      split
      · refine (hrebuild w).bind ?_
        rintro _ _ w rfl
        exact ih _
      · exact ih _
    · exact rfl

theorem follows_watchJob (manifest : Path) (debounce : Nat) :
    KeepsTo (fun _ _ => True) (body (.watch manifest debounce)) hasMoved .free w := by
  refine Thread.Follows.bind (keepsTo_watchLoop manifest debounce watchRounds .idle) ?_
  rintro _ _ w rfl
  have hleave : KeepsTo (fun g _ => g = .free) (modifyThe World fun w =>
      { w with watch := { w.watch with hasLeft := true } }) true .free w :=
    follows_modify fun w => .looks (.of_eq rfl rfl rfl)
  exact hleave.mono fun _ _ _ => trivial

end Speaking
end Session
end ScriptSession
