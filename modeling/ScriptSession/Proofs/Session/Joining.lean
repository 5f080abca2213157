import ScriptSession.Proofs.Session.Speaking
import ScriptSession.Proofs.Task.Handles

/-!
# Joining tasks

Who gets the result of a task. A task works, and when its work has had an outcome its thread does
what is left of it (`Completion.runTask_eq`): it keeps the result, ends the task and leaves. Any
number of joins go on beside it, for ever or for some time, and between the end of a wait and the
look at the result the others may act; anybody may record an end of the task in between, as an
interrupt does. Main statement: the first end stays, nobody gets a result before it, and if it is
the task's own one, the first join that looks gets the result of the task and all others learn that
there is none (`run_delivers`).
-/

namespace ScriptSession
namespace Session
namespace Joining

open Completion (endTask)
open Concurrency (Follows Thread exists_step_of_not runFrom runFrom_concat runFrom_relates)
open Script (Value)
open ScriptSession.Task (Admission Handle HandedOut Ticket givenUp noResult)

/-! ## A task and those who join it -/

/-- Somebody who joins a task, for ever or for some time. -/
abbrev Call : Type := Act (Option (Except Failure Value))

/-- A join of a task, which may have a limit in milliseconds. -/
def calling (id : Nat) : Option Nat → Call
  | none => some <$> join id
  | some millis => joinFor millis id

/-- What a call has come back with, if it is over and has not come too early. -/
def Call.returned? : Call → Option (Except Failure Value)
  | .done r => r
  | _ => none

/-- A stride that is over where a wait ends, so that the others may act before the next look. -/
def Call.beat (now : Nat) (isLate : Bool) (c : Call) (w : World) : World × Call :=
  match c with
  | .wait isReady limit k =>
    if isReady w then (w, k true)
    else if limit.isSome && isLate then (w, k false)
    else (w, .wait isReady limit k)
  | c => ((c.goOn now false w).shared, (c.goOn now false w).thread)

/-- How far a task has come: it works, or its work has had an outcome, with what is left to its
thread. -/
inductive Stage where
  | works
  | ends (outcome : Outcome) (left : Act Unit)

/-- The outcome of the work. -/
def Stage.outcome? : Stage → Option Outcome
  | .works => none
  | .ends outcome _ => some outcome

/-- A task, the calls of those who join it, and the results that they have come back with, in the
order in which they have taken them. -/
structure Scene where
  world : World
  task : Stage
  calls : List Call
  results : List (Nat × Except Failure Value)

/-- What happens next: the work of the task comes to an outcome, its thread goes on, somebody joins
it or goes on with that, anybody records an end of the task, or others act. -/
inductive Turn where
  | concludes (outcome : Outcome)
  | task (now : Nat) (isLate : Bool)
  | call (limit : Option Nat)
  | goesOn (i now : Nat) (isLate : Bool)
  | finish (exit : Task.Exit)
  | others (w : World)

namespace Scene

/-- A call has gone on. -/
def goOn (s : Scene) (i : Nat) (r : World × Call) : Scene :=
  { s with
    world := r.1
    calls := s.calls.set i r.2
    results := s.results ++ r.2.returned?.toList.map (i, ·) }

open Classical in
/-- What becomes of the scene. Something that cannot happen now changes nothing. What others do
leaves what handles see of the task alone. -/
noncomputable def step (id : Nat) (s : Scene) : Turn → Scene
  | .concludes outcome =>
    match s.task with
    | .works => { s with task := .ends outcome (endTask id outcome) }
    | .ends _ _ => s
  | .task now isLate =>
    match s.task with
    | .works => s
    | .ends outcome left =>
      let r := left.stride now isLate s.world
      { s with world := r.shared, task := .ends outcome r.thread }
  | .call limit => { s with calls := s.calls ++ [calling id limit] }
  | .goesOn i now isLate =>
    match s.calls[i]? with
    | none | some (.done _) => s
    | some c => s.goOn i (Call.beat now isLate c s.world)
  | .finish exit =>
    { s with world := { s.world with admission := (s.world.admission.finish id exit).2 } }
  | .others w =>
    if w.admission.handle? id = s.world.admission.handle? id then { s with world := w } else s

/-- A task that has just been admitted. Nobody has joined it yet. -/
def start (w : World) (t : Ticket) (fromQueue : Bool) : Scene :=
  ⟨{ w with admission := (w.admission.enroll t fromQueue true).2 }, .works, [], []⟩

/-- The scene after some turns. -/
noncomputable def run (w : World) (t : Ticket) (fromQueue : Bool) (turns : List Turn) : Scene :=
  runFrom (step w.admission.nextId) (start w t fromQueue) turns

/-- How the task has ended. -/
def exit? (id : Nat) (s : Scene) : Option Task.Exit :=
  (s.world.admission.control? id).map (·.exit)

end Scene

/-! ## Where the threads are -/

variable {id : Nat} {w : World} {o : Outcome}

/-- What is left to a task's thread when it has kept the result. -/
def finishing (id : Nat) (o : Outcome) : Act Unit := do
  alterAdmission fun a => (a.finish id o.exit).2
  notifyEnded id
  alterAdmission (·.release id)

/-- The thread changes nothing that handles of the task see. -/
abbrev Tidies (id : Nat) (t : Act Unit) (hasMoved : Bool) (w : World) : Prop :=
  t.Follows (fun (_ : Unit) w _ w' => w'.admission.handle? id = w.admission.handle? id)
    (fun _ _ _ => False) (fun g _ => g = ()) hasMoved () w

theorem tidies_leaving (id : Nat) (w : World) :
    Tidies id (do notifyEnded id; alterAdmission (·.release id)) false w := by
  have htell : Tidies id (notifyEnded id) false w :=
    follows_notifyEnded id (fun w => w.admission.handle?_takeListener id) fun w e => by
      rw [admission_record]
  exact htell.bind fun _ _ w _ => follows_modify fun w => w.admission.handle?_release id

theorem stride_endTask (now : Nat) (isLate : Bool) (w : World) :
    (endTask id o).stride now isLate w =
      ⟨{ w with admission := w.admission.keep id o.kept }, finishing id o,
        [.change w { w with admission := w.admission.keep id o.kept }]⟩ := rfl

theorem stride_finishing (now : Nat) (isLate : Bool) (w : World) :
    (finishing id o).stride now isLate w =
      ⟨{ w with admission := (w.admission.finish id o.exit).2 },
        do notifyEnded id; alterAdmission (·.release id),
        [.change w { w with admission := (w.admission.finish id o.exit).2 }]⟩ := rfl

theorem beat_calling (limit : Option Nat) (now : Nat) (isLate : Bool) (w : World) :
    Call.beat now isLate (calling id limit) w =
      if w.admission.hasExited id then (w, some <$> takeResult id)
      else if limit.isSome && isLate then (w, .done none)
      else (w, calling id limit) := by
  cases limit <;> rfl

theorem beat_takeResult (now : Nat) (isLate : Bool) (w : World) :
    Call.beat now isLate (some <$> takeResult id) w =
      ({ w with admission := (w.admission.takeResult id).2 },
        .done (some (w.admission.takeResult id).1)) := rfl

/-- How far a task has come, and how many joins came back before its result was kept. -/
inductive Progress where
  | before (early : Nat)
  | kept (outcome : Outcome) (early : Nat)
  | over (outcome : Outcome) (early : Nat)

namespace Progress

/-- The result of the task, once it has been kept. -/
def mine : Progress → Option (Except Failure Value)
  | .before _ => none
  | .kept o _ | .over o _ => some o.kept

/-- How many joins came back before that. -/
def early : Progress → Nat
  | .before n | .kept _ n | .over _ n => n

/-- The result of an outcome has been kept, after so many joins. -/
def HasKept (o : Outcome) (n : Nat) (g : Progress) : Prop := g = .kept o n ∨ g = .over o n

theorem not_hasKept_before {m n : Nat} : ¬ (before m).HasKept o n := by
  rintro (h | h) <;> cases h

/-- The stage of a task that has come so far. -/
inductive Leads (id : Nat) : Progress → Stage → Prop
  | works (n : Nat) : Leads id (.before n) .works
  | keeps (n : Nat) (o : Outcome) : Leads id (.before n) (.ends o (endTask id o))
  | finishes (n : Nat) (o : Outcome) : Leads id (.kept o n) (.ends o (finishing id o))
  | tidies (n : Nat) (o : Outcome) {left : Act Unit} (h : ∀ w, Tidies id left false w) :
      Leads id (.over o n) (.ends o left)

/-- What has been kept is the result of the outcome. -/
theorem Leads.outcome?_eq {g : Progress} {task : Stage} (h : g.Leads id task)
    {r : Except Failure Value} (hr : g.mine = some r) :
    ∃ o, task.outcome? = some o ∧ r = o.kept := by
  cases h with
  | works | keeps => cases hr
  | finishes n o | tidies n o => exact ⟨o, rfl, (Option.some.inj hr).symm⟩

/-- One more join comes early where nothing is kept yet. -/
theorem Leads.join {g : Progress} {task : Stage} (h : g.Leads id task) {n : Nat}
    (hn : g.mine.isSome → n = g.early) :
    ∃ g' : Progress, g'.Leads id task ∧ g'.mine = g.mine ∧ g'.early = n ∧
      ∀ o m, g.HasKept o m → g'.HasKept o m := by
  cases h with
  | works => exact ⟨_, .works n, rfl, rfl, fun _ _ h => absurd h not_hasKept_before⟩
  | keeps _ o => exact ⟨_, .keeps n o, rfl, rfl, fun _ _ h => absurd h not_hasKept_before⟩
  | finishes m o => exact ⟨_, .finishes m o, rfl, (hn rfl).symm, fun _ _ h => h⟩
  | tidies m o ht => exact ⟨_, .tidies m o ht, rfl, (hn rfl).symm, fun _ _ h => h⟩

theorem HasKept.outcome?_eq {g : Progress} {n : Nat} {task : Stage} (h : g.HasKept o n)
    (hleads : g.Leads id task) : task.outcome? = some o := by
  obtain rfl | rfl := h <;> cases hleads <;> rfl

end Progress

/-- Where a call may be: it waits, it is about to look at the result of the task, which has ended,
it has come back with one, or it has come too early. -/
inductive Stands (id : Nat) (exit : Task.Exit) : Call → Prop
  | waits (limit : Option Nat) : Stands id exit (calling id limit)
  | takes (h : exit ≠ .running) : Stands id exit (some <$> takeResult id)
  | returned (h : exit ≠ .running) (r : Except Failure Value) : Stands id exit (.done (some r))
  | tooEarly : Stands id exit (.done none)

theorem Stands.mono {exit exit' : Task.Exit} {c : Call} (h : Stands id exit c)
    (hexit : exit ≠ .running → exit' ≠ .running) : Stands id exit' c := by
  cases h with
  | waits limit => exact .waits limit
  | takes h => exact .takes (hexit h)
  | returned h r => exact .returned (hexit h) r
  | tooEarly => exact .tooEarly

theorem Call.returned?_eq_some {c : Call} {r : Except Failure Value} :
    c.returned? = some r ↔ c = .done (some r) := by
  cases c with
  | done a =>
    cases a with
    | none => exact iff_of_false nofun nofun
    | some a => exact ⟨fun h => by rw [Option.some.inj h], fun h => by cases h; rfl⟩
  | get | set | clock | fork | wait => exact iff_of_false nofun nofun

namespace Scene

/-! ## What is known of a scene -/

/-- What is known of a scene in which the task has come so far, and its handles see this. -/
structure Sound (id : Nat) (g : Progress) (h : Handle) (s : Scene) : Prop where
  handle : s.world.admission.handle? id = some h
  task : g.Leads id s.task
  accounts : h.Accounts g.mine g.early (s.results.map Prod.snd)
  calls : ∀ (i : Nat) c, s.calls[i]? = some c → Stands id h.exit c
  logged : ∀ (i : Nat) r, (i, r) ∈ s.results ↔ s.calls[i]? = some (.done (some r))
  once : (s.results.map Prod.fst).Nodup

/-- What stays when a scene goes on: the title, a result that has been kept, and the first end. -/
structure Later (g : Progress) (h : Handle) (g' : Progress) (h' : Handle) : Prop where
  title : h'.title = h.title
  hasKept : ∀ o n, g.HasKept o n → g'.HasKept o n
  exit : h.exit ≠ .running → h'.exit = h.exit

/-- How a turn goes on. An end that is recorded in it is the one that somebody records, or the one
of the task after its result has been kept. -/
structure Moves (turn : Turn) (g : Progress) (h : Handle) (g' : Progress) (h' : Handle) : Prop
    extends Later g h g' h' where
  ends : h'.exit = h.exit ∨ turn = .finish h'.exit ∨
    ∃ now isLate o n, turn = .task now isLate ∧ g = .kept o n ∧ h'.exit = o.exit

variable {s : Scene} {g g' g'' : Progress} {h h' h'' : Handle} {turn : Turn}

theorem Later.refl (g : Progress) (h : Handle) : Later g h g h :=
  ⟨rfl, fun _ _ hkept => hkept, fun _ => rfl⟩

theorem Later.trans (hl : Later g h g' h') (hl' : Later g' h' g'' h'') : Later g h g'' h'' := by
  refine ⟨hl'.title.trans hl.title, fun o n hkept => hl'.hasKept o n (hl.hasKept o n hkept),
    fun hexit => ?_⟩
  have heq : h'.exit = h.exit := hl.exit hexit
  rw [hl'.exit (by rwa [heq]), heq]

theorem Moves.refl (turn : Turn) (g : Progress) (h : Handle) : Moves turn g h g h :=
  ⟨.refl g h, .inl rfl⟩

theorem later_finish (exit : Task.Exit) (hkept : ∀ o n, g.HasKept o n → g'.HasKept o n) :
    Later g h g' (h.finish exit) ∧
      ((h.finish exit).exit = h.exit ∨ (h.finish exit).exit = exit) := by
  rw [Handle.finish]
  split
  · rename_i hrunning
    exact ⟨⟨rfl, hkept, fun hexit => absurd hrunning hexit⟩, .inr rfl⟩
  · exact ⟨⟨rfl, hkept, fun _ => rfl⟩, .inl rfl⟩

/-- A change of the world alone, or of the task. -/
theorem Sound.change {world : World} {task : Stage} (hs : s.Sound id g h)
    (hl : Later g h g' h') (hhandle : world.admission.handle? id = some h')
    (htask : g'.Leads id task)
    (haccounts : h'.Accounts g'.mine g'.early (s.results.map Prod.snd)) :
    Sound id g' h' { s with world := world, task := task } := by
  refine ⟨hhandle, htask, haccounts, fun i c hc => (hs.calls i c hc).mono fun hexit => ?_,
    hs.logged, hs.once⟩
  rwa [hl.exit hexit]

/-! ## Calls -/

variable {i : Nat} {c : Call} {now : Nat} {isLate : Bool}

theorem goesOn_eq (hc : s.calls[i]? = some c) (hne : ∀ r, c ≠ .done r) :
    s.step id (.goesOn i now isLate) = s.goOn i (Call.beat now isLate c s.world) := by
  rw [step, hc]
  cases c with
  | done r => exact absurd rfl (hne r)
  | get | set | clock | fork | wait => rfl

theorem goesOn_done_eq {r : Option (Except Failure Value)}
    (hc : s.calls[i]? = some (.done r)) : s.step id (.goesOn i now isLate) = s := by
  rw [step, hc]

theorem calling_ne_done (limit : Option Nat) (r : Option (Except Failure Value)) :
    calling id limit ≠ .done r := by
  cases limit <;> exact nofun

theorem returned?_calling (limit : Option Nat) : (calling id limit).returned? = none := by
  cases limit <;> rfl

theorem takes_ne_done (r : Option (Except Failure Value)) :
    (some <$> takeResult id : Call) ≠ .done r := nofun

theorem getElem?_goOn (hc : s.calls[i]? = some c) (r : World × Call) :
    (s.goOn i r).calls[i]? = some r.2 :=
  List.getElem?_set_self (List.getElem?_eq_some_iff.mp hc).1

/-- A call that is not over goes on. If it comes back with a result now, this is the last one that
has been taken. -/
theorem Sound.goOn (hs : s.Sound id g h) (hc : s.calls[i]? = some c) (hne : ∀ r, c ≠ .done r)
    {r : World × Call} (hhandle : r.1.admission.handle? id = some h') (hexit : h'.exit = h.exit)
    (htask : g'.Leads id s.task) (hstands : Stands id h'.exit r.2)
    (haccounts : h'.Accounts g'.mine g'.early (s.results.map Prod.snd ++ r.2.returned?.toList)) :
    (s.goOn i r).Sound id g' h' := by
  have hlength : i < s.calls.length := (List.getElem?_eq_some_iff.mp hc).1
  -- A call that is not over has not come back with anything yet.
  have hnot : ∀ x, (i, x) ∉ s.results := by
    intro x hx
    have hdone := (hs.logged i x).mp hx
    rw [hc] at hdone
    exact hne _ (Option.some.inj hdone)
  refine ⟨hhandle, htask, ?_, fun j d hd => ?_, fun j x => ?_, ?_⟩
  · simpa [Scene.goOn, Function.comp_def] using haccounts
  · rw [hexit] at hstands ⊢
    obtain rfl | hj := eq_or_ne i j
    · rw [Scene.goOn, List.getElem?_set_self hlength] at hd
      cases hd
      exact hstands
    · rw [Scene.goOn, List.getElem?_set_ne hj] at hd
      exact hs.calls j d hd
  · show (j, x) ∈ s.results ++ r.2.returned?.toList.map (i, ·) ↔
      (s.calls.set i r.2)[j]? = some (.done (some x))
    rw [List.mem_append, List.mem_map]
    obtain rfl | hj := eq_or_ne i j
    · rw [List.getElem?_set_self hlength, Option.some_inj, ← Call.returned?_eq_some]
      simp [hnot x]
    · rw [List.getElem?_set_ne hj, ← hs.logged]
      simp [hj]
  · show ((s.results ++ r.2.returned?.toList.map (i, ·)).map Prod.fst).Nodup
    cases r.2.returned? with
    | none => simpa using hs.once
    | some x =>
      rw [Option.toList_some, List.map_singleton, List.map_append, List.map_singleton]
      refine List.nodup_append.mpr ⟨hs.once, List.nodup_singleton i, fun j hj k hk => ?_⟩
      obtain ⟨y, hy, rfl⟩ := List.mem_map.mp hj
      rw [List.mem_singleton.mp hk]
      rintro rfl
      exact hnot y.2 hy

/-- What becomes of a call that goes on: nothing, where there is none or it is over; it waits on, is
about to look or has come too early; or it has taken what there is for it. -/
theorem Sound.goesOn_cases (hs : s.Sound id g h) (i now : Nat) (isLate : Bool) :
    s.step id (.goesOn i now isLate) = s ∨
    (∃ limit c', s.calls[i]? = some (calling id limit) ∧ c'.returned? = none ∧
      Stands id h.exit c' ∧ s.step id (.goesOn i now isLate) = s.goOn i (s.world, c')) ∨
    (s.calls[i]? = some (some <$> takeResult id) ∧ h.exit ≠ .running ∧
      s.step id (.goesOn i now isLate) =
        s.goOn i ({ s.world with admission := (s.world.admission.takeResult id).2 },
          .done (some h.answer))) := by
  cases hc : s.calls[i]? with
  | none =>
    left
    rw [step, hc]
  | some c =>
    -- A call that has come back is left alone, so only two of its states go on.
    cases hs.calls i c hc with
    | waits limit =>
      right; left
      rw [goesOn_eq hc (calling_ne_done limit), beat_calling]
      split
      · rename_i hexited
        exact ⟨limit, _, rfl, rfl,
          .takes ((Admission.hasExited_of_handle? hs.handle).mp hexited), rfl⟩
      · split
        · exact ⟨limit, _, rfl, rfl, .tooEarly, rfl⟩
        · exact ⟨limit, _, rfl, returned?_calling limit, .waits limit, rfl⟩
    | takes hexit =>
      right; right
      rw [goesOn_eq hc takes_ne_done, beat_takeResult, Admission.takeResult_fst hs.handle]
      exact ⟨rfl, hexit, rfl⟩
    | returned _ r =>
      left
      exact goesOn_done_eq hc
    | tooEarly =>
      left
      exact goesOn_done_eq hc

theorem Sound.step_goesOn (hs : s.Sound id g h) (i now : Nat) (isLate : Bool) :
    ∃ g' h', (s.step id (.goesOn i now isLate)).Sound id g' h' ∧
      Moves (.goesOn i now isLate) g h g' h' := by
  obtain heq | ⟨limit, c', hc, hnone, hstands, heq⟩ | ⟨hc, hexit, heq⟩ :=
    hs.goesOn_cases i now isLate <;> rw [heq]
  · exact ⟨g, h, hs, .refl ..⟩
  · refine ⟨g, h, hs.goOn hc (calling_ne_done limit) hs.handle rfl hs.task hstands ?_, .refl ..⟩
    rw [hnone, Option.toList_none, List.append_nil]
    exact hs.accounts
  · -- The call takes what is there, and it comes early if no result has been kept.
    obtain ⟨n, hn, haccounts⟩ := hs.accounts.join hexit
    obtain ⟨g', hleads, hmine, rfl, hkept⟩ := hs.task.join hn
    rw [← hmine] at haccounts
    have hstands : Stands id h.joined.exit (.done (some h.answer)) :=
      .returned (by rwa [h.exit_joined]) h.answer
    exact ⟨g', h.joined, hs.goOn hc takes_ne_done (Admission.handle?_takeResult hs.handle)
      h.exit_joined hleads hstands haccounts,
      ⟨h.title_joined, hkept, fun _ => h.exit_joined⟩, .inl h.exit_joined⟩

/-! ## Turns -/

/-- A turn of the thread of the task. -/
theorem Sound.step_task (hs : s.Sound id g h) (now : Nat) (isLate : Bool) :
    ∃ g' h', (s.step id (.task now isLate)).Sound id g' h' ∧
      Moves (.task now isLate) g h g' h' := by
  obtain ⟨world, task, calls, results⟩ := s
  cases hs.task with
  | works n => exact ⟨_, h, hs, .refl ..⟩
  | keeps n o =>
    have hlater : Later (.before n) h (.kept o n) { h with slot := some o.kept } :=
      ⟨rfl, fun _ _ hkept => absurd hkept Progress.not_hasKept_before, fun _ => rfl⟩
    refine ⟨_, _, hs.change hlater ?_ (.finishes n o) (hs.accounts.keep o.kept), hlater, .inl rfl⟩
    rw [stride_endTask, Admission.handle?_keep, hs.handle, Option.map_some]
  | finishes n o =>
    -- The end is that of the outcome, unless somebody else has recorded one before.
    have hkept : ∀ o' m, (Progress.kept o n).HasKept o' m → (Progress.over o n).HasKept o' m := by
      rintro o' m (hkept | hkept) <;> cases hkept
      exact .inr rfl
    obtain ⟨hlater, hexit⟩ := later_finish (h := h) o.exit hkept
    refine ⟨_, _, hs.change hlater ?_ (.tidies n o ?_) (hs.accounts.finish o.exit), hlater,
      hexit.imp_right fun hend => .inr ⟨now, isLate, o, n, rfl, rfl, hend⟩⟩
    · rw [stride_finishing, Admission.handle?_finish, hs.handle, Option.map_some]
    · rw [stride_finishing]
      exact tidies_leaving id
  | tidies n o ht =>
    -- Whatever it finds, the thread changes nothing that handles see.
    obtain ⟨_, hhandle, hleft⟩ := Thread.Follows.stride
      (I := fun _ w (_ : Unit) => w.admission.handle? id = some h) (fun _ _ => ())
      (fun hI hstep => hstep.trans hI) (fun _ hF => hF.elim) ht hs.handle now isLate (d := ())
    exact ⟨_, _, hs.change (.refl _ _) hhandle (.tidies n o hleft) hs.accounts, .refl ..⟩

theorem Sound.step (hs : s.Sound id g h) (turn : Turn) :
    ∃ g' h', (s.step id turn).Sound id g' h' ∧ Moves turn g h g' h' := by
  cases turn with
  | concludes o =>
    obtain ⟨world, task, calls, results⟩ := s
    cases hs.task with
    | works n =>
      exact ⟨_, h, hs.change (.refl _ _) hs.handle (.keeps n o) hs.accounts, .refl ..⟩
    | keeps | finishes | tidies => exact ⟨_, h, hs, .refl ..⟩
  | task now isLate => exact hs.step_task now isLate
  | call limit =>
    -- A new call stands behind the others and has returned nothing yet.
    have hcalls (i : Nat) (c : Call) : (s.calls ++ [calling id limit])[i]? = some c ↔
        s.calls[i]? = some c ∨ i = s.calls.length ∧ c = calling id limit := by
      grind
    refine ⟨g, h, ⟨hs.handle, hs.task, hs.accounts, fun i c hc => ?_, fun i r => ?_, hs.once⟩,
      .refl ..⟩
    · obtain hc | ⟨-, rfl⟩ := (hcalls i c).mp hc
      · exact hs.calls i c hc
      · exact .waits limit
    · refine (hs.logged i r).trans ((hcalls i _).trans (or_iff_left fun hnew => ?_)).symm
      exact calling_ne_done limit _ hnew.2.symm
  | goesOn i now isLate => exact hs.step_goesOn i now isLate
  | finish exit =>
    obtain ⟨hlater, hexit⟩ := later_finish (h := h) exit fun _ _ (hkept : g.HasKept _ _) => hkept
    refine ⟨_, _, hs.change hlater ?_ hs.task (hs.accounts.finish exit), hlater,
      hexit.imp_right fun hend => .inl (by rw [hend])⟩
    rw [Admission.handle?_finish, hs.handle, Option.map_some]
  | others w =>
    rw [Scene.step]
    split
    · rename_i heq
      exact ⟨g, h, hs.change (.refl _ _) (heq.trans hs.handle) hs.task hs.accounts, .refl ..⟩
    · exact ⟨g, h, hs, .refl ..⟩

/-! ## Runs -/

section

variable {t : Ticket} {fromQueue : Bool} {past turns : List Turn}

theorem exit?_of_sound (hs : s.Sound id g h) : s.exit? id = some h.exit :=
  Admission.exit_of_handle? hs.handle

theorem sound_start (w : World) (t : Ticket) (fromQueue : Bool) :
    (start w t fromQueue).Sound w.admission.nextId (.before 0) ⟨t.title, .running, none⟩ :=
  ⟨w.admission.handle?_enroll t fromQueue, .works 0, ⟨fun _ => rfl, nofun, fun _ => .empty 0⟩,
    nofun, fun _ _ => iff_of_false nofun nofun, .nil⟩

/-- A sound scene is sound after more turns. -/
theorem sound_more (hpast : past <+: turns)
    (hs : (run w t fromQueue past).Sound w.admission.nextId g h) :
    ∃ g' h', (run w t fromQueue turns).Sound w.admission.nextId g' h' ∧ Later g h g' h' := by
  refine runFrom_relates (R := fun s s' : Scene => ∀ g h, s.Sound w.admission.nextId g h →
    ∃ g' h', s'.Sound w.admission.nextId g' h' ∧ Later g h g' h') ?_ ?_ ?_ hpast g h hs
  · exact fun s g h hs => ⟨g, h, hs, .refl g h⟩
  · intro s s' s'' hfirst hsecond g h hs
    obtain ⟨g', h', hs', hlater⟩ := hfirst g h hs
    obtain ⟨g'', h'', hs'', hlater'⟩ := hsecond g' h' hs'
    exact ⟨g'', h'', hs'', hlater.trans hlater'⟩
  · intro past turn g h hs
    obtain ⟨g', h', hs', hmoves⟩ := hs.step turn
    exact ⟨g', h', hs', hmoves.toLater⟩

/-- After any turns the scene is sound, and its handles bear the title of the ticket. -/
theorem sound_run (w : World) (t : Ticket) (fromQueue : Bool) (turns : List Turn) :
    ∃ g h, (run w t fromQueue turns).Sound w.admission.nextId g h ∧ h.title = t.title := by
  have hstart : (run w t fromQueue []).Sound w.admission.nextId _ _ := sound_start w t fromQueue
  obtain ⟨g, h, hs, hlater⟩ := sound_more List.nil_prefix hstart
  exact ⟨g, h, hs, hlater.title⟩

end

end Scene

/-! ## Main statement -/

/-- The task has ended by itself: its thread has recorded its end, and nobody had before. -/
def EndsItself (id : Nat) (run : List Turn → Scene) (turns : List Turn) : Prop :=
  ∃ past now isLate, Follows past (.task now isLate) turns ∧ (run past).exit? id = some .running ∧
    (run (past ++ [.task now isLate])).exit? id ≠ some .running

/-- What a task delivers to those who join it. The results are those of the calls that have come
back, each once, in the order in which they have looked. The first end stays, and before it there
are no results. If the task has ended by itself, the first call has got the result of its work and
all others have learnt that there is none; it has if nobody else records that it has completed or
panicked. Whoever does, no call gets anything else. A call that comes too early takes nothing, and
none has to wait any more after the end. -/
structure Delivers (id : Nat) (title : String) (run : List Turn → Scene) (turns : List Turn) :
    Prop where
  starts : (run []).exit? id = some .running
  final : ∀ past, past <+: turns → (run past).exit? id ≠ some .running →
    (run turns).exit? id = (run past).exit? id
  logged : ∀ (i : Nat) r,
    (i, r) ∈ (run turns).results ↔ (run turns).calls[i]? = some (.done (some r))
  once : ((run turns).results.map Prod.fst).Nodup
  waits : (run turns).exit? id = some .running → (run turns).results = []
  delivered : EndsItself id run turns → ∃ o, (run turns).task.outcome? = some o ∧
    (run turns).exit? id = some o.exit ∧
    ((run turns).results = [] ∨ ∃ late,
      (run turns).results.map Prod.snd = o.kept :: .replicate late (noResult title))
  endsItself : (run turns).exit? id = some .completed ∨ (run turns).exit? id = some .panicked →
    (∀ exit, .finish exit ∈ turns → exit = .terminated ∨ exit = .running) →
    EndsItself id run turns
  handedOut : (run turns).exit? id ≠ some .terminated → ∃ early,
    (run turns).results.map Prod.snd = .replicate early (noResult title) ∨
    ∃ o late, (run turns).task.outcome? = some o ∧ (run turns).results.map Prod.snd =
      .replicate early (noResult title) ++ o.kept :: .replicate late (noResult title)
  terminated : (run turns).exit? id = some .terminated →
    ∀ i r, (i, r) ∈ (run turns).results → r = givenUp title
  takes : ∀ i now isLate, let s := (run turns).step id (.goesOn i now isLate)
    s.world = (run turns).world ∧ s.results = (run turns).results ∨
    ∃ r, s.calls[i]? = some (.done (some r)) ∧ s.results = (run turns).results ++ [(i, r)]
  returns : (run turns).exit? id ≠ some .running →
    ∀ (i : Nat) c, (run turns).calls[i]? = some c → ∀ now isLate now' isLate',
      let s := ((run turns).step id (.goesOn i now isLate)).step id (.goesOn i now' isLate')
      ∃ r, s.calls[i]? = some (.done r) ∧ (r = none → c = .done none)

namespace Scene

variable {s : Scene} {g : Progress} {h : Handle} {i : Nat} {c : Call}

/-- A call that goes on changes nothing, or it takes what there is for it and has come back. -/
theorem Sound.takes (hs : s.Sound id g h) (i now : Nat) (isLate : Bool) :
    let s' := s.step id (.goesOn i now isLate)
    s'.world = s.world ∧ s'.results = s.results ∨
    ∃ r, s'.calls[i]? = some (.done (some r)) ∧ s'.results = s.results ++ [(i, r)] := by
  dsimp only
  obtain heq | ⟨limit, c', -, hnone, -, heq⟩ | ⟨hc, -, heq⟩ := hs.goesOn_cases i now isLate <;>
    rw [heq]
  · exact .inl ⟨rfl, rfl⟩
  · refine .inl ⟨rfl, ?_⟩
    show s.results ++ c'.returned?.toList.map (i, ·) = s.results
    rw [hnone, Option.toList_none, List.map_nil, List.append_nil]
  · exact .inr ⟨h.answer, getElem?_goOn hc _, rfl⟩

/-- After the end of the task a call comes back when it has gone on twice. -/
theorem Sound.returns (hs : s.Sound id g h) (hexit : h.exit ≠ .running)
    (hc : s.calls[i]? = some c) (now : Nat) (isLate : Bool) (now' : Nat) (isLate' : Bool) :
    let s' := (s.step id (.goesOn i now isLate)).step id (.goesOn i now' isLate')
    ∃ r, s'.calls[i]? = some (.done r) ∧ (r = none → c = .done none) := by
  dsimp only
  cases hs.calls i c hc with
  | waits limit =>
    -- The first time it finds the end, the second time it takes what there is.
    have hexited := (Admission.hasExited_of_handle? hs.handle).mpr hexit
    have htakes := getElem?_goOn hc (s.world, some <$> takeResult id)
    rw [goesOn_eq hc (calling_ne_done limit), beat_calling, if_pos hexited,
      goesOn_eq htakes takes_ne_done, beat_takeResult]
    exact ⟨_, getElem?_goOn htakes _, nofun⟩
  | takes _ =>
    rw [goesOn_eq hc takes_ne_done, beat_takeResult, goesOn_done_eq (getElem?_goOn hc _)]
    exact ⟨_, getElem?_goOn hc _, nofun⟩
  | returned _ r =>
    rw [goesOn_done_eq hc, goesOn_done_eq hc]
    exact ⟨some r, hc, nofun⟩
  | tooEarly =>
    rw [goesOn_done_eq hc, goesOn_done_eq hc]
    exact ⟨none, hc, fun _ => rfl⟩

section

variable {w : World} {t : Ticket} {fromQueue : Bool} {past turns : List Turn}

/-- A task that has ended by itself delivers its result to the first call. -/
theorem delivered_run (hends : EndsItself w.admission.nextId (run w t fromQueue) turns) :
    ∃ o, (run w t fromQueue turns).task.outcome? = some o ∧
      (run w t fromQueue turns).exit? w.admission.nextId = some o.exit ∧
      ((run w t fromQueue turns).results = [] ∨ ∃ late,
        (run w t fromQueue turns).results.map Prod.snd =
          o.kept :: .replicate late (noResult t.title)) := by
  obtain ⟨past, now, isLate, hfollows, hbefore, hafter⟩ := hends
  obtain ⟨g, h, hs, htitle⟩ := sound_run w t fromQueue past
  rw [exit?_of_sound hs, Option.some_inj] at hbefore
  obtain ⟨g', h', hs', hmoves⟩ := hs.step_task now isLate
  have hs'' : (run w t fromQueue (past ++ [.task now isLate])).Sound w.admission.nextId g' h' := by
    rwa [run, runFrom_concat]
  rw [exit?_of_sound hs'', Ne, Option.some_inj] at hafter
  -- The exit changes in the turn, so it is the task's own one, and its result has been kept.
  obtain hsame | hturn | ⟨_, _, o, n, -, rfl, hexit⟩ := hmoves.ends
  · exact absurd (hsame.trans hbefore) hafter
  · cases hturn
  have hzero : n = 0 := hs.accounts.eq_zero hbefore
  obtain ⟨g'', h'', hend, hlater⟩ := sound_more hfollows hs''
  have hkept : g''.HasKept o 0 := hlater.hasKept o 0 (hmoves.hasKept o 0 (hzero ▸ .inl rfl))
  have hfinal : h''.exit = o.exit := (hlater.exit hafter).trans hexit
  have htitle'' : h''.title = t.title := (hlater.title.trans hmoves.title).trans htitle
  refine ⟨o, hkept.outcome?_eq hend.task, (exit?_of_sound hend).trans (congrArg some hfinal), ?_⟩
  have hhanded := hend.accounts.handed (by rw [hfinal]; cases o <;> exact nofun)
  rw [htitle''] at hhanded
  obtain rfl | rfl := hkept
  · exact hhanded.of_zero.imp_left List.map_eq_nil_iff.mp
  · exact hhanded.of_zero.imp_left List.map_eq_nil_iff.mp

/-- If others only give the task up, an end that is none of these is its own one. -/
theorem endsItself_run
    (hexit : (run w t fromQueue turns).exit? w.admission.nextId = some .completed ∨
      (run w t fromQueue turns).exit? w.admission.nextId = some .panicked)
    (hothers : ∀ exit, .finish exit ∈ turns → exit = .terminated ∨ exit = .running) :
    EndsItself w.admission.nextId (run w t fromQueue) turns := by
  have hstart := exit?_of_sound (sound_start w t fromQueue)
  have hended : (run w t fromQueue turns).exit? w.admission.nextId ≠ some .running := by
    obtain hexit | hexit := hexit <;> rw [hexit] <;> nofun
  obtain ⟨past, turn, hfollows, hbefore, hafter⟩ : ∃ past turn, Follows past turn turns ∧
      (run w t fromQueue past).exit? w.admission.nextId = some .running ∧
      (run w t fromQueue (past ++ [turn])).exit? w.admission.nextId ≠ some .running :=
    exists_step_of_not (P := fun s : Scene => s.exit? w.admission.nextId = some .running)
      hstart hended
  obtain ⟨g, h, hs, -⟩ := sound_run w t fromQueue past
  obtain ⟨g', h', hs', hmoves⟩ := hs.step turn
  have hs'' : (run w t fromQueue (past ++ [turn])).Sound w.admission.nextId g' h' := by
    rwa [run, runFrom_concat]
  obtain ⟨_, h'', hend, hlater⟩ := sound_more hfollows hs''
  -- The end came with this turn: the exit was open before it and stays what it is after it.
  have hrunning : h.exit = .running := Option.some.inj ((exit?_of_sound hs).symm.trans hbefore)
  have hchanged : h'.exit ≠ .running := fun heq =>
    hafter ((exit?_of_sound hs'').trans (congrArg some heq))
  obtain hsame | rfl | ⟨now, isLate, _, _, rfl, -⟩ := hmoves.ends
  · exact absurd (hsame.trans hrunning) hchanged
  · -- Somebody has given the task up, and this end would have stayed.
    have hexit' : h'.exit = .completed ∨ h'.exit = .panicked := by
      rwa [exit?_of_sound hend, hlater.exit hchanged, Option.some_inj, Option.some_inj] at hexit
    have hgivenUp := hothers h'.exit hfollows.mem
    obtain h₁ | h₁ := hexit' <;> obtain h₂ | h₂ := hgivenUp <;> rw [h₁] at h₂ <;> cases h₂
  · exact ⟨past, now, isLate, hfollows, hbefore, hafter⟩

end

/-- Whatever turns follow the admission of a task, it delivers what it should. -/
theorem run_delivers (w : World) (t : Ticket) (fromQueue : Bool) (turns : List Turn) :
    Delivers w.admission.nextId t.title (run w t fromQueue) turns := by
  obtain ⟨g, h, hs, htitle⟩ := sound_run w t fromQueue turns
  have hexit_iff (exit : Task.Exit) :
      (run w t fromQueue turns).exit? w.admission.nextId = some exit ↔ h.exit = exit := by
    rw [exit?_of_sound hs, Option.some_inj]
  constructor
  case starts => exact exit?_of_sound (sound_start w t fromQueue)
  case final =>
    intro past hpast hended
    obtain ⟨g₀, h₀, hs₀, -⟩ := sound_run w t fromQueue past
    obtain ⟨g', h', hs', hlater⟩ := sound_more hpast hs₀
    rw [exit?_of_sound hs₀] at hended ⊢
    rw [exit?_of_sound hs', hlater.exit fun heq => hended (congrArg some heq)]
  case logged => exact hs.logged
  case once => exact hs.once
  case waits =>
    intro hrunning
    exact List.map_eq_nil_iff.mp (hs.accounts.running ((hexit_iff _).mp hrunning))
  case delivered => exact delivered_run
  case endsItself => exact endsItself_run
  case handedOut =>
    intro hended
    have hhanded := hs.accounts.handed (mt (hexit_iff _).mpr hended)
    rw [htitle] at hhanded
    obtain heq | ⟨r, late, hmine, heq⟩ := hhanded.results_eq
    · exact ⟨g.early, .inl heq⟩
    · obtain ⟨o, ho, rfl⟩ := hs.task.outcome?_eq hmine
      exact ⟨g.early, .inr ⟨o, late, ho, heq⟩⟩
  case terminated =>
    intro hterminated i r hr
    rw [← htitle]
    exact hs.accounts.terminated ((hexit_iff _).mp hterminated) r (List.mem_map_of_mem hr)
  case takes => exact hs.takes
  case returns =>
    intro hended i c hc now isLate now' isLate'
    exact hs.returns (mt (hexit_iff _).mpr hended) hc now isLate now' isLate'

/-- A join that gives up in time takes nothing. The first of the others to look gets the result,
although it has called later. -/
example :
    let s := run (.new (Host.empty [])) ⟨"sum", false, none⟩ false
      [.call none, .call (some 5), .goesOn 1 0 true, .concludes (.result (.ok (.int 42))),
        .call none, .task 0 false, .goesOn 0 0 false, .task 0 false, .goesOn 0 0 false,
        .finish .terminated, .goesOn 2 0 false, .goesOn 2 0 false, .goesOn 0 0 false]
    s.results = [(2, .ok (.int 42)), (0, noResult "sum")] ∧ s.calls[1]? = some (.done none) ∧
      s.exit? 1 = some .completed := by
  exact ⟨rfl, rfl, rfl⟩

end Scene
end Joining
end Session
end ScriptSession
