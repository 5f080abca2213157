import ScriptSession.Proofs.Session.Incidental

/-!
# Sessions in progress

A world together with the threads that call the session and the tasks they submit, as a system of
steps. A thread takes the current context before it submits an evaluation or tests, and before it
sets or removes a variable; the work goes on in that context, whatever is current by then. A rebuild
takes nothing: it waits until no other one is under way, gives its context the next number, makes it
the current one and publishes it.

The steps of the admission are those of the traffic there. Whatever else a script or a task does is
an incidental change.
-/

namespace ScriptSession
namespace Session

open Concurrency (runFrom)
open Context (LoadingScope)
open Report (Snapshot TestCase)
open Script (Value)
open ScriptSession.Task (Call Listener Traffic)

/-! ## Agents and their stages -/

/-- Who takes steps: a thread that calls the session, or a task. -/
inductive Agent where
  | caller (thread : Nat)
  | task (id : Nat)
deriving DecidableEq

/-- Whether an agent is a thread that calls the session. -/
def Agent.isCaller : Agent → Bool
  | .caller _ => true
  | .task _ => false

/-- How far an agent has come. -/
inductive Stage where
  /-- Has nothing to publish. -/
  | resting
  /-- A caller whose submission has not been admitted yet. -/
  | submitting (s : Submission)
  /-- Works in a context and will publish what it shows. -/
  | working (i : Nat)
  /-- Has seen what it will publish. -/
  | showing (shot : Snapshot)
  /-- A rebuild that waits for the end of another one. -/
  | awaiting
  | building
  /-- A rebuild whose context has a generation and is not made yet. -/
  | numbered (generation : Nat)
  | built (i : Nat)
  /-- A rebuild whose context is the current one, and which will publish it. -/
  | starting (i : Nat)
  | presenting (shot : Snapshot)
  /-- A rebuild that is over and lets the next one begin. -/
  | closing

namespace Stage

/-- The agent has nothing under way. -/
def isResting : Stage → Bool
  | .resting => true
  | _ => false

/-- The agent keeps other rebuilds waiting. -/
def rebuilds : Stage → Bool
  | .building | .numbered _ | .built _ | .starting _ | .presenting _ | .closing => true
  | _ => false

/-- The agent has made a context the current one and has yet to publish it. -/
def isPending : Stage → Bool
  | .starting _ | .presenting _ => true
  | _ => false

end Stage

/-- Where a task begins. -/
def Work.stage : Work → Stage
  | .evaluate i _ _ | .batch i _ _ => .working i
  | .rebuild => .awaiting
  | .planned _ => .resting

/-! ## Steps -/

/-- Changes that are incidental in every world. -/
structure Aside where
  run : World → World
  incidental : ∀ w, Incidental w (run w)

/-- A step of an agent. -/
inductive Move where
  /-- A thread is to change a variable. -/
  | edit (thread : Nat)
  /-- A thread is to submit a script. -/
  | evaluateAsync (thread : Nat) (script title : String) (listener : Option Listener)
      (extra : List (String × Value))
  /-- A thread is to submit tests. -/
  | runBatch (thread : Nat) (cases : List TestCase) (hasSummary : Bool)
  /-- A thread is to submit a rebuild. -/
  | rebuild (thread : Nat)
  /-- A submission takes a turn at the admission, or looks whether it can. -/
  | turn (thread : Nat) (hasThread : Bool)
  /-- Any other step at the admission. -/
  | admission (e : Task.Event)
  /-- Anything a script or a task does besides. -/
  | work (c : Aside)
  /-- An agent goes on. -/
  | advance (a : Agent)
  /-- A rebuild makes its context. -/
  | build (a : Agent) (loading : LoadingScope) (bindings : Context.Bindings)
  /-- A change of a variable or a rebuild fails. -/
  | giveUp (a : Agent)

/-- A world, what its threads are in the middle of at the admission, and how far its agents have
come. -/
structure Activity where
  world : World
  calls : Nat → Call
  stages : Agent → Stage

namespace Activity

/-- Nobody does anything yet. -/
def new (w : World) : Activity := ⟨w, fun _ => .none, fun _ => .resting⟩

/-- What there is of a session at the admission. -/
def traffic (s : Activity) : Traffic := ⟨s.world.admission, s.calls⟩

/-- An agent changes the world and goes on to a stage. -/
def go (s : Activity) (a : Agent) (next : Stage) (f : World → World) : Activity :=
  { s with world := f s.world, stages := Function.update s.stages a next }

/-- A thread that is in the middle of nothing begins a call. -/
def begin (s : Activity) (t : Nat) (next : Stage) : Activity :=
  if (s.stages (.caller t)).isResting && decide (s.calls t = .none) then s.go (.caller t) next id
  else s

/-- Go on with the current context, if there is one. -/
def onCurrent (s : Activity) (f : Nat → Activity) : Activity :=
  match s.world.session.context with
  | some i => f i
  | none => s

/-- A step at the admission. -/
def atAdmission (s : Activity) (e : Task.Event) : Activity :=
  let next := s.traffic.step e
  { s with world := { s.world with admission := next.admission }, calls := next.calls }

/-- Whether a step at the admission that is not a submission's is possible: a thread interrupts in
the middle of no other call, and a task ends by itself when it has nothing under way. -/
def mayTake (s : Activity) : Task.Event → Bool
  | .submit .. | .wake .. => false
  | .interrupt t => (s.stages (.caller t)).isResting
  | .finish id exit => decide (exit = .terminated) || (s.stages (.task id)).isResting
  | .release id => (s.stages (.task id)).isResting
  | .endInterrupt _ | .cancel _ | .note .. => true

/-- The step of a submission at the admission. -/
def submitEvent (s : Activity) (t : Nat) (sub : Submission) (hasThread : Bool) : Task.Event :=
  if s.calls t = .none then .submit t sub.ticket hasThread else .wake t hasThread

/-- A submission takes a turn: its task begins, or it is refused, or it sleeps. -/
def takeTurn (s : Activity) (t : Nat) (hasThread : Bool) : Activity :=
  match s.stages (.caller t) with
  | .submitting sub =>
    let next := s.atAdmission (s.submitEvent t sub hasThread)
    -- A task that is admitted is tracked, under the number that was next before.
    if next.world.admission.current = some s.world.admission.nextId then
      (next.go (.task s.world.admission.nextId) sub.work.stage id).go (.caller t) .resting id
    else if next.calls t = .none then next.go (.caller t) .resting id
    else next
  | _ => s

/-- The next step of an agent. -/
def advance (s : Activity) (a : Agent) : Activity :=
  match s.stages a with
  | .working i => s.go a (.showing (s.world.context i).snapshot) id
  | .showing shot => s.go a .resting (·.publish shot)
  | .awaiting =>
    if s.world.session.isRebuilding then s
    else s.go a .building (·.alterSession fun c => { c with isRebuilding := true })
  | .building =>
    let generation := s.world.session.generation + 1
    s.go a (.numbered generation) (·.alterSession fun c => { c with generation := generation })
  | .built i => s.go a (.starting i) (·.alterSession fun c => { c with context := some i })
  | .starting i => s.go a (.presenting (s.world.context i).snapshot) id
  | .presenting shot => s.go a .closing (·.publish shot)
  | .closing => s.go a .resting (·.alterSession fun c => { c with isRebuilding := false })
  | .resting | .submitting _ | .numbered _ => s

/-- A step. A move that is not possible changes nothing. -/
def step (s : Activity) : Move → Activity
  | .edit t => s.onCurrent fun i => s.begin t (.working i)
  | .evaluateAsync t script title listener extra => s.onCurrent fun i =>
    s.begin t (.submitting ⟨title, false, listener, .evaluate i script extra⟩)
  | .runBatch t cases hasSummary => s.onCurrent fun i =>
    s.begin t (.submitting ⟨batchTitle cases, false, none, .batch i cases hasSummary⟩)
  | .rebuild t => s.begin t (.submitting rebuildSubmission)
  | .turn t hasThread => s.takeTurn t hasThread
  | .admission e => if s.mayTake e then s.atAdmission e else s
  | .work c => { s with world := c.run s.world }
  | .advance a => s.advance a
  | .build a loading bindings =>
    match s.stages a with
    | .numbered generation => s.go a (.built s.world.contexts.length) fun w =>
      (w.addContext (.new generation loading bindings)).2
    | _ => s
  | .giveUp a =>
    match s.stages a with
    | .working _ => if a.isCaller then s.go a .resting id else s
    | .building => s.go a .closing id
    | _ => s

/-- A world after moves, when nobody did anything before. -/
def run (w : World) (moves : List Move) : Activity := runFrom step (new w) moves

@[simp] theorem run_concat (w : World) (past : List Move) (m : Move) :
    run w (past ++ [m]) = (run w past).step m := by
  rw [run, Concurrency.runFrom_concat, run]

/-- No agent has anything under way. -/
def AtRest (s : Activity) : Prop := ∀ a, s.stages a = .resting

end Activity

/-- Nothing has been submitted, built or published in a world. -/
structure World.Untouched (w : World) : Prop where
  admission : w.admission = .new
  contexts : w.contexts = []
  context : w.session.context = none
  generation : w.session.generation = 0

theorem untouched_open (host : Host) (settings : Config.SessionSettings) (cache : Artifact.Cache)
    (projectDir : Option Path) (repositories : List Artifact.Repository) :
    ({ World.new host with session := open_ settings cache projectDir repositories } :
      World).Untouched := ⟨rfl, rfl, rfl, rfl⟩

/-! ## What a session keeps in order -/

/-- The current context is the given one or a later one. -/
def World.Reaches (w : World) (i : Nat) : Prop := ∃ k, w.session.context = some k ∧ i ≤ k

/-- The contexts are numbered in the order in which they were made, and the current one is among
them. -/
structure World.Ordered (w : World) : Prop where
  generations : w.contexts.map (·.generation) = List.range' 1 w.contexts.length
  current : ∀ k, w.session.context = some k → k < w.contexts.length

/-- What an agent in a stage knows of the world. -/
def Stage.Fits (w : World) : Stage → Prop
  | .resting | .awaiting | .building | .closing => True
  | .submitting s =>
    match s.work with
    | .evaluate i _ _ | .batch i _ _ => w.Reaches i
    | .rebuild | .planned _ => True
  | .working i => w.Reaches i
  | .showing shot => ∃ k, w.session.context = some k ∧ shot.generation ≤ k + 1
  | .numbered generation =>
    w.session.generation = generation ∧ generation = w.contexts.length + 1
  | .built i => i < w.contexts.length ∧ ∀ k, w.session.context = some k → k < i
  | .starting i => w.session.context = some i
  | .presenting shot => ∃ k, w.session.context = some k ∧ shot.generation = k + 1

/-- A session in progress is in order. -/
structure Activity.Sound (s : Activity) : Prop where
  traffic : ∃ events, s.traffic = Traffic.run events
  fresh : ∀ id, s.world.admission.issued < id → s.stages (.task id) = .resting
  ordered : s.world.Ordered
  generation : (∀ a generation, s.stages a ≠ .numbered generation) →
    s.world.session.generation = s.world.contexts.length
  fits : ∀ a, (s.stages a).Fits s.world
  locked : ∀ a, (s.stages a).rebuilds = true → s.world.session.isRebuilding = true
  alone : ∀ a b, (s.stages a).rebuilds = true → (s.stages b).rebuilds = true → a = b

namespace World

variable {w w' : World}

theorem Ordered.generation_context (h : w.Ordered) {i : Nat} (hi : i < w.contexts.length) :
    (w.context i).generation = i + 1 := by
  have hat : (w.contexts.map (·.generation))[i]? = some (i + 1) := by
    rw [h.generations, List.getElem?_range' hi, Nat.one_mul, Nat.add_comm]
  rw [List.getElem?_map, List.getElem?_eq_getElem hi, Option.map_some] at hat
  rw [context, List.getD_eq_getElem?_getD, List.getElem?_eq_getElem hi, Option.getD_some]
  exact Option.some.inj hat

theorem Ordered.of_sameContexts (h : w.Ordered) (hw : SameContexts w w') : w'.Ordered := by
  constructor
  · rw [hw.generations, h.generations, hw.length]
  · rw [hw.context, hw.length]
    exact h.current

end World

namespace Stage

variable {w w' : World} {g : Stage}

theorem Fits.of_sameContexts (h : g.Fits w) (hw : SameContexts w w') : g.Fits w' := by
  have heq : g.Fits w' = g.Fits w := by
    cases g <;> simp only [Fits, World.Reaches, hw.length, hw.context, hw.generation]
  exact heq ▸ h

/-- Who keeps no rebuild waiting knows at most that the current context is not older than some. -/
theorem Fits.of_reaches (h : g.Fits w) (hg : g.rebuilds = false)
    (hreaches : ∀ k, w.session.context = some k → w'.Reaches k) : g.Fits w' := by
  have htrans : ∀ i, w.Reaches i → w'.Reaches i := by
    rintro i ⟨k, hk, hle⟩
    obtain ⟨k', hk', hle'⟩ := hreaches k hk
    exact ⟨k', hk', Nat.le_trans hle hle'⟩
  -- The stages that rebuild ask for more and are excluded; the others ask only that some context
  -- has been reached, and what was reached before is reached afterwards.
  cases g with
  | resting | awaiting => trivial
  | submitting s =>
    rw [Fits] at h ⊢
    split at h
    · exact htrans _ h
    · exact htrans _ h
    · trivial
    · trivial
  | working i => exact htrans i h
  | showing shot =>
    obtain ⟨k, hk, hle⟩ := h
    obtain ⟨k', hk', hle'⟩ := hreaches k hk
    exact ⟨k', hk', Nat.le_trans hle (Nat.succ_le_succ hle')⟩
  | building | numbered | built | starting | presenting | closing => cases hg

theorem fits_stage {s : Submission} (h : (submitting s).Fits w) : s.work.stage.Fits w := by
  obtain ⟨title, isExclusive, listener, work⟩ := s
  cases work with
  | evaluate | batch => exact h
  | rebuild | planned => trivial

end Stage

namespace Activity

variable {s : Activity}

theorem sound_new {w : World} (hw : w.Untouched) : (new w).Sound := by
  constructor
  · exact ⟨[], by rw [traffic, new, hw.admission]; rfl⟩
  · exact fun _ _ => rfl
  · constructor
    · show w.contexts.map (·.generation) = List.range' 1 w.contexts.length
      rw [hw.contexts]
      rfl
    · show ∀ k, w.session.context = some k → k < w.contexts.length
      rw [hw.context]
      exact nofun
  · intro _
    show w.session.generation = w.contexts.length
    rw [hw.generation, hw.contexts]
    rfl
  · exact fun _ => trivial
  · exact nofun
  · exact nofun

/-! ## What a step comes to -/

/-- How an agent goes on in a move: the stage it goes on to, and what it does to the world. -/
inductive Goes (s : Activity) (a : Agent) : Move → Stage → (World → World) → Prop where
  | looks (i : Nat) (ha : s.stages a = .working i) :
      Goes s a (.advance a) (.showing (s.world.context i).snapshot) id
  | publishes (shot : Snapshot) (ha : s.stages a = .showing shot) :
      Goes s a (.advance a) .resting (·.publish shot)
  | locks (ha : s.stages a = .awaiting) (hfree : s.world.session.isRebuilding = false) :
      Goes s a (.advance a) .building (·.alterSession fun c => { c with isRebuilding := true })
  | numbers (ha : s.stages a = .building) :
      Goes s a (.advance a) (.numbered (s.world.session.generation + 1))
        (·.alterSession fun c => { c with generation := s.world.session.generation + 1 })
  | builds (generation : Nat) (loading : LoadingScope) (bindings : Context.Bindings)
      (ha : s.stages a = .numbered generation) :
      Goes s a (.build a loading bindings) (.built s.world.contexts.length)
        fun w => (w.addContext (.new generation loading bindings)).2
  | starts (i : Nat) (ha : s.stages a = .built i) :
      Goes s a (.advance a) (.starting i) (·.alterSession fun c => { c with context := some i })
  | looksAnew (i : Nat) (ha : s.stages a = .starting i) :
      Goes s a (.advance a) (.presenting (s.world.context i).snapshot) id
  | presents (shot : Snapshot) (ha : s.stages a = .presenting shot) :
      Goes s a (.advance a) .closing (·.publish shot)
  | unlocks (ha : s.stages a = .closing) :
      Goes s a (.advance a) .resting (·.alterSession fun c => { c with isRebuilding := false })
  | givesUp (i : Nat) (ha : s.stages a = .working i) (hcaller : a.isCaller = true) :
      Goes s a (.giveUp a) .resting id
  | fails (ha : s.stages a = .building) : Goes s a (.giveUp a) .closing id

/-- What a step comes to: nothing, the beginning of a call, a turn after which a submission waits,
is refused or has a task, another step at the admission, an incidental change, or an agent that goes
on. -/
inductive Takes (s : Activity) : Move → Activity → Prop where
  | nothing (m : Move) : Takes s m s
  | begins (m : Move) (t : Nat) (next : Stage) (ht : s.stages (.caller t) = .resting)
      (hfits : next.Fits s.world) (hnext : next.rebuilds = false) :
      Takes s m (s.go (.caller t) next id)
  | waits (t : Nat) (hasThread : Bool) (sub : Submission)
      (hsub : s.stages (.caller t) = .submitting sub) :
      Takes s (.turn t hasThread) (s.atAdmission (s.submitEvent t sub hasThread))
  | refused (t : Nat) (hasThread : Bool) (sub : Submission)
      (hsub : s.stages (.caller t) = .submitting sub) :
      Takes s (.turn t hasThread)
        ((s.atAdmission (s.submitEvent t sub hasThread)).go (.caller t) .resting id)
  | admitted (t : Nat) (hasThread : Bool) (sub : Submission)
      (hsub : s.stages (.caller t) = .submitting sub)
      (hcurrent : (s.atAdmission (s.submitEvent t sub hasThread)).world.admission.current =
        some s.world.admission.nextId) :
      Takes s (.turn t hasThread)
        (((s.atAdmission (s.submitEvent t sub hasThread)).go (.task s.world.admission.nextId)
          sub.work.stage id).go (.caller t) .resting id)
  | atAdmission (e : Task.Event) (hmay : s.mayTake e = true) :
      Takes s (.admission e) (s.atAdmission e)
  | works (c : Aside) : Takes s (.work c) { s with world := c.run s.world }
  | goes {m : Move} {a : Agent} {next : Stage} {f : World → World} (h : s.Goes a m next f) :
      Takes s m (s.go a next f)

theorem isResting_iff {g : Stage} : g.isResting = true ↔ g = .resting := by
  cases g <;> simp [Stage.isResting]

theorem takes_begin (s : Activity) (m : Move) (t : Nat) {next : Stage}
    (hfits : next.Fits s.world) (hnext : next.rebuilds = false) : s.Takes m (s.begin t next) := by
  rw [begin]
  split
  · rename_i hidle
    rw [Bool.and_eq_true, isResting_iff] at hidle
    exact .begins m t next hidle.1 hfits hnext
  · exact .nothing m

theorem takes_onCurrent {m : Move} {f : Nat → Activity}
    (hf : ∀ i, s.world.Reaches i → s.Takes m (f i)) : s.Takes m (s.onCurrent f) := by
  rw [onCurrent]
  split
  · rename_i i hi
    exact hf i ⟨i, hi, Nat.le_refl i⟩
  · exact .nothing m

theorem takes_takeTurn (s : Activity) (t : Nat) (hasThread : Bool) :
    s.Takes (.turn t hasThread) (s.takeTurn t hasThread) := by
  rw [takeTurn]
  split
  · rename_i sub hsub
    dsimp only
    split
    · rename_i hcurrent
      exact .admitted t hasThread sub hsub hcurrent
    · split
      · exact .refused t hasThread sub hsub
      · exact .waits t hasThread sub hsub
  · exact .nothing _

theorem takes_advance (s : Activity) (a : Agent) : s.Takes (.advance a) (s.advance a) := by
  rw [advance]
  cases ha : s.stages a with
  | working i => exact .goes (.looks i ha)
  | showing shot => exact .goes (.publishes shot ha)
  | awaiting =>
    dsimp only
    split
    · exact .nothing _
    · rename_i hfree
      exact .goes (.locks ha (by rwa [Bool.not_eq_true] at hfree))
  | building => exact .goes (.numbers ha)
  | built i => exact .goes (.starts i ha)
  | starting i => exact .goes (.looksAnew i ha)
  | presenting shot => exact .goes (.presents shot ha)
  | closing => exact .goes (.unlocks ha)
  | resting | submitting | numbered => exact .nothing _

/-- Whatever is proved of all steps is proved of these cases. -/
theorem step_takes (s : Activity) (m : Move) : s.Takes m (s.step m) := by
  cases m with
  | edit t => exact takes_onCurrent fun i hi => s.takes_begin _ t hi rfl
  | evaluateAsync t => exact takes_onCurrent fun i hi => s.takes_begin _ t hi rfl
  | runBatch t => exact takes_onCurrent fun i hi => s.takes_begin _ t hi rfl
  | rebuild t => exact s.takes_begin _ t trivial rfl
  | turn t hasThread => exact s.takes_takeTurn t hasThread
  | admission e =>
    rw [step]
    split
    · rename_i hmay
      exact .atAdmission e hmay
    · exact .nothing _
  | work c => exact .works c
  | advance a => exact s.takes_advance a
  | build a loading bindings =>
    rw [step]
    split
    · rename_i generation ha
      exact .goes (.builds generation loading bindings ha)
    · exact .nothing _
  | giveUp a =>
    rw [step]
    split
    · rename_i i ha
      split
      · rename_i hcaller
        exact .goes (.givesUp i ha hcaller)
      · exact .nothing _
    · rename_i ha
      exact .goes (.fails ha)
    · exact .nothing _

namespace Goes

variable {m : Move} {a : Agent} {next : Stage} {f : World → World}

theorem ne_resting (h : s.Goes a m next f) : s.stages a ≠ .resting := by
  cases h <;> simp only [*, ne_eq, reduceCtorEq, not_false_eq_true]

theorem step_eq (h : s.Goes a m next f) : s.step m = s.go a next f := by
  cases h <;> simp [step, advance, *]

theorem admission (h : s.Goes a m next f) : (f s.world).admission = s.world.admission := by
  cases h with
  | publishes shot | presents shot => exact (s.world.session_publish shot).2.2
  | looks | locks | numbers | builds | starts | looksAnew | unlocks | givesUp | fails => rfl

end Goes

/-! ## Steps of one agent -/

theorem stages_go_self (a : Agent) (next : Stage) (f : World → World) :
    (s.go a next f).stages a = next := Function.update_self ..

theorem stages_go_of_ne {a b : Agent} (h : b ≠ a) (next : Stage) (f : World → World) :
    (s.go a next f).stages b = s.stages b := Function.update_of_ne h ..

/-- What holds of the stage an agent goes on to and of those of the others holds of all. -/
theorem forall_stages_go {P : Agent → Stage → Prop} {a : Agent} {next : Stage} (f : World → World)
    (hnext : P a next) (hothers : ∀ b, b ≠ a → P b (s.stages b)) (b : Agent) :
    P b ((s.go a next f).stages b) := by
  by_cases hb : b = a
  · rw [hb, stages_go_self]
    exact hnext
  · rw [stages_go_of_ne hb]
    exact hothers b hb

/-- An agent may change the world and go on to a stage and leave the session in order. -/
structure Allows (s : Activity) (a : Agent) (next : Stage) (w : World) : Prop where
  admission : w.admission = s.world.admission
  known : ∀ id, a = .task id → id ≤ s.world.admission.issued
  ordered : w.Ordered
  generation : (∀ generation, next ≠ .numbered generation) →
    (∀ b generation, b ≠ a → s.stages b ≠ .numbered generation) →
      w.session.generation = w.contexts.length
  fits : next.Fits w
  others : ∀ b, b ≠ a → (s.stages b).Fits w
  locked : next.rebuilds = true → w.session.isRebuilding = true
  keepsLock : ∀ b, b ≠ a → (s.stages b).rebuilds = true → w.session.isRebuilding = true
  alone : next.rebuilds = true → ∀ b, b ≠ a → (s.stages b).rebuilds = false

theorem Sound.go (hs : s.Sound) {a : Agent} {next : Stage} {f : World → World}
    (h : s.Allows a next (f s.world)) : (s.go a next f).Sound := by
  constructor
  · obtain ⟨events, hevents⟩ := hs.traffic
    refine ⟨events, ?_⟩
    rw [← hevents, Activity.traffic, Activity.traffic, Activity.go, h.admission]
  · intro id
    show (f s.world).admission.issued < id → _
    rw [h.admission]
    intro hid
    rw [stages_go_of_ne]
    · exact hs.fresh id hid
    · exact fun ha => absurd (h.known id ha.symm) (Nat.not_le.mpr hid)
  · exact h.ordered
  · intro hnone
    refine h.generation (fun generation => ?_) fun b generation hb => ?_
    · rw [← s.stages_go_self a next f]
      exact hnone a generation
    · rw [← s.stages_go_of_ne hb next f]
      exact hnone b generation
  · exact forall_stages_go (P := fun _ g => g.Fits (f s.world)) f h.fits h.others
  · exact forall_stages_go
      (P := fun _ g => g.rebuilds = true → (f s.world).session.isRebuilding = true) f h.locked
      h.keepsLock
  · -- Two that keep others waiting: at most one of them is the agent that has gone on.
    intro b c hb hc
    by_cases hba : b = a <;> by_cases hca : c = a
    · rw [hba, hca]
    · rw [hba, stages_go_self] at hb
      rw [stages_go_of_ne hca, h.alone hb c hca] at hc
      cases hc
    · rw [hca, stages_go_self] at hc
      rw [stages_go_of_ne hba, h.alone hc b hba] at hb
      cases hb
    · rw [stages_go_of_ne hba] at hb
      rw [stages_go_of_ne hca] at hc
      exact hs.alone b c hb hc

theorem Sound.known (hs : s.Sound) {a : Agent} (ha : s.stages a ≠ .resting) (id : Nat)
    (hid : a = .task id) : id ≤ s.world.admission.issued := by
  refine Nat.le_of_not_lt fun hlt => ha ?_
  rw [hid]
  exact hs.fresh id hlt

theorem Sound.not_rebuilds (hs : s.Sound) {a : Agent} (ha : (s.stages a).rebuilds = true)
    (b : Agent) (hb : b ≠ a) : (s.stages b).rebuilds = false := by
  rw [← Bool.not_eq_true]
  exact fun hrebuilds => hb (hs.alone b a hrebuilds ha)

theorem not_numbered_of_not_rebuilds {g : Stage} (h : g.rebuilds = false) (generation : Nat) :
    g ≠ .numbered generation := by
  rintro rfl
  cases h

/-- The generation given out last is that of the last context, unless a rebuild is about to make
one. -/
theorem Sound.generation_eq (hs : s.Sound) {a : Agent}
    (ha : ∀ generation, s.stages a ≠ .numbered generation)
    (hothers : ∀ b generation, b ≠ a → s.stages b ≠ .numbered generation) :
    s.world.session.generation = s.world.contexts.length := by
  refine hs.generation fun b generation => ?_
  by_cases hb : b = a
  · rw [hb]
    exact ha generation
  · exact hothers b generation hb

/-- A change that leaves the contexts alone, by an agent that goes on to a stage which fits. -/
theorem Sound.allows (hs : s.Sound) {a : Agent} {next : Stage} {w : World}
    (hw : SameContexts s.world w) (hadmission : w.admission = s.world.admission)
    (hknown : ∀ id, a = .task id → id ≤ s.world.admission.issued)
    (ha : ∀ generation, s.stages a ≠ .numbered generation) (hfits : next.Fits s.world)
    (hlock : next.rebuilds = true → (s.stages a).rebuilds = true) : s.Allows a next w := by
  refine ⟨hadmission, hknown, hs.ordered.of_sameContexts hw, fun _ hothers => ?_,
    hfits.of_sameContexts hw, fun b _ => (hs.fits b).of_sameContexts hw, fun hnext => ?_,
    fun b _ hb => ?_, fun hnext => hs.not_rebuilds (hlock hnext)⟩
  · rw [hw.generation, hw.length, hs.generation_eq ha hothers]
  · rw [hw.isRebuilding, hs.locked a (hlock hnext)]
  · rw [hw.isRebuilding, hs.locked b hb]

end Activity

end Session
end ScriptSession
