import ScriptSession.Proofs.Concurrency.Runs
import ScriptSession.Proofs.Evaluation.Slots
import ScriptSession.Session.Scripts

/-!
# Overlapping evaluations

Every engine keeps for each thread the sink that its output goes to and the owner whose cancellation
counts. An evaluation puts its owner in force and then its sink, and gives them up in the opposite
order, whether its script ends or panics. Scripts begin evaluations themselves, on the same engine
or on another one, and threads take their steps in any order. Main statement: what the maps say is
what the innermost evaluation of the thread runs with, so that everything happens as if each script
knew its own sink and owner (`Overlap.byMaps_eq`, `Overlap.run_eq`).
-/

namespace ScriptSession
namespace Session

open Concurrency (noted noted_keeps runFrom runFrom_concat)
open Evaluation (Guard Slots)

/-! ## Lines -/

/-- A line that a script prints. -/
structure Line where
  isError : Bool
  text : String

/-- Write a line of a script to a sink. -/
def World.writeLine (w : World) (sink : Sink) (l : Line) : World :=
  if l.isError then w.writeErr sink l.text else w.writeOut sink l.text

namespace Overlap

/-! ## Threads that evaluate -/

/-- What is in force on the threads that use an engine. -/
structure Engine where
  sinks : Slots Sink
  owners : Slots Owner

/-- How far an evaluation has come. -/
inductive Stage where
  /-- Its owner is in force. -/
  | entered
  /-- Its sink is in force as well, and its script runs. -/
  | inside (guard : Guard Sink)
  /-- Its sink is not in force any more. -/
  | outside

/-- An evaluation in progress: what it runs with, the buffer of the test if it is one, what it has
to put back, and how far it has come. -/
structure Frame where
  running : Running
  test : Option Nat
  owner : Guard Owner
  stage : Stage

/-- What the entry of an evaluation in the sinks of an engine is, and what it has to put back. -/
def Frame.sinkIn? (engine : Nat) (f : Frame) : Option (Guard Sink × Sink) :=
  if f.running.context = engine then
    match f.stage with
    | .inside guard => some (guard, f.running.sink)
    | _ => none
  else none

/-- What the entry of an evaluation in the owners of an engine is, and what it has to put back. -/
def Frame.ownerIn? (engine : Nat) (f : Frame) : Option (Guard Owner × Owner) :=
  if f.running.context = engine then some (f.owner, f.running.owner) else none

end Overlap

/-- A world, its engines, the evaluations of each thread, the innermost one first, and the buffers
of tests. -/
structure Overlap where
  world : World
  engines : Nat → Overlap.Engine
  frames : Nat → List Overlap.Frame
  tests : List Nat

namespace Overlap

/-- Something that a thread does. -/
inductive Event where
  /-- A thread begins an evaluation, in its script if it is in one. -/
  | evaluate (thread : Nat) (r : Running)
  /-- A thread begins the evaluation of a test, whose output goes to a buffer of its own. -/
  | test (thread context id : Nat)
  /-- A buffer is made that any evaluation may use. -/
  | buffer
  /-- The innermost evaluation of a thread goes on; when its script runs, that ends. -/
  | advance (thread : Nat)
  /-- A line is printed through an engine. -/
  | print (thread engine : Nat) (l : Line)
  /-- An engine is asked whether to stop. -/
  | check (thread engine : Nat)
  /-- Something else happens, which leaves the buffers alone. -/
  | other (f : World → World)

/-- Something that a script notices or does. -/
inductive Note where
  /-- A line was printed, by the script of a test or by another one. -/
  | line (test : Option Nat) (l : Line)
  | answer (isCancelled : Bool)

/-- The sink and the owner that are in force for an engine on a thread. -/
abbrev Lookup : Type := Overlap → Nat → Nat → Sink × Option Owner

/-- What the maps of the engine say. Output goes to the terminal if they say nothing. -/
def byMaps : Lookup := fun s t i =>
  (((s.engines i).sinks.current t).getD .process, (s.engines i).owners.current t)

/-- What the innermost evaluation of the thread runs with. -/
def byFrames : Lookup := fun s t _ =>
  match s.frames t with
  | [] => (.process, none)
  | f :: _ => (f.running.sink, some f.running.owner)

variable (s : Overlap)

/-- Whether an engine may be used on a thread: no evaluation is in progress, or the script of the
innermost one runs on it. -/
def mayUse (t i : Nat) : Bool :=
  match s.frames t with
  | [] => true
  | f :: _ => (f.sinkIn? i).isSome

/-- Whether an evaluation may begin on a thread. -/
def mayBegin (t : Nat) : Bool :=
  match s.frames t with
  | [] => true
  | f :: _ => (f.sinkIn? f.running.context).isSome

/-- Whether an evaluation may be given a sink: the buffer of a test belongs to the test. -/
def offers : Sink → Bool
  | .buffer n _ => n < s.world.buffers.length && !s.tests.contains n
  | _ => true

/-- The engine and the evaluations of a thread change. -/
def go (t i : Nat) (e : Engine) (fs : List Frame) : Overlap :=
  { s with engines := Function.update s.engines i e, frames := Function.update s.frames t fs }

/-- Put an owner in force for a new evaluation. -/
def begin (t : Nat) (r : Running) (test : Option Nat) : Overlap :=
  let e := s.engines r.context
  let (guard, owners) := e.owners.enter t r.owner
  s.go t r.context { e with owners := owners } (⟨r, test, guard, .entered⟩ :: s.frames t)

/-- Make a buffer that any evaluation may use. -/
def addBuffer : Overlap := { s with world := s.world.addBuffer.2 }

/-- Make a buffer for a test. -/
def addTest : Overlap := { s.addBuffer with tests := s.world.addBuffer.1 :: s.tests }

/-- Begin the evaluation of a test. -/
def beginTest (t context id : Nat) : Overlap :=
  let n := s.world.addBuffer.1
  s.addTest.begin t ⟨context, .buffer n false, .task id⟩ (some n)

/-- The next step of the innermost evaluation of a thread. -/
def advance (t : Nat) : Overlap :=
  match s.frames t with
  | [] => s
  | f :: rest =>
    let i := f.running.context
    let e := s.engines i
    match f.stage with
    | .entered =>
      let (guard, sinks) := e.sinks.enter t f.running.sink
      s.go t i { e with sinks := sinks } ({ f with stage := .inside guard } :: rest)
    | .inside guard =>
      s.go t i { e with sinks := e.sinks.leave guard } ({ f with stage := .outside } :: rest)
    | .outside => s.go t i { e with owners := e.owners.leave f.owner } rest

/-- A step. An event that is not possible changes nothing. -/
def step (look : Lookup) : Event → Overlap
  | .evaluate t r => if s.mayBegin t && s.offers r.sink then s.begin t r none else s
  | .test t context id => if s.mayBegin t then s.beginTest t context id else s
  | .buffer => s.addBuffer
  | .advance t => s.advance t
  | .print t i l =>
    if s.mayUse t i then { s with world := s.world.writeLine (look s t i).1 l } else s
  | .check _ _ => s
  | .other f => { s with world := { f s.world with buffers := s.world.buffers } }

/-- The test whose script runs on a thread. -/
def testOn? (t : Nat) : Option Nat := (s.frames t).head?.bind (·.test)

/-- What is noticed or done in a step. -/
def notes (look : Lookup) : Event → List Note
  | .print t i l => if s.mayUse t i then [.line (s.testOn? t) l] else []
  | .check t i =>
    if s.mayUse t i then [.answer ((look s t i).2.any fun o => (s.world.control o).isCancelled)]
    else []
  | .evaluate _ _ | .test _ _ _ | .buffer | .advance _ | .other _ => []

/-- No evaluation is in progress. -/
def new (w : World) : Overlap := ⟨w, fun _ => ⟨.empty, .empty⟩, fun _ => [], []⟩

/-- What becomes of a world in which no evaluation is in progress. -/
def run (look : Lookup) (w : World) (events : List Event) : Overlap :=
  runFrom (step · look) (new w) events

/-- What is noticed and done meanwhile. -/
def history (look : Lookup) (w : World) (events : List Event) : List Note :=
  noted (step · look) (notes · look) (new w) events

/-! ## What the maps say -/

/-- The entries in the sinks of an engine that evaluations of one thread have made. -/
def sinksOf (i : Nat) (fs : List Frame) : List (Guard Sink × Sink) := fs.filterMap (Frame.sinkIn? i)

/-- The entries in the owners of an engine that evaluations of one thread have made. -/
def ownersOf (i : Nat) (fs : List Frame) : List (Guard Owner × Owner) :=
  fs.filterMap (Frame.ownerIn? i)

theorem filterMap_cons_eq {α β : Type} (view : α → Option β) (a : α) (rest : List α) :
    (a :: rest).filterMap view = (view a).toList ++ rest.filterMap view := by
  cases h : view a with
  | none => rw [List.filterMap_cons_none h, Option.toList_none, List.nil_append]
  | some b => rw [List.filterMap_cons_some h, Option.toList_some, List.singleton_append]

theorem sinksOf_cons (i : Nat) (f : Frame) (fs : List Frame) :
    sinksOf i (f :: fs) = (f.sinkIn? i).toList ++ sinksOf i fs := filterMap_cons_eq ..

theorem ownersOf_cons (i : Nat) (f : Frame) (fs : List Frame) :
    ownersOf i (f :: fs) = (f.ownerIn? i).toList ++ ownersOf i fs := filterMap_cons_eq ..

/-- An evaluation has entries on its own engine only. -/
theorem entriesOf_cons_of_ne {i : Nat} {f : Frame} (h : i ≠ f.running.context) (fs : List Frame) :
    sinksOf i (f :: fs) = sinksOf i fs ∧ ownersOf i (f :: fs) = ownersOf i fs :=
  ⟨List.filterMap_cons_none (if_neg h.symm), List.filterMap_cons_none (if_neg h.symm)⟩

theorem sinkIn?_entered (r : Running) (test : Option Nat) (owner : Guard Owner) (i : Nat) :
    (Frame.mk r test owner .entered).sinkIn? i = none := ite_self none

theorem sinkIn?_inside (r : Running) (test : Option Nat) (owner : Guard Owner)
    (guard : Guard Sink) :
    (Frame.mk r test owner (.inside guard)).sinkIn? r.context = some (guard, r.sink) := if_pos rfl

theorem sinkIn?_outside (r : Running) (test : Option Nat) (owner : Guard Owner) (i : Nat) :
    (Frame.mk r test owner .outside).sinkIn? i = none := ite_self none

theorem ownerIn?_self (r : Running) (test : Option Nat) (owner : Guard Owner) (stage : Stage) :
    (Frame.mk r test owner stage).ownerIn? r.context = some (owner, r.owner) := if_pos rfl

/-- The maps of every engine stand over the evaluations of the threads. -/
structure Sound (s : Overlap) : Prop where
  sinks : ∀ i, (s.engines i).sinks.Stands (sinksOf i ∘ s.frames)
  owners : ∀ i, (s.engines i).owners.Stands (ownersOf i ∘ s.frames)

theorem sound_new (w : World) : (new w).Sound :=
  ⟨fun _ => Slots.stands_empty, fun _ => Slots.stands_empty⟩

section
variable {s : Overlap}

/-- One engine and the evaluations of one thread change, and those on other engines stay. -/
theorem Sound.go (h : s.Sound) {t i : Nat} {e : Engine} {fs : List Frame}
    (hsinks : e.sinks.Stands (Function.update (sinksOf i ∘ s.frames) t (sinksOf i fs)))
    (howners : e.owners.Stands (Function.update (ownersOf i ∘ s.frames) t (ownersOf i fs)))
    (hother : ∀ j ≠ i, sinksOf j fs = sinksOf j (s.frames t) ∧
      ownersOf j fs = ownersOf j (s.frames t)) : (s.go t i e fs).Sound := by
  constructor
  · -- On every engine: the changed one is as the hypothesis has it, any other as before.
    intro j
    show (Function.update s.engines i e j).sinks.Stands
      (sinksOf j ∘ Function.update s.frames t fs)
    rw [Function.comp_update]
    by_cases hj : j = i
    · rw [hj, Function.update_self]
      exact hsinks
    · rw [Function.update_of_ne hj, (hother j hj).1]
      exact (Function.update_eq_self t (sinksOf j ∘ s.frames)).symm ▸ h.sinks j
  · intro j
    show (Function.update s.engines i e j).owners.Stands
      (ownersOf j ∘ Function.update s.frames t fs)
    rw [Function.comp_update]
    by_cases hj : j = i
    · rw [hj, Function.update_self]
      exact howners
    · rw [Function.update_of_ne hj, (hother j hj).2]
      exact (Function.update_eq_self t (ownersOf j ∘ s.frames)).symm ▸ h.owners j

/-- What is above a stack that stays the same. -/
theorem stands_update_self {α β : Type} {m : Slots α} {view : β → List (Guard α × α)}
    {nests : Nat → β} {t : Nat} {top : List (Guard α × α)} (h : m.Stands (view ∘ nests))
    (htop : top = view (nests t)) : m.Stands (Function.update (view ∘ nests) t top) := by
  rw [htop]
  exact (Function.update_eq_self t (view ∘ nests)).symm ▸ h

theorem Sound.begin (h : s.Sound) (t : Nat) (r : Running) (test : Option Nat) :
    (s.begin t r test).Sound := by
  refine h.go ?_ ?_ fun j hj => entriesOf_cons_of_ne hj _
  · refine stands_update_self (h.sinks _) ?_
    rw [sinksOf_cons, sinkIn?_entered, Option.toList_none, List.nil_append]
  · rw [ownersOf_cons, ownerIn?_self, Option.toList_some, List.singleton_append]
    exact (h.owners r.context).enter t r.owner

theorem Sound.advance (h : s.Sound) (t : Nat) : (s.advance t).Sound := by
  rw [Overlap.advance]
  split
  · exact h
  · rename_i f rest hframes
    obtain ⟨r, test, owner, stage⟩ := f
    have hother : ∀ stage' j, j ≠ r.context →
        sinksOf j (⟨r, test, owner, stage'⟩ :: rest) = sinksOf j (s.frames t) ∧
          ownersOf j (⟨r, test, owner, stage'⟩ :: rest) = ownersOf j (s.frames t) := by
      intro stage' j hj
      rw [hframes, (entriesOf_cons_of_ne hj rest).1, (entriesOf_cons_of_ne hj rest).2,
        (entriesOf_cons_of_ne hj rest).1, (entriesOf_cons_of_ne hj rest).2]
      exact ⟨rfl, rfl⟩
    have howners : ownersOf r.context (s.frames t) =
        (owner, r.owner) :: ownersOf r.context rest := by
      rw [hframes, ownersOf_cons, ownerIn?_self]
      rfl
    -- Entering sets a sink and leaving puts the one from before back; the owner is set all the
    -- while.
    cases stage with
    | entered =>
      have hsinks : sinksOf r.context (s.frames t) = sinksOf r.context rest := by
        rw [hframes, sinksOf_cons, sinkIn?_entered, Option.toList_none, List.nil_append]
      refine h.go ?_ (stands_update_self (h.owners _) ?_) (hother _)
      · rw [sinksOf_cons, sinkIn?_inside, Option.toList_some, List.singleton_append, ← hsinks]
        exact (h.sinks r.context).enter t r.sink
      · rw [howners, ownersOf_cons, ownerIn?_self]
        rfl
    | inside guard =>
      have hsinks : sinksOf r.context (s.frames t) = (guard, r.sink) :: sinksOf r.context rest := by
        rw [hframes, sinksOf_cons, sinkIn?_inside]
        rfl
      refine h.go ?_ (stands_update_self (h.owners _) ?_) (hother _)
      · rw [sinksOf_cons, sinkIn?_outside, Option.toList_none, List.nil_append]
        exact (h.sinks r.context).leave hsinks
      · rw [howners, ownersOf_cons, ownerIn?_self]
        rfl
    | outside =>
      have hsinks : sinksOf r.context (s.frames t) = sinksOf r.context rest := by
        rw [hframes, sinksOf_cons, sinkIn?_outside, Option.toList_none, List.nil_append]
      refine h.go (stands_update_self (h.sinks _) hsinks.symm) ((h.owners r.context).leave howners)
        fun j hj => ?_
      rw [hframes, (entriesOf_cons_of_ne hj rest).1, (entriesOf_cons_of_ne hj rest).2]
      exact ⟨rfl, rfl⟩

theorem sound_step (h : s.Sound) (look : Lookup) (e : Event) : (s.step look e).Sound := by
  cases e with
  | evaluate t r =>
    rw [step]
    split
    · exact h.begin t r none
    · exact h
  | test t context id =>
    rw [step]
    split
    · have hadded : s.addTest.Sound := ⟨h.sinks, h.owners⟩
      exact hadded.begin t _ _
    · exact h
  | advance t => exact h.advance t
  | print t i l =>
    rw [step]
    split
    · exact ⟨h.sinks, h.owners⟩
    · exact h
  | buffer | other => exact ⟨h.sinks, h.owners⟩
  | check => exact h

/-- Only an evaluation on the engine has an entry in its sinks. -/
theorem of_sinkIn? {f : Frame} {i : Nat} {entry : Guard Sink × Sink}
    (h : f.sinkIn? i = some entry) : f.running.context = i ∧ entry.2 = f.running.sink := by
  rw [Frame.sinkIn?] at h
  split at h
  · rename_i hcontext
    split at h
    · cases h
      exact ⟨hcontext, rfl⟩
    · cases h
  · cases h

/-- Where an engine may be used its maps say what the innermost evaluation runs with. -/
theorem byMaps_eq (h : s.Sound) {t i : Nat} (hmay : s.mayUse t i) :
    byMaps s t i = byFrames s t i := by
  have hsink : (s.engines i).sinks.current t = (sinksOf i (s.frames t)).head?.map (·.2) :=
    (h.sinks i).current t
  have howner : (s.engines i).owners.current t = (ownersOf i (s.frames t)).head?.map (·.2) :=
    (h.owners i).current t
  rw [mayUse] at hmay
  rw [byMaps, byFrames, hsink, howner]
  cases hframes : s.frames t with
  | nil => rfl
  | cons f rest =>
    rw [hframes] at hmay
    obtain ⟨entry, hentry⟩ := Option.isSome_iff_exists.mp hmay
    obtain ⟨rfl, hself⟩ := of_sinkIn? hentry
    rw [sinksOf_cons, hentry, ownersOf_cons, ownerIn?_self]
    exact Prod.ext hself rfl

theorem step_eq (h : s.Sound) (e : Event) : s.step byMaps e = s.step byFrames e := by
  cases e with
  | print t i l =>
    rw [step, step]
    split
    · rename_i hmay
      rw [byMaps_eq h hmay]
    · rfl
  | evaluate | test | buffer | advance | check | other => rfl

theorem notes_eq (h : s.Sound) (e : Event) : s.notes byMaps e = s.notes byFrames e := by
  cases e with
  | check t i =>
    rw [notes, notes]
    split
    · rename_i hmay
      rw [byMaps_eq h hmay]
    · rfl
  | evaluate | test | buffer | advance | print | other => rfl

end

theorem sound_run (look : Lookup) (w : World) (events : List Event) : (run look w events).Sound :=
  Concurrency.runFrom_keeps (sound_new w) (fun _ e h => sound_step h look e) events

theorem run_eq (w : World) (events : List Event) : run byMaps w events = run byFrames w events := by
  induction events using List.reverseRecOn with
  | nil => rfl
  | append_singleton past e ih =>
    have hsound := sound_run byMaps w past
    rw [run, runFrom_concat, ← run, step_eq hsound, ih, run, run, runFrom_concat]

theorem history_eq (w : World) (events : List Event) :
    history byMaps w events = history byFrames w events := by
  induction events using List.reverseRecOn with
  | nil => rfl
  | append_singleton past e ih =>
    have hsound := sound_run byMaps w past
    rw [history, Concurrency.noted_concat, ← history, ← run, notes_eq hsound, ih, run_eq, history,
      history, Concurrency.noted_concat, ← run]

end Overlap
end Session
end ScriptSession
