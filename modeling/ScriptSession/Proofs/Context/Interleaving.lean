import Mathlib.Logic.Function.Basic
import ScriptSession.Context.State
import ScriptSession.Proofs.Concurrency.Runs

/-!
# Threads on one context

A context together with the threads that use it, as a system of steps. Every call takes its steps
one at a time and the steps of other calls come between them, so the variables, the published ones
and the pending changes are seen half way.

A call that gets hold of the variables merges what is pending, works on the variables, publishes
them and lets go. An evaluation merges once more before it publishes; setting or removing a variable
does not. A call that gives up waiting defers its changes: it shows them, queues them and tries for
the variables once. It may give up although the variables have just been let go.

What a script makes of the variables is part of the event in which it ends, so a run may hold any
scripts.
-/

namespace ScriptSession
namespace Context

open Concurrency (runFrom)
open Script (Entry Scope Value)

/-- A change to one name that is made while nobody else holds the variables. -/
inductive Edit where
  | bind (name : String) (v : Value)
  | remove (name : String)

/-- The variables after a change to one name. -/
def Edit.run : Edit → Scope → Scope
  | .bind name v, s => s.bind name v
  | .remove name, s => s.without name

/-- How far a thread's call has come. -/
inductive Stage where
  /-- No call. -/
  | resting
  /-- Holds the variables; an evaluation begins if there is no edit. -/
  | opening (edit : Option Edit)
  | running
  | editing (edit : Edit)
  /-- Holds the variables and has to merge once more. -/
  | closing
  | publishing
  | leaving
  /-- Runs a script on a copy. -/
  | copied (before : Scope)
  | showing (es : List Entry)
  | queueing (es : List Entry)
  | trying

namespace Stage

/-- The call holds the variables. -/
def holds : Stage → Bool
  | .opening _ | .running | .editing _ | .closing | .publishing | .leaving => true
  | _ => false

/-- The call holds the variables and what is published does not show them. -/
def isUnpublished : Stage → Bool
  | .opening _ | .running | .editing _ | .closing | .publishing => true
  | _ => false

/-- The next step of the call merges what is pending. -/
def isMerging : Stage → Bool
  | .opening _ | .closing => true
  | _ => false

/-- The call holds the variables and merges what is pending before it lets go. -/
def merges : Stage → Bool
  | .opening _ | .running | .closing => true
  | _ => false

end Stage

/-- A step of some thread. -/
inductive Event where
  /-- An evaluation gets hold of the variables. -/
  | evaluate (thread : Nat)
  /-- An edit gets hold of the variables. -/
  | edit (thread : Nat) (e : Edit)
  /-- An evaluation gives up waiting and copies what is published. -/
  | evaluateBeside (thread : Nat)
  /-- The setting of a variable gives up waiting. -/
  | bindBeside (thread : Nat) (name : String) (v : Value)
  /-- The script of an evaluation ends. -/
  | script (thread : Nat) (after : Scope)
  /-- A call takes its next step. -/
  | advance (thread : Nat)

/-- A context and how far the threads that use it have come. -/
structure Sharing where
  context : State
  stages : Nat → Stage

namespace Sharing

/-- A context that nobody uses. -/
def new (c : State) : Sharing := ⟨c, fun _ => .resting⟩

/-- A thread changes the context and goes on to a stage. -/
def go (s : Sharing) (t : Nat) (next : Stage) (f : State → State) : Sharing :=
  ⟨f s.context, Function.update s.stages t next⟩

/-- The next step of a call, unless it runs a script. -/
def advance (s : Sharing) (t : Nat) : Sharing :=
  match s.stages t with
  | .opening none => s.go t .running State.mergePending
  | .opening (some e) => s.go t (.editing e) State.mergePending
  | .editing e => s.go t .publishing fun c => c.putBack (e.run c.scope)
  | .closing => s.go t .publishing State.mergePending
  | .publishing => s.go t .leaving State.publish
  | .leaving => s.go t .resting State.letGo
  | .showing es => s.go t (.queueing es) (·.showChanges es)
  | .queueing es => s.go t .trying (·.queueChanges es)
  -- It is tried once: whoever holds the variables is left to merge the changes.
  | .trying => if s.context.isHeld then s.go t .resting id else s.go t .closing State.hold
  | .resting | .running | .copied _ => s

/-- A step. An event that is not possible changes nothing. -/
def step (s : Sharing) : Event → Sharing
  | .evaluate t =>
    match s.stages t, s.context.isHeld with
    | .resting, false => s.go t (.opening none) State.hold
    | _, _ => s
  | .edit t e =>
    match s.stages t, s.context.isHeld with
    | .resting, false => s.go t (.opening (some e)) State.hold
    | _, _ => s
  | .evaluateBeside t =>
    match s.stages t with
    | .resting => s.go t (.copied s.context.published) id
    | _ => s
  | .bindBeside t name v =>
    match s.stages t with
    | .resting => s.go t (.showing [Entry.variable_ name v]) id
    | _ => s
  | .script t after =>
    match s.stages t with
    | .running => s.go t .closing (·.putBack after)
    | .copied before => s.go t (.showing (changes before after)) id
    | _ => s
  | .advance t => s.advance t

/-- A context after events, when nobody used it before. -/
def run (c : State) (events : List Event) : Sharing := runFrom step (new c) events

@[simp] theorem run_concat (c : State) (past : List Event) (e : Event) :
    run c (past ++ [e]) = (run c past).step e := by
  rw [run, Concurrency.runFrom_concat, run]

/-- No call is under way. -/
def AtRest (s : Sharing) : Prop := ∀ t, s.stages t = .resting

/-! ## Calls that nothing interrupts -/

theorem go_go (s : Sharing) (t : Nat) (a b : Stage) (f g : State → State) :
    (s.go t a f).go t b g = s.go t b fun c => g (f c) := by
  rw [go, go, go, Function.update_idem]

@[simp] theorem stages_go (s : Sharing) (t : Nat) (next : Stage) (f : State → State) :
    (s.go t next f).stages t = next := Function.update_self ..

theorem stages_go_of_ne (s : Sharing) {t u : Nat} (h : u ≠ t) (next : Stage) (f : State → State) :
    (s.go t next f).stages u = s.stages u := Function.update_of_ne h ..

@[simp] theorem context_go (s : Sharing) (t : Nat) (next : Stage) (f : State → State) :
    (s.go t next f).context = f s.context := rfl

/-- An evaluation that holds the variables acquires and releases them. -/
theorem evaluate_alone (s : Sharing) (t : Nat) (after : Scope) (ht : s.stages t = .resting)
    (hfree : s.context.isHeld = false) :
    runFrom step s [.evaluate t, .advance t, .script t after, .advance t, .advance t, .advance t] =
      s.go t .resting fun c => c.acquire.release after := by
  simp only [runFrom, List.foldl_cons, List.foldl_nil, step, advance, ht, hfree, stages_go, go_go]
  rfl

/-- An edit that holds the variables is the change of a free context. -/
theorem edit_alone (s : Sharing) (t : Nat) (e : Edit) (ht : s.stages t = .resting)
    (hfree : s.context.isHeld = false) :
    runFrom step s [.edit t e, .advance t, .advance t, .advance t, .advance t] =
      s.go t .resting fun c =>
        match e with
        | .bind name v => (c.bindFree name v).letGo
        | .remove name => (c.removeFree name).2.letGo := by
  simp only [runFrom, List.foldl_cons, List.foldl_nil, step, advance, ht, hfree, stages_go, go_go]
  cases e <;> rfl

/-- Changes that are recorded while somebody holds the variables are deferred. -/
theorem defer_alone_of_held (s : Sharing) (t : Nat) (es : List Entry)
    (ht : s.stages t = .showing es) (hheld : s.context.isHeld) :
    runFrom step s [.advance t, .advance t, .advance t] = s.go t .resting (·.defer es) := by
  have hdefer : s.context.defer es = (s.context.showChanges es).queueChanges es := if_pos hheld
  simp only [runFrom, List.foldl_cons, List.foldl_nil, step, advance, ht, stages_go, go_go,
    context_go, State.queueChanges, State.showChanges, hheld, if_true]
  rw [go, go, hdefer]
  rfl

/-- Changes that are recorded while nobody holds the variables are deferred as well. -/
theorem defer_alone_of_free (s : Sharing) (t : Nat) (es : List Entry)
    (ht : s.stages t = .showing es) (hfree : s.context.isHeld = false) :
    runFrom step s
        [.advance t, .advance t, .advance t, .advance t, .advance t, .advance t] =
      s.go t .resting fun c => (c.defer es).letGo := by
  have hdefer : s.context.defer es =
      ((s.context.showChanges es).queueChanges es).mergePending.publish :=
    if_neg (by simpa [State.queueChanges, State.showChanges] using hfree)
  simp only [runFrom, List.foldl_cons, List.foldl_nil, step, advance, ht, stages_go, go_go,
    context_go, State.queueChanges, State.showChanges, hfree, Bool.false_eq_true, if_false]
  rw [go, go, hdefer]
  rfl

/-! ## What a step changes -/

/-- What a step may come to. -/
inductive Change (s : Sharing) : Event → Sharing → Prop where
  | nothing (e : Event) : Change s e s
  /-- A call gets hold of the variables and has to merge. -/
  | take (e : Event) (t : Nat) (next : Stage) (hfree : s.context.isHeld = false)
      (hstage : (s.stages t).holds = false) (hnext : next.merges) :
      Change s e (s.go t next State.hold)
  | merge (t : Nat) (next : Stage) (hstage : (s.stages t).isMerging)
      (hnext : next.isUnpublished) :
      Change s (.advance t) (s.go t next State.mergePending)
  | script (e : Event) (t : Nat) (after : Scope) (hstage : s.stages t = .running) :
      Change s e (s.go t .closing (·.putBack after))
  | edit (e : Event) (t : Nat) (edit : Edit) (hstage : s.stages t = .editing edit) :
      Change s e (s.go t .publishing fun c => c.putBack (edit.run c.scope))
  | publish (e : Event) (t : Nat) (hstage : s.stages t = .publishing) :
      Change s e (s.go t .leaving State.publish)
  | letGo (e : Event) (t : Nat) (hstage : s.stages t = .leaving) :
      Change s e (s.go t .resting State.letGo)
  | copy (e : Event) (t : Nat) (before : Scope) (hstage : s.stages t = .resting) :
      Change s e (s.go t (.copied before) id)
  | record (e : Event) (t : Nat) (es : List Entry)
      (hstage : s.stages t = .resting ∨ ∃ before, s.stages t = .copied before) :
      Change s e (s.go t (.showing es) id)
  | reveal (e : Event) (t : Nat) (es : List Entry) (hstage : s.stages t = .showing es) :
      Change s e (s.go t (.queueing es) (·.showChanges es))
  | queue (e : Event) (t : Nat) (es : List Entry) (hstage : s.stages t = .queueing es) :
      Change s e (s.go t .trying (·.queueChanges es))
  | giveUp (t : Nat) (hstage : s.stages t = .trying) (hheld : s.context.isHeld) :
      Change s (.advance t) (s.go t .resting id)

theorem advance_change (s : Sharing) (t : Nat) : s.Change (.advance t) (s.advance t) := by
  rw [advance]
  -- One case for each stage, in their order in the definition.
  split
  · rename_i h
    exact .merge t .running (by rw [h]; rfl) rfl
  · rename_i e h
    exact .merge t (.editing e) (by rw [h]; rfl) rfl
  · rename_i e h
    exact .edit _ t e h
  · rename_i h
    exact .merge t .publishing (by rw [h]; rfl) rfl
  · rename_i h
    exact .publish _ t h
  · rename_i h
    exact .letGo _ t h
  · rename_i es h
    exact .reveal _ t es h
  · rename_i es h
    exact .queue _ t es h
  · rename_i h
    split
    · rename_i hheld
      exact .giveUp t h hheld
    · rename_i hheld
      exact .take _ t .closing (by simpa using hheld) (by rw [h]; rfl) rfl
  · exact .nothing _
  · exact .nothing _
  · exact .nothing _

theorem step_change (s : Sharing) (e : Event) : s.Change e (s.step e) := by
  cases e with
  | evaluate t =>
    rw [step]
    split
    · rename_i h hfree
      exact .take _ t (.opening none) hfree (by rw [h]; rfl) rfl
    · exact .nothing _
  | edit t e =>
    rw [step]
    split
    · rename_i h hfree
      exact .take _ t (.opening (some e)) hfree (by rw [h]; rfl) rfl
    · exact .nothing _
  | evaluateBeside t =>
    rw [step]
    split
    · rename_i h
      exact .copy _ t _ h
    · exact .nothing _
  | bindBeside t name v =>
    rw [step]
    split
    · rename_i h
      exact .record _ t _ (.inl h)
    · exact .nothing _
  | script t after =>
    rw [step]
    split
    · rename_i h
      exact .script _ t after h
    · rename_i before h
      exact .record _ t _ (.inr ⟨before, h⟩)
    · exact .nothing _
  | advance t => exact s.advance_change t

end Sharing
end Context
end ScriptSession
