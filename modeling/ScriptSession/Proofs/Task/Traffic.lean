import Mathlib.Logic.Function.Basic
import ScriptSession.Proofs.Concurrency.Runs
import ScriptSession.Proofs.Task.Turns

/-!
# Traffic at the admission

The admission together with the threads that call it, as a system of steps. Any number of threads
submit and interrupt, tasks block and go on, are cancelled and end, and a sleeping submission looks
again after a notice. Each step is one of the steps of the admission itself, and whatever can happen
next is an event of its own, so a list of events is an order of the steps of all threads.

An interrupt that gives its task up is the end of the task with the exit `terminated` and then the
end of the interrupt. The time that is left to the task does not occur: it may end at any time.
-/

namespace ScriptSession
namespace Task

open Concurrency (runFrom runFrom_keeps)

/-- What a calling thread is in the middle of: nothing, a submission that sleeps behind a task, or
an interrupt that waits for its task. A sleeping submission has slept behind other tasks before and
knows the notices that were given up to the moment it looked last. -/
inductive Call where
  | none
  | asleep (ticket : Ticket) (behind : Nat) (before : List Nat) (seen : Nat)
  | interrupting (id : Nat)
deriving DecidableEq

/-- What becomes of a submission that gets a reply. -/
def Call.after (ticket : Ticket) (slept : List Nat) (notices : Nat) : Reply → Call
  | .behind id => .asleep ticket id slept notices
  | .admitted _ | .refused | .unstarted => .none

/-- What a task does without ending. -/
inductive Note where
  | begins
  | keeps (outcome : Except Session.Failure Script.Value)
  | blocks
  | goesOn
  | tellsEnd

/-- A step of some thread. -/
inductive Event where
  | submit (thread : Nat) (ticket : Ticket) (hasThread : Bool)
  | wake (thread : Nat) (hasThread : Bool)
  | interrupt (thread : Nat)
  | endInterrupt (thread : Nat)
  | cancel (id : Nat)
  | finish (id : Nat) (exit : Exit)
  | release (id : Nat)
  | note (id : Nat) (n : Note)

/-- The calling thread whose step an event is. Tasks take their steps by themselves. -/
def Event.thread? : Event → Option Nat
  | .submit t _ _ | .wake t _ | .interrupt t | .endInterrupt t => some t
  | .cancel _ | .finish _ _ | .release _ | .note _ _ => none

namespace Admission

/-- The change that a note of a task makes. -/
def note (a : Admission) (id : Nat) : Note → Admission
  | .begins => a.begin id
  | .keeps outcome => a.keep id outcome
  | .blocks => a.alterControl id Control.enterWait
  | .goesOn => a.alterControl id Control.leaveWait
  | .tellsEnd => (a.takeListener id).2

/-- Whether a task's thread may come to its end now: its task has ended and it has not left yet. -/
def mayLeave (a : Admission) (id : Nat) : Bool :=
  (a.task? id).any fun r => r.control.hasExited && !r.hasLeft

end Admission

/-- An admission and the threads that call it. -/
structure Traffic where
  admission : Admission
  calls : Nat → Call

namespace Traffic

/-- Nothing has happened yet. -/
def new : Traffic := ⟨.new, fun _ => .none⟩

/-- A step of the admission alone. -/
def alter (s : Traffic) (f : Admission → Admission) : Traffic :=
  { s with admission := f s.admission }

/-- What a thread is in the middle of from now on. -/
def call (s : Traffic) (t : Nat) (c : Call) : Traffic :=
  { s with calls := Function.update s.calls t c }

/-- A submission takes a turn. It comes from the queue when it has slept before. -/
def takeTurn (s : Traffic) (t : Nat) (ticket : Ticket) (slept : List Nat) (hasThread : Bool) :
    Traffic :=
  let turn := s.admission.turn ticket (!slept.isEmpty) hasThread
  -- A submission that has to wait knows the notices of the moment at which it falls asleep.
  { admission := turn.2
    calls := Function.update s.calls t (Call.after ticket slept turn.2.notices turn.1) }

/-- A step. An event that is not possible changes nothing. -/
def step (s : Traffic) : Event → Traffic
  | .submit t ticket hasThread =>
    if s.calls t = .none then s.takeTurn t ticket [] hasThread else s
  | .wake t hasThread =>
    match s.calls t with
    | .asleep ticket behind before seen =>
      if s.admission.notices = seen then s
      -- A notice says only that something has changed: it may sleep on behind the same task.
      else if s.admission.isBlocked behind then
        s.call t (.asleep ticket behind before s.admission.notices)
      else s.takeTurn t ticket (behind :: before) hasThread
    | _ => s
  | .interrupt t =>
    match s.calls t, s.admission.beginInterrupt? with
    | .none, some (id, a) => (s.alter fun _ => a).call t (.interrupting id)
    | _, _ => s
  | .endInterrupt t =>
    match s.calls t with
    | .interrupting id =>
      if s.admission.hasExited id then (s.alter fun a => (a.endInterrupt id).2).call t .none else s
    | _ => s
  | .cancel id => s.alter (·.cancel id)
  | .finish id exit => s.alter fun a => (a.finish id exit).2
  | .release id => if s.admission.mayLeave id then s.alter (·.release id) else s
  | .note id n => s.alter (·.note id n)

/-- The state after events, when nothing had happened before. -/
def run (events : List Event) : Traffic := runFrom step new events

@[simp] theorem run_concat (past : List Event) (e : Event) :
    run (past ++ [e]) = (run past).step e := by
  rw [run, Concurrency.runFrom_concat, run]

/-! ## What a step changes -/

/-- What a step comes to: nothing, a turn of a submission, a look after which a submission sleeps
on, the beginning or the end of an interrupt, or a change at one task. -/
inductive Takes (s : Traffic) : Event → Traffic → Prop where
  | nothing (e : Event) : Takes s e s
  | submits (t : Nat) (ticket : Ticket) (hasThread : Bool) (hcall : s.calls t = .none) :
      Takes s (.submit t ticket hasThread) (s.takeTurn t ticket [] hasThread)
  | sleepsOn (t behind seen : Nat) (ticket : Ticket) (before : List Nat) (hasThread : Bool)
      (hcall : s.calls t = .asleep ticket behind before seen) :
      Takes s (.wake t hasThread) (s.call t (.asleep ticket behind before s.admission.notices))
  | wakes (t behind seen : Nat) (ticket : Ticket) (before : List Nat) (hasThread : Bool)
      (hcall : s.calls t = .asleep ticket behind before seen)
      (hfree : s.admission.isBlocked behind = false) :
      Takes s (.wake t hasThread) (s.takeTurn t ticket (behind :: before) hasThread)
  | interrupts (t id : Nat) (hcall : s.calls t = .none) (hid : s.admission.current = some id) :
      Takes s (.interrupt t)
        ⟨{ s.admission with phase := .interrupting }, Function.update s.calls t (.interrupting id)⟩
  | endsInterrupt (t id : Nat) (hcall : s.calls t = .interrupting id)
      (hexit : s.admission.hasExited id) :
      Takes s (.endInterrupt t)
        ⟨(s.admission.endInterrupt id).2, Function.update s.calls t .none⟩
  | cancels (id : Nat) : Takes s (.cancel id) (s.alter (·.cancel id))
  | finishes (id : Nat) (exit : Exit) :
      Takes s (.finish id exit) (s.alter fun a => (a.finish id exit).2)
  | releases (id : Nat) (hleave : s.admission.mayLeave id) :
      Takes s (.release id) (s.alter (·.release id))
  | notes (id : Nat) (n : Note) : Takes s (.note id n) (s.alter (·.note id n))

/-- Whatever is proved of all steps is proved of these cases. -/
theorem step_takes (s : Traffic) (e : Event) : s.Takes e (s.step e) := by
  cases e with
  | submit t ticket hasThread =>
    rw [step]
    split
    · exact .submits t ticket hasThread ‹_›
    · exact .nothing _
  | wake t hasThread =>
    rw [step]
    split
    · rename_i ticket behind before seen hcall
      split
      · exact .nothing _
      · split
        · exact .sleepsOn t behind seen ticket before hasThread hcall
        · rename_i hfree
          exact .wakes t behind seen ticket before hasThread hcall (Bool.eq_false_iff.mpr hfree)
    · exact .nothing _
  | interrupt t =>
    rw [step]
    split
    · rename_i id a hcall hbegin
      rw [Admission.beginInterrupt?] at hbegin
      split at hbegin
      · cases hbegin
      · rename_i hid
        cases hbegin
        exact .interrupts t id hcall hid
    · exact .nothing _
  | endInterrupt t =>
    rw [step]
    split
    · rename_i id hcall
      split
      · rename_i hexit
        exact .endsInterrupt t id hcall hexit
      · exact .nothing _
    · exact .nothing _
  | cancel id => exact .cancels id
  | finish id exit => exact .finishes id exit
  | release id =>
    rw [step]
    split
    · rename_i hleave
      exact .releases id hleave
    · exact .nothing _
  | note id n => exact .notes id n

/-- What a step may make of the admission: a turn of a submission, the beginning or the end of an
interrupt, the end of a task's thread, a change of one record, or nothing. -/
inductive Change (s : Traffic) : Event → Admission → Prop where
  | nothing (e : Event) : Change s e s.admission
  | turn (e : Event) (ticket : Ticket) (fromQueue hasThread : Bool) :
      Change s e (s.admission.turn ticket fromQueue hasThread).2
  | interrupt (t id : Nat) (h : s.admission.current = some id) :
      Change s (.interrupt t) { s.admission with phase := .interrupting }
  | endInterrupt (t id : Nat) (hcall : s.calls t = .interrupting id)
      (hexit : s.admission.hasExited id) :
      Change s (.endInterrupt t) (s.admission.endInterrupt id).2
  | release (id : Nat) (h : s.admission.mayLeave id) :
      Change s (.release id) (s.admission.release id)
  | record (e : Event) (id : Nat) (f : Record → Record) (hf : ∀ r : Record, r.Becomes (f r)) :
      Change s e (s.admission.alterTask id f)

theorem note_change (s : Traffic) (e : Event) (id : Nat) (n : Note) :
    s.Change e (s.admission.note id n) := by
  cases n <;> exact .record e id _ fun r => ⟨rfl, rfl, fun _ => rfl, fun h => h⟩

theorem Takes.change {s s' : Traffic} {e : Event} (h : s.Takes e s') :
    s.Change e s'.admission := by
  cases h with
  | nothing => exact .nothing _
  | submits t ticket hasThread => exact .turn _ ticket _ hasThread
  -- A submission that sleeps on changes nothing but what it knows of the notices.
  | sleepsOn => exact .nothing _
  | wakes t behind seen ticket before hasThread => exact .turn _ ticket _ hasThread
  | interrupts t id _ hid => exact .interrupt t id hid
  | endsInterrupt t id hcall hexit => exact .endInterrupt t id hcall hexit
  | cancels id => exact .record _ id _ fun r => ⟨rfl, rfl, fun _ => rfl, fun _ => rfl⟩
  | finishes id exit => exact .record _ id _ fun r => r.becomes_finish exit
  | releases id hleave => exact .release id hleave
  | notes id n => exact s.note_change _ id n

theorem step_change (s : Traffic) (e : Event) : s.Change e (s.step e).admission :=
  (s.step_takes e).change

/-- Every step keeps the numbers in order and extends the admission. -/
theorem extends_step {s : Traffic} (hs : s.admission.Numbered) (e : Event) :
    s.admission.Extends (s.step e).admission := by
  -- The cases are those of what a step may make of the admission, not those of the events.
  have hchange : s.Change e (s.step e).admission := s.step_change e
  generalize (s.step e).admission = a at hchange ⊢
  cases hchange with
  | nothing => exact .refl _
  | turn _ ticket fromQueue hasThread => exact Admission.extends_turn hs ticket fromQueue hasThread
  | interrupt => exact .of_tasks_eq (Nat.le_refl _) rfl
  | endInterrupt t id => exact Admission.extends_endInterrupt _ id
  | release id => exact Admission.extends_release _ id
  | record _ id f hf => exact Admission.extends_alterTask _ id hf

theorem numbered_step {s : Traffic} (hs : s.admission.Numbered) (e : Event) :
    (s.step e).admission.Numbered := by
  have hchange : s.Change e (s.step e).admission := s.step_change e
  generalize (s.step e).admission = a at hchange ⊢
  cases hchange with
  | nothing => exact hs
  | turn _ ticket fromQueue hasThread => exact Admission.numbered_turn hs ticket fromQueue hasThread
  | interrupt => exact ⟨hs.le_issued, hs.tracked⟩
  | endInterrupt t id => exact Admission.numbered_endInterrupt hs id
  | release id => exact Admission.numbered_release hs id
  | record _ id f hf => exact Admission.numbered_alterTask hs id hf

theorem numbered_run (events : List Event) : (run events).admission.Numbered :=
  runFrom_keeps (P := fun s : Traffic => s.admission.Numbered) Admission.numbered_new
    (fun _ e h => numbered_step h e) events

/-- A step of one thread leaves what the others are in the middle of alone. -/
theorem Takes.calls_of_ne {s s' : Traffic} {e : Event} (h : s.Takes e s') {t : Nat}
    (hne : e.thread? ≠ some t) : s'.calls t = s.calls t := by
  have hupdate : ∀ u c, some u ≠ some t → Function.update s.calls u c t = s.calls t :=
    fun u c hne => Function.update_of_ne (fun htu => hne (congrArg some htu.symm)) c s.calls
  cases h with
  | submits u | sleepsOn u | wakes u | interrupts u | endsInterrupt u => exact hupdate u _ hne
  | nothing | cancels | finishes | releases | notes => rfl

theorem calls_step_of_ne (s : Traffic) (e : Event) {t : Nat} (h : e.thread? ≠ some t) :
    (s.step e).calls t = s.calls t := (s.step_takes e).calls_of_ne h

end Traffic
end Task
end ScriptSession
