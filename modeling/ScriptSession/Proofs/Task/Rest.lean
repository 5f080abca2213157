import ScriptSession.Proofs.Task.Interrupts
import ScriptSession.Proofs.Task.Queue
import ScriptSession.Proofs.Task.Waiting

/-!
# Coming to rest

A task's thread leaves once its task has ended, and with it goes the tracked place if it is still
the task's own. So the tracked task is always one whose thread has not left yet
(`Traffic.Attended`), however tasks are overridden, interrupted and given up. Main statement: when
all threads of tasks have left and nobody submits or interrupts, the admission is idle, tracks
nothing and has its waiting place free (`Traffic.idle_at_rest`).
-/

namespace ScriptSession
namespace Task

open Concurrency (runFrom_keeps)

namespace Admission

/-! ## Threads that have left -/

/-- The thread of a task has come to its end. -/
def HasLeft (a : Admission) (id : Nat) : Prop := ∃ r, a.task? id = some r ∧ r.hasLeft = true

theorem hasLeft_of_tasks_eq {a b : Admission} (ht : b.tasks = a.tasks) {id : Nat} :
    b.HasLeft id ↔ a.HasLeft id := by
  simp only [HasLeft, task?, ht]

/-- A change that concerns no thread's end changes nothing about whose thread has left. -/
theorem hasLeft_alterTask (a : Admission) (j : Nat) {f : Record → Record}
    (hf : ∀ r, (f r).control.id = r.control.id) (hleft : ∀ r, (f r).hasLeft = r.hasLeft)
    {id : Nat} (h : (a.alterTask j f).HasLeft id) : a.HasLeft id := by
  obtain ⟨r', hr', hr'left⟩ := h
  rw [task?_alterTask a j id hf, Option.map_eq_some_iff] at hr'
  obtain ⟨r, hr, rfl⟩ := hr'
  refine ⟨r, hr, ?_⟩
  split at hr'left
  · rw [← hleft]
    exact hr'left
  · exact hr'left

theorem extends_note (a : Admission) (id : Nat) (n : Note) : a.Extends (a.note id n) := by
  cases n <;> exact a.extends_alterTask id fun r => ⟨rfl, rfl, fun _ => rfl, fun h => h⟩

theorem hasLeft_note {a : Admission} {j id : Nat} (n : Note) (h : (a.note j n).HasLeft id) :
    a.HasLeft id := by
  cases n <;> refine a.hasLeft_alterTask j ?_ ?_ h <;> exact fun _ => rfl

theorem hasLeft_finish {a : Admission} {j id : Nat} (exit : Exit)
    (h : (a.finish j exit).2.HasLeft id) : a.HasLeft id := by
  refine a.hasLeft_alterTask j ?_ ?_ h
  · exact fun r => (r.becomes_finish exit).id
  · exact fun _ => rfl

/-- The end of a thread is the end of no other one. -/
theorem hasLeft_release {a : Admission} {j id : Nat} (h : (a.release j).HasLeft id)
    (hne : id ≠ j) : a.HasLeft id := by
  rw [hasLeft_of_tasks_eq (a.tasks_release j).1] at h
  obtain ⟨r', hr', hleft⟩ := h
  rw [task?_alterTask a j id fun r => (becomes_hasLeft r).id, Option.map_eq_some_iff] at hr'
  obtain ⟨r, hr, rfl⟩ := hr'
  rw [if_neg (id_of_task? hr ▸ hne)] at hleft
  exact ⟨r, hr, hleft⟩

/-- A submission that is admitted has a thread that has not left. -/
theorem hasLeft_turn {a : Admission} {t : Ticket} {fromQueue hasThread : Bool} {id : Nat}
    (h : (a.turn t fromQueue hasThread).2.HasLeft id) : a.HasLeft id := by
  obtain ⟨-, hturn⟩ | ⟨j, -, -, hturn⟩ | ⟨j, -, -, -, hturn⟩ | ⟨j, -, -, -, hturn⟩ :=
    a.turn_cases t fromQueue hasThread <;> rw [hturn] at h
  · cases hasThread with
    | false => exact (hasLeft_of_tasks_eq rfl).mp h
    | true =>
      obtain ⟨r, hr, hleft⟩ := h
      change ((a.issue fromQueue).track a.nextId t).task? id = some r at hr
      rw [task?_track] at hr
      split at hr
      · cases hr
        cases hleft
      · exact ⟨r, hr, hleft⟩
  · exact h
  · exact h
  · exact (hasLeft_of_tasks_eq rfl).mp h

/-- The thread of a task that has ended may leave unless it has left. -/
theorem mayLeave_of_hasEnded {a : Admission} {id : Nat} (h : a.HasEnded id)
    (hleft : ¬ a.HasLeft id) : a.mayLeave id = true := by
  obtain ⟨r, hr, hexit⟩ := h
  have hstays : r.hasLeft = false := by
    rw [← Bool.not_eq_true]
    exact fun hr' => hleft ⟨r, hr, hr'⟩
  rw [mayLeave, hr, Option.any_some, Control.hasExited, decide_eq_true hexit, hstays]
  rfl

end Admission

namespace Traffic

/-- A thread comes to its end in its own step. -/
theorem hasLeft_of_step {s : Traffic} {e : Event} {id : Nat}
    (h : (s.step e).admission.HasLeft id) : s.admission.HasLeft id ∨ e = .release id := by
  have htakes : s.Takes e (s.step e) := s.step_takes e
  generalize s.step e = s' at htakes h
  cases htakes with
  | nothing | sleepsOn => exact .inl h
  | submits | wakes => exact .inl (Admission.hasLeft_turn h)
  | interrupts => exact .inl ((Admission.hasLeft_of_tasks_eq rfl).mp h)
  | endsInterrupt t j =>
    exact .inl ((Admission.hasLeft_of_tasks_eq (s.admission.tasks_endInterrupt j).1).mp h)
  | cancels j =>
    left
    refine s.admission.hasLeft_alterTask j ?_ ?_ h <;> exact fun _ => rfl
  | finishes j exit => exact .inl (Admission.hasLeft_finish exit h)
  | releases j =>
    by_cases hid : id = j
    · exact .inr (hid ▸ rfl)
    · exact .inl (Admission.hasLeft_release h hid)
  | notes j n => exact .inl (Admission.hasLeft_note n h)

/-! ## The tracked task -/

/-- The thread of the tracked task has not left. -/
def Attended (s : Traffic) : Prop := ∀ id, s.admission.current = some id → ¬ s.admission.HasLeft id

/-- The tracked task is the one that was tracked before, none, or one that is admitted now. -/
theorem current_of_change_cases {s : Traffic} {e : Event} {a : Admission} (h : s.Change e a) :
    a.current = s.admission.current ∨ a.current = none ∨
      a.current = some s.admission.nextId := by
  cases h with
  | nothing => exact .inl rfl
  | turn _ ticket fromQueue hasThread =>
    obtain ⟨-, hcurrent⟩ | ⟨-, -, -, hcurrent⟩ :=
      s.admission.turn_tracks ticket fromQueue hasThread
    · exact .inl hcurrent
    · exact .inr (.inr hcurrent)
  | interrupt => exact .inl rfl
  | endInterrupt t id =>
    obtain ⟨-, -, hcurrent⟩ | ⟨-, -, hcurrent⟩ := s.admission.endInterrupt_cases id
    · exact .inr (.inl hcurrent)
    · exact .inl hcurrent
  | release id =>
    obtain ⟨-, -, hcurrent⟩ | ⟨-, -, hcurrent⟩ := s.admission.release_cases id
    · exact .inr (.inl hcurrent)
    · exact .inl hcurrent
  | record => exact .inl rfl

/-- A thread that leaves takes the tracked place with it if its task has it. -/
theorem current_step_release {s : Traffic} {id : Nat} (hleave : s.admission.mayLeave id = true) :
    (s.step (.release id)).admission.current ≠ some id := by
  have hstep : (s.step (.release id)).admission = s.admission.release id := by
    rw [step, if_pos hleave]
    rfl
  rw [hstep]
  obtain ⟨-, -, hcurrent⟩ | ⟨hne, -, hcurrent⟩ := s.admission.release_cases id
  · rw [hcurrent]
    exact (Option.some_ne_none id).symm
  · rwa [hcurrent]

theorem attended_step {s : Traffic} (hnumbered : s.admission.Numbered) (hs : s.Attended)
    (e : Event) : (s.step e).Attended := by
  intro id hid hleft
  obtain hbefore | rfl := hasLeft_of_step hleft
  · -- Its thread had left before, so it was neither tracked nor is its number a new one.
    obtain hsame | hnone | hnext := current_of_change_cases (s.step_change e)
    · exact hs id (hsame.symm.trans hid) hbefore
    · rw [hnone] at hid
      cases hid
    · rw [hnext] at hid
      cases hid
      obtain ⟨r, hr, -⟩ := hbefore
      rw [hnumbered.task?_nextId] at hr
      cases hr
  · by_cases hleave : s.admission.mayLeave id = true
    · exact current_step_release hleave hid
    · rw [step, if_neg hleave] at hid hleft
      exact hs id hid hleft

theorem attended_run (events : List Event) : (run events).Attended := by
  induction events using List.reverseRecOn with
  | nil =>
    intro id hid
    cases hid
  | append_singleton past e ih =>
    rw [run_concat]
    exact attended_step (numbered_run past) ih e

/-! ## Main statement -/

/-- An event belongs to the end of a task: a step of the task itself, its cancellation, or the end
of an interrupt of it. -/
def Concerns (s : Traffic) (id : Nat) : Event → Prop
  | .cancel j | .finish j _ | .release j | .note j _ => j = id
  | .endInterrupt t => s.calls t = .interrupting id
  | .submit .. | .wake .. | .interrupt _ => False

theorem current_of_concerns {s : Traffic} {id other : Nat} {e : Event} (he : s.Concerns id e)
    (hother : s.admission.current = some other) (hne : other ≠ id) :
    (s.step e).admission.current = some other := by
  have hid : s.admission.current ≠ some id := fun h => hne (Option.some.inj (hother.symm.trans h))
  cases e with
  | submit | wake | interrupt => exact he.elim
  | cancel | finish => exact hother
  | note j n => cases n <;> exact hother
  | endInterrupt t =>
    -- What is untracked is the task of the interrupt, and that is not the one that is tracked.
    simp only [step, show s.calls t = .interrupting id from he]
    split
    · obtain ⟨h, -⟩ | ⟨-, -, hcurrent⟩ := s.admission.endInterrupt_cases id
      · exact absurd h hid
      · exact hcurrent.trans hother
    · exact hother
  | release j =>
    obtain rfl : j = id := he
    rw [step]
    split
    · obtain ⟨h, -⟩ | ⟨-, -, hcurrent⟩ := s.admission.release_cases j
      · exact absurd h hid
      · exact hcurrent.trans hother
    · exact hother

/-- All threads of tasks have left, and nobody is in the middle of a submission or an interrupt. -/
structure AtRest (s : Traffic) : Prop where
  tasks : ∀ r ∈ s.admission.tasks, r.hasLeft = true
  calls : ∀ t, s.calls t = .none

/-- Whatever has been submitted, overridden, queued and interrupted: at rest the admission is idle,
tracks nothing and has its waiting place free. What belongs to the end of a task that is not tracked
leaves the tracked task where it is. -/
theorem idle_at_rest (events : List Event) :
    ((run events).AtRest →
      (run events).admission.phase = .idle ∧ (run events).admission.current = none ∧
        (run events).admission.isQueued = false) ∧
      ∀ id other e, (run events).Concerns id e → (run events).admission.current = some other →
        other ≠ id → (run (events ++ [e])).admission.current = some other := by
  refine ⟨fun hrest => ?_, fun id other e he hother hne => ?_⟩
  · -- A tracked task would have a thread that has not left.
    have hcurrent : (run events).admission.current = none := by
      cases hid : (run events).admission.current with
      | none => rfl
      | some id =>
        obtain ⟨r, hr⟩ := Option.isSome_iff_exists.mp ((numbered_run events).tracked id hid)
        have hleft : r.hasLeft = true := hrest.tasks r (List.mem_of_find?_eq_some hr)
        exact absurd ⟨r, hr, hleft⟩ (attended_run events id hid)
    refine ⟨idle_run events hcurrent, hcurrent, ?_⟩
    by_contra hqueued
    rw [Bool.not_eq_false, (queues_run events).isQueued_iff] at hqueued
    obtain ⟨t, ht⟩ := hqueued
    exact not_sleeps_of_calls (hrest.calls t) nofun ht
  · rw [run_concat]
    exact current_of_concerns he hother hne

/-- A task blocks and is given up by an interrupt while a submission sleeps behind it; the one that
slept is overridden, fails, and the abandoned thread leaves last. -/
theorem idle_after_giving_up :
    let events : List Event := [.submit 0 ⟨"a", false, none⟩ true, .note 1 .blocks,
      .submit 1 ⟨"b", false, none⟩ true, .interrupt 2, .cancel 1, .finish 1 .terminated,
      .endInterrupt 2, .wake 1 true, .submit 2 ⟨"c", false, none⟩ true, .finish 3 .panicked,
      .note 2 (.keeps (.error (.taskFailed "b"))), .finish 2 .completed, .release 2, .release 3,
      .finish 1 .completed, .release 1]
    (run events).AtRest ∧ (run events).admission.phase = .idle ∧
      (run events).admission.current = none ∧ (run events).admission.isQueued = false ∧
      (run events).admission.issued = 3 := by
  intro events
  have hrest : (run events).AtRest := by
    refine ⟨by decide, fun t => ?_⟩
    rcases t with _ | _ | _ | t <;> rfl
  obtain ⟨hphase, hcurrent, hqueued⟩ := (idle_at_rest events).1 hrest
  exact ⟨hrest, hphase, hcurrent, hqueued, rfl⟩

end Traffic
end Task
end ScriptSession
