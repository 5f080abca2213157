import ScriptSession.Proofs.Task.Records

/-!
# Turns of submissions

What a submission finds when it decides, and what one turn of it changes. A turn either admits the
submission, under a number that is new, or leaves everything but the waiting place and the numbers
as it was (`Admission.turn_cases`).
-/

namespace ScriptSession
namespace Task
namespace Admission

/-! ## Deciding -/

/-- The tracked control is that of the record with the tracked number. -/
theorem tracked?_eq_some {a : Admission} {c : Control} (h : a.tracked? = some c) :
    ∃ r, a.current = some c.id ∧ a.task? c.id = some r ∧ r.control = c := by
  rw [tracked?, Option.bind_eq_some_iff] at h
  obtain ⟨id, hcurrent, hcontrol⟩ := h
  rw [control?, Option.map_eq_some_iff] at hcontrol
  obtain ⟨r, hr, rfl⟩ := hcontrol
  have hid : r.control.id = id := id_of_task? hr
  exact ⟨r, by rw [hid, hcurrent], by rw [hid, hr], rfl⟩

/-- What a submission finds when it decides: no task that has not ended, one that holds it up, or
one that does not. -/
inductive Decides (a : Admission) : Verdict → Prop where
  | start (hexit : ∀ id, a.current = some id → a.hasExited id = true) : Decides a .start
  | queue (id : Nat) (r : Record) (hcurrent : a.current = some id) (hr : a.task? id = some r)
      (hexit : r.control.hasExited = false)
      (hbusy : a.phase = .interrupting ∨ r.control.holdsQueue = true) : Decides a (.queue id)
  | contend (id : Nat) (r : Record) (hcurrent : a.current = some id) (hr : a.task? id = some r)
      (hexit : r.control.hasExited = false) (hphase : a.phase ≠ .interrupting)
      (hfree : r.control.holdsQueue = false) : Decides a (.contend r.control.title)

theorem decides (a : Admission) : a.Decides a.decide := by
  rw [decide]
  cases hc : a.tracked? with
  | none =>
    refine .start fun id hid => ?_
    rw [tracked?, hid, Option.bind_some] at hc
    rw [hasExited, hc]
    rfl
  | some c =>
    obtain ⟨r, hcurrent, hr, rfl⟩ := tracked?_eq_some hc
    dsimp only
    split
    · rename_i hexit
      refine .start fun id hid => ?_
      obtain rfl := Option.some.inj (hcurrent.symm.trans hid)
      rw [hasExited_of_task? hr, hexit]
    · rename_i hexit
      rw [Bool.not_eq_true] at hexit
      split
      · rename_i hbusy
        rw [Bool.or_eq_true, decide_eq_true_eq] at hbusy
        exact .queue _ r hcurrent hr hexit hbusy
      · rename_i hfree
        rw [Bool.or_eq_true, decide_eq_true_eq, not_or, Bool.not_eq_true] at hfree
        exact .contend _ r hcurrent hr hexit hfree.1 hfree.2

/-- Where a submission is free to start, a tracked task has ended. -/
theorem hasExited_of_decide_start {a : Admission} (h : a.decide = .start) {id : Nat}
    (hid : a.current = some id) : a.hasExited id := by
  cases h ▸ a.decides with
  | start hexit => exact hexit id hid

/-- A submission waits behind the tracked task, which has not ended. -/
theorem of_decide_queue {a : Admission} {id : Nat} (h : a.decide = .queue id) :
    a.current = some id ∧ (a.task? id).isSome ∧ a.hasExited id = false := by
  cases h ▸ a.decides with
  | queue _ r hcurrent hr hexit =>
    rw [hasExited_of_task? hr, hr]
    exact ⟨hcurrent, rfl, hexit⟩

/-- A submission contends with a tracked task that has not ended, is not being interrupted, and is
neither blocked nor exclusive. -/
theorem of_decide_contend {a : Admission} {title : String} (h : a.decide = .contend title) :
    ∃ id r, a.current = some id ∧ a.task? id = some r ∧ r.control.hasExited = false ∧
      a.phase ≠ .interrupting ∧ r.control.holdsQueue = false := by
  cases h ▸ a.decides with
  | contend id r hcurrent hr hexit hphase hfree =>
    exact ⟨id, r, hcurrent, hr, hexit, hphase, hfree⟩

/-! ## Taking a turn -/

/-- A turn of a submission, case by case: nothing is in its way, or it stays in the queue, finds the
waiting place taken, or takes it. -/
theorem turn_cases (a : Admission) (t : Ticket) (fromQueue hasThread : Bool) :
    ((∀ id, a.decide ≠ .queue id) ∧ a.turn t fromQueue hasThread = a.enroll t fromQueue hasThread) ∨
    (∃ id, a.decide = .queue id ∧ fromQueue = true ∧
      a.turn t fromQueue hasThread = (.behind id, a)) ∨
    (∃ id, a.decide = .queue id ∧ fromQueue = false ∧ a.isQueued = true ∧
      a.turn t fromQueue hasThread = (.refused, a)) ∨
    (∃ id, a.decide = .queue id ∧ fromQueue = false ∧ a.isQueued = false ∧
      a.turn t fromQueue hasThread = (.behind id, { a with isQueued := true })) := by
  rw [turn]
  cases hdecide : a.decide with
  | start => exact .inl ⟨nofun, rfl⟩
  | contend title => exact .inl ⟨nofun, rfl⟩
  | queue id =>
    right
    cases fromQueue with
    | true => exact .inl ⟨id, rfl, rfl, rfl⟩
    | false =>
      right
      cases hqueued : a.isQueued with
      | true => exact .inl ⟨id, rfl, rfl, rfl, by simp [enqueue?, hqueued]⟩
      | false => exact .inr ⟨id, rfl, rfl, rfl, by simp [enqueue?, hqueued]⟩

/-- A turn leaves the phase and the tracked task alone, or it admits under the next number. -/
theorem turn_tracks (a : Admission) (t : Ticket) (fromQueue hasThread : Bool) :
    ((a.turn t fromQueue hasThread).2.phase = a.phase ∧
      (a.turn t fromQueue hasThread).2.current = a.current) ∨
    ((∀ id, a.decide ≠ .queue id) ∧ hasThread = true ∧
      (a.turn t fromQueue hasThread).2.phase = .running ∧
      (a.turn t fromQueue hasThread).2.current = some a.nextId) := by
  obtain ⟨hfree, h⟩ | ⟨id, -, -, h⟩ | ⟨id, -, -, -, h⟩ | ⟨id, -, -, -, h⟩ :=
    turn_cases a t fromQueue hasThread <;> rw [h]
  · cases hasThread with
    | true => exact .inr ⟨hfree, rfl, rfl, rfl⟩
    | false => exact .inl ⟨rfl, rfl⟩
  all_goals exact .inl ⟨rfl, rfl⟩

theorem extends_enroll {a : Admission} (ha : a.Numbered) (t : Ticket) (fromQueue hasThread : Bool) :
    a.Extends (a.enroll t fromQueue hasThread).2 := by
  have hissue : a.Extends (a.issue fromQueue) := .of_tasks_eq (Nat.le_succ _) rfl
  cases hasThread with
  | false => exact hissue
  | true =>
    refine ⟨Nat.le_succ _, fun id r hr => ⟨r, ?_, .refl r⟩⟩
    have hne : a.nextId ≠ id := by
      rintro rfl
      rw [ha.task?_nextId] at hr
      cases hr
    show ((a.issue fromQueue).track a.nextId t).task? id = some r
    rw [task?_track, if_neg hne]
    exact hr

theorem extends_turn {a : Admission} (ha : a.Numbered) (t : Ticket) (fromQueue hasThread : Bool) :
    a.Extends (a.turn t fromQueue hasThread).2 := by
  obtain ⟨-, h⟩ | ⟨id, -, -, h⟩ | ⟨id, -, -, -, h⟩ | ⟨id, -, -, -, h⟩ :=
    turn_cases a t fromQueue hasThread <;> rw [h]
  · exact extends_enroll ha t fromQueue hasThread
  · exact .refl a
  · exact .refl a
  · exact .of_tasks_eq (Nat.le_refl _) rfl

theorem numbered_enroll {a : Admission} (ha : a.Numbered) (t : Ticket)
    (fromQueue hasThread : Bool) : (a.enroll t fromQueue hasThread).2.Numbered := by
  cases hasThread with
  | false =>
    -- A number without a task only leaves a gap.
    refine ⟨fun id r hr => ?_, ha.tracked⟩
    have hle : id ≤ a.issued := ha.le_issued id r hr
    show id ≤ a.issued + 1
    omega
  | true =>
    constructor
    · intro id r hr
      show id ≤ a.issued + 1
      change ((a.issue fromQueue).track a.nextId t).task? id = some r at hr
      rw [task?_track] at hr
      split at hr
      · rename_i h
        exact h ▸ Nat.le_refl _
      · have hle : id ≤ a.issued := ha.le_issued id r hr
        omega
    · intro id hid
      cases hid
      show (((a.issue fromQueue).track a.nextId t).task? a.nextId).isSome
      rw [task?_track, if_pos rfl]
      rfl

theorem numbered_turn {a : Admission} (ha : a.Numbered) (t : Ticket) (fromQueue hasThread : Bool) :
    (a.turn t fromQueue hasThread).2.Numbered := by
  obtain ⟨-, h⟩ | ⟨id, -, -, h⟩ | ⟨id, -, -, -, h⟩ | ⟨id, -, -, -, h⟩ :=
    turn_cases a t fromQueue hasThread <;> rw [h]
  · exact numbered_enroll ha t fromQueue hasThread
  · exact ha
  · exact ha
  · exact ⟨ha.le_issued, ha.tracked⟩

end Admission
end Task
end ScriptSession
