import ScriptSession.Proofs.Task.Waiting

/-!
# Exclusive tasks

An exclusive task that has not ended keeps every submission in the queue. It was admitted last, and
it is tracked: a task loses its tracked place by its end or to a submission that contends with it,
and no submission contends with an exclusive task. Main statement: from the admission of an
exclusive task to its end nothing else is admitted (`Traffic.exclusive_undisturbed`).
-/

namespace ScriptSession
namespace Task

namespace Admission

/-! ## Tasks that have been admitted -/

/-- The numbers of all tasks that have been admitted, the latest first. -/
def ids (a : Admission) : List Nat := a.tasks.map (·.control.id)

theorem task?_isSome_iff (a : Admission) (id : Nat) : (a.task? id).isSome ↔ id ∈ a.ids := by
  rw [task?, List.find?_isSome, ids, List.mem_map]
  simp only [decide_eq_true_eq]

theorem ids_alterTask (a : Admission) (id : Nat) {f : Record → Record}
    (hf : ∀ r, (f r).control.id = r.control.id) : (a.alterTask id f).ids = a.ids := by
  have hid : ∀ r, (if r.control.id = id then f r else r).control.id = r.control.id := by
    intro r
    split
    · exact hf r
    · rfl
  simp only [ids, alterTask, List.map_map, Function.comp_def, hid]

theorem ids_release (a : Admission) (id : Nat) : (a.release id).ids = a.ids := by
  obtain ⟨htasks, -⟩ := a.tasks_release id
  rw [ids, htasks]
  exact a.ids_alterTask id fun r => (becomes_hasLeft r).id

theorem ids_endInterrupt (a : Admission) (id : Nat) : (a.endInterrupt id).2.ids = a.ids := by
  rw [ids, (a.tasks_endInterrupt id).1, ids]

/-! ## Tasks that run alone -/

/-- An exclusive task has been admitted and has not ended. -/
def RunsAlone (a : Admission) (id : Nat) : Prop :=
  ∃ r, a.task? id = some r ∧ r.control.isExclusive = true ∧ r.control.exit = .running

/-- What runs alone is tracked and was admitted last. -/
def Secluded (a : Admission) : Prop := ∀ id, a.RunsAlone id → a.current = some id ∧ a.issued = id

theorem RunsAlone.hasExited {a : Admission} {id : Nat} (h : a.RunsAlone id) :
    a.hasExited id = false := by
  obtain ⟨r, hr, -, hexit⟩ := h
  rw [hasExited_of_task? hr, Control.hasExited, hexit]
  rfl

/-- A task that runs alone and is tracked sends every submission into the queue. -/
theorem RunsAlone.decide {a : Admission} {id : Nat} (h : a.RunsAlone id)
    (hid : a.current = some id) : a.decide = .queue id := by
  obtain ⟨r, hr, hexclusive, hexit⟩ := h
  have htracked : a.tracked? = some r.control := by
    rw [tracked?, hid, Option.bind_some, control?, hr, Option.map_some]
  have hrunning : r.control.hasExited = false := by
    rw [Control.hasExited, hexit]
    rfl
  have hqueue : r.control.holdsQueue = true := by
    rw [Control.holdsQueue, hexclusive, Bool.or_true]
  rw [Admission.decide, htracked]
  simp only [hrunning, hqueue, Bool.or_true, Bool.false_eq_true, if_false, if_true]
  rw [id_of_task? hr]

/-- What runs alone after a change ran alone before, unless the change has admitted it. -/
theorem RunsAlone.of_extends {a b : Admission} (h : a.Extends b) {id : Nat} (hb : b.RunsAlone id)
    (hid : (a.task? id).isSome) : a.RunsAlone id := by
  obtain ⟨r', hr', hexclusive, hexit⟩ := hb
  obtain ⟨r, hr⟩ := Option.isSome_iff_exists.mp hid
  obtain ⟨s, hs, hbecomes⟩ := h.task id r hr
  rw [hr'] at hs
  cases hs
  refine ⟨r, hr, hbecomes.isExclusive ▸ hexclusive, ?_⟩
  by_contra hended
  exact hended ((hbecomes.exit hended).symm.trans hexit)

end Admission

namespace Traffic

/-! ## What a step admits -/

/-- A step gives out no number and admits nothing, or it gives out the next number to a submission
that nothing is in the way of, and tracks its task unless it finds no thread. -/
theorem admits_of_change {s : Traffic} {e : Event} {a : Admission} (h : s.Change e a) :
    (a.issued = s.admission.issued ∧ a.ids = s.admission.ids) ∨
    ((∀ id, s.admission.decide ≠ .queue id) ∧ a.issued = s.admission.nextId ∧
      ((a.ids = s.admission.ids ∧ a.current = s.admission.current) ∨
        (a.ids = s.admission.nextId :: s.admission.ids ∧
          a.current = some s.admission.nextId))) := by
  cases h with
  | nothing => exact .inl ⟨rfl, rfl⟩
  | turn _ ticket fromQueue hasThread =>
    obtain ⟨hfree, hturn⟩ | ⟨id, -, -, hturn⟩ | ⟨id, -, -, -, hturn⟩ | ⟨id, -, -, -, hturn⟩ :=
      s.admission.turn_cases ticket fromQueue hasThread <;> rw [hturn]
    · -- The number is spent in any case, the record is made only for a thread.
      refine .inr ⟨hfree, ?_⟩
      cases hasThread with
      | true => exact ⟨rfl, .inr ⟨rfl, rfl⟩⟩
      | false => exact ⟨rfl, .inl ⟨rfl, rfl⟩⟩
    all_goals exact .inl ⟨rfl, rfl⟩
  | interrupt => exact .inl ⟨rfl, rfl⟩
  | endInterrupt t id =>
    exact .inl ⟨(s.admission.tasks_endInterrupt id).2, s.admission.ids_endInterrupt id⟩
  | release id => exact .inl ⟨(s.admission.tasks_release id).2, s.admission.ids_release id⟩
  | record _ id f hf => exact .inl ⟨rfl, s.admission.ids_alterTask id fun r => (hf r).id⟩

/-- As long as no number is given out nothing is admitted. -/
theorem ids_eq_of_issued_eq {past events : List Event} (h : past <+: events)
    (hissued : (run events).admission.issued = (run past).admission.issued) :
    (run events).admission.ids = (run past).admission.ids := by
  obtain ⟨rest, rfl⟩ := h
  induction rest using List.reverseRecOn with
  | nil => rw [List.append_nil]
  | append_singleton rest e ih =>
    have hpast : past <+: past ++ rest := List.prefix_append past rest
    have hbefore : (run past).admission.issued ≤ (run (past ++ rest)).admission.issued :=
      (extends_run hpast).issued
    rw [← List.append_assoc, run_concat] at hissued ⊢
    obtain ⟨hsame, hids⟩ | ⟨-, hnext, -⟩ := admits_of_change ((run (past ++ rest)).step_change e)
    · rw [hids]
      exact ih (hsame.symm.trans hissued)
    · rw [hnext, Admission.nextId] at hissued
      omega

/-! ## Seclusion -/

/-- A task that runs alone stays tracked until it has ended. -/
theorem current_step_of_runsAlone {s : Traffic} (hs : s.admission.Numbered) {id : Nat}
    (halone : s.admission.RunsAlone id) (hid : s.admission.current = some id) (e : Event) :
    (s.step e).admission.current = some id := by
  obtain ⟨r, hr, hexclusive, hexit⟩ := halone
  obtain hsame | ⟨r', hr', hended⟩ | hoverrides := current_step hs hid e
  · exact hsame
  · rw [hr] at hr'
    cases hr'
    exact absurd hexit hended
  · obtain ⟨r', hr', hqueue, -⟩ := of_overrides hoverrides
    rw [hr] at hr'
    cases hr'
    rw [Control.holdsQueue, hexclusive, Bool.or_true] at hqueue
    cases hqueue

theorem secluded_step {s : Traffic} (hs : s.admission.Numbered) (hsecluded : s.admission.Secluded)
    (e : Event) : (s.step e).admission.Secluded := by
  intro id halone
  by_cases hold : (s.admission.task? id).isSome = true
  · -- It ran alone before, so this step has admitted nothing and it is still tracked.
    have hbefore : s.admission.RunsAlone id := halone.of_extends (extends_step hs e) hold
    obtain ⟨hid, hissued⟩ := hsecluded id hbefore
    refine ⟨current_step_of_runsAlone hs hbefore hid e, ?_⟩
    obtain ⟨hsame, -⟩ | ⟨hfree, -⟩ := admits_of_change (s.step_change e)
    · exact hsame.trans hissued
    · exact absurd (hbefore.decide hid) (hfree id)
  · -- It is new, so it is the one that this step has admitted.
    obtain ⟨r, hr, -⟩ := halone
    have hnew : id ∈ (s.step e).admission.ids := by
      rw [← Admission.task?_isSome_iff, hr]
      rfl
    rw [Admission.task?_isSome_iff] at hold
    obtain ⟨-, hids⟩ | ⟨-, hissued, ⟨hids, -⟩ | ⟨hids, hcurrent⟩⟩ :=
      admits_of_change (s.step_change e)
    · exact absurd (hids ▸ hnew) hold
    · exact absurd (hids ▸ hnew) hold
    · rw [hids, List.mem_cons] at hnew
      obtain rfl | hmem := hnew
      · exact ⟨hcurrent, hissued⟩
      · exact absurd hmem hold

theorem secluded_new : new.admission.Secluded := by
  rintro id ⟨r, hr, -⟩
  cases hr

theorem secluded_run (events : List Event) : (run events).admission.Secluded := by
  induction events using List.reverseRecOn with
  | nil => exact secluded_new
  | append_singleton past e ih =>
    rw [run_concat]
    exact secluded_step (numbered_run past) ih e

/-! ## Main statement -/

/-- From the admission of an exclusive task until it has ended it stays tracked, no number is given
out and no other task is admitted. -/
theorem exclusive_undisturbed (past events : List Event) (hpast : past <+: events) (id : Nat)
    (hstart : (run past).admission.RunsAlone id)
    (hrunning : (run events).admission.hasExited id = false) :
    (run events).admission.current = some id ∧
      (run events).admission.issued = (run past).admission.issued ∧
      (run events).admission.ids = (run past).admission.ids := by
  have halone : (run events).admission.RunsAlone id := by
    obtain ⟨r, hr, hexclusive, -⟩ := hstart
    obtain ⟨r', hr', hbecomes⟩ := (extends_run hpast).task id r hr
    rw [Admission.hasExited_of_task? hr', Control.hasExited, decide_eq_false_iff_not,
      not_not] at hrunning
    exact ⟨r', hr', hbecomes.isExclusive.trans hexclusive, hrunning⟩
  obtain ⟨hcurrent, hissued⟩ := secluded_run events id halone
  obtain ⟨-, hissued'⟩ := secluded_run past id hstart
  have hsame : (run events).admission.issued = (run past).admission.issued :=
    hissued.trans hissued'.symm
  exact ⟨hcurrent, hsame, ids_eq_of_issued_eq hpast hsame⟩

/-- A rebuild takes the place of a task that goes on. A submission that comes then sleeps, another
one is refused, the overridden task ends, and the rebuild is interrupted without stopping. -/
theorem exclusive_undisturbed_by_interrupt :
    let past : List Event := [.submit 0 ⟨"a", false, none⟩ true, .submit 0 ⟨"b", true, none⟩ true]
    let events := past ++ [.submit 1 ⟨"c", false, none⟩ true, .submit 2 ⟨"d", false, none⟩ true,
      .finish 1 .completed, .release 1, .wake 1 true, .interrupt 2, .cancel 2]
    ((run past).admission.RunsAlone 2 ∧ (run events).admission.hasExited 2 = false) ∧
      (run events).admission.current = some 2 ∧ (run events).admission.issued = 2 ∧
      (run events).admission.ids = [2, 1] := by
  intro past events
  have hstart : (run past).admission.RunsAlone 2 := ⟨_, rfl, rfl, rfl⟩
  exact ⟨⟨hstart, rfl⟩,
    exclusive_undisturbed past events (List.prefix_append _ _) 2 hstart rfl⟩

end Traffic
end Task
end ScriptSession
