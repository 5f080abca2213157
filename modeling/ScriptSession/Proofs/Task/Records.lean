import ScriptSession.Task.Admission

/-!
# Records of tasks

What every step of the admission leaves alone. A record stays that of its task, and an end that has
been recorded is final; `Admission.Extends` says this of all records at once. A number that has not
been given out has no record (`Admission.Numbered`), so a new record never hides an older one.
-/

namespace ScriptSession
namespace Task

/-! ## One record -/

/-- What may become of a record: it stays that of the same task, as exclusive as it was, an end that
has been recorded stays, and a task that was asked to stop stays so. -/
structure Record.Becomes (old new : Record) : Prop where
  id : new.control.id = old.control.id
  isExclusive : new.control.isExclusive = old.control.isExclusive
  exit : old.control.exit ≠ .running → new.control.exit = old.control.exit
  isCancelled : old.control.isCancelled = true → new.control.isCancelled = true

theorem Record.Becomes.refl (r : Record) : r.Becomes r := ⟨rfl, rfl, fun _ => rfl, fun h => h⟩

theorem Record.Becomes.trans {r s t : Record} (h : r.Becomes s) (h' : s.Becomes t) :
    r.Becomes t := by
  refine ⟨h'.id.trans h.id, h'.isExclusive.trans h.isExclusive, fun hr => ?_,
    fun hr => h'.isCancelled (h.isCancelled hr)⟩
  have hs : s.control.exit = r.control.exit := h.exit hr
  rw [h'.exit (by rwa [hs]), hs]

/-- Recording an end changes nothing about a task that has ended. -/
theorem Control.finish_of_hasExited {c : Control} (h : c.exit ≠ .running) (exit : Exit) :
    c.finish exit = (false, c) := by
  rw [Control.finish, if_neg h]

theorem Record.becomes_finish (r : Record) (exit : Exit) :
    r.Becomes { r with control := (r.control.finish exit).2 } := by
  by_cases h : r.control.exit = .running
  · rw [Control.finish, if_pos h]
    exact ⟨rfl, rfl, fun hne => absurd h hne, fun hcancelled => hcancelled⟩
  · rw [Control.finish_of_hasExited h]
    exact .refl r

namespace Admission

/-! ## Looking records up -/

theorem id_of_task? {a : Admission} {id : Nat} {r : Record} (h : a.task? id = some r) :
    r.control.id = id := by
  simpa [task?] using List.find?_some h

/-- A change that keeps the numbers of records changes the record of its task alone. -/
theorem task?_alterTask (a : Admission) (id j : Nat) {f : Record → Record}
    (hf : ∀ r, (f r).control.id = r.control.id) :
    (a.alterTask id f).task? j = (a.task? j).map fun r => if r.control.id = id then f r else r := by
  have hid : ∀ r, (if r.control.id = id then f r else r).control.id = r.control.id := by
    intro r
    split
    · exact hf r
    · rfl
  simp only [task?, alterTask, List.find?_map, Function.comp_def, hid]

/-- The record of the task that is changed. -/
theorem task?_alterTask_self (a : Admission) (id : Nat) {f : Record → Record}
    (hf : ∀ r, (f r).control.id = r.control.id) :
    (a.alterTask id f).task? id = (a.task? id).map f := by
  rw [task?_alterTask a id id hf]
  cases hr : a.task? id with
  | none => rfl
  | some r => rw [Option.map_some, Option.map_some, if_pos (id_of_task? hr)]

/-- The record of a task whose control is changed. -/
theorem task?_alterControl (a : Admission) (id : Nat) {f : Control → Control}
    (hf : ∀ c, (f c).id = c.id) :
    (a.alterControl id f).task? id =
      (a.task? id).map fun r => { r with control := f r.control } :=
  a.task?_alterTask_self id fun r => hf r.control

theorem task?_track (a : Admission) (id j : Nat) (t : Ticket) :
    (a.track id t).task? j =
      if id = j then
        some ⟨Control.new id t.title t.isExclusive t.listener, none, false, false⟩
      else a.task? j := by
  simp only [task?, track, List.find?_cons, Control.new]
  by_cases h : id = j <;> simp [h]

/-- Whether a task has ended is read from its record. -/
theorem hasExited_of_task? {a : Admission} {id : Nat} {r : Record} (h : a.task? id = some r) :
    a.hasExited id = r.control.hasExited := by
  rw [hasExited, control?, h, Option.map_some, Option.all_some]

/-- A task whose end is recorded has ended. -/
theorem hasExited_finish (a : Admission) (id : Nat) {exit : Exit} (h : exit ≠ .running) :
    (a.finish id exit).2.hasExited id = true := by
  have htask : (a.finish id exit).2.task? id = (a.task? id).map fun r =>
      { r with control := (r.control.finish exit).2 } :=
    a.task?_alterControl id fun c => (Record.becomes_finish ⟨c, none, false, false⟩ exit).id
  cases hr : a.task? id with
  | none =>
    rw [hr, Option.map_none] at htask
    rw [hasExited, control?, htask]
    rfl
  | some r =>
    rw [hr, Option.map_some] at htask
    rw [hasExited_of_task? htask, Control.hasExited, decide_eq_true_eq, Control.finish]
    split
    · exact h
    · rename_i hrunning
      exact hrunning

/-! ## All records -/

/-- Every record of `a` is still there in `b`, as what may become of it, and no number is taken
back. -/
structure Extends (a b : Admission) : Prop where
  issued : a.issued ≤ b.issued
  task : ∀ id r, a.task? id = some r → ∃ r', b.task? id = some r' ∧ r.Becomes r'

namespace Extends

theorem refl (a : Admission) : a.Extends a := ⟨Nat.le_refl _, fun _ r h => ⟨r, h, .refl r⟩⟩

theorem trans {a b c : Admission} (h : a.Extends b) (h' : b.Extends c) : a.Extends c := by
  refine ⟨Nat.le_trans h.issued h'.issued, fun id r hr => ?_⟩
  obtain ⟨s, hs, hrs⟩ := h.task id r hr
  obtain ⟨t, ht, hst⟩ := h'.task id s hs
  exact ⟨t, ht, hrs.trans hst⟩

/-- An admission with the same records extends another one. -/
theorem of_tasks_eq {a b : Admission} (hi : a.issued ≤ b.issued) (ht : b.tasks = a.tasks) :
    a.Extends b := by
  refine ⟨hi, fun id r h => ⟨r, ?_, .refl r⟩⟩
  rwa [task?, ht]

theorem task?_isSome {a b : Admission} (h : a.Extends b) {id : Nat} (hid : (a.task? id).isSome) :
    (b.task? id).isSome := by
  obtain ⟨r, hr⟩ := Option.isSome_iff_exists.mp hid
  obtain ⟨r', hr', -⟩ := h.task id r hr
  rw [hr']
  rfl

end Extends

/-- A change that is one of what may become of a record extends the admission. -/
theorem extends_alterTask (a : Admission) (id : Nat) {f : Record → Record}
    (hf : ∀ r : Record, r.Becomes (f r)) : a.Extends (a.alterTask id f) := by
  refine ⟨Nat.le_refl _, fun j r h => ?_⟩
  refine ⟨if r.control.id = id then f r else r, ?_, ?_⟩
  · rw [task?_alterTask a id j fun s => (hf s).id, h, Option.map_some]
  · split
    · exact hf r
    · exact .refl r

/-- Records have numbers that were given out, and the tracked task has a record. -/
structure Numbered (a : Admission) : Prop where
  le_issued : ∀ id r, a.task? id = some r → id ≤ a.issued
  tracked : ∀ id, a.current = some id → (a.task? id).isSome

theorem Numbered.task?_nextId {a : Admission} (h : a.Numbered) : a.task? a.nextId = none := by
  cases hr : a.task? a.nextId with
  | none => rfl
  | some r =>
    have hle : a.nextId ≤ a.issued := h.le_issued _ r hr
    rw [nextId] at hle
    omega

theorem numbered_new : new.Numbered := by
  constructor <;> intro id <;> simp [new, task?]

theorem numbered_alterTask {a : Admission} (ha : a.Numbered) (id : Nat) {f : Record → Record}
    (hf : ∀ r : Record, r.Becomes (f r)) : (a.alterTask id f).Numbered := by
  refine ⟨fun j r hr => ?_, fun j hj => (extends_alterTask a id hf).task?_isSome (ha.tracked j hj)⟩
  rw [task?_alterTask a id j fun s => (hf s).id, Option.map_eq_some_iff] at hr
  obtain ⟨r', hr', -⟩ := hr
  exact ha.le_issued j r' hr'

/-! ## Letting go of the tracked task -/

theorem becomes_hasLeft (r : Record) : r.Becomes { r with hasLeft := true } :=
  ⟨rfl, rfl, fun _ => rfl, fun h => h⟩

/-- A task's thread that is done untracks its own task and no other one. -/
theorem release_cases (a : Admission) (id : Nat) :
    (a.current = some id ∧ (a.release id).phase = .idle ∧ (a.release id).current = none) ∨
    (a.current ≠ some id ∧ (a.release id).phase = a.phase ∧
      (a.release id).current = a.current) := by
  by_cases hid : a.current = some id
  · exact .inl ⟨hid, by simp [release, alterTask, hid, clear, notify], by
      simp [release, alterTask, hid, clear, notify]⟩
  · exact .inr ⟨hid, by simp [release, alterTask, hid, notify], by
      simp [release, alterTask, hid, notify]⟩

/-- The end of an interrupt leaves nothing tracked, or leaves the tracked task alone and no
interrupt under way. -/
theorem endInterrupt_cases (a : Admission) (id : Nat) :
    (a.current = some id ∧ (a.endInterrupt id).2.phase = .idle ∧
      (a.endInterrupt id).2.current = none) ∨
    (a.current ≠ some id ∧
      (a.endInterrupt id).2.phase = (if a.phase = .interrupting then .idle else a.phase) ∧
      (a.endInterrupt id).2.current = a.current) := by
  by_cases hid : a.current = some id
  · exact .inl ⟨hid, by simp [endInterrupt, hid, clear, notify], by
      simp [endInterrupt, hid, clear, notify]⟩
  · refine .inr ⟨hid, ?_, ?_⟩ <;> by_cases hphase : a.phase = .interrupting <;>
      simp [endInterrupt, hid, hphase, notify]

theorem tasks_release (a : Admission) (id : Nat) :
    (a.release id).tasks = (a.alterTask id fun t => { t with hasLeft := true }).tasks ∧
      (a.release id).issued = a.issued := by
  rw [release]
  split <;> exact ⟨rfl, rfl⟩

theorem tasks_endInterrupt (a : Admission) (id : Nat) :
    (a.endInterrupt id).2.tasks = a.tasks ∧ (a.endInterrupt id).2.issued = a.issued := by
  simp only [endInterrupt]
  split <;> split <;> exact ⟨rfl, rfl⟩

theorem extends_release (a : Admission) (id : Nat) : a.Extends (a.release id) := by
  obtain ⟨htasks, hissued⟩ := a.tasks_release id
  exact (a.extends_alterTask id becomes_hasLeft).trans
    (.of_tasks_eq (Nat.le_of_eq hissued.symm) htasks)

theorem extends_endInterrupt (a : Admission) (id : Nat) : a.Extends (a.endInterrupt id).2 := by
  obtain ⟨htasks, hissued⟩ := a.tasks_endInterrupt id
  exact .of_tasks_eq (Nat.le_of_eq hissued.symm) htasks

/-- Numbers stay in order where records are the same and what is tracked was tracked before. -/
theorem Numbered.of_tasks_eq {a b : Admission} (ha : a.Numbered) (hi : a.issued = b.issued)
    (ht : b.tasks = a.tasks) (hcurrent : ∀ id, b.current = some id → a.current = some id) :
    b.Numbered := by
  have htask : ∀ id, b.task? id = a.task? id := fun id => by rw [task?, task?, ht]
  refine ⟨fun id r hr => ?_, fun id hid => ?_⟩
  · rw [htask] at hr
    rw [← hi]
    exact ha.le_issued id r hr
  · rw [htask]
    exact ha.tracked id (hcurrent id hid)

theorem numbered_release {a : Admission} (ha : a.Numbered) (id : Nat) :
    (a.release id).Numbered := by
  obtain ⟨htasks, hissued⟩ := a.tasks_release id
  refine (numbered_alterTask ha id becomes_hasLeft).of_tasks_eq hissued.symm htasks fun j hj => ?_
  obtain ⟨-, -, hcurrent⟩ | ⟨-, -, hcurrent⟩ := a.release_cases id
  · rw [hcurrent] at hj
    cases hj
  · rwa [hcurrent] at hj

theorem numbered_endInterrupt {a : Admission} (ha : a.Numbered) (id : Nat) :
    (a.endInterrupt id).2.Numbered := by
  obtain ⟨htasks, hissued⟩ := a.tasks_endInterrupt id
  refine ha.of_tasks_eq hissued.symm htasks fun j hj => ?_
  obtain ⟨-, -, hcurrent⟩ | ⟨-, -, hcurrent⟩ := a.endInterrupt_cases id
  · rw [hcurrent] at hj
    cases hj
  · rwa [hcurrent] at hj

end Admission
end Task
end ScriptSession
