import ScriptSession.Proofs.Task.Traffic

/-!
# How a task stands

Who is still to hear of the end of a task, and how the task has ended. The end of a task and telling
of it change this; no other step of the traffic does, whoever takes it and whether or not it asks
the task to stop (`Traffic.spares_step`). What a single thread does to the admission ends its own
task at most (`Admission.Confines`).
-/

namespace ScriptSession
namespace Task

/-- Who is still to hear of the end of a task, and how the task has ended. -/
structure Standing where
  listener : Option Listener
  exit : Exit
deriving DecidableEq

/-- A task ends once: the first end stays. -/
def Standing.finish (s : Standing) (exit : Exit) : Standing :=
  if s.exit = .running then { s with exit := exit } else s

/-- How the task of a control stands. -/
def Control.standing (c : Control) : Standing := ⟨c.listener, c.exit⟩

namespace Admission

/-- How a task stands. -/
def standing? (a : Admission) (id : Nat) : Option Standing :=
  (a.control? id).map Control.standing

variable {a b c : Admission} {id : Nat} {s : Standing}

theorem standing?_of_task?_eq (h : b.task? id = a.task? id) :
    b.standing? id = a.standing? id := by
  rw [standing?, standing?, control?, control?, h]

theorem hasExited_of_standing? (h : a.standing? id = some s) :
    a.hasExited id = true ↔ s.exit ≠ .running := by
  obtain ⟨c, hc, rfl⟩ := Option.map_eq_some_iff.mp h
  rw [hasExited, hc, Option.all_some, Control.hasExited, decide_eq_true_eq]
  rfl

theorem startListener?_of_standing? (h : a.standing? id = some s) :
    ((a.control? id).bind (·.startListener?)) = s.listener.filter (·.hearsStart) := by
  obtain ⟨c, hc, rfl⟩ := Option.map_eq_some_iff.mp h
  rw [hc]
  rfl

theorem takeListener_fst_of_standing? (h : a.standing? id = some s) :
    (a.takeListener id).1 = s.listener := by
  obtain ⟨c, hc, rfl⟩ := Option.map_eq_some_iff.mp h
  rw [takeListener, hc]
  rfl

/-! ## Changes of a task -/

/-- The task whose control is changed stands as its new control says. -/
theorem standing?_alterControl (a : Admission) (id : Nat) {f : Control → Control}
    {g : Standing → Standing} (hid : ∀ c, (f c).id = c.id)
    (hf : ∀ c, (f c).standing = g c.standing) :
    (a.alterControl id f).standing? id = (a.standing? id).map g := by
  rw [standing?, control?, task?_alterControl a id hid, standing?, control?]
  cases a.task? id with
  | none => rfl
  | some r => exact congrArg some (hf r.control)

theorem standing?_takeListener (a : Admission) (id : Nat) :
    (a.takeListener id).2.standing? id =
      (a.standing? id).map fun s => { s with listener := none } :=
  a.standing?_alterControl id (fun _ => rfl) fun _ => rfl

theorem standing?_finish (a : Admission) (id : Nat) (exit : Exit) :
    (a.finish id exit).2.standing? id = (a.standing? id).map (·.finish exit) := by
  refine a.standing?_alterControl id
    (fun c => (Record.becomes_finish ⟨c, none, false, false⟩ exit).id) fun c => ?_
  show _ = if c.exit = .running then _ else _
  rw [Control.finish]
  split <;> rfl

/-- A submission that is admitted runs, and its listener is still to hear of the end. -/
theorem standing?_of_turn {t : Ticket} {fromQueue : Bool}
    (h : a.turn t fromQueue true = (.admitted id, b)) :
    b.standing? id = some ⟨t.listener, .running⟩ ∧ id ≤ b.issued := by
  obtain ⟨-, hturn⟩ | ⟨_, -, -, hturn⟩ | ⟨_, -, -, -, hturn⟩ | ⟨_, -, -, -, hturn⟩ :=
    turn_cases a t fromQueue true <;> rw [hturn] at h <;> cases h
  refine ⟨?_, Nat.le_refl _⟩
  rw [standing?, control?, task?_track, if_pos rfl]
  rfl

/-! ## Changes that leave a task alone -/

/-- The task stands as before, and no number is taken back. -/
structure Spares (id : Nat) (a b : Admission) : Prop where
  standing : b.standing? id = a.standing? id
  issued : a.issued ≤ b.issued

namespace Spares

theorem refl (id : Nat) (a : Admission) : Spares id a a := ⟨rfl, Nat.le_refl _⟩

theorem trans (h : Spares id a b) (h' : Spares id b c) : Spares id a c :=
  ⟨h'.standing.trans h.standing, Nat.le_trans h.issued h'.issued⟩

theorem of_tasks_eq (hissued : a.issued ≤ b.issued) (htasks : b.tasks = a.tasks) :
    Spares id a b := by
  refine ⟨standing?_of_task?_eq ?_, hissued⟩
  rw [task?, task?, htasks]

/-- A change of a record, unless it changes how the task stands. -/
theorem alterTask (a : Admission) (j : Nat) {f : Record → Record}
    (hid : ∀ r, (f r).control.id = r.control.id)
    (hf : j = id → ∀ r, (f r).control.standing = r.control.standing) :
    Spares id a (a.alterTask j f) := by
  refine ⟨?_, Nat.le_refl _⟩
  rw [standing?, control?, task?_alterTask a j id hid, standing?, control?]
  cases hr : a.task? id with
  | none => rfl
  | some r =>
    rw [Option.map_some, Option.map_some, Option.map_some, Option.map_some, Option.map_some]
    split
    · rename_i hj
      have hj' : j = id := by rw [← hj, id_of_task? hr]
      rw [hf hj' r]
    · rfl

theorem turn (h : id ≤ a.issued) (t : Ticket) (fromQueue hasThread : Bool) :
    Spares id a (a.turn t fromQueue hasThread).2 := by
  obtain ⟨-, hturn⟩ | ⟨_, -, -, hturn⟩ | ⟨_, -, -, -, hturn⟩ | ⟨_, -, -, -, hturn⟩ :=
    turn_cases a t fromQueue hasThread <;> rw [hturn]
  · cases hasThread with
    | false => exact .of_tasks_eq (Nat.le_succ _) rfl
    | true =>
      -- The number of the task is not the next one, so the new record does not hide its own.
      have hne : a.nextId ≠ id := Nat.ne_of_gt (Nat.lt_succ_of_le h)
      refine ⟨standing?_of_task?_eq ?_, Nat.le_succ _⟩
      show ((a.issue fromQueue).track a.nextId t).task? id = a.task? id
      rw [task?_track, if_neg hne]
      rfl
  · exact .refl id a
  · exact .refl id a
  · exact .of_tasks_eq (Nat.le_refl _) rfl

theorem release (a : Admission) (j : Nat) : Spares id a (a.release j) := by
  obtain ⟨htasks, hissued⟩ := a.tasks_release j
  have hleft : Spares id a (a.alterTask j fun t => { t with hasLeft := true }) :=
    alterTask a j (fun _ => rfl) fun _ _ => rfl
  exact hleft.trans (.of_tasks_eq (Nat.le_of_eq hissued.symm) htasks)

theorem takeResult (a : Admission) (j : Nat) : Spares id a (a.takeResult j).2 := by
  rw [Admission.takeResult]
  split
  · exact .refl id a
  · split
    · exact .refl id a
    · exact alterTask a j (fun _ => rfl) fun _ _ => rfl

/-- A task that has ended does not end again. -/
theorem finish (a : Admission) (j : Nat) (exit : Exit) (h : j = id → a.hasExited id = true) :
    Spares id a (a.finish j exit).2 := by
  by_cases hj : j = id
  · subst hj
    refine ⟨?_, Nat.le_refl _⟩
    rw [standing?_finish]
    cases hs : a.standing? j with
    | none => rfl
    | some s =>
      have hexit : s.exit ≠ .running := (hasExited_of_standing? hs).mp (h rfl)
      rw [Option.map_some, Standing.finish, if_neg hexit]
  · exact alterTask a j (fun r => (Record.becomes_finish r exit).id) fun h => absurd h hj

end Spares

/-! ## Changes that end one task at most -/

/-- Whether a task has ended does not change, except for its own, and no number is taken back. -/
structure Confines (own : Option Nat) (a b : Admission) : Prop where
  issued : a.issued ≤ b.issued
  hasExited : ∀ id ≤ a.issued, own ≠ some id → b.hasExited id = a.hasExited id

theorem hasExited_eq_all (a : Admission) (id : Nat) :
    a.hasExited id = (a.standing? id).all fun s => s.exit ≠ .running := by
  rw [hasExited, standing?, Option.all_map]
  rfl

theorem Spares.hasExited (h : Spares id a b) : b.hasExited id = a.hasExited id := by
  rw [hasExited_eq_all, hasExited_eq_all, h.standing]

namespace Confines

variable {own : Option Nat}

theorem of_eq (h : b = a) : Confines own a b := by
  rw [h]
  exact ⟨Nat.le_refl _, fun _ _ _ => rfl⟩

theorem of_spares (h : ∀ id, Spares id a b) : Confines none a b :=
  ⟨(h a.issued).issued, fun id _ _ => (h id).hasExited⟩

theorem weaken (h : Confines none a b) (own : Option Nat) : Confines own a b :=
  ⟨h.issued, fun id hid _ => h.hasExited id hid nofun⟩

theorem turn (a : Admission) (t : Ticket) (fromQueue : Bool) :
    Confines none a (a.turn t fromQueue true).2 :=
  ⟨(Spares.turn (Nat.le_refl _) t fromQueue true).issued, fun _ hid _ =>
    (Spares.turn hid t fromQueue true).hasExited⟩

theorem alterTask (a : Admission) (j : Nat) {f : Record → Record}
    (hid : ∀ r, (f r).control.id = r.control.id)
    (hf : ∀ r, (f r).control.exit = r.control.exit) : Confines none a (a.alterTask j f) := by
  refine ⟨Nat.le_refl _, fun id _ _ => ?_⟩
  rw [Admission.hasExited, control?, task?_alterTask a j id hid, Admission.hasExited, control?]
  cases a.task? id with
  | none => rfl
  | some r =>
    show Control.hasExited (if r.control.id = j then f r else r).control = r.control.hasExited
    split
    · rw [Control.hasExited, hf, Control.hasExited]
    · rfl

theorem finish (a : Admission) (j : Nat) (exit : Exit) :
    Confines (some j) a (a.finish j exit).2 :=
  ⟨Nat.le_refl _, fun _ _ hne =>
    (Spares.finish a j exit fun h => absurd (congrArg some h) hne).hasExited⟩

theorem release (a : Admission) (j : Nat) : Confines none a (a.release j) :=
  .of_spares fun _ => Spares.release a j

theorem takeResult (a : Admission) (j : Nat) : Confines none a (a.takeResult j).2 :=
  .of_spares fun _ => Spares.takeResult a j

end Confines

/-- A submission that is admitted gets a number that nobody has, and its task has not ended. -/
theorem fresh_of_turn {t : Ticket} {fromQueue : Bool}
    (h : a.turn t fromQueue true = (.admitted id, b)) :
    a.issued < id ∧ id ≤ b.issued ∧ b.hasExited id = false := by
  obtain ⟨hstanding, hissued⟩ := standing?_of_turn h
  refine ⟨?_, hissued, ?_⟩
  · obtain ⟨-, hturn⟩ | ⟨_, -, -, hturn⟩ | ⟨_, -, -, -, hturn⟩ | ⟨_, -, -, -, hturn⟩ :=
      turn_cases a t fromQueue true <;> rw [hturn] at h <;> cases h
    exact Nat.lt_succ_self _
  · rw [hasExited_eq_all, hstanding]
    rfl

end Admission

/-! ## Steps of others -/

/-- A step that neither ends the task nor tells of its end: one of the task itself on its way, of
another task, of a submission, or of an interrupt that the task heeds in time. -/
def Event.LeavesTo (e : Event) (id : Nat) (a : Admission) : Prop :=
  match e with
  | .finish j _ => j = id → a.hasExited id = true
  | .note j .tellsEnd => j ≠ id
  | _ => True

theorem Traffic.spares_step {s : Traffic} {e : Event} {id : Nat} (hid : id ≤ s.admission.issued)
    (h : e.LeavesTo id s.admission) : Admission.Spares id s.admission (s.step e).admission := by
  have htakes : s.Takes e (s.step e) := s.step_takes e
  generalize s.step e = s' at htakes ⊢
  cases htakes with
  | nothing | sleepsOn => exact .refl id _
  -- A turn may admit a task, but its number is a new one.
  | submits t ticket hasThread => exact .turn hid ticket _ hasThread
  | wakes t behind seen ticket before hasThread => exact .turn hid ticket _ hasThread
  | interrupts => exact .of_tasks_eq (Nat.le_refl _) rfl
  | endsInterrupt t j =>
    obtain ⟨htasks, hissued⟩ := s.admission.tasks_endInterrupt j
    exact .of_tasks_eq (Nat.le_of_eq hissued.symm) htasks
  | cancels j => exact .alterTask s.admission j (fun _ => rfl) fun _ _ => rfl
  | finishes j exit => exact .finish s.admission j exit h
  | releases j => exact .release s.admission j
  | notes j n =>
    cases n with
    | tellsEnd => exact .alterTask s.admission j (fun _ => rfl) fun hj => absurd hj h
    | begins | keeps | blocks | goesOn =>
      exact .alterTask s.admission j (fun _ => rfl) fun _ _ => rfl

end Task
end ScriptSession
