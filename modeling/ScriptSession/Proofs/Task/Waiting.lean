import ScriptSession.Proofs.Task.Traffic

/-!
# Submissions that wait

A submission sleeps behind the tracked task, and when a notice wakes it up it looks only whether
that task is still tracked and has not ended. A task loses its tracked place before its end in one
way: it is computing, so that another submission contends with it and takes the place over
(`Traffic.Overrides`). Main statement: a submission that has slept is admitted after the end of
every task that it slept behind, unless one of them was overridden and goes on
(`Traffic.ended_at_start_iff`).
-/

namespace ScriptSession
namespace Task

open Concurrency (Follows runFrom_relates)

namespace Admission

/-- An end of the task is on record. -/
def HasEnded (a : Admission) (id : Nat) : Prop :=
  ∃ r, a.task? id = some r ∧ r.control.exit ≠ .running

theorem hasEnded_of_hasExited {a : Admission} {id : Nat} (h : (a.task? id).isSome)
    (hexit : a.hasExited id) : a.HasEnded id := by
  obtain ⟨r, hr⟩ := Option.isSome_iff_exists.mp h
  rw [hasExited_of_task? hr, Control.hasExited, decide_eq_true_eq] at hexit
  exact ⟨r, hr, hexit⟩

theorem Extends.hasEnded {a b : Admission} (h : a.Extends b) {id : Nat} (hid : a.HasEnded id) :
    b.HasEnded id := by
  obtain ⟨r, hr, hexit⟩ := hid
  obtain ⟨r', hr', hbecomes⟩ := h.task id r hr
  refine ⟨r', hr', ?_⟩
  rwa [hbecomes.exit hexit]

/-- Where a submission that waits is no longer held up, the task is not tracked or has ended. -/
theorem of_isBlocked_eq_false {a : Admission} {id : Nat} (h : a.isBlocked id = false) :
    a.current ≠ some id ∨ a.hasExited id = true := by
  rw [isBlocked, Bool.and_eq_false_iff, decide_eq_false_iff_not, Bool.not_eq_false'] at h
  exact h

/-- A turn that says to wait names the tracked task, which has not ended. -/
theorem turn_behind {a : Admission} {t : Ticket} {fromQueue hasThread : Bool} {id : Nat}
    (h : (a.turn t fromQueue hasThread).1 = .behind id) :
    (a.turn t fromQueue hasThread).2.current = some id ∧
      ((a.turn t fromQueue hasThread).2.task? id).isSome ∧
      (a.turn t fromQueue hasThread).2.hasExited id = false := by
  obtain ⟨-, hturn⟩ | ⟨j, hj, -, hturn⟩ | ⟨j, -, -, -, hturn⟩ | ⟨j, hj, -, -, hturn⟩ :=
    a.turn_cases t fromQueue hasThread <;> rw [hturn] at h ⊢
  · cases hasThread <;> cases h
  · cases h
    exact of_decide_queue hj
  · cases h
  · cases h
    exact of_decide_queue hj

/-- A task that a turn says to wait behind is in the way. -/
theorem isBlocked_turn {a : Admission} {t : Ticket} {fromQueue hasThread : Bool} {id : Nat}
    (h : (a.turn t fromQueue hasThread).1 = .behind id) :
    (a.turn t fromQueue hasThread).2.isBlocked id = true := by
  obtain ⟨hcurrent, -, hexit⟩ := turn_behind h
  rw [isBlocked, hcurrent, hexit, decide_eq_true rfl]
  rfl

end Admission

namespace Traffic

/-! ## Losing the tracked place -/

/-- A submission takes the tracked place of a task that has not ended. -/
def Overrides (s : Traffic) (e : Event) (id : Nat) : Prop :=
  s.admission.current = some id ∧ s.admission.hasExited id = false ∧
    ∃ other, (s.step e).admission.current = some other ∧ other ≠ id

/-- A submission has taken the tracked place of the task before its end. -/
def Overridden (events : List Event) (id : Nat) : Prop :=
  ∃ past e, Follows past e events ∧ (run past).Overrides e id

theorem Overridden.trans_prefix {events more : List Event} {id : Nat} (h : Overridden events id)
    (hmore : events <+: more) : Overridden more id := by
  obtain ⟨past, e, hfollows, hoverrides⟩ := h
  exact ⟨past, e, hfollows.trans_prefix hmore, hoverrides⟩

/-- A tracked task that has not ended stays tracked, or another one takes its place. -/
theorem current_of_change {s : Traffic} (hs : s.admission.Numbered) {e : Event} {a : Admission}
    {id : Nat} (hid : s.admission.current = some id) (hexit : s.admission.hasExited id = false)
    (h : s.Change e a) : a.current = some id ∨ ∃ other, a.current = some other ∧ other ≠ id := by
  cases h with
  | nothing => exact .inl hid
  | turn _ ticket fromQueue hasThread =>
    obtain ⟨-, hcurrent⟩ | ⟨-, -, -, hcurrent⟩ :=
      s.admission.turn_tracks ticket fromQueue hasThread
    · exact .inl (hcurrent.trans hid)
    · -- The number of the task that is admitted has no record yet.
      refine .inr ⟨_, hcurrent, ?_⟩
      rintro rfl
      have hsome : (s.admission.task? s.admission.nextId).isSome := hs.tracked _ hid
      rw [hs.task?_nextId] at hsome
      cases hsome
  | interrupt => exact .inl hid
  | endInterrupt t j _ hj =>
    obtain ⟨hcurrent, -, -⟩ | ⟨-, -, hcurrent⟩ := s.admission.endInterrupt_cases j
    · rw [hid] at hcurrent
      cases hcurrent
      rw [hexit] at hj
      cases hj
    · exact .inl (hcurrent.trans hid)
  | release j hj =>
    obtain ⟨hcurrent, -, -⟩ | ⟨-, -, hcurrent⟩ := s.admission.release_cases j
    · -- A thread leaves only after its task has ended.
      rw [hid] at hcurrent
      cases hcurrent
      obtain ⟨r, hr⟩ := Option.isSome_iff_exists.mp (hs.tracked _ hid)
      rw [Admission.hasExited_of_task? hr] at hexit
      simp [Admission.mayLeave, hr, hexit] at hj
    · exact .inl (hcurrent.trans hid)
  | record => exact .inl hid

/-- A tracked task stays tracked until it has ended or is overridden. -/
theorem current_step {s : Traffic} (hs : s.admission.Numbered) {id : Nat}
    (hid : s.admission.current = some id) (e : Event) :
    (s.step e).admission.current = some id ∨ s.admission.HasEnded id ∨ s.Overrides e id := by
  by_cases hexit : s.admission.hasExited id = true
  · exact .inr (.inl (Admission.hasEnded_of_hasExited (hs.tracked id hid) hexit))
  · rw [Bool.not_eq_true] at hexit
    obtain hsame | hother := current_of_change hs hid hexit (s.step_change e)
    · exact .inl hsame
    · exact .inr (.inr ⟨hid, hexit, hother⟩)

/-- A task is overridden while it computes: it is neither blocked nor exclusive, and nobody
interrupts it. -/
theorem of_overrides {s : Traffic} {e : Event} {id : Nat} (h : s.Overrides e id) :
    ∃ r, s.admission.task? id = some r ∧ r.control.holdsQueue = false ∧
      s.admission.phase ≠ .interrupting := by
  obtain ⟨hid, hexit, other, hother, hne⟩ := h
  have hchange : s.Change e (s.step e).admission := s.step_change e
  generalize (s.step e).admission = a at hchange hother
  -- The tracked task changes to another one, and only an admission does that.
  have hsame : a.current ≠ s.admission.current := by
    rw [hother, hid]
    exact fun heq => hne (Option.some.inj heq)
  cases hchange with
  | nothing => exact absurd rfl hsame
  | turn _ ticket fromQueue hasThread =>
    obtain ⟨-, hcurrent⟩ | ⟨hfree, -, -, -⟩ := s.admission.turn_tracks ticket fromQueue hasThread
    · exact absurd hcurrent hsame
    · cases hdecide : s.admission.decide with
      | start =>
        rw [Admission.hasExited_of_decide_start hdecide hid] at hexit
        cases hexit
      | queue j => exact absurd hdecide (hfree j)
      | contend title =>
        obtain ⟨j, r, hj, hr, -, hphase, hqueue⟩ := Admission.of_decide_contend hdecide
        rw [hid] at hj
        cases hj
        exact ⟨r, hr, hqueue, hphase⟩
  | interrupt => exact absurd rfl hsame
  | endInterrupt t j =>
    obtain ⟨-, -, hcurrent⟩ | ⟨-, -, hcurrent⟩ := s.admission.endInterrupt_cases j
    · rw [hcurrent] at hother
      cases hother
    · exact absurd hcurrent hsame
  | release j =>
    obtain ⟨-, -, hcurrent⟩ | ⟨-, -, hcurrent⟩ := s.admission.release_cases j
    · rw [hcurrent] at hother
      cases hother
    · exact absurd hcurrent hsame
  | record => exact absurd rfl hsame

/-- The records at the end of a run extend those at its beginnings. -/
theorem extends_run {past events : List Event} (h : past <+: events) :
    (run past).admission.Extends (run events).admission :=
  runFrom_relates (R := fun s s' : Traffic => s.admission.Extends s'.admission) (fun _ => .refl _)
    (fun _ _ _ => .trans) (fun past e => extends_step (numbered_run past) e) h

/-- An overridden task is not exclusive. -/
theorem Overridden.isExclusive {events : List Event} {id : Nat} (h : Overridden events id) :
    ∃ r, (run events).admission.task? id = some r ∧ r.control.isExclusive = false := by
  obtain ⟨past, e, hfollows, hoverrides⟩ := h
  obtain ⟨r, hr, hqueue, -⟩ := of_overrides hoverrides
  have hpast : past <+: events := (List.prefix_append past [e]).trans hfollows
  obtain ⟨r', hr', hbecomes⟩ := (extends_run hpast).task id r hr
  rw [Control.holdsQueue, Bool.or_eq_false_iff] at hqueue
  exact ⟨r', hr', hbecomes.isExclusive.trans hqueue.2⟩

/-! ## Sleeping -/

/-- The thread sleeps, and the task that it sleeps behind holds it up no longer. -/
def LooksPast (s : Traffic) (t : Nat) (slept : List Nat) : Prop :=
  ∃ ticket behind before seen, s.calls t = .asleep ticket behind before seen ∧
    s.admission.isBlocked behind = false ∧ slept = behind :: before

/-- A thread that sleeps after a turn sleeps behind the task that is tracked then. -/
theorem asleep_takeTurn {s : Traffic} {t : Nat} {ticket : Ticket} {slept : List Nat}
    {hasThread : Bool} {ticket' : Ticket} {behind : Nat} {before : List Nat} {seen : Nat}
    (h : (s.takeTurn t ticket slept hasThread).calls t = .asleep ticket' behind before seen) :
    (s.takeTurn t ticket slept hasThread).admission.current = some behind ∧
      ((s.takeTurn t ticket slept hasThread).admission.task? behind).isSome ∧ before = slept := by
  simp only [takeTurn, Function.update_self] at h
  cases hreply : (s.admission.turn ticket (!slept.isEmpty) hasThread).1 with
  | behind id =>
    rw [hreply, Call.after] at h
    cases h
    obtain ⟨hcurrent, hsome, -⟩ := Admission.turn_behind hreply
    exact ⟨hcurrent, hsome, rfl⟩
  | admitted | refused | unstarted =>
    rw [hreply, Call.after] at h
    cases h

/-- A thread that sleeps after a step slept behind the same task before, or sleeps behind the task
that is tracked now and has looked past those that it slept behind before. -/
theorem asleep_step {s : Traffic} {e : Event} {t : Nat} {ticket : Ticket} {behind : Nat}
    {before : List Nat} {seen : Nat} (h : (s.step e).calls t = .asleep ticket behind before seen) :
    (∃ seen', s.calls t = .asleep ticket behind before seen') ∨
      ((s.step e).admission.current = some behind ∧
        ((s.step e).admission.task? behind).isSome ∧
        (before = [] ∨ s.LooksPast t before)) := by
  by_cases hthread : e.thread? = some t
  · have htakes : s.Takes e (s.step e) := s.step_takes e
    generalize s.step e = s' at htakes h ⊢
    -- The step is one of the thread that sleeps afterwards.
    cases htakes with
    | nothing => exact .inl ⟨seen, h⟩
    | submits =>
      cases hthread
      obtain ⟨hcurrent, hsome, hbefore⟩ := asleep_takeTurn h
      exact .inr ⟨hcurrent, hsome, .inl hbefore⟩
    | sleepsOn u behind' seen' ticket' before' _ hcall =>
      cases hthread
      simp only [call, Function.update_self] at h
      cases h
      exact .inl ⟨seen', hcall⟩
    | wakes u behind' seen' ticket' before' _ hcall hfree =>
      cases hthread
      obtain ⟨hcurrent, hsome, hbefore⟩ := asleep_takeTurn h
      exact .inr ⟨hcurrent, hsome, .inr ⟨ticket', behind', before', seen', hcall, hfree, hbefore⟩⟩
    | interrupts | endsInterrupt =>
      cases hthread
      simp only [Function.update_self] at h
      cases h
    | cancels | finishes | releases | notes => cases hthread
  · rw [s.calls_step_of_ne e hthread] at h
    exact .inl ⟨seen, h⟩

/-- The task holds nobody up: it has ended, or it has been overridden. -/
def Settled (events : List Event) (id : Nat) : Prop :=
  (run events).admission.HasEnded id ∨ Overridden events id

theorem Settled.concat {events : List Event} {id : Nat} (h : Settled events id) (e : Event) :
    Settled (events ++ [e]) id := by
  have hmore : events <+: events ++ [e] := List.prefix_append events [e]
  obtain hended | hoverridden := h
  · exact .inl ((extends_run hmore).hasEnded hended)
  · exact .inr (hoverridden.trans_prefix hmore)

/-- Of the tasks that a sleeping thread has slept behind, those before the last one are settled, and
the last one is still tracked or settled. -/
def Waits (events : List Event) : Prop :=
  ∀ t ticket behind before seen, (run events).calls t = .asleep ticket behind before seen →
    ((run events).admission.task? behind).isSome ∧
      ((run events).admission.current = some behind ∨ Settled events behind) ∧
      ∀ id ∈ before, Settled events id

/-- All tasks are settled that a thread has slept behind and looks past. -/
theorem Waits.settled {events : List Event} (h : Waits events) {t : Nat} {slept : List Nat}
    (hpast : (run events).LooksPast t slept) : ∀ id ∈ slept, Settled events id := by
  obtain ⟨ticket, behind, before, seen, hcall, hblocked, rfl⟩ := hpast
  obtain ⟨hsome, hbehind, hbefore⟩ := h t ticket behind before seen hcall
  intro id hid
  obtain rfl | hid := List.mem_cons.mp hid
  · obtain hcurrent | hsettled := hbehind
    · obtain hother | hexit := Admission.of_isBlocked_eq_false hblocked
      · exact absurd hcurrent hother
      · exact .inl (Admission.hasEnded_of_hasExited hsome hexit)
    · exact hsettled
  · exact hbefore id hid

theorem waits_run (events : List Event) : Waits events := by
  -- From the end: what is settled refers to the whole run, which grows by its last event.
  induction events using List.reverseRecOn with
  | nil =>
    intro t ticket behind before seen h
    cases h
  | append_singleton past e ih =>
    intro t ticket behind before seen h
    have hnumbered : (run past).admission.Numbered := numbered_run past
    rw [run_concat] at h ⊢
    obtain ⟨seen', hcall⟩ | ⟨hcurrent, hsome, hbefore⟩ := asleep_step h
    · -- It sleeps on behind the same task, which this step may end or override.
      obtain ⟨hsome, hbehind, hbefore⟩ := ih t ticket behind before seen' hcall
      refine ⟨(extends_step hnumbered e).task?_isSome hsome, ?_,
        fun id hid => (hbefore id hid).concat e⟩
      obtain hcurrent | hsettled := hbehind
      · obtain hsame | hended | hoverrides := current_step hnumbered hcurrent e
        · exact .inl hsame
        · exact .inr (Settled.concat (.inl hended) e)
        · exact .inr (.inr ⟨past, e, List.prefix_refl _, hoverrides⟩)
      · exact .inr (hsettled.concat e)
    · -- It has just fallen asleep, behind the task that is tracked now.
      refine ⟨hsome, .inl hcurrent, fun id hid => ?_⟩
      obtain rfl | hpast := hbefore
      · cases hid
      · exact (ih.settled hpast id hid).concat e

/-! ## Main statement -/

/-- A thread's submission has slept behind some tasks, the last one first, and is admitted when the
thread wakes up now. -/
def Starts (s : Traffic) (t : Nat) (slept : List Nat) : Prop :=
  ∃ ticket behind before seen, s.calls t = .asleep ticket behind before seen ∧
    (s.step (.wake t true)).admission.current = some s.admission.nextId ∧ slept = behind :: before

theorem Starts.looksPast {s : Traffic} (hs : s.admission.Numbered) {t : Nat} {slept : List Nat}
    (h : s.Starts t slept) : s.LooksPast t slept := by
  obtain ⟨ticket, behind, before, seen, hcall, hcurrent, hslept⟩ := h
  refine ⟨ticket, behind, before, seen, hcall, ?_, hslept⟩
  by_contra hblocked
  rw [Bool.not_eq_false] at hblocked
  have hsame : (s.step (.wake t true)).admission = s.admission := by
    simp only [step, hcall, hblocked, if_true]
    split <;> rfl
  -- It would be tracked already under a number that has not been given out.
  rw [hsame] at hcurrent
  have hsome : (s.admission.task? s.admission.nextId).isSome := hs.tracked _ hcurrent
  rw [hs.task?_nextId] at hsome
  cases hsome

/-- When a submission that has slept is admitted, and from then on, all tasks that it slept behind
have ended if and only if those of them have that were overridden before. In any case the exclusive
ones have. -/
theorem ended_at_start_iff (events more : List Event) (t : Nat) (slept : List Nat)
    (h : (run events).Starts t slept) (hmore : events <+: more) :
    ((∀ id ∈ slept, (run more).admission.HasEnded id) ↔
        ∀ id ∈ slept, Overridden events id → (run more).admission.HasEnded id) ∧
      ∀ id ∈ slept, ∃ r, (run more).admission.task? id = some r ∧
        (r.control.isExclusive → r.control.exit ≠ .running) := by
  have hsettled : ∀ id ∈ slept, Settled events id :=
    (waits_run events).settled (h.looksPast (numbered_run events))
  -- Whatever it slept behind has ended by now or has been overridden, and ends are final.
  refine ⟨⟨fun hended id hid _ => hended id hid, fun hended id hid => ?_⟩, fun id hid => ?_⟩
  · obtain hnow | hoverridden := hsettled id hid
    · exact (extends_run hmore).hasEnded hnow
    · exact hended id hid hoverridden
  · obtain hnow | hoverridden := hsettled id hid
    · obtain ⟨r, hr, hexit⟩ := (extends_run hmore).hasEnded hnow
      exact ⟨r, hr, fun _ => hexit⟩
    · obtain ⟨r, hr, hshared⟩ := (hoverridden.trans_prefix hmore).isExclusive
      refine ⟨r, hr, fun hexclusive => ?_⟩
      rw [hshared] at hexclusive
      cases hexclusive

/-- A submission sleeps behind a blocked task and is admitted after its end. -/
theorem ended_at_start_after_block :
    let events : List Event := [.submit 0 ⟨"a", false, none⟩ true, .note 1 .blocks,
      .submit 1 ⟨"b", false, none⟩ true, .note 1 .goesOn, .finish 1 .completed, .release 1]
    (run events).Starts 1 [1] ∧
      ((∀ id ∈ [1], (run events).admission.HasEnded id) ↔
        ∀ id ∈ [1], Overridden events id → (run events).admission.HasEnded id) := by
  intro events
  have hstarts : (run events).Starts 1 [1] := ⟨⟨"b", false, none⟩, 1, [], 0, rfl, rfl, rfl⟩
  exact ⟨hstarts, (ended_at_start_iff events events 1 [1] hstarts (List.prefix_refl _)).1⟩

/-- While a submission sleeps behind a task, the task goes on, another submission overrides it and
its task ends: the work of the sleeping one begins beside the task that it slept behind. -/
theorem start_while_running :
    let s := run [.submit 0 ⟨"a", false, none⟩ true, .note 1 .blocks,
      .submit 1 ⟨"b", false, none⟩ true, .note 1 .goesOn, .submit 2 ⟨"c", false, none⟩ true,
      .finish 2 .completed, .release 2]
    let s' := (s.step (.wake 1 true)).step (.note 3 .begins)
    s.Starts 1 [1] ∧ (s'.admission.task? 3).map (·.hasBegun) = some true ∧
      (s'.admission.control? 1).map (·.exit) = some .running :=
  ⟨⟨⟨"b", false, none⟩, 1, [], 0, rfl, rfl, rfl⟩, rfl, rfl⟩

end Traffic
end Task
end ScriptSession
