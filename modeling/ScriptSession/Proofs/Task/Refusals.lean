import ScriptSession.Proofs.Task.Interrupts
import ScriptSession.Proofs.Task.Queue

/-!
# Refusals

Which submissions are refused, and what becomes of the one that waits. A submission is refused in
its first turn or never: the second one that would have to wait is, and leaves no trace. The one
that waits keeps the waiting place until a turn in which nothing is in its way. In that turn it
takes a number and gives the place back before anything is tracked, so the place is free also when
no thread can be started for its task.

Main statement: all this holds after any run (`Traffic.refuses_run`).
-/

namespace ScriptSession
namespace Task

/-! ## Turns -/

namespace Admission

/-- A task holds submissions up: it is tracked, has not ended, and is being interrupted, blocked or
exclusive. -/
def HoldsUp (a : Admission) (id : Nat) : Prop :=
  a.current = some id ∧ ∃ r, a.task? id = some r ∧ r.control.hasExited = false ∧
    (a.phase = .interrupting ∨ r.control.isWaiting = true ∨ r.control.isExclusive = true)

theorem decide_eq_queue_iff {a : Admission} {id : Nat} : a.decide = .queue id ↔ a.HoldsUp id := by
  constructor
  · intro h
    cases h ▸ a.decides with
    | queue _ r hcurrent hr hexit hbusy =>
      exact ⟨hcurrent, r, hr, hexit, by simpa [Control.holdsQueue] using hbusy⟩
  · rintro ⟨hcurrent, r, hr, hexit, hbusy⟩
    have hid : r.control.id = id := id_of_task? hr
    have htracked : a.tracked? = some r.control := by
      rw [tracked?, hcurrent, Option.bind_some, control?, hr, Option.map_some]
    rw [decide, htracked]
    dsimp only
    rw [hexit, if_neg Bool.false_ne_true, if_pos (by simpa [Control.holdsQueue] using hbusy), hid]

/-- A turn refuses a submission that has not waited yet, when a task holds it up and another one
waits already. -/
theorem turn_fst_eq_refused_iff {a : Admission} {t : Ticket} {fromQueue hasThread : Bool} :
    (a.turn t fromQueue hasThread).1 = .refused ↔
      fromQueue = false ∧ (∃ id, a.HoldsUp id) ∧ a.isQueued = true := by
  simp only [← decide_eq_queue_iff]
  obtain ⟨hfree, h⟩ | ⟨id, hqueue, rfl, h⟩ | ⟨id, hqueue, rfl, htaken, h⟩ |
    ⟨id, hqueue, rfl, hfree, h⟩ := turn_cases a t fromQueue hasThread <;> rw [h]
  · refine iff_of_false ?_ fun h => h.2.1.elim hfree
    cases hasThread <;> nofun
  · exact iff_of_false nofun nofun
  · exact iff_of_true rfl ⟨rfl, ⟨id, hqueue⟩, htaken⟩
  · exact iff_of_false nofun fun h => nomatch hfree.symm.trans h.2.2

/-- A turn that refuses changes nothing. -/
theorem turn_of_refused {a : Admission} {t : Ticket} {fromQueue hasThread : Bool}
    (h : (a.turn t fromQueue hasThread).1 = .refused) :
    a.turn t fromQueue hasThread = (.refused, a) := by
  obtain ⟨-, heq⟩ | ⟨id, -, -, heq⟩ | ⟨id, -, -, -, heq⟩ | ⟨id, -, -, -, heq⟩ :=
    turn_cases a t fromQueue hasThread <;> rw [heq] at h ⊢
  · cases hasThread <;> cases h
  · cases h
  · cases h

end Admission

namespace Traffic

/-! ## Replies -/

/-- What a submission is told in a step, if it takes a turn in it. -/
def reply? (s : Traffic) : Event → Option Reply
  | .submit t ticket hasThread =>
    if s.calls t = .none then some (s.admission.turn ticket false hasThread).1 else none
  | .wake t hasThread =>
    match s.calls t with
    | .asleep ticket behind _ seen =>
      if s.admission.notices = seen ∨ s.admission.isBlocked behind then none
      else some (s.admission.turn ticket true hasThread).1
    | _ => none
  | _ => none

/-- A sleeping submission that is not held up any more by the task it slept behind takes a turn. -/
theorem step_wake {s : Traffic} {t behind seen : Nat} {ticket : Ticket} {before : List Nat}
    {hasThread : Bool} (hcall : s.calls t = .asleep ticket behind before seen)
    (hseen : s.admission.notices ≠ seen) (hfree : ¬ s.admission.isBlocked behind = true) :
    s.step (.wake t hasThread) = s.takeTurn t ticket (behind :: before) hasThread := by
  simp only [step, hcall, hseen, hfree, if_false, Bool.false_eq_true]

/-- A reply is that of a turn, and what the thread does next follows from it. -/
theorem turn_of_reply? {s : Traffic} {e : Event} {reply : Reply} (h : s.reply? e = some reply) :
    ∃ t ticket slept hasThread, e.thread? = some t ∧
      s.admission.turn ticket (!slept.isEmpty) hasThread = (reply, (s.step e).admission) ∧
      (s.step e).calls t = Call.after ticket slept (s.step e).admission.notices reply := by
  -- A submission comes from the queue when it has slept before.
  have htake (t : Nat) (ticket : Ticket) (slept : List Nat) (hasThread : Bool)
      (hreply : (s.admission.turn ticket (!slept.isEmpty) hasThread).1 = reply) :
      s.admission.turn ticket (!slept.isEmpty) hasThread =
          (reply, (s.takeTurn t ticket slept hasThread).admission) ∧
        (s.takeTurn t ticket slept hasThread).calls t = Call.after ticket slept
          (s.takeTurn t ticket slept hasThread).admission.notices reply :=
    hreply ▸ ⟨rfl, Function.update_self ..⟩
  cases e with
  | submit t ticket hasThread =>
    rw [reply?] at h
    split at h
    · rename_i hcall
      rw [step, if_pos hcall]
      exact ⟨t, ticket, [], hasThread, rfl, htake t ticket [] hasThread (Option.some.inj h)⟩
    · cases h
  | wake t hasThread =>
    rw [reply?] at h
    split at h
    · rename_i ticket behind before seen hcall
      split at h
      · cases h
      · rename_i hfree
        obtain ⟨hseen, hfree⟩ := not_or.mp hfree
        rw [step_wake hcall hseen hfree]
        exact ⟨t, ticket, behind :: before, hasThread, rfl,
          htake t ticket (behind :: before) hasThread (Option.some.inj h)⟩
    · cases h
  | interrupt | endInterrupt | cancel | finish | release | note => cases h

/-! ## The waiting place -/

/-- A submission leaves the queue in a step: it takes a number and frees the waiting place, and then
its task is tracked if it finds a thread. -/
def LeavesQueue (s : Traffic) (t : Nat) (e : Event) : Prop :=
  ∃ hasThread ticket behind before seen, e = .wake t hasThread ∧
    s.calls t = .asleep ticket behind before seen ∧
    s.reply? e = some (if hasThread then .admitted s.admission.nextId else .unstarted) ∧
    let freed := { s.admission with issued := s.admission.nextId, isQueued := false }
    s.step e = ⟨if hasThread then freed.track s.admission.nextId ticket else freed,
      Function.update s.calls t .none⟩ ∧
    (s.step e).admission.isQueued = false ∧ ¬ (s.step e).Sleeps t

/-- How submissions are refused, and how the one that waits goes on. A reply is that of a turn of
the admission. -/
structure Refuses (s : Traffic) : Prop where
  told : ∀ e reply, s.reply? e = some reply → ∃ t ticket slept hasThread, e.thread? = some t ∧
    s.admission.turn ticket (!slept.isEmpty) hasThread = (reply, (s.step e).admission) ∧
    (s.step e).calls t = Call.after ticket slept (s.step e).admission.notices reply
  single : ∀ t u, s.Sleeps t → s.Sleeps u → t = u
  isQueued_iff : s.admission.isQueued = true ↔ ∃ t, s.Sleeps t
  refused_iff : ∀ e, s.reply? e = some .refused ↔
    ∃ t ticket hasThread, e = .submit t ticket hasThread ∧ s.calls t = .none ∧
      (∃ id, s.admission.HoldsUp id) ∧ ∃ u, u ≠ t ∧ s.Sleeps u
  interrupted : s.admission.phase = .interrupting →
    ∃ t id, s.calls t = .interrupting id ∧ s.admission.current = some id
  unchanged : ∀ e, s.reply? e = some .refused → s.step e = s
  holder : ∀ t, s.Sleeps t → ∀ e, (e.thread? = some t → s.reply? e ≠ some .refused) ∧
    ((s.step e).Sleeps t ∨ s.LeavesQueue t e)

/-- Where the waiting place is taken by the one that sleeps, the next one that a task holds up is
refused. -/
theorem reply?_eq_refused_iff {s : Traffic} (hs : s.Queues) (e : Event) :
    s.reply? e = some .refused ↔
      ∃ t ticket hasThread, e = .submit t ticket hasThread ∧ s.calls t = .none ∧
        (∃ id, s.admission.HoldsUp id) ∧ ∃ u, u ≠ t ∧ s.Sleeps u := by
  constructor
  · intro h
    cases e with
    | submit t ticket hasThread =>
      rw [reply?] at h
      split at h
      · rename_i hcall
        obtain ⟨-, hheld, hqueued⟩ := Admission.turn_fst_eq_refused_iff.mp (Option.some.inj h)
        obtain ⟨u, hu⟩ := hs.isQueued_iff.mp hqueued
        refine ⟨t, ticket, hasThread, rfl, hcall, hheld, u, ?_, hu⟩
        rintro rfl
        exact not_sleeps_of_calls hcall nofun hu
      · cases h
    | wake t hasThread =>
      -- One that comes from the queue has a place already and is not refused.
      rw [reply?] at h
      split at h
      · split at h
        · cases h
        · obtain ⟨hfirst, -⟩ := Admission.turn_fst_eq_refused_iff.mp (Option.some.inj h)
          cases hfirst
      · cases h
    | interrupt | endInterrupt | cancel | finish | release | note => cases h
  · rintro ⟨t, ticket, hasThread, rfl, hcall, hheld, u, -, hu⟩
    rw [reply?, if_pos hcall, Option.some_inj]
    exact Admission.turn_fst_eq_refused_iff.mpr ⟨rfl, hheld, hs.isQueued_iff.mpr ⟨u, hu⟩⟩

theorem step_of_refused {s : Traffic} (hs : s.Queues) {e : Event}
    (h : s.reply? e = some .refused) : s.step e = s := by
  obtain ⟨t, ticket, hasThread, rfl, hcall, hheld, u, -, hu⟩ := (reply?_eq_refused_iff hs e).mp h
  have hturn : s.admission.turn ticket false hasThread = (.refused, s.admission) :=
    Admission.turn_of_refused
      (Admission.turn_fst_eq_refused_iff.mpr ⟨rfl, hheld, hs.isQueued_iff.mpr ⟨u, hu⟩⟩)
  have hcalls : Function.update s.calls t .none = s.calls :=
    Function.update_eq_self_iff.mpr hcall.symm
  rw [step, if_pos hcall, takeTurn]
  simp only [List.isEmpty_nil, Bool.not_true, hturn, Call.after, hcalls]

/-- In a turn from the queue a submission sleeps on or leaves it. -/
theorem wake_cases {s : Traffic} {t behind seen : Nat} {ticket : Ticket} {before : List Nat}
    (hcall : s.calls t = .asleep ticket behind before seen) (hasThread : Bool) :
    (s.step (.wake t hasThread)).Sleeps t ∨ s.LeavesQueue t (.wake t hasThread) := by
  by_cases hseen : s.admission.notices = seen
  · left
    simp only [step, hcall, hseen, if_true]
    exact ⟨ticket, behind, before, seen, hcall⟩
  by_cases hblocked : s.admission.isBlocked behind = true
  · left
    simp only [step, hcall, hseen, hblocked, if_true, if_false]
    exact ⟨ticket, behind, before, _, Function.update_self ..⟩
  have hstep : s.step (.wake t hasThread) = s.takeTurn t ticket (behind :: before) hasThread :=
    step_wake hcall hseen hblocked
  have hreply : s.reply? (.wake t hasThread) =
      some (s.admission.turn ticket true hasThread).1 := by
    simp only [reply?, hcall, hseen, hblocked, Bool.false_eq_true, or_self, if_false]
  have htake : s.takeTurn t ticket (behind :: before) hasThread =
      ⟨(s.admission.turn ticket true hasThread).2,
        Function.update s.calls t (Call.after ticket (behind :: before)
          (s.admission.turn ticket true hasThread).2.notices
          (s.admission.turn ticket true hasThread).1)⟩ := rfl
  rw [htake] at hstep
  obtain ⟨-, hturn⟩ | ⟨id, -, -, hturn⟩ | ⟨_, -, hfirst, -⟩ | ⟨_, -, hfirst, -⟩ :=
    s.admission.turn_cases ticket true hasThread
  · -- Nothing is in its way.
    right
    rw [hturn] at hstep hreply
    refine ⟨hasThread, ticket, behind, before, seen, rfl, hcall, ?_⟩
    rw [hstep, hreply]
    have hawake (a : Admission) : ¬ Sleeps ⟨a, Function.update s.calls t .none⟩ t :=
      not_sleeps_of_calls (Function.update_self ..) (by simp)
    cases hasThread <;> exact ⟨rfl, rfl, rfl, hawake _⟩
  · left
    rw [hstep, hturn]
    exact ⟨ticket, id, behind :: before, _, Function.update_self ..⟩
  · cases hfirst
  · cases hfirst

/-- A submission that waits sleeps on in every step but the one in which it leaves the queue. -/
theorem sleeps_or_leavesQueue {s : Traffic} {t : Nat} (h : s.Sleeps t) (e : Event) :
    (s.step e).Sleeps t ∨ s.LeavesQueue t e := by
  obtain ⟨ticket, behind, before, seen, hcall⟩ := h
  by_cases hthread : e.thread? = some t
  · cases e with
    | wake u hasThread =>
      cases hthread
      exact wake_cases hcall hasThread
    | submit u | interrupt u | endInterrupt u =>
      -- A thread that sleeps can do nothing but look again.
      cases hthread
      left
      simp only [step, hcall, reduceCtorEq, if_false]
      exact ⟨ticket, behind, before, seen, hcall⟩
    | cancel | finish | release | note => cases hthread
  · exact .inl ⟨ticket, behind, before, seen, (s.calls_step_of_ne e hthread).trans hcall⟩

/-! ## Main statement -/

/-- After any run one submission waits at most. A submission is refused exactly if it comes while
one task holds submissions up and another submission waits, and then nothing changes. The one that
waits is not refused, and gives its place back before its task is tracked. -/
theorem refuses_run (events : List Event) : (run events).Refuses := by
  have hqueues := queues_run events
  refine ⟨fun _ _ => turn_of_reply?, hqueues.unique, hqueues.isQueued_iff,
    reply?_eq_refused_iff hqueues, marked_run events, fun _ => step_of_refused hqueues,
    fun t hsleeps e => ⟨fun hthread hrefused => ?_, sleeps_or_leavesQueue hsleeps e⟩⟩
  obtain ⟨u, ticket, hasThread, rfl, hcall, -⟩ := (reply?_eq_refused_iff hqueues e).mp hrefused
  cases hthread
  exact not_sleeps_of_calls hcall nofun hsleeps

/-- The second submission behind an exclusive task is refused. The first one wakes when the task is
done, finds no thread for its own task, and leaves the place free. -/
example :
    let start : List Event :=
      [.submit 0 ⟨"a", true, none⟩ true, .submit 1 ⟨"b", false, none⟩ true]
    let s := run (start ++ [.finish 1 .completed, .release 1])
    (run start).reply? (.submit 2 ⟨"c", false, none⟩ true) = some .refused ∧
      s.reply? (.wake 1 false) = some .unstarted ∧
      s.admission.isQueued = true ∧ (s.step (.wake 1 false)).admission.isQueued = false := by
  decide

end Traffic
end Task
end ScriptSession
