import ScriptSession.Proofs.Task.Traffic

/-!
# The waiting place

The admission marks its waiting place as taken exactly while a submission sleeps behind a task, and
never do two submissions sleep at once (`Traffic.Queues`). A submission takes the place in its first
turn and gives it back in the turn in which nothing is in its way.
-/

namespace ScriptSession
namespace Task

open Concurrency (runFrom_keeps)

namespace Admission

/-- What a turn makes of the waiting place: a submission that is not told to wait gives it back if
it comes from the queue, and one that is told to wait takes it if nobody has it. -/
theorem turn_queues (a : Admission) (t : Ticket) (fromQueue hasThread : Bool) :
    ((∀ id, (a.turn t fromQueue hasThread).1 ≠ .behind id) ∧
      (a.turn t fromQueue hasThread).2.isQueued = (!fromQueue && a.isQueued)) ∨
    (∃ id, (a.turn t fromQueue hasThread).1 = .behind id ∧
      (a.turn t fromQueue hasThread).2.isQueued = (!fromQueue || a.isQueued) ∧
      (fromQueue = false → a.isQueued = false)) := by
  obtain ⟨-, h⟩ | ⟨id, -, rfl, h⟩ | ⟨id, -, rfl, hqueued, h⟩ | ⟨id, -, rfl, hqueued, h⟩ :=
    a.turn_cases t fromQueue hasThread <;> rw [h]
  · left
    cases hasThread <;> cases fromQueue <;> exact ⟨nofun, rfl⟩
  · exact .inr ⟨id, rfl, rfl, nofun⟩
  · exact .inl ⟨nofun, rfl⟩
  · exact .inr ⟨id, rfl, rfl, fun _ => hqueued⟩

theorem isQueued_release (a : Admission) (id : Nat) : (a.release id).isQueued = a.isQueued := by
  rw [release]
  split <;> rfl

theorem isQueued_endInterrupt (a : Admission) (id : Nat) :
    (a.endInterrupt id).2.isQueued = a.isQueued := by
  simp only [endInterrupt]
  split <;> split <;> rfl

end Admission

namespace Traffic

/-- A thread's submission sleeps behind a task. -/
def Sleeps (s : Traffic) (t : Nat) : Prop :=
  ∃ ticket behind before seen, s.calls t = .asleep ticket behind before seen

theorem not_sleeps_of_calls {s : Traffic} {t : Nat} {c : Call} (h : s.calls t = c)
    (hc : ∀ ticket behind before seen, c ≠ .asleep ticket behind before seen) : ¬ s.Sleeps t := by
  rintro ⟨ticket, behind, before, seen, hcall⟩
  exact hc ticket behind before seen (h.symm.trans hcall)

/-- The waiting place is taken exactly while a submission sleeps, and one sleeps at most. -/
structure Queues (s : Traffic) : Prop where
  isQueued_iff : s.admission.isQueued = true ↔ ∃ t, s.Sleeps t
  unique : ∀ t u, s.Sleeps t → s.Sleeps u → t = u

/-! ## One thread changes -/

section
variable {s s' : Traffic} {t : Nat}

/-- Where the same submissions sleep the waiting place is as it was. -/
theorem Queues.of_sleeps_iff (hs : s.Queues)
    (hqueued : s'.admission.isQueued = s.admission.isQueued)
    (hsleeps : ∀ u, s'.Sleeps u ↔ s.Sleeps u) : s'.Queues := by
  refine ⟨?_, fun u v hu hv => hs.unique u v ((hsleeps u).mp hu) ((hsleeps v).mp hv)⟩
  rw [hqueued, hs.isQueued_iff, exists_congr hsleeps]

/-- A thread that is awake afterwards gives the waiting place back if it slept before. -/
theorem Queues.wakes (hs : s.Queues) (hother : ∀ u, u ≠ t → (s'.Sleeps u ↔ s.Sleeps u))
    (hawake : ¬ s'.Sleeps t)
    (hqueued : s'.admission.isQueued = true ↔ ¬ s.Sleeps t ∧ s.admission.isQueued = true) :
    s'.Queues := by
  -- Whoever sleeps afterwards is another thread and slept before.
  have hsame : ∀ u, s'.Sleeps u ↔ s.Sleeps u ∧ u ≠ t := by
    intro u
    by_cases hu : u = t
    · subst hu
      exact iff_of_false hawake fun h => h.2 rfl
    · rw [hother u hu, and_iff_left hu]
  refine ⟨?_, fun u v hu hv => hs.unique u v ((hsame u).mp hu).1 ((hsame v).mp hv).1⟩
  rw [hqueued, hs.isQueued_iff, exists_congr hsame]
  constructor
  · rintro ⟨hbefore, u, hu⟩
    exact ⟨u, hu, fun h => hbefore (h ▸ hu)⟩
  · rintro ⟨u, hu, hne⟩
    exact ⟨fun h => hne (hs.unique u t hu h), u, hu⟩

/-- A thread that is asleep afterwards has the waiting place, which was its own or nobody's. -/
theorem Queues.fallsAsleep (hs : s.Queues) (hother : ∀ u, u ≠ t → (s'.Sleeps u ↔ s.Sleeps u))
    (hasleep : s'.Sleeps t) (hqueued : s'.admission.isQueued = true)
    (hplace : s.Sleeps t ∨ s.admission.isQueued = false) : s'.Queues := by
  have honly : ∀ u, s'.Sleeps u → u = t := by
    intro u hu
    by_contra hne
    have hbefore : s.Sleeps u := (hother u hne).mp hu
    obtain hslept | hfree := hplace
    · exact hne (hs.unique u t hbefore hslept)
    · have htaken : s.admission.isQueued = true := hs.isQueued_iff.mpr ⟨u, hbefore⟩
      rw [hfree] at htaken
      cases htaken
  refine ⟨iff_of_true hqueued ⟨t, hasleep⟩, fun u v hu hv => ?_⟩
  rw [honly u hu, honly v hv]

end

theorem sleeps_update (s : Traffic) (a : Admission) (t : Nat) (c : Call) {u : Nat} (h : u ≠ t) :
    Sleeps ⟨a, Function.update s.calls t c⟩ u ↔ s.Sleeps u := by
  simp only [Sleeps, Function.update_of_ne h]

/-- A call that sleeps neither before nor afterwards leaves the waiting place alone. -/
theorem Queues.update {s : Traffic} (hs : s.Queues) {a : Admission} {t : Nat} {c : Call}
    (hqueued : a.isQueued = s.admission.isQueued) (hbefore : ¬ s.Sleeps t)
    (hc : ∀ ticket behind before seen, c ≠ .asleep ticket behind before seen) :
    Queues ⟨a, Function.update s.calls t c⟩ := by
  refine hs.wakes (fun u hu => sleeps_update s a t c hu)
    (not_sleeps_of_calls (Function.update_self ..) hc) ?_
  rw [and_iff_right hbefore]
  exact hqueued ▸ Iff.rfl

/-! ## Steps -/

/-- A thread takes a turn from the queue exactly if it slept before. -/
theorem queues_takeTurn {s : Traffic} (hs : s.Queues) {t : Nat} {slept : List Nat}
    (hslept : slept.isEmpty = false ↔ s.Sleeps t) (ticket : Ticket) (hasThread : Bool) :
    (s.takeTurn t ticket slept hasThread).Queues := by
  have hother : ∀ u, u ≠ t → ((s.takeTurn t ticket slept hasThread).Sleeps u ↔ s.Sleeps u) :=
    fun u hu => sleeps_update s _ t _ hu
  have hcall : (s.takeTurn t ticket slept hasThread).calls t =
      Call.after ticket slept (s.admission.turn ticket (!slept.isEmpty) hasThread).2.notices
        (s.admission.turn ticket (!slept.isEmpty) hasThread).1 := Function.update_self ..
  obtain ⟨hreply, hqueued⟩ | ⟨id, hreply, hqueued, hplace⟩ :=
    s.admission.turn_queues ticket (!slept.isEmpty) hasThread
  · -- The reply sends it nowhere, so its place is free again if it came from the queue.
    refine hs.wakes hother (not_sleeps_of_calls hcall ?_) ?_
    · intro ticket' behind before seen
      cases hr : (s.admission.turn ticket (!slept.isEmpty) hasThread).1 with
      | behind id => exact absurd hr (hreply id)
      | admitted | refused | unstarted => exact nofun
    · show (s.admission.turn ticket (!slept.isEmpty) hasThread).2.isQueued = true ↔ _
      rw [hqueued, Bool.not_not, Bool.and_eq_true, ← hslept, Bool.not_eq_false]
  · -- It sleeps afterwards: it has kept its place, or taken one that was free.
    refine hs.fallsAsleep hother ⟨ticket, id, slept, _, hcall.trans (by rw [hreply]; rfl)⟩ ?_ ?_
    · show (s.admission.turn ticket (!slept.isEmpty) hasThread).2.isQueued = true
      rw [hqueued, Bool.not_not, Bool.or_eq_true]
      cases hempty : slept.isEmpty with
      | true => exact .inl rfl
      | false => exact .inr (hs.isQueued_iff.mpr ⟨t, hslept.mp hempty⟩)
    · cases hempty : slept.isEmpty with
      | true => exact .inr (hplace (by rw [hempty]; rfl))
      | false => exact .inl (hslept.mp hempty)

theorem queues_step {s : Traffic} (hs : s.Queues) (e : Event) : (s.step e).Queues := by
  have htakes : s.Takes e (s.step e) := s.step_takes e
  generalize s.step e = s' at htakes ⊢
  cases htakes with
  | nothing => exact hs
  | submits t ticket hasThread hcall =>
    exact queues_takeTurn hs (iff_of_false (by simp) (not_sleeps_of_calls hcall (by simp)))
      ticket hasThread
  | sleepsOn t behind seen ticket before _ hcall =>
    have hslept : s.Sleeps t := ⟨ticket, behind, before, seen, hcall⟩
    refine hs.fallsAsleep (fun u hu => sleeps_update s s.admission t _ hu)
      ⟨ticket, behind, before, _, Function.update_self ..⟩ ?_ (.inl hslept)
    exact hs.isQueued_iff.mpr ⟨t, hslept⟩
  | wakes t behind seen ticket before hasThread hcall =>
    exact queues_takeTurn hs (iff_of_true rfl ⟨ticket, behind, before, seen, hcall⟩) ticket
      hasThread
  | interrupts t id hcall => exact hs.update rfl (not_sleeps_of_calls hcall (by simp)) (by simp)
  | endsInterrupt t id hcall =>
    exact hs.update (s.admission.isQueued_endInterrupt id) (not_sleeps_of_calls hcall (by simp))
      (by simp)
  | releases id => exact hs.of_sleeps_iff (s.admission.isQueued_release id) fun _ => Iff.rfl
  | notes id n => cases n <;> exact hs.of_sleeps_iff rfl fun _ => Iff.rfl
  | cancels | finishes => exact hs.of_sleeps_iff rfl fun _ => Iff.rfl

theorem queues_new : new.Queues := by
  have hawake : ∀ t, ¬ new.Sleeps t := fun t => not_sleeps_of_calls (t := t) rfl nofun
  exact ⟨iff_of_false nofun fun ⟨t, ht⟩ => hawake t ht, fun t _ ht => absurd ht (hawake t)⟩

theorem queues_run (events : List Event) : (run events).Queues :=
  runFrom_keeps (P := Queues) queues_new (fun _ e h => queues_step h e) events

end Traffic
end Task
end ScriptSession
