import ScriptSession.Proofs.Task.Traffic
import ScriptSession.Proofs.Task.Turns

/-!
# Interrupts and the idle phase

The phase of an admission and its tracked task say the same thing when the phase is idle exactly
while nothing is tracked. Every step keeps this but one: an interrupt whose task is no longer
tracked ends while the tracked task is being interrupted by somebody else, and declares the
admission idle under that task. Main statement: a run agrees with itself from beginning to end
exactly when no interrupt in it crosses another one in this way (`Traffic.agrees_along_iff`).
-/

namespace ScriptSession
namespace Task

open Concurrency (Follows runFrom_keeps runFrom_keeps_of)

namespace Admission

/-- The admission is idle exactly while it tracks nothing. -/
def Agrees (a : Admission) : Prop := a.phase = .idle ↔ a.current = none

end Admission

namespace Traffic

/-- An interrupt ends whose task is no longer tracked, while the tracked task is being
interrupted. -/
def Crosses (s : Traffic) : Event → Prop
  | .endInterrupt t => ∃ id other, s.calls t = .interrupting id ∧ s.admission.hasExited id = true ∧
      s.admission.phase = .interrupting ∧ s.admission.current = some other ∧ other ≠ id
  | _ => False

/-! ## Agreement -/

/-- Whatever is not the end of an interrupt keeps phase and tracked task in agreement. -/
theorem agrees_of_change {s : Traffic} {e : Event} {a : Admission} (hs : s.admission.Agrees)
    (hne : ∀ t, e ≠ .endInterrupt t) (h : s.Change e a) : a.Agrees := by
  rw [Admission.Agrees] at hs ⊢
  cases h with
  | nothing => exact hs
  | turn _ ticket fromQueue hasThread =>
    obtain ⟨hphase, hcurrent⟩ | ⟨-, -, hphase, hcurrent⟩ :=
      s.admission.turn_tracks ticket fromQueue hasThread
    · rwa [hphase, hcurrent]
    · rw [hphase, hcurrent]
      exact ⟨nofun, nofun⟩
  | interrupt t id hid =>
    -- Only a tracked task can be interrupted, so neither side holds.
    show Phase.interrupting = .idle ↔ s.admission.current = none
    rw [hid]
    exact ⟨nofun, nofun⟩
  | endInterrupt t => exact absurd rfl (hne t)
  | release id =>
    obtain ⟨-, hphase, hcurrent⟩ | ⟨-, hphase, hcurrent⟩ := s.admission.release_cases id
    · rw [hphase, hcurrent]
      exact ⟨fun _ => rfl, fun _ => rfl⟩
    · rwa [hphase, hcurrent]
  | record => exact hs

/-- The end of an interrupt keeps them in agreement unless another task is being interrupted. -/
theorem agrees_endInterrupt_iff {a : Admission} (ha : a.Agrees) (id : Nat) :
    (a.endInterrupt id).2.Agrees ↔
      ¬ (a.phase = .interrupting ∧ ∃ other, a.current = some other ∧ other ≠ id) := by
  rw [Admission.Agrees] at ha ⊢
  obtain ⟨hid, hphase, hcurrent⟩ | ⟨hid, hphase, hcurrent⟩ := a.endInterrupt_cases id
  · rw [hphase, hcurrent, hid]
    -- The interrupt ends its own tracked task, so no other one is tracked.
    refine ⟨?_, fun _ => ⟨fun _ => rfl, fun _ => rfl⟩⟩
    rintro - ⟨-, other, hother, hne⟩
    exact hne (Option.some.inj hother).symm
  · rw [hphase, hcurrent]
    by_cases hmark : a.phase = .interrupting
    · rw [if_pos hmark]
      cases hother : a.current with
      | none => exact ⟨fun _ ⟨_, _, h, _⟩ => (nomatch h), fun _ => ⟨fun _ => rfl, fun _ => rfl⟩⟩
      | some other =>
        -- The phase becomes idle although another task stays tracked.
        have hne : other ≠ id := fun h => hid (h ▸ hother)
        exact ⟨fun h => (nomatch h.1 rfl), fun h => absurd ⟨hmark, other, rfl, hne⟩ h⟩
    · rw [if_neg hmark]
      exact ⟨fun _ h => hmark h.1, fun _ => ha⟩

/-- Agreement survives a step exactly when the step is not the end of an interrupt that crosses
another one. -/
theorem agrees_step_iff {s : Traffic} (hs : s.admission.Agrees) (e : Event) :
    (s.step e).admission.Agrees ↔ ¬ s.Crosses e := by
  -- Only the end of an interrupt can break the agreement; the other steps are one case.
  by_cases he : ∃ t, e = .endInterrupt t
  · obtain ⟨t, rfl⟩ := he
    rw [step]
    split
    · rename_i id hcall
      split
      · rename_i hexit
        show (s.admission.endInterrupt id).2.Agrees ↔ _
        rw [agrees_endInterrupt_iff hs, not_iff_not]
        constructor
        · rintro ⟨hphase, other, hother, hne⟩
          exact ⟨id, other, hcall, hexit, hphase, hother, hne⟩
        · rintro ⟨id', other, hcall', -, hphase, hother, hne⟩
          rw [hcall] at hcall'
          cases hcall'
          exact ⟨hphase, other, hother, hne⟩
      · rename_i hexit
        refine ⟨?_, fun _ => hs⟩
        rintro - ⟨id', other, hcall', hexit', -⟩
        rw [hcall] at hcall'
        cases hcall'
        exact hexit hexit'
    · rename_i hcall
      refine ⟨?_, fun _ => hs⟩
      rintro - ⟨id, other, hcall', -⟩
      exact hcall id hcall'
  · have hne : ∀ t, e ≠ .endInterrupt t := fun t h => he ⟨t, h⟩
    have hcross : ¬ s.Crosses e := by
      cases e with
      | endInterrupt t => exact absurd rfl (hne t)
      | _ => exact id
    exact ⟨fun _ => hcross, fun _ => agrees_of_change hs hne (s.step_change e)⟩

/-! ## Who interrupts -/

/-- While the tracked task is being interrupted, some thread is in the middle of doing so. -/
def Marked (s : Traffic) : Prop :=
  s.admission.phase = .interrupting →
    ∃ t id, s.calls t = .interrupting id ∧ s.admission.current = some id

/-- An interrupt goes on until its own end. -/
theorem interrupting_step {s : Traffic} {t id : Nat} (h : s.calls t = .interrupting id) {e : Event}
    (he : e ≠ .endInterrupt t) : (s.step e).calls t = .interrupting id := by
  by_cases hthread : e.thread? = some t
  · cases e with
    | submit u | wake u | interrupt u =>
      -- A thread in the middle of an interrupt can begin nothing else.
      cases hthread
      simp only [step, h, reduceCtorEq, if_false]
    | endInterrupt u =>
      cases hthread
      exact absurd rfl he
    | cancel | finish | release | note => cases hthread
  · rw [s.calls_step_of_ne e hthread, h]

/-- Only the beginning of an interrupt makes the phase that of an interrupt. -/
theorem interrupting_of_change {s : Traffic} {e : Event} {a : Admission} (h : s.Change e a)
    (hbegin : ∀ t, e ≠ .interrupt t) (hphase : a.phase = .interrupting) :
    s.admission.phase = .interrupting ∧ a.current = s.admission.current := by
  cases h with
  | nothing => exact ⟨hphase, rfl⟩
  | turn _ ticket fromQueue hasThread =>
    obtain ⟨hsame, hcurrent⟩ | ⟨-, -, hrunning, -⟩ :=
      s.admission.turn_tracks ticket fromQueue hasThread
    · exact ⟨hsame ▸ hphase, hcurrent⟩
    · rw [hrunning] at hphase
      cases hphase
  | interrupt t => exact absurd rfl (hbegin t)
  | endInterrupt t id =>
    -- The end of an interrupt resets the phase even if another task is tracked by now.
    obtain ⟨-, hidle, -⟩ | ⟨-, hidle, -⟩ := s.admission.endInterrupt_cases id
    · rw [hidle] at hphase
      cases hphase
    · rw [hidle] at hphase
      split at hphase
      · cases hphase
      · contradiction
  | release id =>
    obtain ⟨-, hidle, -⟩ | ⟨-, hsame, hcurrent⟩ := s.admission.release_cases id
    · rw [hidle] at hphase
      cases hphase
    · exact ⟨hsame ▸ hphase, hcurrent⟩
  | record => exact ⟨hphase, rfl⟩

/-- A thread begins to interrupt the tracked task, or nothing changes. -/
theorem step_interrupt (s : Traffic) (t : Nat) :
    s.step (.interrupt t) = s ∨
      ∃ id, s.admission.current = some id ∧ s.step (.interrupt t) =
        ⟨{ s.admission with phase := .interrupting },
          Function.update s.calls t (.interrupting id)⟩ := by
  have htakes : s.Takes (.interrupt t) (s.step (.interrupt t)) := s.step_takes _
  generalize s.step (.interrupt t) = s' at htakes ⊢
  cases htakes with
  | nothing => exact .inl rfl
  | interrupts _ id _ hid => exact .inr ⟨id, hid, rfl⟩

theorem marked_step {s : Traffic} (hs : s.Marked) (e : Event) : (s.step e).Marked := by
  intro hphase
  by_cases hbegin : ∃ t, e = .interrupt t
  · obtain ⟨t, rfl⟩ := hbegin
    obtain hsame | ⟨id, hid, hstep⟩ := s.step_interrupt t
    · rw [hsame] at hphase ⊢
      exact hs hphase
    · rw [hstep]
      exact ⟨t, id, Function.update_self .., hid⟩
  · -- The phase was that of an interrupt before, and its thread is the one to show.
    obtain ⟨hmark, hcurrent⟩ :=
      interrupting_of_change (s.step_change e) (fun t h => hbegin ⟨t, h⟩) hphase
    obtain ⟨t, id, hcall, hid⟩ := hs hmark
    by_cases hend : e = .endInterrupt t
    · subst hend
      by_cases hexit : s.admission.hasExited id = true
      · -- The thread that marked the tracked task untracks it when its interrupt ends.
        obtain ⟨-, hidle, -⟩ | ⟨hne, -, -⟩ := s.admission.endInterrupt_cases id
        · simp only [step, hcall, hexit, if_true] at hphase
          have hclash : Phase.idle = .interrupting := hidle.symm.trans hphase
          cases hclash
        · exact absurd hid hne
      · simp only [step, hcall, hexit, Bool.false_eq_true, if_false]
        exact ⟨t, id, hcall, hid⟩
    · exact ⟨t, id, interrupting_step hcall hend, hcurrent ▸ hid⟩

theorem marked_new : new.Marked := by
  intro h
  cases h

theorem marked_run (events : List Event) : (run events).Marked :=
  runFrom_keeps (P := Marked) marked_new (fun _ e h => marked_step h e) events

/-- An interrupt crosses another one only while both are under way, with different tasks. -/
theorem two_interrupts_of_crosses {s : Traffic} (hs : s.Marked) {e : Event} (h : s.Crosses e) :
    ∃ t u id other, s.calls t = .interrupting id ∧ s.calls u = .interrupting other ∧
      id ≠ other := by
  cases e with
  | endInterrupt t =>
    obtain ⟨id, other, hcall, -, hphase, hother, hne⟩ := h
    obtain ⟨u, other', hcall', hother'⟩ := hs hphase
    rw [hother] at hother'
    cases hother'
    exact ⟨t, u, id, other, hcall, hcall', hne.symm⟩
  | _ => exact h.elim

/-! ## Nothing tracked -/

/-- Where nothing is tracked the admission is idle, whichever step it takes. -/
theorem idle_of_change {s : Traffic} {e : Event} {a : Admission}
    (hs : s.admission.current = none → s.admission.phase = .idle) (h : s.Change e a)
    (hnone : a.current = none) : a.phase = .idle := by
  cases h with
  | nothing => exact hs hnone
  | turn _ ticket fromQueue hasThread =>
    obtain ⟨hphase, hcurrent⟩ | ⟨-, -, -, hcurrent⟩ :=
      s.admission.turn_tracks ticket fromQueue hasThread
    · rw [hphase]
      exact hs (hcurrent ▸ hnone)
    · rw [hcurrent] at hnone
      cases hnone
  | interrupt t id hid =>
    rw [show s.admission.current = none from hnone] at hid
    cases hid
  | endInterrupt t id =>
    obtain ⟨-, hphase, -⟩ | ⟨-, hphase, hcurrent⟩ := s.admission.endInterrupt_cases id
    · exact hphase
    · rw [hphase, hs (hcurrent ▸ hnone)]
      rfl
  | release id =>
    obtain ⟨-, hphase, -⟩ | ⟨-, hphase, hcurrent⟩ := s.admission.release_cases id
    · exact hphase
    · rw [hphase]
      exact hs (hcurrent ▸ hnone)
  | record => exact hs hnone

theorem idle_run (events : List Event) :
    (run events).admission.current = none → (run events).admission.phase = .idle :=
  runFrom_keeps (P := fun s : Traffic => s.admission.current = none → s.admission.phase = .idle)
    (fun _ => rfl) (fun s e h => idle_of_change h (s.step_change e)) events

/-! ## Main statement -/

theorem agrees_new : new.admission.Agrees := ⟨fun _ => rfl, fun _ => rfl⟩

/-- Nothing is tracked only while the admission is idle, whatever has happened. In a run the
admission is idle exactly while nothing is tracked, from beginning to end, if and only if no
interrupt crosses another one in it, and that takes two interrupts under way at once with different
tasks. -/
theorem agrees_along_iff (events : List Event) :
    ((run events).admission.current = none → (run events).admission.phase = .idle) ∧
      ((∀ past, past <+: events → (run past).admission.Agrees) ↔
        ∀ past e, Follows past e events → ¬ (run past).Crosses e) ∧
      (∀ e, (run events).Crosses e →
        ∃ t u id other, (run events).calls t = .interrupting id ∧
          (run events).calls u = .interrupting other ∧ id ≠ other) := by
  refine ⟨idle_run events, ⟨fun hagrees past e hfollows => ?_, fun hcross past hpast => ?_⟩,
    fun _ => two_interrupts_of_crosses (marked_run events)⟩
  · -- Agreement before and after the step leaves it no crossing.
    have hpast : (run past).admission.Agrees :=
      hagrees past ((List.prefix_append past [e]).trans hfollows)
    rw [← agrees_step_iff hpast e, ← run_concat]
    exact hagrees (past ++ [e]) hfollows
  · exact runFrom_keeps_of (P := fun s : Traffic => s.admission.Agrees) (fun s e => ¬ s.Crosses e)
      agrees_new (fun _ e hallowed h => (agrees_step_iff h e).mpr hallowed) past
      fun past' e h => hcross past' e (h.trans_prefix hpast)

/-- The first interrupt ends after its task has left, while the second one waits for the task that
was submitted since: the admission is idle and tracks that task. -/
theorem idle_while_tracked :
    let s := run [.submit 0 ⟨"a", false, none⟩ true, .interrupt 1, .cancel 1, .finish 1 .completed,
      .release 1, .submit 0 ⟨"b", false, none⟩ true, .interrupt 2, .endInterrupt 1]
    s.admission.phase = .idle ∧ s.admission.current = some 2 ∧
      s.admission.hasExited 2 = false ∧ s.calls 2 = .interrupting 2 :=
  ⟨rfl, rfl, rfl, rfl⟩

end Traffic
end Task
end ScriptSession
