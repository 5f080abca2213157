import Mathlib.Data.List.Induction
import Mathlib.Data.List.Infix

/-!
# Runs of a step function

A system is a function that takes a state and an event to the next state. An event that is not
possible in a state leaves the state as it is, so every list of events is a run and a statement
about all lists of events is one about all orders of steps.
-/

namespace ScriptSession
namespace Concurrency

variable {σ ε α : Type} {step : σ → ε → σ}

/-- The state after events, the first one first. -/
def runFrom (step : σ → ε → σ) (s : σ) (events : List ε) : σ := events.foldl step s

/-- The event that comes right after `past` in a list of events is `e`. -/
def Follows (past : List ε) (e : ε) (events : List ε) : Prop := past ++ [e] <+: events

@[simp] theorem runFrom_concat (s : σ) (past : List ε) (e : ε) :
    runFrom step s (past ++ [e]) = step (runFrom step s past) e := by
  rw [runFrom, List.foldl_concat, runFrom]

/-- What the start satisfies and every allowed step keeps holds after every run of allowed
steps. -/
theorem runFrom_keeps_of (allowed : σ → ε → Prop) {P : σ → Prop} {s : σ} (hs : P s)
    (hstep : ∀ s e, allowed s e → P s → P (step s e)) (events : List ε)
    (hallowed : ∀ past e, Follows past e events → allowed (runFrom step s past) e) :
    P (runFrom step s events) := by
  induction events using List.reverseRecOn with
  | nil => exact hs
  | append_singleton past e ih =>
    rw [runFrom_concat]
    refine hstep _ e (hallowed past e (List.prefix_refl _)) (ih fun past' e' h => ?_)
    exact hallowed past' e' (h.trans (List.prefix_append past [e]))

/-- What the start satisfies and every step keeps holds after every run. -/
theorem runFrom_keeps {P : σ → Prop} {s : σ} (hs : P s) (hstep : ∀ s e, P s → P (step s e))
    (events : List ε) : P (runFrom step s events) :=
  runFrom_keeps_of (fun _ _ => True) hs (fun s e _ => hstep s e) events fun _ _ _ => trivial

/-- What every step of a run brings about, a run brings about from each of its beginnings to its
end. -/
theorem runFrom_relates {R : σ → σ → Prop} (hrefl : ∀ s, R s s)
    (htrans : ∀ s s' s'', R s s' → R s' s'' → R s s'') {s : σ}
    (hstep : ∀ past e, R (runFrom step s past) (step (runFrom step s past) e))
    {past events : List ε} (h : past <+: events) :
    R (runFrom step s past) (runFrom step s events) := by
  obtain ⟨rest, rfl⟩ := h
  induction rest using List.reverseRecOn with
  | nil =>
    rw [List.append_nil]
    exact hrefl _
  | append_singleton rest e ih =>
    rw [← List.append_assoc, runFrom_concat]
    exact htrans _ _ _ ih (hstep _ e)

/-- What holds at the start and not after a run is undone by one of its steps. -/
theorem exists_step_of_not {P : σ → Prop} {s : σ} (hs : P s) {events : List ε}
    (h : ¬ P (runFrom step s events)) :
    ∃ past e, Follows past e events ∧ P (runFrom step s past) ∧
      ¬ P (runFrom step s (past ++ [e])) := by
  induction events using List.reverseRecOn with
  | nil => exact absurd hs h
  | append_singleton past e ih =>
    by_cases hpast : P (runFrom step s past)
    · exact ⟨past, e, List.prefix_refl _, hpast, h⟩
    · obtain ⟨past', e', hfollows, hbefore, hafter⟩ := ih hpast
      exact ⟨past', e', hfollows.trans (List.prefix_append past [e]), hbefore, hafter⟩

/-- A run of allowed steps has only allowed steps in its beginnings. -/
theorem Follows.trans_prefix {past events more : List ε} {e : ε} (h : Follows past e events)
    (hmore : events <+: more) : Follows past e more := List.IsPrefix.trans h hmore

/-- What follows in a run with one more event follows in the run, or is that event. -/
theorem follows_concat {past past' : List ε} {e e' : ε} (h : Follows past' e' (past ++ [e])) :
    past' = past ∧ e' = e ∨ Follows past' e' past := by
  obtain heq | hprefix := List.prefix_concat_iff.mp h
  · obtain ⟨rfl, he⟩ := List.append_inj' heq rfl
    exact .inl ⟨rfl, (List.cons.inj he).1⟩
  · exact .inr hprefix

/-! ## What a run notes -/

/-- What the steps of a run note, the first one first. -/
def noted (step : σ → ε → σ) (note : σ → ε → List α) (s : σ) : List ε → List α
  | [] => []
  | e :: rest => note s e ++ noted step note (step s e) rest

variable {note : σ → ε → List α}

theorem noted_append (s : σ) (past more : List ε) :
    noted step note s (past ++ more) =
      noted step note s past ++ noted step note (runFrom step s past) more := by
  induction past generalizing s with
  | nil => rfl
  | cons first rest ih => rw [List.cons_append, noted, ih, noted, List.append_assoc]; rfl

@[simp] theorem noted_concat (s : σ) (past : List ε) (e : ε) :
    noted step note s (past ++ [e]) = noted step note s past ++ note (runFrom step s past) e := by
  rw [noted_append, noted, noted, List.append_nil]

/-- What a run notes at some place, one of its steps notes there. -/
theorem exists_of_noted_eq {s : σ} {events : List ε} {before after : List α} {a : α}
    (h : noted step note s events = before ++ a :: after) :
    ∃ past e earlier later, Follows past e events ∧
      note (runFrom step s past) e = earlier ++ a :: later ∧
      before = noted step note s past ++ earlier := by
  induction events using List.reverseRecOn generalizing after with
  | nil => simp [noted] at h
  | append_singleton past e ih =>
    rw [noted_concat] at h
    obtain ⟨earlier, hbefore, hnote⟩ | ⟨rest, hpast, hrest⟩ := List.append_eq_append_iff.mp h
    · exact ⟨past, e, earlier, after, List.prefix_refl _, hnote, hbefore⟩
    -- The place is in what the steps before have noted, or it begins what the last one notes.
    cases rest with
    | nil =>
      refine ⟨past, e, [], after, List.prefix_refl _, hrest.symm, ?_⟩
      rw [hpast, List.append_nil, List.append_nil]
    | cons a' rest =>
      obtain ⟨rfl, -⟩ := List.cons.inj hrest
      obtain ⟨past', e', earlier, later, hfollows, hnote, hbefore⟩ := ih hpast
      exact ⟨past', e', earlier, later, hfollows.trans_prefix (List.prefix_append past [e]), hnote,
        hbefore⟩

/-- What holds of the start before anything is noted, and is kept by every step with what it notes,
holds after every run with what the run notes. -/
theorem noted_keeps {P : List α → σ → Prop} {s : σ} (hs : P [] s)
    (hstep : ∀ seen s e, P seen s → P (seen ++ note s e) (step s e)) (events : List ε) :
    P (noted step note s events) (runFrom step s events) := by
  induction events using List.reverseRecOn with
  | nil => exact hs
  | append_singleton past e ih =>
    rw [noted_concat, runFrom_concat]
    exact hstep _ _ e ih

/-- What a run notes, one of its steps notes. -/
theorem mem_noted {s : σ} {events : List ε} {a : α} (h : a ∈ noted step note s events) :
    ∃ past e, Follows past e events ∧ a ∈ note (runFrom step s past) e := by
  induction events using List.reverseRecOn with
  | nil => cases h
  | append_singleton past e ih =>
    rw [noted_concat, List.mem_append] at h
    obtain h | h := h
    · obtain ⟨past', e', hfollows, hnote⟩ := ih h
      exact ⟨past', e', hfollows.trans (List.prefix_append past [e]), hnote⟩
    · exact ⟨past, e, List.prefix_refl _, h⟩

theorem Follows.mem {past events : List ε} {e : ε} (h : Follows past e events) : e ∈ events :=
  h.subset (List.mem_append_right past (List.mem_singleton_self e))

end Concurrency
end ScriptSession
