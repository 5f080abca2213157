import ScriptSession.Proofs.Context.Interleaving
import ScriptSession.Proofs.Context.Merging

/-!
# Coherence of a context

What is published shows the variables, or changes are on their way to be merged. Changes that are
queued after the last merge of the holder are merged by whoever tries for the variables next, and
nobody does if the one that queued them tries before the holder has let go: they are stranded
(`Sharing.Strands`) until the next call merges them. Main statement: while no call is under way,
nothing is pending and the context is coherent exactly if no changes were left stranded, and changes
leave the queue only by being merged (`Sharing.coherent_at_rest`).
-/

namespace ScriptSession
namespace Context

open Concurrency (Follows follows_concat runFrom_keeps)
open Script (Entry Scope Value)

/-- What is published, a snapshot and the variables give every name the same value. -/
def State.Coherent (c : State) : Prop :=
  ∀ name, c.value? name = c.scope.get? name ∧ c.snapshot.get name = c.scope.get? name

theorem State.coherent_of_published {c : State} (h : c.published = c.scope) : c.Coherent := by
  intro name
  have hvalue : c.value? name = c.scope.get? name := by rw [State.value?, h]
  exact ⟨hvalue, (get_snapshot c name).trans hvalue⟩

namespace Sharing

/-! ## Threads with a property -/

variable {P : Stage → Prop}

/-- The thread that has gone on satisfies what its new stage does. -/
theorem exists_go {s : Sharing} {t : Nat} {next : Stage} {f : State → State} (h : P next) :
    ∃ u, P ((s.go t next f).stages u) := ⟨t, by rwa [stages_go]⟩

/-- Threads other than the one that has gone on satisfy what they satisfied. -/
theorem exists_go_of_not {s : Sharing} {t : Nat} {next : Stage} {f : State → State}
    (h : ∃ u, P (s.stages u)) (ht : ¬ P (s.stages t)) : ∃ u, P ((s.go t next f).stages u) := by
  obtain ⟨u, hu⟩ := h
  have hne : u ≠ t := fun heq => ht (heq ▸ hu)
  exact ⟨u, by rwa [stages_go_of_ne s hne]⟩

/-! ## Who holds the variables -/

/-- The variables are held exactly while some call holds them, and by one call at a time. -/
structure Guarded (s : Sharing) : Prop where
  isHeld : s.context.isHeld = true ↔ ∃ t, (s.stages t).holds
  unique : ∀ t u, (s.stages t).holds → (s.stages u).holds → t = u

theorem guarded_new {c : State} (h : c.isHeld = false) : (new c).Guarded := by
  constructor
  · rw [show (new c).context.isHeld = false from h]
    exact ⟨nofun, fun ⟨_, ht⟩ => (nomatch ht)⟩
  · exact fun _ _ ht => (nomatch ht)

/-- A call that neither takes hold nor lets go. -/
theorem guarded_go {s : Sharing} (hs : s.Guarded) {t : Nat} {next : Stage} {f : State → State}
    (hnext : next.holds = (s.stages t).holds) (hf : (f s.context).isHeld = s.context.isHeld) :
    (s.go t next f).Guarded := by
  have hholds : ∀ u, ((s.go t next f).stages u).holds = (s.stages u).holds := by
    intro u
    by_cases hu : u = t
    · rw [hu, stages_go, hnext]
    · rw [stages_go_of_ne s hu]
  constructor
  · rw [context_go, hf, hs.isHeld]
    simp only [hholds]
  · intro u v hu hv
    rw [hholds] at hu hv
    exact hs.unique u v hu hv

theorem guarded_hold {s : Sharing} (hs : s.Guarded) {t : Nat} {next : Stage}
    (hfree : s.context.isHeld = false) (hnext : next.holds) : (s.go t next State.hold).Guarded := by
  -- Nobody held the variables, so whoever holds them afterwards has just taken them.
  have hnone : ∀ u, ¬ (s.stages u).holds := fun u hu => by
    rw [hs.isHeld.mpr ⟨u, hu⟩] at hfree
    cases hfree
  have honly : ∀ u, ((s.go t next State.hold).stages u).holds → u = t := by
    intro u hu
    by_contra hne
    rw [stages_go_of_ne s hne] at hu
    exact hnone u hu
  refine ⟨⟨fun _ => exists_go (P := fun stage => stage.holds) hnext, fun _ => rfl⟩, ?_⟩
  intro u v hu hv
  rw [honly u hu, honly v hv]

theorem guarded_letGo {s : Sharing} (hs : s.Guarded) {t : Nat} (ht : (s.stages t).holds) :
    (s.go t .resting State.letGo).Guarded := by
  have hnone : ∀ u, ¬ ((s.go t .resting State.letGo).stages u).holds := by
    intro u hu
    by_cases hne : u = t
    · rw [hne, stages_go] at hu
      cases hu
    · rw [stages_go_of_ne s hne] at hu
      exact hne (hs.unique u t hu ht)
  exact ⟨⟨nofun, fun ⟨u, hu⟩ => absurd hu (hnone u)⟩, fun u _ hu => absurd hu (hnone u)⟩

theorem holds_of_merges {stage : Stage} (h : stage.merges) : stage.holds := by
  cases stage <;> first | rfl | cases h

theorem holds_of_isMerging {stage : Stage} (h : stage.isMerging) : stage.holds := by
  cases stage <;> first | rfl | cases h

theorem holds_of_isUnpublished {stage : Stage} (h : stage.isUnpublished) : stage.holds := by
  cases stage <;> first | rfl | cases h

theorem guarded_step {s : Sharing} (hs : s.Guarded) (e : Event) : (s.step e).Guarded := by
  have hchange : s.Change e (s.step e) := s.step_change e
  generalize s.step e = s' at hchange ⊢
  cases hchange with
  | nothing => exact hs
  | take _ t next hfree _ hnext => exact guarded_hold hs hfree (holds_of_merges hnext)
  | merge t next ht hnext =>
    exact guarded_go hs ((holds_of_isUnpublished hnext).trans (holds_of_isMerging ht).symm) rfl
  | script _ t after ht => exact guarded_go hs (by rw [ht]; rfl) rfl
  | edit _ t edit ht => exact guarded_go hs (by rw [ht]; rfl) rfl
  | publish _ t ht => exact guarded_go hs (by rw [ht]; rfl) rfl
  | letGo _ t ht => exact guarded_letGo hs (by rw [ht]; rfl)
  | copy _ t before ht => exact guarded_go hs (by rw [ht]; rfl) rfl
  | record _ t es ht =>
    refine guarded_go hs ?_ rfl
    obtain ht | ⟨before, ht⟩ := ht <;> rw [ht] <;> rfl
  | reveal _ t es ht => exact guarded_go hs (by rw [ht]; rfl) rfl
  | queue _ t es ht => exact guarded_go hs (by rw [ht]; rfl) rfl
  | giveUp t ht => exact guarded_go hs (by rw [ht]; rfl) rfl

/-! ## Published or pending -/

/-- The call has shown changes and not queued them yet. -/
def Shown (stage : Stage) : Prop := ∃ es, stage = .queueing es ∧ es ≠ []

/-- What is published shows the variables, unless a call that holds them is about to publish or
changes are pending or about to be. -/
def Tracks (s : Sharing) : Prop :=
  (∃ t, (s.stages t).isUnpublished) ∨ s.context.published = s.context.scope ∨
    s.context.pending ≠ [] ∨ ∃ t, Shown (s.stages t)

/-- A call goes on that was neither about to publish nor to queue changes. -/
theorem tracks_go {s : Sharing} (hs : s.Tracks) {t : Nat} {next : Stage} {f : State → State}
    (hunpublished : ¬ (s.stages t).isUnpublished) (hshown : ¬ Shown (s.stages t))
    (hpublished : (f s.context).published = s.context.published)
    (hscope : (f s.context).scope = s.context.scope)
    (hpending : (f s.context).pending = s.context.pending) : (s.go t next f).Tracks := by
  rw [Tracks, context_go, hpublished, hscope, hpending]
  exact hs.imp (fun h => exists_go_of_not (P := fun stage => stage.isUnpublished) h hunpublished) <|
    Or.imp_right (Or.imp_right fun h => exists_go_of_not h hshown)

theorem tracks_step {s : Sharing} (hs : s.Tracks) (e : Event) : (s.step e).Tracks := by
  have hchange : s.Change e (s.step e) := s.step_change e
  generalize s.step e = s' at hchange ⊢
  have hunpublished : ∀ {t next f}, next.isUnpublished → (s.go t next f).Tracks :=
    fun h => .inl (exists_go (P := fun stage => stage.isUnpublished) h)
  cases hchange with
  | nothing => exact hs
  | take _ t next _ _ hnext =>
    exact hunpublished (by cases next <;> first | rfl | cases hnext)
  | merge t next _ hnext => exact hunpublished hnext
  | script _ t after => exact hunpublished rfl
  | edit _ t edit => exact hunpublished rfl
  | publish _ t => exact .inr (.inl rfl)
  | letGo _ t ht =>
    exact tracks_go hs (by simp [ht, Stage.isUnpublished]) (by simp [ht, Shown]) rfl rfl rfl
  | copy _ t before ht =>
    exact tracks_go hs (by simp [ht, Stage.isUnpublished]) (by simp [ht, Shown]) rfl rfl rfl
  | record _ t es ht =>
    obtain ht | ⟨before, ht⟩ := ht <;>
      exact tracks_go hs (by simp [ht, Stage.isUnpublished]) (by simp [ht, Shown]) rfl rfl rfl
  | reveal _ t es ht =>
    -- Showing no changes leaves alone what is published.
    by_cases hes : es = []
    · subst hes
      exact tracks_go hs (by simp [ht, Stage.isUnpublished]) (by simp [ht, Shown]) rfl rfl rfl
    · exact .inr (.inr (.inr (exists_go ⟨es, rfl, hes⟩)))
  | queue _ t es ht =>
    by_cases hes : es = []
    · subst hes
      exact tracks_go hs (by simp [ht, Stage.isUnpublished]) (by simp [ht, Shown]) rfl rfl
        (List.append_nil _)
    · exact .inr (.inr (.inl (List.append_ne_nil_of_right_ne_nil _ hes)))
  | giveUp t ht =>
    exact tracks_go hs (by simp [ht, Stage.isUnpublished]) (by simp [ht, Shown]) rfl rfl rfl

/-! ## Who merges what is pending -/

/-- A call tries for the variables in vain while changes are pending and the holder merges no
more. -/
def Strands (s : Sharing) : Event → Prop
  | .advance t => s.stages t = .trying ∧ s.context.pending ≠ [] ∧
      ∃ u, (s.stages u).holds ∧ (s.stages u).merges = false
  | _ => False

/-- The call will merge what is pending, or try to. -/
def Brings (stage : Stage) : Prop := stage = .trying ∨ stage.merges

/-- Whatever is pending will be merged. -/
def Delivers (s : Sharing) : Prop := s.context.pending = [] ∨ ∃ t, Brings (s.stages t)

theorem delivers_go {s : Sharing} (hs : s.Delivers) {t : Nat} {next : Stage} {f : State → State}
    (ht : ¬ Brings (s.stages t)) (hpending : (f s.context).pending = s.context.pending) :
    (s.go t next f).Delivers := by
  rw [Delivers, context_go, hpending]
  exact hs.imp_right fun h => exists_go_of_not h ht

theorem delivers_step {s : Sharing} (hguarded : s.Guarded) (hs : s.Delivers) {e : Event}
    (he : ¬ s.Strands e) : (s.step e).Delivers := by
  have hchange : s.Change e (s.step e) := s.step_change e
  generalize s.step e = s' at hchange ⊢
  -- A call that brings pending changes gives that up only when it merges them or in vain.
  cases hchange with
  | nothing => exact hs
  | take _ t next _ _ hnext => exact .inr (exists_go (.inr hnext))
  | merge => exact .inl rfl
  | script => exact .inr (exists_go (.inr rfl))
  | edit _ t edit ht => exact delivers_go hs (by simp [ht, Brings, Stage.merges]) rfl
  | publish _ t ht => exact delivers_go hs (by simp [ht, Brings, Stage.merges]) rfl
  | letGo _ t ht => exact delivers_go hs (by simp [ht, Brings, Stage.merges]) rfl
  | copy _ t before ht => exact delivers_go hs (by simp [ht, Brings, Stage.merges]) rfl
  | record _ t es ht =>
    obtain ht | ⟨before, ht⟩ := ht <;>
      exact delivers_go hs (by simp [ht, Brings, Stage.merges]) rfl
  | reveal _ t es ht => exact delivers_go hs (by simp [ht, Brings, Stage.merges]) rfl
  | queue => exact .inr (exists_go (.inl rfl))
  | giveUp t ht hheld =>
    by_cases hpending : s.context.pending = []
    · exact .inl hpending
    · -- Somebody holds the variables, and the changes are not stranded.
      obtain ⟨u, hu⟩ := hguarded.isHeld.mp hheld
      have hmerges : (s.stages u).merges := by
        by_contra hlate
        rw [Bool.not_eq_true] at hlate
        exact he ⟨ht, hpending, u, hu, hlate⟩
      have hne : u ≠ t := by
        rintro rfl
        rw [ht] at hmerges
        cases hmerges
      exact .inr ⟨u, .inr (by rwa [stages_go_of_ne s hne])⟩

/-! ## What becomes of pending changes -/

/-- A call merges what is pending. -/
def Merges (s : Sharing) (e : Event) : Prop := ∃ t, e = .advance t ∧ (s.stages t).isMerging

theorem context_of_merges {s : Sharing} {e : Event} (h : s.Merges e) :
    (s.step e).context = s.context.mergePending := by
  obtain ⟨t, rfl, ht⟩ := h
  rw [step, advance]
  cases hstage : s.stages t with
  | opening edit => cases edit <;> rfl
  | closing => rfl
  | _ =>
    rw [hstage] at ht
    cases ht

/-- A step that does not merge what is pending leaves it pending. -/
theorem pending_step {s : Sharing} {e : Event} (h : ¬ s.Merges e) :
    s.context.pending <+: (s.step e).context.pending := by
  have hchange : s.Change e (s.step e) := s.step_change e
  generalize s.step e = s' at hchange ⊢
  cases hchange with
  | merge t next ht => exact absurd ⟨t, rfl, ht⟩ h
  | queue _ t es => exact List.prefix_append _ es
  | _ => exact List.prefix_refl _

theorem not_merges_of_strands {s : Sharing} {e : Event} (h : s.Strands e) : ¬ s.Merges e := by
  rintro ⟨t, rfl, ht⟩
  rw [h.1] at ht
  cases ht

/-- Changes were stranded, and nobody has merged any since. -/
def LeavesStranded (c : State) (events : List Event) : Prop :=
  ∃ past e rest, events = past ++ e :: rest ∧ (run c past).Strands e ∧
    ∀ mid e', Follows mid e' rest → ¬ (run c (past ++ e :: mid)).Merges e'

variable {c : State} {events : List Event} {e : Event}

/-- The next event strands changes, or it does not merge those that are stranded. -/
theorem leavesStranded_concat (h : (run c events).Strands e ∨
    LeavesStranded c events ∧ ¬ (run c events).Merges e) : LeavesStranded c (events ++ [e]) := by
  obtain hstrands | ⟨⟨past, e₀, rest, rfl, hstrands, hmid⟩, he⟩ := h
  · refine ⟨events, e, [], rfl, hstrands, fun mid e' h => ?_⟩
    exact absurd (List.prefix_nil.mp h) (List.append_ne_nil_of_right_ne_nil mid nofun)
  · refine ⟨past, e₀, rest ++ [e], by rw [List.append_assoc, List.cons_append], hstrands, ?_⟩
    intro mid e' h
    obtain ⟨rfl, rfl⟩ | h := follows_concat h
    · exact he
    · exact hmid mid e' h

/-- Stranded changes that nobody has merged are pending. The induction is on what came after they
were stranded. -/
theorem pending_of_leavesStranded (h : LeavesStranded c events) :
    (run c events).context.pending ≠ [] := by
  obtain ⟨past, e, rest, rfl, hstrands, hmid⟩ := h
  induction rest using List.reverseRecOn with
  | nil =>
    obtain ⟨t, rfl⟩ : ∃ t, e = .advance t := by
      cases e <;> first | exact ⟨_, rfl⟩ | cases hstrands
    rw [run_concat]
    exact (pending_step (not_merges_of_strands hstrands)).ne_nil hstrands.2.1
  | append_singleton rest e' ih =>
    have hbefore : (run c (past ++ e :: rest)).context.pending ≠ [] :=
      ih fun mid e'' h => hmid mid e'' (h.trans_prefix (List.prefix_append rest [e']))
    rw [← List.cons_append, ← List.append_assoc, run_concat]
    exact (pending_step (hmid rest e' (List.prefix_refl _))).ne_nil hbefore

/-! ## Main statement -/

theorem tracks_run (hc : c.Settled) (events : List Event) : (run c events).Tracks :=
  runFrom_keeps (P := Tracks) (.inr (.inl hc.published)) (fun _ e hs => tracks_step hs e) events

theorem guarded_run (hc : c.Settled) (events : List Event) : (run c events).Guarded :=
  runFrom_keeps (P := Guarded) (guarded_new hc.isHeld) (fun _ e hs => guarded_step hs e) events

/-- Whatever is pending will be merged, unless changes were left stranded. -/
theorem delivers_run (hc : c.Settled) (events : List Event) :
    (run c events).Delivers ∨ LeavesStranded c events := by
  induction events using List.reverseRecOn with
  | nil => exact .inl (.inl hc.pending)
  | append_singleton past e ih =>
    by_cases hstrands : (run c past).Strands e
    · exact .inr (leavesStranded_concat (.inl hstrands))
    · rw [run_concat]
      obtain hdelivers | hstranded := ih
      · exact .inl (delivers_step (guarded_run hc past) hdelivers hstrands)
      · by_cases hmerges : (run c past).Merges e
        · -- Whatever was stranded is merged now.
          refine .inl (.inl ?_)
          rw [context_of_merges hmerges]
          rfl
        · exact .inr (leavesStranded_concat (.inr ⟨hstranded, hmerges⟩))

theorem published_of_atRest {s : Sharing} (hs : s.Tracks) (hrest : s.AtRest)
    (hpending : s.context.pending = []) : s.context.published = s.context.scope := by
  obtain ⟨t, ht⟩ | hsame | hne | ⟨t, es, ht, -⟩ := hs
  · rw [hrest t] at ht
    cases ht
  · exact hsame
  · exact absurd hpending hne
  · rw [hrest t] at ht
    cases ht

theorem pending_of_atRest {s : Sharing} (hs : s.Delivers) (hrest : s.AtRest) :
    s.context.pending = [] := by
  obtain hpending | ⟨t, ht | ht⟩ := hs
  · exact hpending
  · rw [hrest t] at ht
    cases ht
  · rw [hrest t] at ht
    cases ht

/-- Whatever calls have used a settled context, in whatever order of their steps: while none is
under way, nothing is pending and the context is coherent if and only if no changes were left
stranded. Changes stay pending until they are merged, and then each name shows the latest value that
was pending for it unless it stands for a constant. -/
theorem coherent_at_rest (c : State) (hc : c.Settled) (events : List Event)
    (hrest : (run c events).AtRest) :
    ((run c events).context.pending = [] ∧ (run c events).context.Coherent ↔
      ¬ LeavesStranded c events) ∧
      ∀ past e, Follows past e events →
        (¬ (run c past).Merges e →
          (run c past).context.pending <+: (run c (past ++ [e])).context.pending) ∧
        ((run c past).Merges e → ∀ earlier latest later,
          (run c past).context.pending = earlier ++ latest :: later →
            (∀ r ∈ later, r.name ≠ latest.name) → ∃ isConstant v,
              (run c (past ++ [e])).context.scope.shown? latest.name = some (isConstant, v) ∧
                (isConstant = false → v = latest.value)) := by
  refine ⟨⟨fun h hstranded => pending_of_leavesStranded hstranded h.1, fun hnone => ?_⟩,
    fun past e _ => ⟨fun hmerges => ?_, fun hmerges earlier latest later hpending hlater => ?_⟩⟩
  · have hpending : (run c events).context.pending = [] :=
      pending_of_atRest ((delivers_run hc events).resolve_right hnone) hrest
    exact ⟨hpending,
      State.coherent_of_published (published_of_atRest (tracks_run hc events) hrest hpending)⟩
  · rw [run_concat]
    exact pending_step hmerges
  · rw [run_concat, context_of_merges hmerges]
    exact shown?_applyAll_latest _ hpending hlater

/-- A variable is set while an evaluation holds the variables and merges no more. -/
def strandedByHolder : List Event :=
  [.evaluate 0, .advance 0, .script 0 .empty, .advance 0, .bindBeside 1 "x" (.int 5), .advance 1,
    .advance 1, .advance 1, .advance 0, .advance 0]

/-- The next evaluation merges what was stranded. -/
theorem coherent_after_stranding :
    let events := strandedByHolder ++ [.evaluate 0, .advance 0, .script 0
      ⟨[Entry.variable_ "x" (.int 5)]⟩, .advance 0, .advance 0, .advance 0]
    (run (.new 1 .empty .empty) events).context.value? "x" = some (.int 5) ∧
      (run (.new 1 .empty .empty) events).context.Coherent ∧
        ¬ LeavesStranded (.new 1 .empty .empty) events := by
  intro events
  have hrest : (run (.new 1 .empty .empty) events).AtRest
    | 0 | 1 | _ + 2 => rfl
  have hcoherent : (run (.new 1 .empty .empty) events).context.Coherent :=
    State.coherent_of_published rfl
  refine ⟨rfl, hcoherent, ?_⟩
  exact (coherent_at_rest _ (State.settled_new ..) events hrest).1.mp ⟨rfl, hcoherent⟩

/-- A variable that is set while the holder of the variables merges no more is left pending when
both calls have ended. If that was before the holder published, it is not visible; if it was after
that, it is visible and not among the variables. A variable that is set while a script declares a
constant of its name does not show the value. -/
theorem deferred_not_visible :
    let lost := run (.new 1 .empty .empty) strandedByHolder
    let split := run (.new 1 .empty .empty) [.evaluate 0, .advance 0, .script 0 .empty,
      .advance 0, .advance 0, .bindBeside 1 "x" (.int 5), .advance 1, .advance 1, .advance 1,
      .advance 0]
    let hidden := run (.new 1 .empty .empty) [.evaluate 0, .advance 0, .bindBeside 1 "x" (.int 5),
      .advance 1, .advance 1, .advance 1, .script 0 ⟨[Entry.constant "x" (.int 1)]⟩, .advance 0,
      .advance 0, .advance 0]
    (lost.AtRest ∧ lost.context.value? "x" = none ∧
      lost.context.pending = [Entry.variable_ "x" (.int 5)]) ∧
      (split.AtRest ∧ split.context.value? "x" = some (.int 5) ∧
        split.context.scope.get? "x" = none ∧
          split.context.pending = [Entry.variable_ "x" (.int 5)]) ∧
        (hidden.AtRest ∧ hidden.context.value? "x" = some (.int 1)) := by
  refine ⟨⟨?_, rfl, rfl⟩, ⟨?_, rfl, rfl, rfl⟩, ⟨?_, rfl⟩⟩
  · rintro (_ | _ | _) <;> rfl
  · rintro (_ | _ | _) <;> rfl
  · rintro (_ | _ | _) <;> rfl

end Sharing
end Context
end ScriptSession
