import ScriptSession.Proofs.Session.Activity
import ScriptSession.Proofs.Task.Rest

/-!
# Sessions stay in order

Rebuilds take place one after another, each gives its context the next generation, and the current
context is never replaced by an older one. What an agent has taken from the session stays true of
it: its context is the current one or an older one. Every step of a session in progress keeps this
(`Activity.sound_run`), and at the admission a session is traffic (`Activity.Sound.traffic`).
-/

namespace ScriptSession
namespace Session

open Concurrency (runFrom runFrom_keeps)
open Context (LoadingScope)
open ScriptSession.Task (Admission Traffic)

/-- What is incidental takes no record of a task back. -/
theorem Incidental.extends {w w' : World} (h : Incidental w w') :
    w.admission.Extends w'.admission := by
  obtain ⟨notes, hnotes⟩ := h.notes
  rw [hnotes]
  clear hnotes
  induction notes using List.reverseRecOn with
  | nil => exact .refl _
  | append_singleton notes n ih =>
    rw [List.foldl_concat]
    exact ih.trans (Admission.extends_note _ n.1 n.2)

namespace Activity

variable {s : Activity}

/-! ## At the admission -/

/-- What tasks note about themselves are events of the traffic. -/
theorem run_notes (events : List Task.Event) (notes : List (Nat × Task.Note)) :
    Traffic.run (events ++ notes.map fun n => .note n.1 n.2) =
      ⟨notes.foldl (fun a n => a.note n.1 n.2) (Traffic.run events).admission,
        (Traffic.run events).calls⟩ := by
  induction notes using List.reverseRecOn with
  | nil => rw [List.map_nil, List.append_nil]; rfl
  | append_singleton notes n ih =>
    rw [List.map_append, ← List.append_assoc, List.map_singleton, Traffic.run_concat, ih,
      List.foldl_concat]
    rfl

theorem Sound.numbered (hs : s.Sound) : s.world.admission.Numbered := by
  obtain ⟨events, hevents⟩ := hs.traffic
  have hnumbered : (Traffic.run events).admission.Numbered := Traffic.numbered_run events
  rwa [← hevents] at hnumbered

theorem Sound.work (hs : s.Sound) {w : World} (hw : Incidental s.world w) :
    ({ s with world := w } : Activity).Sound := by
  obtain ⟨events, hevents⟩ := hs.traffic
  obtain ⟨notes, hnotes⟩ := hw.notes
  have htraffic : Traffic.run (events ++ notes.map fun n => .note n.1 n.2) =
      ⟨w.admission, s.calls⟩ := by
    rw [run_notes, ← hevents, hnotes]
    rfl
  have hextends : s.world.admission.Extends w.admission := hw.extends
  refine ⟨⟨_, htraffic.symm⟩, fun id hid => hs.fresh id (Nat.lt_of_le_of_lt hextends.issued hid),
    hs.ordered.of_sameContexts hw.toSameContexts, fun hnone => ?_,
    fun a => (hs.fits a).of_sameContexts hw.toSameContexts, fun a ha => ?_, hs.alone⟩
  · show w.session.generation = w.contexts.length
    rw [hw.generation, hw.length]
    exact hs.generation hnone
  · show w.session.isRebuilding = true
    rw [hw.isRebuilding]
    exact hs.locked a ha

theorem Sound.atAdmission (hs : s.Sound) (e : Task.Event) : (s.atAdmission e).Sound := by
  have hextends : s.world.admission.Extends (s.traffic.step e).admission :=
    Traffic.extends_step (s := s.traffic) hs.numbered e
  obtain ⟨events, hevents⟩ := hs.traffic
  refine ⟨⟨events ++ [e], ?_⟩, fun id hid => hs.fresh id (Nat.lt_of_le_of_lt hextends.issued hid),
    hs.ordered.of_sameContexts (.of_eq rfl rfl rfl rfl), hs.generation,
    fun a => (hs.fits a).of_sameContexts (.of_eq rfl rfl rfl rfl), hs.locked, hs.alone⟩
  rw [Traffic.run_concat, ← hevents]
  rfl

/-! ## Quiet steps -/

/-- A caller that goes on and leaves the world alone. -/
theorem Sound.goCaller (hs : s.Sound) {t : Nat} {next : Stage} (hfits : next.Fits s.world)
    (ht : (s.stages (.caller t)).rebuilds = false) (hnext : next.rebuilds = false) :
    (s.go (.caller t) next id).Sound := by
  refine hs.go (hs.allows (.of_eq rfl rfl rfl rfl) rfl nofun
    (not_numbered_of_not_rebuilds ht) hfits fun h => ?_)
  rw [hnext] at h
  cases h

theorem rebuilds_stage (work : Work) : work.stage.rebuilds = false := by cases work <;> rfl

/-- The task that is admitted has a number that was free before and is given out now. -/
theorem Sound.admit (hs : s.Sound) {t : Nat} {sub : Submission} {e : Task.Event}
    (hsub : s.stages (.caller t) = .submitting sub)
    (hcurrent : (s.atAdmission e).world.admission.current = some s.world.admission.nextId) :
    (((s.atAdmission e).go (.task s.world.admission.nextId) sub.work.stage id).go (.caller t)
      .resting id).Sound := by
  have hnext : (s.atAdmission e).Sound := hs.atAdmission e
  have hcaller : (s.atAdmission e).stages (.caller t) = .submitting sub := hsub
  have hfree : (s.atAdmission e).stages (.task s.world.admission.nextId) = .resting :=
    hs.fresh _ (Nat.lt_succ_self _)
  have hissued : s.world.admission.nextId ≤ (s.atAdmission e).world.admission.issued := by
    obtain ⟨r, hr⟩ := Option.isSome_iff_exists.mp (hnext.numbered.tracked _ hcurrent)
    exact hnext.numbered.le_issued _ r hr
  have hfits : sub.work.stage.Fits (s.atAdmission e).world :=
    Stage.fits_stage (hcaller ▸ hnext.fits (.caller t))
  have htask : ((s.atAdmission e).go (.task s.world.admission.nextId) sub.work.stage
      id).Sound := by
    refine hnext.go (hnext.allows (.of_eq rfl rfl rfl rfl) rfl ?_ ?_ hfits fun h => ?_)
    · intro id hid
      rwa [← Agent.task.inj hid]
    · rw [hfree]
      exact nofun
    · rw [rebuilds_stage] at h
      cases h
  refine htask.goCaller trivial ?_ rfl
  have hne : Agent.caller t ≠ .task s.world.admission.nextId := nofun
  rw [stages_go_of_ne hne, hcaller]
  rfl

/-! ## Steps of rebuilds -/

/-- Whoever begins to rebuild takes the lock, which nobody has. -/
theorem Sound.lock (hs : s.Sound) {a : Agent} (ha : s.stages a = .awaiting)
    (hfree : s.world.session.isRebuilding = false) :
    (s.go a .building (·.alterSession fun c => { c with isRebuilding := true })).Sound := by
  have hnone : ∀ b, (s.stages b).rebuilds = false := by
    intro b
    rw [← Bool.not_eq_true]
    intro hb
    rw [hs.locked b hb] at hfree
    cases hfree
  exact hs.go
    { admission := rfl
      known := hs.known (by rw [ha]; exact nofun)
      ordered := ⟨hs.ordered.generations, hs.ordered.current⟩
      generation := fun _ _ => hs.generation fun b => not_numbered_of_not_rebuilds (hnone b)
      fits := trivial
      others := fun b _ => (hs.fits b).of_reaches (hnone b) fun k hk => ⟨k, hk, Nat.le_refl k⟩
      locked := fun _ => rfl
      keepsLock := fun _ _ _ => rfl
      alone := fun _ b _ => hnone b }

/-- Whoever rebuilds is the only one, so all there is to see to is the order of the contexts, what
the others have taken, and the lock until the end. -/
theorem Sound.goRebuild (hs : s.Sound) {a : Agent} {next : Stage} {f : World → World}
    (ha : (s.stages a).rebuilds = true) (hadmission : (f s.world).admission = s.world.admission)
    (hordered : (f s.world).Ordered)
    (hgeneration : (∀ generation, next ≠ .numbered generation) →
      (f s.world).session.generation = (f s.world).contexts.length)
    (hfits : next.Fits (f s.world))
    (hreaches : ∀ k, s.world.session.context = some k → (f s.world).Reaches k)
    (hlocked : next.rebuilds = true → (f s.world).session.isRebuilding = true) :
    (s.go a next f).Sound := by
  have hothers : ∀ b, b ≠ a → (s.stages b).rebuilds = false := hs.not_rebuilds ha
  refine hs.go
    { admission := hadmission
      known := hs.known fun hrest => ?known
      ordered := hordered
      generation := fun hnext _ => hgeneration hnext
      fits := hfits
      others := fun b hb => (hs.fits b).of_reaches (hothers b hb) hreaches
      locked := hlocked
      keepsLock := fun b hb hrebuilds => ?keepsLock
      alone := fun _ => hothers }
  case known =>
    rw [hrest] at ha
    cases ha
  case keepsLock =>
    rw [hothers b hb] at hrebuilds
    cases hrebuilds

/-- While a context is being made, and has no number yet, the number given out last is that of the
last one. -/
theorem Sound.generation_of_rebuilds (hs : s.Sound) {a : Agent}
    (ha : (s.stages a).rebuilds = true) (hnot : ∀ generation, s.stages a ≠ .numbered generation) :
    s.world.session.generation = s.world.contexts.length :=
  hs.generation_eq hnot fun b generation hb =>
    not_numbered_of_not_rebuilds (hs.not_rebuilds ha b hb) generation

theorem Sound.number (hs : s.Sound) {a : Agent} (ha : s.stages a = .building) :
    (s.go a (.numbered (s.world.session.generation + 1))
      (·.alterSession fun c => { c with generation := s.world.session.generation + 1 })).Sound := by
  have hrebuilds : (s.stages a).rebuilds = true := by
    rw [ha]
    rfl
  have hlength : s.world.session.generation = s.world.contexts.length :=
    hs.generation_of_rebuilds hrebuilds (by rw [ha]; exact nofun)
  exact hs.goRebuild hrebuilds rfl ⟨hs.ordered.generations, hs.ordered.current⟩
    (fun hnext => absurd rfl (hnext _)) ⟨rfl, congrArg (· + 1) hlength⟩
    (fun k hk => ⟨k, hk, Nat.le_refl k⟩) fun _ => hs.locked a hrebuilds

theorem Sound.build (hs : s.Sound) {a : Agent} {generation : Nat}
    (ha : s.stages a = .numbered generation) (loading : LoadingScope)
    (bindings : Context.Bindings) :
    (s.go a (.built s.world.contexts.length) fun w =>
      (w.addContext (.new generation loading bindings)).2).Sound := by
  have hrebuilds : (s.stages a).rebuilds = true := by
    rw [ha]
    rfl
  have hfits : (Stage.numbered generation).Fits s.world := ha ▸ hs.fits a
  have hlength : (s.world.addContext (.new generation loading bindings)).2.contexts.length =
      s.world.contexts.length + 1 := by
    show (s.world.contexts ++ [_]).length = _
    rw [List.length_append, List.length_singleton]
  refine hs.goRebuild hrebuilds rfl ⟨?_, fun k hk => ?_⟩ (fun _ => ?_) ⟨?_, hs.ordered.current⟩
    (fun k hk => ⟨k, hk, Nat.le_refl k⟩) fun _ => hs.locked a hrebuilds
  · -- The new context has the number that comes next, and stands behind the others.
    rw [hlength, List.range'_1_concat, ← hs.ordered.generations, Nat.add_comm, ← hfits.2]
    exact List.map_append
  · rw [hlength]
    exact Nat.lt_succ_of_lt (hs.ordered.current k hk)
  · rw [hlength, ← hfits.2]
    exact hfits.1
  · rw [hlength]
    exact Nat.lt_succ_self _

/-- The context that a rebuild makes the current one is newer than the one it replaces. -/
theorem Sound.start (hs : s.Sound) {a : Agent} {i : Nat} (ha : s.stages a = .built i) :
    (s.go a (.starting i) (·.alterSession fun c => { c with context := some i })).Sound := by
  have hrebuilds : (s.stages a).rebuilds = true := by
    rw [ha]
    rfl
  have hfits : (Stage.built i).Fits s.world := ha ▸ hs.fits a
  refine hs.goRebuild hrebuilds rfl ⟨hs.ordered.generations, fun k hk => ?_⟩
    (fun _ => hs.generation_of_rebuilds hrebuilds (by rw [ha]; exact nofun)) rfl
    (fun k hk => ⟨i, rfl, Nat.le_of_lt (hfits.2 k hk)⟩) fun _ => hs.locked a hrebuilds
  obtain rfl := Option.some.inj hk
  exact hfits.1

theorem Sound.unlock (hs : s.Sound) {a : Agent} (ha : s.stages a = .closing) :
    (s.go a .resting (·.alterSession fun c => { c with isRebuilding := false })).Sound := by
  have hrebuilds : (s.stages a).rebuilds = true := by
    rw [ha]
    rfl
  exact hs.goRebuild hrebuilds rfl ⟨hs.ordered.generations, hs.ordered.current⟩
    (fun _ => hs.generation_of_rebuilds hrebuilds (by rw [ha]; exact nofun)) trivial
    (fun k hk => ⟨k, hk, Nat.le_refl k⟩) nofun

/-! ## All steps -/

/-- The snapshot of a context that there is has the context's generation. -/
theorem generation_snapshot (hs : s.Sound) {i : Nat} (hi : i < s.world.contexts.length) :
    (s.world.context i).snapshot.generation = i + 1 := hs.ordered.generation_context hi

/-- An agent that leaves the contexts alone goes on to a stage that fits. -/
theorem Goes.sound_of_sameContexts (hs : s.Sound) {m : Move} {a : Agent} {next : Stage}
    {f : World → World} (h : s.Goes a m next f) (hf : SameContexts s.world (f s.world))
    (hnumbered : ∀ generation, s.stages a ≠ .numbered generation) (hfits : next.Fits s.world)
    (hlock : next.rebuilds = true → (s.stages a).rebuilds = true) : (s.go a next f).Sound :=
  hs.go (hs.allows hf h.admission (hs.known h.ne_resting) hnumbered hfits hlock)

theorem Goes.sound (hs : s.Sound) {m : Move} {a : Agent} {next : Stage} {f : World → World}
    (h : s.Goes a m next f) : (s.go a next f).Sound := by
  have hfits : (s.stages a).Fits s.world := hs.fits a
  have hquiet := h.sound_of_sameContexts hs
  cases h with
  | looks i ha =>
    rw [ha] at hfits hquiet
    obtain ⟨k, hk, hle⟩ := hfits
    have hi : i < s.world.contexts.length := Nat.lt_of_le_of_lt hle (hs.ordered.current k hk)
    refine hquiet (.of_eq rfl rfl rfl rfl) nofun ⟨k, hk, ?_⟩ nofun
    -- The snapshot carries the number of the context it was taken of.
    rw [generation_snapshot hs hi]
    exact Nat.succ_le_succ hle
  | publishes shot ha =>
    rw [ha] at hquiet
    exact hquiet (s.world.sameContexts_publish shot) nofun trivial nofun
  | locks ha hfree => exact hs.lock ha hfree
  | numbers ha => exact hs.number ha
  | builds generation loading bindings ha => exact hs.build ha loading bindings
  | starts i ha => exact hs.start ha
  | looksAnew i ha =>
    rw [ha] at hfits hquiet
    refine hquiet (.of_eq rfl rfl rfl rfl) nofun ⟨i, hfits, ?_⟩ fun _ => rfl
    exact generation_snapshot hs (hs.ordered.current i hfits)
  | presents shot ha =>
    rw [ha] at hquiet
    exact hquiet (s.world.sameContexts_publish shot) nofun trivial fun _ => rfl
  | unlocks ha => exact hs.unlock ha
  | givesUp i ha hcaller =>
    rw [ha] at hquiet
    exact hquiet (.of_eq rfl rfl rfl rfl) nofun trivial nofun
  | fails ha =>
    rw [ha] at hquiet
    exact hquiet (.of_eq rfl rfl rfl rfl) nofun trivial fun _ => rfl

theorem Takes.sound (hs : s.Sound) {m : Move} {s' : Activity} (h : s.Takes m s') : s'.Sound := by
  cases h with
  | nothing => exact hs
  | begins _ t next ht hfits hnext => exact hs.goCaller hfits (by rw [ht]; rfl) hnext
  | waits t hasThread sub hsub => exact hs.atAdmission _
  | refused t hasThread sub hsub =>
    have hcaller : ((s.atAdmission (s.submitEvent t sub hasThread)).stages (.caller t)).rebuilds =
        false := by
      show (s.stages (.caller t)).rebuilds = false
      rw [hsub]
      rfl
    exact (hs.atAdmission _).goCaller trivial hcaller rfl
  | admitted t hasThread sub hsub hcurrent => exact hs.admit hsub hcurrent
  | atAdmission e => exact hs.atAdmission e
  | works c => exact hs.work (c.incidental s.world)
  | goes h => exact h.sound hs

theorem sound_step (hs : s.Sound) (m : Move) : (s.step m).Sound := (s.step_takes m).sound hs

theorem sound_run {w : World} (hw : w.Untouched) (moves : List Move) : (run w moves).Sound :=
  runFrom_keeps (P := Sound) (sound_new hw) (fun _ m hs => sound_step hs m) moves

/-! ## Replacing the context -/

/-- In the move a rebuild makes the context that it has built the current one. -/
def Replaces (s : Activity) (m : Move) (i : Nat) : Prop :=
  ∃ a, m = .advance a ∧ s.stages a = .built i

end Activity
end Session
end ScriptSession
