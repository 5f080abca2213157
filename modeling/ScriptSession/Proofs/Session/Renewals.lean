import ScriptSession.Proofs.Session.Publishers
import ScriptSession.Proofs.Session.Publishing
import ScriptSession.Proofs.Session.Twins

/-!
# Rebuilds start clean

A rebuild happens as a whole or not at all. Along every run of a session the current context is
replaced by newer ones only (`Activity.renewing_run`). A rebuild that fails leaves the world as it
found it, and one that has built a context succeeds whatever becomes of the scripts that start it
up (`rebuilt_of_ends`). What it makes the current context depends on the files, the repositories and
the settings of the session, and on nothing that happened before (`rebuilds_start_clean`).
-/

namespace ScriptSession
namespace Session

open Concurrency (Follows IsKept Thread runFrom_relates)
open Concurrency.Thread (Agree Lockstep)

/-! ## Generations along a run -/

/-- The generation of the current context; none before there is one. -/
def World.activeGeneration (w : World) : Nat :=
  (w.session.context.map fun k => (w.context k).generation).getD 0

namespace Activity

variable {s : Activity} {w : World}

/-- The current context is replaced by a rebuild and by nothing else. -/
theorem context_step (hs : s.Sound) (m : Move) :
    (s.step m).world.session.context = s.world.session.context ∨ ∃ i, s.Replaces m i := by
  cases hshot : s.published? m with
  | none => exact ((s.step_takes m).keepsLatest hs hshot).imp_left (·.context)
  | some shot =>
    obtain ⟨k, hk, hk', -⟩ := step_of_published? hs hshot
    exact .inl (hk'.trans hk.symm)

theorem context_of_replaces {m : Move} {i : Nat} (h : s.Replaces m i) :
    (s.step m).world.session.context = some i := by
  obtain ⟨a, rfl, ha⟩ := h
  rw [step, advance, ha]
  rfl

theorem Sound.activeGeneration (hs : s.Sound) :
    s.world.activeGeneration = (s.world.session.context.map (· + 1)).getD 0 := by
  rw [World.activeGeneration]
  cases hk : s.world.session.context with
  | none => rfl
  | some k => exact hs.ordered.generation_context (hs.ordered.current k hk)

/-- What a rebuild has built is newer than the current context. -/
theorem activeGeneration_lt_of_replaces (hs : s.Sound) {m : Move} {i : Nat}
    (h : s.Replaces m i) :
    s.world.activeGeneration < (s.world.context i).generation ∧
      (s.world.context i).generation = i + 1 := by
  obtain ⟨a, rfl, ha⟩ := h
  have hfits : (Stage.built i).Fits s.world := ha ▸ hs.fits a
  have hgeneration : (s.world.context i).generation = i + 1 :=
    hs.ordered.generation_context hfits.1
  refine ⟨?_, hgeneration⟩
  rw [hs.activeGeneration, hgeneration]
  cases hk : s.world.session.context with
  | none => exact Nat.succ_pos i
  | some k => exact Nat.succ_lt_succ (hfits.2 k hk)

theorem activeGeneration_le_step (hs : s.Sound) (m : Move) :
    s.world.activeGeneration ≤ (s.step m).world.activeGeneration := by
  have hnext : (s.step m).Sound := sound_step hs m
  obtain hkeeps | ⟨i, hi⟩ := context_step hs m
  · rw [hs.activeGeneration, hnext.activeGeneration, hkeeps]
  · obtain ⟨hlt, hgeneration⟩ := activeGeneration_lt_of_replaces hs hi
    rw [hnext.activeGeneration, context_of_replaces hi]
    rw [hgeneration] at hlt
    exact Nat.le_of_lt hlt

/-- The current context is replaced by newer ones only, no two of one generation. -/
structure Renewing (w : World) (moves : List Move) : Prop where
  monotone : ∀ past, past <+: moves →
    (run w past).world.activeGeneration ≤ (run w moves).world.activeGeneration
  newer : ∀ past m i, Follows past m moves → (run w past).Replaces m i →
    (run w past).world.activeGeneration < ((run w past).world.context i).generation
  current : ∀ past m i, Follows past m moves → (run w past).Replaces m i →
    (run w (past ++ [m])).world.session.context = some i
  lasting : ∀ past m i, Follows past m moves → (run w past).Replaces m i →
    ((run w moves).world.context i).generation = ((run w past).world.context i).generation
  distinct : ∀ past m i past' m' i', Follows past m moves → Follows past' m' moves →
    past.length < past'.length → (run w past).Replaces m i → (run w past').Replaces m' i' →
    ((run w past).world.context i).generation < ((run w past').world.context i').generation

section

variable (hw : w.Untouched)
include hw

theorem activeGeneration_le {past moves : List Move} (h : past <+: moves) :
    (run w past).world.activeGeneration ≤ (run w moves).world.activeGeneration :=
  runFrom_relates (R := fun s s' : Activity => s.world.activeGeneration ≤ s'.world.activeGeneration)
    (fun _ => Nat.le_refl _) (fun _ _ _ => Nat.le_trans)
    (fun past m => activeGeneration_le_step (sound_run hw past) m) h

/-- Where a rebuild has made its context the current one, that is the generation from then on, or a
newer one is. -/
theorem generation_le_of_replaces {past moves : List Move} {m : Move} {i : Nat}
    (hfollows : Follows past m moves) (hi : (run w past).Replaces m i) :
    ((run w past).world.context i).generation ≤ (run w moves).world.activeGeneration := by
  have hs : (run w past).Sound := sound_run hw past
  have hnext : (run w (past ++ [m])).Sound := sound_run hw _
  refine Nat.le_trans (Nat.le_of_eq ?_) (activeGeneration_le hw hfollows)
  rw [hnext.activeGeneration, run_concat, context_of_replaces hi]
  exact (activeGeneration_lt_of_replaces hs hi).2

theorem renewing_run (moves : List Move) : Renewing w moves where
  monotone past hpast := activeGeneration_le hw hpast
  newer past m i _ hi := (activeGeneration_lt_of_replaces (sound_run hw past) hi).1
  current past m i _ hi := by
    rw [run_concat]
    exact context_of_replaces hi
  lasting past m i hfollows hi := by
    have hs : (run w moves).Sound := sound_run hw moves
    have hgeneration := (activeGeneration_lt_of_replaces (sound_run hw past) hi).2
    have hle := generation_le_of_replaces hw hfollows hi
    rw [hs.activeGeneration, hgeneration] at hle
    rw [hgeneration]
    refine hs.ordered.generation_context ?_
    cases hk : (run w moves).world.session.context with
    | none =>
      rw [hk] at hle
      exact absurd hle (Nat.not_succ_le_zero i)
    | some k =>
      rw [hk] at hle
      exact Nat.lt_of_le_of_lt (Nat.le_of_succ_le_succ hle) (hs.ordered.current k hk)
  distinct past m i past' m' i' hfollows hfollows' hlt hi hi' := by
    -- The earlier one comes before the later one in the same run, so it is in its past.
    have hprefix : Follows past m past' :=
      List.prefix_of_prefix_length_le hfollows ((List.prefix_append _ _).trans hfollows') (by
        rw [List.length_append, List.length_singleton]
        exact hlt)
    exact Nat.lt_of_le_of_lt (generation_le_of_replaces hw hprefix hi)
      (activeGeneration_lt_of_replaces (sound_run hw past') hi').1

end

end Activity

/-! ## A rebuild by itself -/

/-- What a rebuild does once its context is the current one. -/
def startUp (i : Nat) : Act Unit := do
  banner.forM write
  runAutorun i
  refreshSnapshot i

/-- The world with a rebuild under way or without one. -/
def World.setRebuilding (w : World) (b : Bool) : World :=
  w.alterSession fun c => { c with isRebuilding := b }

theorem World.setRebuilding_setRebuilding (w : World) (h : w.session.isRebuilding = false)
    (b : Bool) : (w.setRebuilding b).setRebuilding false = w := by
  rw [← h]
  rfl

/-- The world with another current context. -/
def World.setContext (w : World) (i : Nat) : World :=
  w.alterSession fun c => { c with context := some i }

/-- The build of a rebuild, with what the session has at that time. -/
def buildAnew (id : Nat) (core : Core) : Act (Except Failure Nat) :=
  build (.task id) core.baseScope core.manifest core.bindings (optionsOf core.settings)

/-- A rebuild begins in a world in which no other one is under way, at once or after a wait. -/
def Obtains (R : World → World → Prop) (w w₀ : World) : Prop :=
  w₀.session.isRebuilding = false ∧ (w₀ = w ∨ w.session.isRebuilding = true ∧ R w w₀)

variable {R R' : World → World → Prop} {w w' : World} {id id' : Nat} {r : Except Failure Nat}

theorem ends_rebuildNow (h : (rebuildNow id).Ends R w r w') :
    ∃ w₀ built w₁, Obtains R w w₀ ∧
      (buildAnew id w₀.session).Ends R (w₀.setRebuilding true) built w₁ ∧
      match built with
      | .error e => r = .error e ∧ w' = w₁.setRebuilding false
      | .ok i => ∃ w₂, (startUp i).Ends R (w₁.setContext i) () w₂ ∧
          r = .ok (w₂.context i).generation ∧ w' = w₂.setRebuilding false := by
  obtain ⟨_, w₀, hlock, h⟩ := Thread.ends_bind'.mp h
  rw [Thread.ends_await] at hlock
  -- It has the lock once it has waited, whatever others have done meanwhile.
  have hobtains : Obtains R w w₀ := by
    obtain ⟨hfree, hw₀⟩ := hlock
    rw [Bool.not_eq_true'] at hfree
    refine ⟨hfree, hw₀.imp_right (And.imp_left fun hbusy => ?_)⟩
    rwa [Bool.not_eq_false'] at hbusy
  rw [Thread.ends_modify_bind, Thread.ends_get_bind] at h
  obtain ⟨built, w₁, hbuild, h⟩ := Thread.ends_bind'.mp h
  refine ⟨w₀, built, w₁, hobtains, hbuild, ?_⟩
  cases built with
  | error e => exact h
  | ok i =>
    rw [Thread.ends_modify_bind] at h
    obtain ⟨_, v₁, hbanner, h⟩ := Thread.ends_bind'.mp h
    obtain ⟨_, v₂, hautorun, h⟩ := Thread.ends_bind'.mp h
    obtain ⟨_, v₃, hrefresh, h⟩ := Thread.ends_bind'.mp h
    refine ⟨v₃, ?_, h⟩
    exact Thread.ends_bind'.mpr ⟨_, v₁, hbanner, Thread.ends_bind'.mpr ⟨_, v₂, hautorun, hrefresh⟩⟩

/-! ## Autorun scripts -/

/-- What autorun scripts come to, one after the other. One that is not there when its turn comes is
passed over. One that fails adds a warning, and the next one goes on from there. -/
inductive Autoruns (R : World → World → Prop) (i : Nat) : List Path → World → World → Prop
  | none (w : World) : Autoruns R i [] w w
  | absent {path : Path} {rest : List Path} {w w' : World}
      (hpath : w.host.isFile path = false) (hrest : Autoruns R i rest w w') :
      Autoruns R i (path :: rest) w w'
  | ran {path : Path} {rest : List Path} {w w₁ w' : World} (hpath : w.host.isFile path = true)
      (h : (runAutorunScript i path).Ends R w (.ok ()) w₁) (hrest : Autoruns R i rest w₁ w') :
      Autoruns R i (path :: rest) w w'
  | failed {path : Path} {rest : List Path} {w w₁ w' : World} {e : Failure}
      (hpath : w.host.isFile path = true)
      (h : (runAutorunScript i path).Ends R w (.error e) w₁)
      (hrest : Autoruns R i rest (w₁.writeEntry (.warning ("Failed to run autorun script " ++
        path.text ++ ": " ++ e.message))) w') : Autoruns R i (path :: rest) w w'

theorem autoruns_of_ends {i : Nat} {u : Unit} (h : (runAutorun i).Ends R w u w') :
    Autoruns R i (autorunScripts w.session) w w' := by
  rw [runAutorun, Thread.ends_get_bind] at h
  generalize autorunScripts w.session = paths at h ⊢
  induction paths generalizing w with
  | nil =>
    obtain ⟨-, rfl⟩ := h
    exact .none w'
  | cons path rest ih =>
    obtain ⟨_, w₂, hscript, hrest⟩ := Thread.ends_bind'.mp h
    rw [runAutorunIfThere, Thread.ends_get_bind] at hscript
    split at hscript
    · rename_i hpath
      obtain ⟨result, w₁, hrun, hresult⟩ := Thread.ends_bind'.mp hscript
      cases result with
      | ok u =>
        obtain ⟨-, rfl⟩ := hresult
        exact .ran hpath hrun (ih hrest)
      | error e =>
        obtain ⟨-, rfl⟩ := hresult
        exact .failed hpath hrun (ih hrest)
    · rename_i hpath
      obtain ⟨-, rfl⟩ := hscript
      exact .absent (Bool.eq_false_iff.mpr hpath) (ih hrest)

/-! ## What a rebuild comes to -/

/-- A context is started up: after the banner its scripts run, and then it is shown. -/
def Starts (R : World → World → Prop) (i : Nat) (w w' : World) : Prop :=
  ∃ w₁ w₂, (banner.forM write).Ends R w () w₁ ∧
    Autoruns R i (autorunScripts w₁.session) w₁ w₂ ∧
    w' = w₂.publish (w₂.context i).snapshot

/-- Contexts keep their generations while others are added. -/
def KeepsGenerations (w w' : World) : Prop :=
  w.contexts.map (·.generation) <+: w'.contexts.map (·.generation)

/-- A rebuild that has begun in `w₀` succeeds: it builds a context, makes it the current one and
starts it up. -/
structure Succeeds (R : World → World → Prop) (id : Nat) (w₀ : World) (g : Nat) (w' : World) :
    Prop where
  project : w₀.session.projectDir ≠ none
  renewed : ∃ i w₁ w₂, (buildAnew id w₀.session).Ends R (w₀.setRebuilding true) (.ok i) w₁ ∧
    Starts R i (w₁.setContext i) w₂ ∧ w' = w₂.setRebuilding false ∧
    ((∀ v v', R v v' → KeepsGenerations v v') → g = w₁.session.generation)

/-- What a rebuild comes to. It fails only where there is no project, and then the world is left as
it was found; whatever becomes of autorun scripts, it succeeds otherwise. -/
structure Rebuilt (R : World → World → Prop) (id : Nat) (w : World) (r : Except Failure Nat)
    (w' : World) : Prop where
  failed : ∀ e, r = .error e → e = noProject ∧ w'.session.projectDir = none ∧ Obtains R w w'
  succeeded : ∀ g, r = .ok g → ∃ w₀, Obtains R w w₀ ∧ Succeeds R id w₀ g w'

theorem isKept_keepsGenerations : IsKept KeepsGenerations :=
  ⟨fun _ => List.prefix_rfl, List.IsPrefix.trans⟩

theorem KeepsGenerations.context (h : KeepsGenerations w w') {i : Nat}
    (hi : i < w.contexts.length) : (w'.context i).generation = (w.context i).generation := by
  have hlength := h.length_le
  rw [List.length_map, List.length_map] at hlength
  have hi' : i < w'.contexts.length := Nat.lt_of_lt_of_le hi hlength
  have hat := List.IsPrefix.getElem h (i := i) (by rwa [List.length_map])
  rw [List.getElem_map, List.getElem_map] at hat
  rw [World.context_of_getElem? (List.getElem?_eq_getElem hi),
    World.context_of_getElem? (List.getElem?_eq_getElem hi'), hat]

theorem Incidental.keepsGenerations (h : Incidental w w') : KeepsGenerations w w' := by
  rw [KeepsGenerations, h.generations]

theorem starts_of_ends {i : Nat} (h : (startUp i).Ends R w () w') : Starts R i w w' := by
  obtain ⟨_, w₁, hbanner, h⟩ := Thread.ends_bind'.mp h
  obtain ⟨_, w₂, hautorun, h⟩ := Thread.ends_bind'.mp h
  exact ⟨w₁, w₂, hbanner, autoruns_of_ends hautorun, Thread.ends_modify.mp h⟩

/-- What passing changes, publications and the others keep is kept when a context is started up. -/
theorem keeps_startUp {i : Nat} {S : World → World → Prop} (h : (startUp i).Ends R w () w')
    (hS : IsKept S) (hpassing : ∀ v v', Passing v v' → S v v')
    (hpublish : ∀ v shot, S v (World.publish v shot)) (hR : ∀ v v', R v v' → S v v') : S w w' := by
  obtain ⟨_, w₁, hbanner, h⟩ := Thread.ends_bind'.mp h
  obtain ⟨_, w₂, hautorun, h⟩ := Thread.ends_bind'.mp h
  have hfirst : S w w₁ :=
    (((Makes.forM quiet_write banner).only w).of_ends hbanner hS hpassing hR).2
  have hsecond : S w₁ w₂ := (((quiet_runAutorun i).only w₁).of_ends hautorun hS hpassing hR).2
  have hlast : S w₂ w' := by
    rw [Thread.ends_modify.mp h]
    exact hpublish _ _
  exact hS.trans (hS.trans hfirst hsecond) hlast

/-- Starting a context up keeps the generations of all. -/
theorem keepsGenerations_startUp {i : Nat} (h : (startUp i).Ends R w () w')
    (hR : ∀ v v', R v v' → KeepsGenerations v v') : KeepsGenerations w w' := by
  refine keeps_startUp h isKept_keepsGenerations (fun _ _ hv => hv.incidental.keepsGenerations)
    (fun v shot => ?_) hR
  rw [KeepsGenerations, (v.session_publish shot).2.1]

theorem rebuilt_of_ends (h : (rebuildNow id).Ends R w r w') : Rebuilt R id w r w' := by
  obtain ⟨w₀, built, w₁, hobtains, hbuild, h⟩ := ends_rebuildNow h
  obtain ⟨hpremature, hunchanged, hbuilds⟩ := (build_degrades R (.task id) _ _ _ _ _).1 _ _ hbuild
  cases built with
  | error e =>
    obtain ⟨rfl, rfl⟩ := h
    obtain ⟨rfl, rfl⟩ := hunchanged e rfl
    refine ⟨?_, nofun⟩
    rintro _ ⟨⟩
    -- Nothing has been built, so taking the lock and giving it back is all there is.
    rw [w₀.setRebuilding_setRebuilding hobtains.1]
    exact ⟨rfl, hpremature.mp rfl, hobtains⟩
  | ok i =>
    obtain ⟨w₂, hstart, rfl, rfl⟩ := h
    obtain ⟨project, hproject, output, d, w₃, hbuilt⟩ := hbuilds i rfl
    refine ⟨nofun, ?_⟩
    rintro _ ⟨⟩
    refine ⟨w₀, hobtains, fun hnone => ?_, i, w₁, w₂, hbuild, starts_of_ends hstart, rfl,
      fun hR => ?_⟩
    · rw [show (w₀.setRebuilding true).session.projectDir = none from hnone] at hproject
      cases hproject
    · have hi : i < (w₁.setContext i).contexts.length :=
        (List.getElem?_eq_some_iff.mp hbuilt.context).1
      -- Starting up does not change the number that the context was built with.
      rw [(keepsGenerations_startUp hstart hR).context hi]
      exact congrArg (·.generation) (World.context_of_getElem? hbuilt.context)

/-! ## Two rebuilds -/

section

variable {v v' : World}

theorem Obtains.eq_of_free {w₀ : World} (h : Obtains R w w₀)
    (hfree : w.session.isRebuilding = false) : w₀ = w := by
  obtain ⟨-, rfl | ⟨hbusy, -⟩⟩ := h
  · rfl
  · rw [hfree] at hbusy
    cases hbusy

theorem alike_setRebuilding (w : World) (b : Bool) : w.Alike (w.setRebuilding b) :=
  ⟨rfl, rfl, rfl, rfl, rfl, rfl, rfl, rfl⟩

theorem alike_setContext (w : World) (i : Nat) : w.Alike (w.setContext i) :=
  ⟨rfl, rfl, rfl, rfl, rfl, rfl, rfl, rfl⟩

/-- Two sessions that are alike build contexts that differ in their numbers only. -/
theorem contexts_of_buildAnew (hw : w.Alike w') (hR : ∀ v v', R v v' → v.Alike v')
    (hR' : ∀ v v', R' v v' → v.Alike v') {i i' : Nat}
    (h : (buildAnew id w.session).Ends R w (.ok i) v)
    (h' : (buildAnew id' w'.session).Ends R' w' (.ok i') v') :
    v.Alike v' ∧ ∃ scope,
      v.contexts[i]? = some (.new v.session.generation scope w.session.bindings) ∧
        v'.contexts[i']? = some (.new v'.session.generation scope w.session.bindings) := by
  rw [buildAnew, hw.baseScope, hw.manifest, hw.bindings, hw.settings] at h'
  obtain ⟨-, -, hbuilds⟩ := (build_degrades R (.task id) _ _ _ _ w).1 _ _ h
  obtain ⟨-, -, hbuilds'⟩ := (build_degrades R' (.task id') _ _ _ _ w').1 _ _ h'
  obtain ⟨project, hproject, output, d, w₁, hbuilt⟩ := hbuilds i rfl
  obtain ⟨project', hproject', output', d', w₁', hbuilt'⟩ := hbuilds' i' rfl
  rw [hw.projectDir, hproject] at hproject'
  exact contexts_of_builds hbuilt hbuilt' hw (Option.some.inj hproject').symm hR hR'

/-- A build makes a context beside those that there are. -/
theorem index_of_buildAnew (hR : ∀ v v', R v v' → v'.contexts.length = v.contexts.length)
    {i : Nat} (h : (buildAnew id w.session).Ends R w (.ok i) v) : i = w.contexts.length := by
  obtain ⟨-, -, hbuilds⟩ := (build_degrades R (.task id) _ _ _ _ w).1 _ _ h
  obtain ⟨project, hproject, output, d, w₁, hbuilt⟩ := hbuilds i rfl
  have hlength : w₁.contexts.length = w.contexts.length := by
    refine hbuilt.resolution.keeps (isKept_eq fun v => v.contexts.length) (fun u u' hu => ?_) hR
    exact hu.passing.incidental.length
  rw [hbuilt.number, hlength]

theorem lockstep_startUp {n n' : Nat} (hR : ∀ v v', R v v' → v.Spares n v')
    (hR' : ∀ v v', R' v v' → v.Spares n' v') :
    Lockstep R R' (World.Twins n n') (startUp n) (startUp n') :=
  .bind (.forM (lockstep_write n n') banner) fun _ =>
    .bind (lockstep_runAutorun hR hR') fun _ => lockstep_refreshSnapshot n n'

/-- Starting a context up leaves it the current one. -/
theorem context_startUp {i : Nat} (h : (startUp i).Ends R w () w')
    (hR : ∀ v v', R v v' → v'.session.context = v.session.context) :
    w'.session.context = w.session.context := by
  refine keeps_startUp h (isKept_eq fun v => v.session.context)
    (fun _ _ hv => hv.incidental.context) (fun v shot => ?_) hR
  rw [(v.session_publish shot).1]

/-- A rebuild that succeeds where no other one is under way: its parts. -/
theorem startUp_of_rebuildNow (hfree : w.session.isRebuilding = false)
    (hR : ∀ v v', R v v' → v.Spares w.contexts.length v') {g : Nat}
    (h : (rebuildNow id).Ends R w (.ok g) v) :
    ∃ w₁ w₂, (buildAnew id w.session).Ends R (w.setRebuilding true) (.ok w.contexts.length) w₁ ∧
      (startUp w.contexts.length).Ends R (w₁.setContext w.contexts.length) () w₂ ∧
      w₂.session.context = some w.contexts.length ∧
      g = (w₂.context w.contexts.length).generation ∧ v = w₂.setRebuilding false := by
  obtain ⟨w₀, built, w₁, hobtains, hbuild, h⟩ := ends_rebuildNow h
  obtain rfl := hobtains.eq_of_free hfree
  cases built with
  | error e => cases h.1
  | ok i =>
    obtain ⟨w₂, hstart, hg, rfl⟩ := h
    have hi : i = w₀.contexts.length :=
      index_of_buildAnew (w := w₀.setRebuilding true) (fun v v' hv => (hR v v' hv).length) hbuild
    subst hi
    refine ⟨w₁, w₂, hbuild, hstart, ?_, Except.ok.inj hg, rfl⟩
    exact context_startUp hstart fun v v' hv => (hR v v' hv).context

/-- Two sessions that are alike have contexts after a rebuild that differ in their numbers only. -/
theorem contexts_of_rebuildNow (hw : w.Alike w') (hfree : w.session.isRebuilding = false)
    (hfree' : w'.session.isRebuilding = false)
    (hR : ∀ v v', R v v' → v.Spares w.contexts.length v')
    (hR' : ∀ v v', R' v v' → v.Spares w'.contexts.length v') {g g' : Nat}
    (h : (rebuildNow id).Ends R w (.ok g) v) (h' : (rebuildNow id').Ends R' w' (.ok g') v') :
    ∃ (c : Context.State) (i i' : Nat),
      v.session.context = some i ∧ v.contexts[i]? = some (c.renumber g) ∧
        v'.session.context = some i' ∧ v'.contexts[i']? = some (c.renumber g') := by
  obtain ⟨w₁, w₂, hbuild, hstart, hcurrent, rfl, rfl⟩ := startUp_of_rebuildNow hfree hR h
  obtain ⟨w₁', w₂', hbuild', hstart', hcurrent', rfl, rfl⟩ := startUp_of_rebuildNow hfree' hR' h'
  have hbegin : (w.setRebuilding true).Alike (w'.setRebuilding true) :=
    hw.both (alike_setRebuilding w true) (alike_setRebuilding w' true)
  obtain ⟨halike, scope, hcontext, hcontext'⟩ := contexts_of_buildAnew hbegin
    (fun v v' hv => (hR v v' hv).toAlike) (fun v v' hv => (hR' v v' hv).toAlike) hbuild hbuild'
  -- The new contexts are alike but for their numbers, and starting up keeps them so, step by step.
  have htwins : (w₁.setContext w.contexts.length).Twins w.contexts.length w'.contexts.length
      (w₁'.setContext w'.contexts.length) :=
    ⟨halike.both (alike_setContext w₁ _) (alike_setContext w₁' _),
      .new 0 scope w.session.bindings, _, _, hcontext, hcontext'⟩
  obtain ⟨-, hlast⟩ := lockstep_startUp hR hR' _ _ htwins _ _ _ _ hstart hstart'
  obtain ⟨c, g, g', hc, hc'⟩ := hlast.contexts
  refine ⟨c, _, _, hcurrent, ?_, hcurrent', ?_⟩
  · rw [World.context_of_getElem? hc]
    exact hc
  · rw [World.context_of_getElem? hc']
    exact hc'

end

/-- Rebuilds replace the current context by newer ones only, they happen as a whole or not at all,
and what they make the current context depends on nothing that happened before. -/
theorem rebuilds_start_clean :
    -- The turns of a rebuild are moves of a session in progress, and along those it is renewed.
    (∀ a id, Retires a .awaiting (rebuildNow id)) ∧
    (∀ w : World, w.Untouched → ∀ moves, Activity.Renewing w moves) ∧
    -- By itself a rebuild succeeds or leaves everything as it was.
    (∀ R id w r w', (rebuildNow id).Ends R w r w' → Rebuilt R id w r w') ∧
    -- Whatever else others do, two sessions that are alike build one context but for its number.
    (∀ (R R' : World → World → Prop) (id id' i i' : Nat) (w w' v v' : World), w.Alike w' →
      (∀ u u', R u u' → u.Alike u') → (∀ u u', R' u u' → u.Alike u') →
      (buildAnew id w.session).Ends R w (.ok i) v →
      (buildAnew id' w'.session).Ends R' w' (.ok i') v' →
      ∃ scope, v.contexts[i]? = some (.new v.session.generation scope w.session.bindings) ∧
        v'.contexts[i']? = some (.new v'.session.generation scope w.session.bindings)) ∧
    -- And so it is when the contexts have been started up, if others leave them alone until then.
    (∀ (R R' : World → World → Prop) (id id' g g' : Nat) (w w' v v' : World), w.Alike w' →
      w.session.isRebuilding = false → w'.session.isRebuilding = false →
      (∀ u u', R u u' → u.Spares w.contexts.length u') →
      (∀ u u', R' u u' → u.Spares w'.contexts.length u') →
      (rebuildNow id).Ends R w (.ok g) v → (rebuildNow id').Ends R' w' (.ok g') v' →
      ∃ (c : Context.State) (i i' : Nat),
        v.session.context = some i ∧ v.contexts[i]? = some (c.renumber g) ∧
          v'.session.context = some i' ∧ v'.contexts[i']? = some (c.renumber g')) :=
  ⟨retires_rebuildNow, fun _ hw => Activity.renewing_run hw, fun _ _ _ _ _ => rebuilt_of_ends,
    fun _ _ _ _ _ _ _ _ _ _ hw hR hR' h h' => (contexts_of_buildAnew hw hR hR' h h').2,
    fun _ _ _ _ _ _ _ _ _ _ hw hfree hfree' hR hR' h h' =>
      contexts_of_rebuildNow hw hfree hfree' hR hR' h h'⟩

/-- A session that has just been opened. -/
@[irreducible] def freshSession : World :=
  { World.new (Host.empty ["w"]) with
    session := open_ default ⟨⟨"cache"⟩⟩ (some ⟨"project"⟩) [] }

/-- The session later on: it has a context, and a script has left a variable there. -/
@[irreducible] def usedSession : World :=
  let scope := Script.Scope.empty.push (.variable_ "x" (.int 1))
  { freshSession with
    contexts := [{ Context.State.new 1 .empty .empty with scope := scope, published := scope }]
    session := { freshSession.session with generation := 1, context := some 0 } }

/-- A variable of a session is gone after a rebuild: the new context is the one that the session had
at first but for its number. -/
theorem variable_gone_after_rebuild :
    freshSession.Untouched ∧ (∀ moves, Activity.Renewing freshSession moves) ∧
      freshSession.Alike usedSession ∧ ((usedSession.context 0).value? "x").isSome = true ∧
      ∃ v v', (rebuildNow 0).Ends Eq freshSession (.ok 1) v ∧
        (rebuildNow 1).Ends Eq usedSession (.ok 2) v' ∧ Rebuilt Eq 1 usedSession (.ok 2) v' ∧
        ((v'.context 1).value? "x").isNone = true ∧ ∃ (c : Context.State) (i i' : Nat),
          v.session.context = some i ∧ v.contexts[i]? = some (c.renumber 1) ∧
            v'.session.context = some i' ∧ v'.contexts[i']? = some (c.renumber 2) := by
  obtain ⟨-, hrenewing, hrebuilt, -, hcontexts⟩ := rebuilds_start_clean
  have hspares : ∀ n (u u' : World), u = u' → u.Spares n u' := by
    rintro n u _ rfl
    exact ⟨.refl u, rfl, fun _ _ => rfl, rfl, fun _ h => h⟩
  have halike : freshSession.Alike usedSession := by
    rw [usedSession]
    exact ⟨rfl, rfl, rfl, rfl, rfl, rfl, rfl, rfl⟩
  have huntouched : freshSession.Untouched := by
    rw [freshSession]
    exact untouched_open ..
  have hends : ∃ v, (rebuildNow 0).Ends Eq freshSession (.ok 1) v ∧
      v.session.context.isSome = true :=
    exists_ends_of_drive (P := fun v => v.session.context.isSome) (by decide +kernel)
  have hends' : ∃ v, (rebuildNow 1).Ends Eq usedSession (.ok 2) v ∧
      ((v.context 1).value? "x").isNone = true :=
    exists_ends_of_drive (P := fun v => ((v.context 1).value? "x").isNone) (by decide +kernel)
  obtain ⟨v, hv, -⟩ := hends
  obtain ⟨v', hv', hgone⟩ := hends'
  refine ⟨huntouched, hrenewing _ huntouched, halike, by decide +kernel, v, v', hv, hv',
    hrebuilt _ _ _ _ _ hv', hgone, ?_⟩
  exact hcontexts Eq Eq 0 1 1 2 _ _ v v' halike (by decide +kernel) (by decide +kernel)
    (hspares _) (hspares _) hv hv'

end Session
end ScriptSession
