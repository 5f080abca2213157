import ScriptSession.Proofs.Session.Building

/-!
# Sessions that start alike

Two sessions with the same settings, files and repositories, whatever else has happened to them.
What is resolved for the one is resolved for the other (`Resolution.unique`), so the contexts that
are built for them differ in their numbers only (`contexts_of_builds`). Scripts that run in two such
contexts ask the same questions and get the same answers, and so they leave the contexts alike
(`lockstep_evaluateIn`), the scripts that start them up included (`lockstep_runAutorun`).
-/

namespace ScriptSession

/-- A context under another number. -/
def Context.State.renumber (c : Context.State) (generation : Nat) : Context.State :=
  { c with generation := generation }

namespace Session

open Artifact (CodeLocation Manifest)
open Concurrency (IsKept Thread)
open Concurrency.Thread (Agree Lockstep Tolerates)
open Context (LoadingScope)
open Script (Run Scope Value)

/-! ## Worlds -/

/-- Two worlds in which a session finds the same files, repositories and settings. -/
structure World.Alike (w w' : World) : Prop where
  host : w'.host = w.host
  offers : w'.offers = w.offers
  settings : w'.session.settings = w.session.settings
  cache : w'.session.cache = w.session.cache
  projectDir : w'.session.projectDir = w.session.projectDir
  bindings : w'.session.bindings = w.session.bindings
  baseScope : w'.session.baseScope = w.session.baseScope
  manifest : w'.session.manifest = w.session.manifest

namespace World.Alike

variable {w w' w'' v v' : World}

theorem refl (w : World) : w.Alike w := ⟨rfl, rfl, rfl, rfl, rfl, rfl, rfl, rfl⟩

theorem trans (h : w.Alike w') (h' : w'.Alike w'') : w.Alike w'' :=
  ⟨h'.host.trans h.host, h'.offers.trans h.offers, h'.settings.trans h.settings,
    h'.cache.trans h.cache, h'.projectDir.trans h.projectDir, h'.bindings.trans h.bindings,
    h'.baseScope.trans h.baseScope, h'.manifest.trans h.manifest⟩

theorem symm (h : w.Alike w') : w'.Alike w :=
  ⟨h.host.symm, h.offers.symm, h.settings.symm, h.cache.symm, h.projectDir.symm,
    h.bindings.symm, h.baseScope.symm, h.manifest.symm⟩

theorem of_eq (hhost : w'.host = w.host) (hoffers : w'.offers = w.offers)
    (hsession : w'.session = w.session) : w.Alike w' := by
  refine ⟨hhost, hoffers, ?_, ?_, ?_, ?_, ?_, ?_⟩ <;> rw [hsession]

/-- Two worlds stay alike when both change to worlds alike. -/
theorem both (h : w.Alike w') (hv : w.Alike v) (hv' : w'.Alike v') : v.Alike v' :=
  hv.symm.trans (h.trans hv')

end World.Alike

variable {R R' : World → World → Prop}

/-! ## Resolving -/

section

variable (hR : ∀ v v', R v v' → v.Alike v') (hR' : ∀ v v', R' v v' → v.Alike v')
include hR hR'

theorem tolerates_alike : Tolerates R R' World.Alike where
  left h hv := h.both (hR _ _ hv) (.refl _)
  right h hv := h.both (.refl _) (hR' _ _ hv)

theorem lockstep_stopAt (gate : String) (owner owner' : Owner) :
    Lockstep R R' World.Alike (stopAt gate owner) (stopAt gate owner') :=
  .bind (.modify fun _ _ h => h.both (.of_eq rfl rfl rfl) (.of_eq rfl rfl rfl)) fun _ =>
    .bind (.await (tolerates_alike hR hR') _ _) fun _ =>
      .modify fun _ _ h => h.both (.of_eq rfl rfl rfl) (.of_eq rfl rfl rfl)

theorem lockstep_ask (owner owner' : Owner) (r : Artifact.Repository) (c : Artifact.Coordinate) :
    Lockstep R R' World.Alike (ask owner r c) (ask owner' r c) := by
  refine .get_bind fun w w' h => ?_
  rw [h.offers, h.host]
  cases w.offers with
  | none => exact .pure _
  | some offers =>
    refine .bind (.modify fun v v' hv => ?_) fun _ => ?_
    · obtain ⟨_, _, _, hrecord⟩ := v.reports_record (.fetch r.id c)
      obtain ⟨_, _, _, hrecord'⟩ := v'.reports_record (.fetch r.id c)
      rw [hrecord, hrecord']
      exact hv.both (.of_eq rfl rfl rfl) (.of_eq rfl rfl rfl)
    · split
      · exact .pure _
      · rename_i o _
        cases o.gate with
        | none => exact .pure _
        | some gate => exact .bind (lockstep_stopAt hR hR' gate owner owner') fun _ => .pure _

end

section

theorem lockstep_getHost_bind {α : Type} {g g' : Host → Act α}
    (h : ∀ host, Lockstep R R' World.Alike (g host) (g' host)) :
    Lockstep R R' World.Alike (getThe Host >>= g) (getThe Host >>= g') := by
  intro w w' hw
  show Agree R R' _ (g w.host) w (g' w'.host) w'
  rw [hw.host]
  exact h w.host w w' hw

theorem lockstep_setHost (host : Host) :
    Lockstep R R' World.Alike (set host : Act Unit) (set host) := by
  rintro w w' h a v b v' ⟨-, rfl⟩ ⟨-, rfl⟩
  exact ⟨rfl, rfl, h.offers, h.settings, h.cache, h.projectDir, h.bindings, h.baseScope, h.manifest⟩

variable {ask ask' : Artifact.Repository → Artifact.Coordinate → Act Artifact.FetchAnswer}
  (hask : ∀ r c, Lockstep R R' World.Alike (ask r c) (ask' r c)) (cache : Artifact.Cache)
  (repositories : List Artifact.Repository)
include hask

theorem lockstep_askInOrder (c : Artifact.Coordinate) (last : Option Artifact.Failure) :
    Lockstep R R' World.Alike (Artifact.askInOrder ask c repositories last)
      (Artifact.askInOrder ask' c repositories last) := by
  induction repositories generalizing last with
  | nil => exact .pure _
  | cons r rest ih =>
    refine .bind (hask r c) fun answer => ?_
    split
    · exact .pure _
    · exact ih last
    · exact ih _

theorem lockstep_resolveCoordinate (c : Artifact.Coordinate) :
    Lockstep R R' World.Alike (Artifact.resolveCoordinate ask cache repositories c)
      (Artifact.resolveCoordinate ask' cache repositories c) := by
  refine lockstep_getHost_bind fun host => ?_
  split
  · exact .pure _
  · refine .bind (lockstep_askInOrder hask repositories c none) fun answer => ?_
    split
    · exact lockstep_getHost_bind fun host => .bind (lockstep_setHost _) fun _ => .pure _
    · exact .pure _
    · exact .pure _

theorem lockstep_resolveAll (cs : List Artifact.Coordinate) :
    Lockstep R R' World.Alike (Artifact.resolveAll ask cache repositories cs)
      (Artifact.resolveAll ask' cache repositories cs) := by
  induction cs with
  | nil => exact .pure _
  | cons c rest ih =>
    refine .bind (lockstep_resolveCoordinate hask cache repositories c) fun result => ?_
    split
    · exact .pure _
    · refine .bind ih fun results => ?_
      split
      · exact .pure _
      · exact .pure _

theorem lockstep_resolveManifest (m : Manifest) :
    Lockstep R R' World.Alike (Artifact.resolveManifest ask cache m)
      (Artifact.resolveManifest ask' cache m) := by
  rw [Artifact.resolveManifest, Artifact.resolveManifest]
  split
  · exact .pure _
  · exact lockstep_resolveAll hask cache m.repositories m.dependencies

end

/-- What is resolved in one world is resolved in a world alike. -/
theorem lockstep_resolveFor (hR : ∀ v v', R v v' → v.Alike v') (hR' : ∀ v v', R' v v' → v.Alike v')
    (owner owner' : Owner) (project : Path) (m : Manifest) :
    Lockstep R R' World.Alike (resolveFor owner project m) (resolveFor owner' project m) := by
  intro w w' hw r v r' v' h h'
  rw [resolveFor, Thread.ends_get_bind, ends_resolve] at h h'
  rw [hw.host, hw.settings, hw.cache] at h'
  cases hmanifest : w.session.settings.resolver.manifestOn w.host (manifestFor project m) with
  | error e =>
    rw [hmanifest] at h h'
    obtain ⟨rfl, rfl⟩ := h
    obtain ⟨rfl, rfl⟩ := h'
    exact ⟨rfl, hw⟩
  | ok m' =>
    rw [hmanifest] at h h'
    exact lockstep_resolveManifest (lockstep_ask hR hR' owner owner') _ m' w w' hw r v r' v' h h'

/-! ## Building -/

variable {owner owner' : Owner} {project : Path} {m : Manifest} {w w' w₁ w₁' v v' : World}

theorem Resolution.unique {isAsked : Bool} {d d' : Dependencies}
    (h : Resolution R owner project m isAsked w d w₁)
    (h' : Resolution R' owner' project m isAsked w' d' w₁') (hw : w.Alike w')
    (hR : ∀ v v', R v v' → v.Alike v') (hR' : ∀ v v', R' v v' → v.Alike v') :
    d' = d ∧ w₁.Alike w₁' := by
  cases isAsked with
  | false =>
    obtain ⟨rfl, rfl⟩ := h.unasked rfl
    obtain ⟨rfl, rfl⟩ := h'.unasked rfl
    exact ⟨rfl, hw⟩
  | true =>
    obtain ⟨r, rfl, hr⟩ := h.asked rfl
    obtain ⟨r', rfl, hr'⟩ := h'.asked rfl
    obtain ⟨rfl, hw₁⟩ :=
      lockstep_resolveFor hR hR' owner owner' project m w w' hw r w₁ r' w₁' hr hr'
    exact ⟨rfl, hw₁⟩

theorem alike_toldOf (w : World) (d : Dependencies) : w.Alike (w.toldOf d) := by
  obtain ⟨_, _, _, htold⟩ := w.reports_toldOf d
  rw [htold]
  exact .of_eq rfl rfl rfl

/-- What is built for two sessions that start alike is one context but for its number. -/
theorem contexts_of_builds {parent : LoadingScope} {bindings : Context.Bindings}
    {options : RebuildOptions} {project' : Path} {output output' : List Path}
    {d d' : Dependencies} {i i' : Nat}
    (h : Builds R owner parent m bindings options project w output d w₁ i v)
    (h' : Builds R' owner' parent m bindings options project' w' output' d' w₁' i' v')
    (hw : w.Alike w')
    (hproject : project' = project)
    (hR : ∀ v v', R v v' → v.Alike v') (hR' : ∀ v v', R' v v' → v.Alike v') :
    v.Alike v' ∧ ∃ scope, v.contexts[i]? = some (.new v.session.generation scope bindings) ∧
      v'.contexts[i']? = some (.new v'.session.generation scope bindings) := by
  subst hproject
  obtain ⟨rfl, hw₁⟩ := h.resolution.unique h'.resolution hw hR hR'
  have houtput : output' = output := by
    rw [options.includes_iff.mp h'.includes, options.includes_iff.mp h.includes,
      RebuildOptions.output, RebuildOptions.output, hw.host, hw.settings]
  refine ⟨?_, _, h.context, ?_⟩
  · have htold := hw₁.both (alike_toldOf w₁ d') (alike_toldOf w₁' d')
    rw [h.result, h'.result]
    exact htold.both ⟨rfl, rfl, rfl, rfl, rfl, rfl, rfl, rfl⟩
      ⟨rfl, rfl, rfl, rfl, rfl, rfl, rfl, rfl⟩
  · rw [h'.context, houtput]

/-! ## Twin contexts -/

/-- Two worlds alike, in which a context of the one and a context of the other are the same but for
their numbers. -/
structure World.Twins (n n' : Nat) (w w' : World) : Prop extends w.Alike w' where
  contexts : ∃ (c : Context.State) (g g' : Nat), w.contexts[n]? = some (c.renumber g) ∧
    w'.contexts[n']? = some (c.renumber g')

/-- In each of the two worlds a script runs under a control that is not cancelled. -/
structure World.Evaluating (n j n' j' : Nat) (w w' : World) : Prop extends w.Twins n n' w' where
  calm : (w.control (.loose j)).isCancelled = false
  calm' : (w'.control (.loose j')).isCancelled = false

/-- A change that leaves the files and settings of a session alone, makes no contexts, touches none
from `n` on, and cancels nothing that is no task. -/
structure World.Spares (n : Nat) (w w' : World) : Prop extends w.Alike w' where
  length : w'.contexts.length = w.contexts.length
  contexts : ∀ i, n ≤ i → w'.contexts[i]? = w.contexts[i]?
  context : w'.session.context = w.session.context
  calm : ∀ j, (w.control (.loose j)).isCancelled = false →
    (w'.control (.loose j)).isCancelled = false

/-- A change beside files, settings and contexts that cancels nothing. -/
structure World.Beside (w w' : World) : Prop extends w.Alike w' where
  contexts : w'.contexts = w.contexts
  calm : ∀ j, (w'.control (.loose j)).isCancelled = (w.control (.loose j)).isCancelled

namespace World

variable {n n' j j' : Nat}

theorem Twins.exists_context (h : w.Twins n n' w') :
    ∃ (c : Context.State) (g g' : Nat), w.context n = c.renumber g ∧
      w'.context n' = c.renumber g' := by
  obtain ⟨c, g, g', hc, hc'⟩ := h.contexts
  exact ⟨c, g, g', context_of_getElem? hc, context_of_getElem? hc'⟩

theorem Twins.beside (h : w.Twins n n' w') (hv : w.Beside v) (hv' : w'.Beside v') :
    v.Twins n n' v' := by
  refine ⟨h.toAlike.both hv.toAlike hv'.toAlike, ?_⟩
  rw [hv.contexts, hv'.contexts]
  exact h.contexts

theorem Evaluating.beside (h : w.Evaluating n j n' j' w') (hv : w.Beside v) (hv' : w'.Beside v') :
    v.Evaluating n j n' j' v' :=
  ⟨h.toTwins.beside hv hv', (hv.calm j).trans h.calm, (hv'.calm j').trans h.calm'⟩

/-- A change of both contexts that does not look at their numbers. -/
theorem Twins.alterContext (h : w.Twins n n' w') {f : Context.State → Context.State}
    (hf : ∀ c g, f (c.renumber g) = (f c).renumber g) :
    (w.alterContext n f).Twins n n' (w'.alterContext n' f) := by
  obtain ⟨c, g, g', hc, hc'⟩ := h.contexts
  refine ⟨h.toAlike.both (.of_eq rfl rfl rfl) (.of_eq rfl rfl rfl), f c, g, g', ?_, ?_⟩
  · rw [World.alterContext, List.getElem?_modify_eq, hc, ← hf]
    rfl
  · rw [World.alterContext, List.getElem?_modify_eq, hc', ← hf]
    rfl

theorem Evaluating.alterContext (h : w.Evaluating n j n' j' w')
    {f : Context.State → Context.State}
    (hf : ∀ c g, f (c.renumber g) = (f c).renumber g) :
    (w.alterContext n f).Evaluating n j n' j' (w'.alterContext n' f) :=
  ⟨h.toTwins.alterContext hf, h.calm, h.calm'⟩

theorem Reports.beside (h : w.Reports v) : w.Beside v := by
  obtain ⟨_, _, _, rfl⟩ := h
  exact ⟨.of_eq rfl rfl rfl, rfl, fun _ => rfl⟩

theorem beside_alterControl (w : World) (k : Nat) {f : Task.Control → Task.Control}
    (hf : ∀ c, (f c).isCancelled = c.isCancelled) : w.Beside (w.alterControl (.loose k) f) := by
  refine ⟨.of_eq rfl rfl rfl, rfl, fun j => ?_⟩
  show ((w.loose.modify k f).getD j default).isCancelled = (w.loose.getD j default).isCancelled
  rw [List.getD_eq_getElem?_getD, List.getD_eq_getElem?_getD, List.getElem?_modify]
  cases w.loose[j]? with
  | none => rfl
  | some c =>
    show (if k = j then f c else c).isCancelled = c.isCancelled
    split
    · exact hf c
    · rfl

theorem tolerates_evaluating (hR : ∀ v v', R v v' → v.Spares n v')
    (hR' : ∀ v v', R' v v' → v.Spares n' v') : Tolerates R R' (World.Evaluating n j n' j') where
  left {w w' v} h hv := by
    have hspares := hR _ _ hv
    refine ⟨⟨h.toAlike.both hspares.toAlike (.refl _), ?_⟩, hspares.calm j h.calm, h.calm'⟩
    rw [hspares.contexts n (Nat.le_refl n)]
    exact h.contexts
  right {w w' v'} h hv := by
    have hspares := hR' _ _ hv
    refine ⟨⟨h.toAlike.both (.refl _) hspares.toAlike, ?_⟩, h.calm, hspares.calm j' h.calm'⟩
    rw [hspares.contexts n' (Nat.le_refl n')]
    exact h.contexts

end World

/-! ## Variables -/

section

variable {n n' j j' : Nat}

theorem lockstep_onVariables {α : Type} (bindings : Context.Bindings)
    (extra : List (String × Value)) {work work' : Scope → Act (α × Scope)}
    (hwork : ∀ scope, Lockstep R R' (World.Evaluating n j n' j') (work scope) (work' scope)) :
    Lockstep R R' (World.Evaluating n j n' j') (onVariables n bindings extra work)
      (onVariables n' bindings extra work') := by
  refine .bind (.modify fun w w' h => h.alterContext fun _ _ => rfl) fun _ =>
    .get_bind fun w w' h => ?_
  obtain ⟨c, g, g', hc, hc'⟩ := h.exists_context
  rw [hc, hc']
  exact .bind (hwork _) fun _ =>
    .bind (.modify fun w w' h => h.alterContext fun _ _ => rfl) fun _ => .pure _

theorem renumber_defer (changes : List Script.Entry) (c : Context.State) (g : Nat) :
    (c.renumber g).defer changes = (c.defer changes).renumber g := by
  show (if c.isHeld then _ else _) = Context.State.renumber (if c.isHeld then _ else _) g
  split <;> rfl

theorem lockstep_onCopy {α : Type} (bindings : Context.Bindings)
    (extra : List (String × Value)) {work work' : Scope → Act (α × Scope)}
    (hwork : ∀ scope, Lockstep R R' (World.Evaluating n j n' j') (work scope) (work' scope)) :
    Lockstep R R' (World.Evaluating n j n' j') (onCopy n bindings extra work)
      (onCopy n' bindings extra work') := by
  refine .get_bind fun w w' h => ?_
  obtain ⟨c, g, g', hc, hc'⟩ := h.exists_context
  rw [hc, hc']
  exact .bind (hwork _) fun _ =>
    .bind (.modify fun w w' h => h.alterContext (renumber_defer _)) fun _ => .pure _

end

/-! ## Scripts -/

/-- What a script runs with that starts a context up. -/
def starter (n j : Nat) : Running := ⟨n, .process, .loose j⟩

theorem isCancelled_starter {n n' : Nat} (j j' : Nat) (w w' : World)
    (h : w.Evaluating n j n' j' w') :
    (starter n' j').isCancelled w' = (starter n j).isCancelled w := h.calm'.trans h.calm.symm

section

variable {n n' : Nat} (hR : ∀ v v', R v v' → v.Spares n v')
  (hR' : ∀ v v', R' v v' → v.Spares n' v')
include hR hR'

section

variable (j j' asked : Nat)

theorem lockstep_sleep (millis : Nat) :
    Lockstep R R' (World.Evaluating n j n' j') ((starter n j).sleep millis)
      ((starter n' j').sleep millis) :=
  .bind (.modify fun w w' h => h.beside (w.beside_alterControl j fun _ => rfl)
      (w'.beside_alterControl j' fun _ => rfl)) fun _ =>
    .bind (.awaitFor (World.tolerates_evaluating hR hR') millis
        (isCancelled_starter j j')) fun _ =>
      .bind (.modify fun w w' h => h.beside (w.beside_alterControl j fun _ => rfl)
          (w'.beside_alterControl j' fun _ => rfl)) fun _ => .pure _

theorem lockstep_proceed :
    Lockstep R R' (World.Evaluating n j n' j') ((starter n j).proceed asked)
      ((starter n' j').proceed asked) := by
  have hend : Lockstep R R' (World.Evaluating n j n' j')
      (do return !(starter n j).isCancelled (← getThe World) : Act Bool)
      (do return !(starter n' j').isCancelled (← getThe World)) := by
    refine .get_bind fun w w' h => ?_
    rw [isCancelled_starter j j' w w' h]
    exact .pure _
  rw [Running.proceed, Running.proceed]
  split
  · exact .bind (.awaitFor (World.tolerates_evaluating hR hR') 1
      (isCancelled_starter j j')) fun _ => hend
  · exact hend

section

variable {load load' : Running.Loader} (hload : ∀ name p,
  Lockstep R R' (World.Evaluating n j n' j') (load name p) (load' name p))
include hload

/-- A question gets one answer in twin contexts if an import does. -/
theorem lockstep_answer (q : Script.Request) :
    Lockstep R R' (World.Evaluating n j n' j') ((starter n j).answer load asked q)
      ((starter n' j').answer load' asked q) := by
  cases q with
  | print text =>
    exact .get_bind fun _ _ _ => .modify fun w w' h =>
      h.beside (World.Reports.beside ⟨_, _, _, rfl⟩) (World.Reports.beside ⟨_, _, _, rfl⟩)
  | complain text =>
    exact .modify fun w w' h =>
      h.beside (World.Reports.beside ⟨_, _, _, rfl⟩) (World.Reports.beside ⟨_, _, _, rfl⟩)
  | sleep millis => exact lockstep_sleep hR hR' j j' millis
  | proceed => exact lockstep_proceed hR hR' j j' asked
  | readText path =>
    refine .get_bind fun w w' h => ?_
    rw [h.host]
    exact .pure _
  | load name p => exact hload name p

theorem lockstep_interpret {α : Type} (run : Run α) :
    Lockstep R R' (World.Evaluating n j n' j') ((starter n j).interpret load asked run)
      ((starter n' j').interpret load' asked run) := by
  induction run generalizing asked with
  | done a => exact .pure _
  | ask q k ih =>
    exact .bind (lockstep_answer hR hR' j j' asked hload q) fun x => ih x (asked + 1)

theorem lockstep_runFile (file : Path) :
    Lockstep R R' (World.Evaluating n j n' j') ((starter n j).runFile load file)
      ((starter n' j').runFile load' file) := by
  refine .get_bind fun w w' h => ?_
  rw [h.host]
  split
  · exact .pure _
  · exact lockstep_interpret hR hR' j j' 0 hload _

theorem lockstep_resolve (name : String) (p : Script.Position) :
    Lockstep R R' (World.Evaluating n j n' j') ((starter n j).resolve load name p)
      ((starter n' j').resolve load' name p) := by
  refine .get_bind fun w w' h => ?_
  obtain ⟨c, g, g', hc, hc'⟩ := h.exists_context
  -- Both find the same file and the same module, since their contexts differ in the number only.
  have hloading : (w'.context n').loading = (w.context n).loading := by
    rw [hc, hc']
    rfl
  have hmodule : (w'.context n').module? = (w.context n).module? := by
    rw [hc, hc']
    rfl
  dsimp only [starter]
  rw [h.host, hloading, hmodule]
  split
  · exact .pure _
  · rename_i file _
    split
    · exact .pure _
    · refine .bind (lockstep_runFile hR hR' j j' hload file) fun found => ?_
      split
      · exact .pure _
      · exact .bind (.modify fun w w' h => h.alterContext fun _ _ => rfl) fun _ => .pure _

end

theorem lockstep_resolveWithin (depth : Nat) (name : String) (p : Script.Position) :
    Lockstep R R' (World.Evaluating n j n' j') ((starter n j).resolveWithin depth name p)
      ((starter n' j').resolveWithin depth name p) := by
  induction depth generalizing name p with
  | zero => exact .bind (.await (World.tolerates_evaluating hR hR') _ _) fun _ => .pure _
  | succ depth ih => exact lockstep_resolve hR hR' j j' ih name p

theorem lockstep_run (script : String) (scope : Scope) :
    Lockstep R R' (World.Evaluating n j n' j') ((starter n j).run script scope)
      ((starter n' j').run script scope) :=
  .bind (lockstep_interpret hR hR' j j' 0 (lockstep_resolveWithin hR hR' j j' _) _)
    fun _ => .pure _

/-- A script does the same in twin contexts. -/
theorem lockstep_evaluateIn (script : String) (bindings : Context.Bindings)
    (extra : List (String × Value)) :
    Lockstep R R' (World.Evaluating n j n' j') (evaluateIn (starter n j) script bindings extra)
      (evaluateIn (starter n' j') script bindings extra) := by
  refine .bind (.modify fun w w' h => h.alterContext fun _ _ => rfl) fun _ =>
    .bind (.awaitFor (World.tolerates_evaluating hR hR') _ fun w w' h => ?_) fun isFree => ?_
  · obtain ⟨c, g, g', hc, hc'⟩ := h.exists_context
    show (!(w'.context n').isHeld) = !(w.context n).isHeld
    rw [hc, hc']
    rfl
  · split
    · exact lockstep_onVariables bindings extra (lockstep_run hR hR' j j' script)
    · exact lockstep_onCopy bindings extra (lockstep_run hR hR' j j' script)

end

theorem lockstep_evaluateOn (script : String) (extra : List (String × Value)) (title : String) :
    Lockstep R R' (World.Twins n n') (evaluateOn n script extra .process title)
      (evaluateOn n' script extra .process title) := by
  intro w w' h
  -- A loose task is new, so nobody has cancelled it.
  have hcontrol : ∀ v : World,
      ((v.addLoose title).2.control (.loose v.loose.length)).isCancelled = false := by
    intro v
    show ((v.loose ++ [_]).getD v.loose.length default).isCancelled = false
    rw [List.getD_eq_getElem?_getD, List.getElem?_concat_length]
    rfl
  have heval : (w.addLoose title).2.Evaluating n w.loose.length n' w'.loose.length
      (w'.addLoose title).2 :=
    ⟨⟨h.toAlike.both (.of_eq rfl rfl rfl) (.of_eq rfl rfl rfl), h.contexts⟩, hcontrol w,
      hcontrol w'⟩
  have hstep := lockstep_evaluateIn hR hR' w.loose.length w'.loose.length script
    w.session.bindings extra _ _ heval
  intro r v r' v' hr hr'
  have hr' : (evaluateIn (starter n' w'.loose.length) script w'.session.bindings extra).Ends R'
    (w'.addLoose title).2 r' v' := hr'
  rw [h.bindings] at hr'
  obtain ⟨rfl, hv⟩ := hstep r v r' v' hr hr'
  exact ⟨rfl, hv.toTwins⟩

end

/-! ## Starting up -/

theorem lockstep_write (n n' : Nat) (e : Report.Entry) :
    Lockstep R R' (World.Twins n n') (write e) (write e) :=
  .modify fun w w' h =>
    h.beside (World.Reports.beside (w.reports_writeEntry e))
      (World.Reports.beside (w'.reports_writeEntry e))

theorem autorunScripts_of_alike {w w' : World} (h : w.Alike w') :
    autorunScripts w'.session = autorunScripts w.session := by
  rw [autorunScripts, autorunScripts, h.settings, h.projectDir]

theorem beside_publish (w : World) (shot : Report.Snapshot) : w.Beside (w.publish shot) := by
  obtain ⟨_, _, _, hpublish⟩ := w.publish_records (R := World.Reports)
    ⟨fun _ => ⟨_, _, _, rfl⟩, .trans⟩ World.reports_record shot
  rw [hpublish]
  exact ⟨⟨rfl, rfl, rfl, rfl, rfl, rfl, rfl, rfl⟩, rfl, fun _ => rfl⟩

theorem lockstep_refreshSnapshot (n n' : Nat) :
    Lockstep R R' (World.Twins n n') (refreshSnapshot n) (refreshSnapshot n') :=
  .modify fun w w' h => h.beside (beside_publish w _) (beside_publish w' _)

/-- The scripts that start a context up leave twin contexts behind. -/
theorem lockstep_runAutorun {n n' : Nat} (hR : ∀ v v', R v v' → v.Spares n v')
    (hR' : ∀ v v', R' v v' → v.Spares n' v') :
    Lockstep R R' (World.Twins n n') (runAutorun n) (runAutorun n') := by
  refine .get_bind fun w w' h => ?_
  rw [autorunScripts_of_alike h.toAlike]
  refine .forM (fun path => ?_) _
  have hscript : Lockstep R R' (World.Twins n n') (runAutorunScript n path)
      (runAutorunScript n' path) := by
    refine .get_bind fun v v' hv => ?_
    rw [hv.host]
    split
    · exact .pure _
    · exact .bind (lockstep_evaluateOn hR hR' _ [] _) fun _ => .pure _
  refine .get_bind fun v v' hv => ?_
  rw [hv.host]
  split
  · refine .bind hscript fun result => ?_
    split
    · exact .pure _
    · exact lockstep_write n n' _
  · exact .pure _

end Session
end ScriptSession
