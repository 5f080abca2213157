import Mathlib.Logic.Relation
import ScriptSession.Proofs.Session.Resolving

/-!
# Building contexts

What building a context comes to among threads that may change anything while repositories are
asked. It fails only where there is no project yet, and then it has done nothing. Otherwise there is
a context with the next generation, whose scope is the given one with the build output and the
resolved dependencies at its end; where the dependencies cannot be resolved, none of them is added
and the listener is told so once (`build_degrades`).
-/

namespace ScriptSession

/-! ## Loading scopes -/

namespace Context
namespace LoadingScope

open Artifact (CodeLocation)

/-- A scope is another one with locations at its end, in order, each unless it was there before. -/
structure Adds (s : LoadingScope) (ls : List CodeLocation) (t : LoadingScope) : Prop where
  ordered : ∃ new, t.locations = s.locations ++ new ∧ new.Sublist ls
  fresh : ∀ before l after, t.locations = before ++ l :: after →
    s.locations.length ≤ before.length → before.any (·.same l) = false
  added : ∀ l ∈ ls, t.locations.any (·.same l) = true

theorem same_refl (l : CodeLocation) : l.same l = true := by
  cases l with
  | directory p => exact Path.same_refl p
  | artifact c p => simp [CodeLocation.same, Path.same_refl]

theorem adds_nil (s : LoadingScope) : s.Adds [] s := by
  refine ⟨⟨[], (List.append_nil _).symm, .refl _⟩, fun before l after h hlength => ?_, nofun⟩
  have hcount := congrArg List.length h
  rw [List.length_append, List.length_cons] at hcount
  omega

variable {s t : LoadingScope} {l : CodeLocation} {ls : List CodeLocation}

/-- A location that is there already is not added. -/
theorem Adds.cons_of_any (h : s.Adds ls t) (hl : s.locations.any (·.same l) = true) :
    s.Adds (l :: ls) t := by
  obtain ⟨new, hnew, hsublist⟩ := h.ordered
  refine ⟨⟨new, hnew, hsublist.cons l⟩, h.fresh, fun l' hl' => ?_⟩
  obtain rfl | hl' := List.mem_cons.mp hl'
  · rw [hnew, List.any_append, hl, Bool.true_or]
  · exact h.added l' hl'

/-- A location that is not there is added in front of those that follow. -/
theorem Adds.cons (h : Adds ⟨s.locations ++ [l]⟩ ls t)
    (hl : s.locations.any (·.same l) = false) : s.Adds (l :: ls) t := by
  obtain ⟨new, hnew, hsublist⟩ := h.ordered
  have hlocations : t.locations = s.locations ++ l :: new := by
    rw [hnew, List.append_assoc, List.singleton_append]
  refine ⟨⟨l :: new, hlocations, hsublist.cons_cons l⟩, fun before l' after hsplit hlength => ?_,
    fun l' hl' => ?_⟩
  · obtain hlength | hlength := Nat.eq_or_lt_of_le hlength
    · obtain ⟨rfl, hcons⟩ := List.append_inj (hlocations.symm.trans hsplit) hlength
      rw [← (List.cons.inj hcons).1]
      exact hl
    · refine h.fresh before l' after hsplit ?_
      rw [List.length_append, List.length_singleton]
      exact hlength
  · obtain rfl | hl' := List.mem_cons.mp hl'
    · rw [hlocations, List.any_append, List.any_cons, same_refl, Bool.true_or, Bool.or_true]
    · exact h.added l' hl'

/-- The induction is on the locations that are added. -/
theorem adds_extend (s : LoadingScope) (ls : List CodeLocation) : s.Adds ls (s.extend ls) := by
  induction ls generalizing s with
  | nil => exact adds_nil s
  | cons l rest ih =>
    rw [extend, List.foldl_cons, push]
    split
    · rename_i hl
      exact (ih s).cons_of_any hl
    · rename_i hl
      rw [Bool.not_eq_true] at hl
      exact (ih ⟨s.locations ++ [l]⟩).cons hl

theorem extend_append (s : LoadingScope) (ls ls' : List CodeLocation) :
    s.extend (ls ++ ls') = (s.extend ls).extend ls' := List.foldl_append

end LoadingScope
end Context

namespace Session

open Artifact (CodeLocation Manifest)
open Concurrency (IsKept Thread)
open Context (LoadingScope)

/-! ## The dependencies -/

/-- What becomes of the dependencies of a project: nothing if nobody asks for them, and otherwise
their locations or why there are none. -/
abbrev Dependencies := Option (Except Artifact.Failure (List CodeLocation))

/-- The locations that dependencies add to a scope. -/
def Dependencies.locations : Dependencies → List CodeLocation
  | some (.ok locations) => locations
  | some (.error _) | none => []

/-- Why the listener is told about dependencies. -/
def Dependencies.cause? : Dependencies → Option Artifact.Failure
  | some (.error cause) => some cause
  | some (.ok _) | none => none

/-- The world in which the listener has been told why dependencies could not be resolved. -/
def World.told (w : World) (cause : Artifact.Failure) : World :=
  match w.session.listener with
  | .transcript => w.writeEntry (.warning cause.warning)
  | .chronicle => w.record (.unresolved cause)

/-- The world in which the listener has been told what there is to tell about dependencies. -/
def World.toldOf (w : World) (d : Dependencies) : World :=
  match d.cause? with
  | some cause => w.told cause
  | none => w

/-- The world with a further context that has got the next generation. -/
def World.grown (w : World) (scope : LoadingScope) (bindings : Context.Bindings) : World :=
  let generation := w.session.generation + 1
  ((w.alterSession fun c => { c with generation := generation }).addContext
    (.new generation scope bindings)).2

/-- What the dependencies of a project come to among others that change the world as `R` says. Only
the files, the gates and the record of what was fetched are changed besides. -/
structure Resolution (R : World → World → Prop) (owner : Owner) (project : Path) (m : Manifest)
    (isAsked : Bool) (w : World) (d : Dependencies) (w₁ : World) : Prop where
  unasked : isAsked = false → d = none ∧ w₁ = w
  asked : isAsked = true → ∃ r, d = some r ∧ (resolveFor owner project m).Ends R w r w₁
  ordered : ∀ locations, d = some (.ok locations) →
    ∃ m', w.session.settings.resolver.manifestOn w.host (manifestFor project m) = .ok m' ∧
      locations = m'.dependencies.map w.session.cache.location
  changes : Relation.ReflTransGen (fun v v' => Fetching v v' ∨ R v v') w w₁

variable {R : World → World → Prop} {owner : Owner} {project : Path} {m : Manifest}
  {w w₁ w' : World}

/-- What resolving and the others keep is kept. -/
theorem Resolution.keeps {isAsked : Bool} {d : Dependencies}
    (h : Resolution R owner project m isAsked w d w₁) {P : World → World → Prop} (hP : IsKept P)
    (hfetching : ∀ v v', Fetching v v' → P v v') (hR : ∀ v v', R v v' → P v v') : P w w₁ := by
  have hchanges := h.changes
  clear h
  induction hchanges with
  | refl => exact hP.refl w
  | tail _ hstep ih => exact hP.trans ih (hstep.elim (hfetching _ _) (hR _ _))

theorem isKept_reflTransGen (r : World → World → Prop) : IsKept (Relation.ReflTransGen r) :=
  ⟨fun _ => .refl, .trans⟩

/-- Resolving changes no more than it has to, and it has the dependencies in order. -/
theorem resolution_of_ends {r : Except Artifact.Failure (List CodeLocation)}
    (h : (resolveFor owner project m).Ends R w r w₁) :
    Resolution R owner project m true w (some r) w₁ := by
  refine ⟨nofun, fun _ => ⟨r, rfl, h⟩, ?_, ?_⟩
  · rintro locations ⟨⟩
    rw [resolveFor, Thread.ends_get_bind, ends_resolve] at h
    cases hmanifest : w.session.settings.resolver.manifestOn w.host (manifestFor project m) with
    | error e =>
      rw [hmanifest] at h
      cases h.1
    | ok m' =>
      rw [hmanifest] at h
      refine ⟨m', rfl, ?_⟩
      have hmakes : Makes Fetching _ (Artifact.resolveManifest (ask owner) w.session.cache m') :=
        makes_resolveManifest (makes_ask owner) m'
      exact ((hmakes.only w).of_ends (P := fun _ _ => True) h ⟨fun _ => trivial,
        fun _ _ => trivial⟩ (fun _ _ _ => trivial) fun _ _ _ => trivial).1 locations rfl
  · exact ((makes_resolveFor owner project m).only w |>.of_ends h (isKept_reflTransGen _)
      (fun _ _ hv => .single (.inl hv)) fun _ _ hv => .single (.inr hv)).2

theorem resolution_unasked (R : World → World → Prop) (owner : Owner) (project : Path)
    (m : Manifest) (w : World) : Resolution R owner project m false w none w :=
  ⟨fun _ => ⟨rfl, rfl⟩, nofun, nofun, .refl⟩

/-! ## What building comes to -/

/-- A change of what is written down only. -/
def World.Reports (w w' : World) : Prop :=
  ∃ transcript chronicle streams,
    w' = { w with transcript := transcript, chronicle := chronicle, streams := streams }

namespace World

theorem Reports.trans {w w' w'' : World} (h : w.Reports w') (h' : w'.Reports w'') :
    w.Reports w'' := by
  obtain ⟨_, _, _, rfl⟩ := h
  obtain ⟨_, _, _, rfl⟩ := h'
  exact ⟨_, _, _, rfl⟩

theorem reports_record (w : World) (e : Event) : w.Reports (w.record e) := by
  rw [record]
  split
  · exact ⟨_, _, _, rfl⟩
  · exact ⟨_, _, _, rfl⟩

theorem reports_writeEntry (w : World) (e : Report.Entry) : w.Reports (w.writeEntry e) := by
  rw [writeEntry]
  split
  · exact Reports.trans ⟨_, _, _, rfl⟩ (reports_record _ _)
  · exact ⟨_, _, _, rfl⟩

theorem reports_toldOf (w : World) (d : Dependencies) : w.Reports (w.toldOf d) := by
  rw [toldOf]
  split
  · rw [told]
    split
    · exact w.reports_writeEntry _
    · exact w.reports_record _
  · exact ⟨_, _, _, rfl⟩

theorem contexts_toldOf (w : World) (d : Dependencies) : (w.toldOf d).contexts = w.contexts := by
  obtain ⟨_, _, _, h⟩ := w.reports_toldOf d
  rw [h]

theorem session_toldOf (w : World) (d : Dependencies) : (w.toldOf d).session = w.session := by
  obtain ⟨_, _, _, h⟩ := w.reports_toldOf d
  rw [h]

/-- The context that has been added last. -/
theorem getElem?_grown (w : World) (scope : LoadingScope) (bindings : Context.Bindings) :
    (w.grown scope bindings).contexts[w.contexts.length]? =
      some (.new (w.grown scope bindings).session.generation scope bindings) :=
  List.getElem?_concat_length

theorem context_of_getElem? {w : World} {i : Nat} {c : Context.State}
    (h : w.contexts[i]? = some c) : w.context i = c := by
  rw [context, List.getD_eq_getElem?_getD, h, Option.getD_some]

end World

theorem ends_tellUnresolved {cause : Artifact.Failure} {u : Unit} :
    (tellUnresolved cause).Ends R w u w' ↔ w' = w.told cause := by
  show Thread.Ends R (match w.session.listener with
    | .transcript => write (.warning cause.warning)
    | .chronicle => modifyThe World (·.record (.unresolved cause))) w u w' ↔ _
  rw [World.told]
  cases w.session.listener <;> exact Thread.ends_modify

theorem ends_withDependencies {scope scope' : LoadingScope} :
    (withDependencies owner project m scope).Ends R w scope' w' ↔
      ∃ r w₁, (resolveFor owner project m).Ends R w r w₁ ∧
        scope' = scope.extend (Dependencies.locations (some r)) ∧ w' = w₁.toldOf (some r) := by
  rw [withDependencies, Thread.ends_bind']
  refine exists_congr fun r => exists_congr fun w₁ => and_congr_right fun _ => ?_
  cases r with
  | ok locations => exact Thread.ends_pure
  | error cause =>
    rw [Thread.ends_bind']
    constructor
    · rintro ⟨_, w₂, htold, rfl, rfl⟩
      exact ⟨rfl, ends_tellUnresolved.mp htold⟩
    · rintro ⟨rfl, rfl⟩
      exact ⟨(), _, ends_tellUnresolved.mpr rfl, rfl, rfl⟩

theorem ends_keepContext {scope : LoadingScope} {bindings : Context.Bindings}
    {r : Except Failure Nat} :
    (keepContext scope bindings).Ends R w r w' ↔
      r = .ok w.contexts.length ∧ w' = w.grown scope bindings := Iff.rfl

/-! ## Build output -/

/-- What the directories that are configured for a project come to: those that are there, in the
order of the configuration, each by its path without links and detours. -/
inductive Outputs (host : Host) (project : Path) : List String → List Path → Prop
  | nil : Outputs host project [] []
  | absent {dir : String} {dirs : List String} {output : List Path}
      (hdir : host.isDirectory (project.join dir) = false)
      (hrest : Outputs host project dirs output) : Outputs host project (dir :: dirs) output
  | there {dir : String} {dirs : List String} {output : List Path} {path : Path}
      (hdir : host.isDirectory (project.join dir) = true)
      (hpath : host.canonical (project.join dir) = .ok path)
      (hrest : Outputs host project dirs output) :
      Outputs host project (dir :: dirs) (path :: output)

/-- A directory that is there has a path without links and detours. -/
theorem exists_canonical {host : Host} {dir : Path} (h : host.isDirectory dir = true) :
    ∃ path, host.canonical dir = .ok path := by
  rw [Host.isDirectory, Files.isDirectory] at h
  rw [Host.canonical, Files.canonical]
  split at h
  · rename_i place hentry
    exact ⟨Path.ofNames place, by rw [hentry]; rfl⟩
  · cases h

/-- What is added of the build output is what the configured directories come to, and nothing else
is. The induction is on the directories. -/
theorem outputs_iff {host : Host} {project : Path} {dirs : List String} {output : List Path} :
    Outputs host project dirs output ↔ output = buildOutput host project dirs := by
  induction dirs generalizing output with
  | nil =>
    constructor
    · rintro ⟨⟩
      rfl
    · rintro rfl
      exact .nil
  | cons dir rest ih =>
    have hcons : buildOutput host project (dir :: rest) =
        if host.isDirectory (project.join dir) = true then
          (host.canonical (project.join dir)).toOption.getD (project.join dir) ::
            buildOutput host project rest
        else buildOutput host project rest := by
      rw [buildOutput, List.map_cons, List.filter_cons]
      split <;> rfl
    rw [hcons]
    split
    · rename_i hdir
      obtain ⟨path, hpath⟩ := exists_canonical hdir
      rw [hpath]
      constructor
      · intro h
        cases h with
        | absent hno hrest =>
          rw [hdir] at hno
          cases hno
        | there _ hpath' hrest =>
          rw [hpath] at hpath'
          cases hpath'
          rw [ih.mp hrest]
          rfl
      · rintro rfl
        exact .there hdir hpath (ih.mpr rfl)
    · rename_i hdir
      constructor
      · intro h
        cases h with
        | absent _ hrest => exact ih.mp hrest
        | there hyes _ _ => exact absurd hyes hdir
      · rintro rfl
        exact .absent (Bool.eq_false_iff.mpr hdir) (ih.mpr rfl)

namespace RebuildOptions

variable (options : RebuildOptions)

/-- The build output that options ask for. -/
def Includes (w : World) (project : Path) (output : List Path) : Prop :=
  if options.includesBuildOutput then
    Outputs w.host project w.session.settings.buildOutputDirs output
  else output = []

/-- The build output that is added. -/
def output (w : World) (project : Path) : List Path :=
  if options.includesBuildOutput then
    buildOutput w.host project w.session.settings.buildOutputDirs
  else []

theorem includes_iff {w : World} {project : Path} {output : List Path} :
    options.Includes w project output ↔ output = options.output w project := by
  rw [Includes, RebuildOptions.output]
  split
  · exact outputs_iff
  · rfl

end RebuildOptions

/-! ## The thread -/

theorem build_eq (owner : Owner) (parent : LoadingScope) (m : Manifest)
    (bindings : Context.Bindings) (options : RebuildOptions) :
    build owner parent m bindings options = getThe World >>= fun w =>
      match w.session.projectDir with
      | none => pure (.error noProject)
      | some project => getThe World >>= fun w =>
        let scope := parent.extend ((options.output w project).map .directory)
        if options.usesManifest then
          withDependencies owner project m scope >>= fun scope => keepContext scope bindings
        else keepContext scope bindings := rfl

/-- What building comes to: nothing without a project, and otherwise a context with the next
generation. -/
theorem ends_build {parent : LoadingScope} {bindings : Context.Bindings} {options : RebuildOptions}
    {r : Except Failure Nat} (h : (build owner parent m bindings options).Ends R w r w') :
    match w.session.projectDir with
    | none => r = .error noProject ∧ w' = w
    | some project => ∃ d w₁, Resolution R owner project m options.usesManifest w d w₁ ∧
        r = .ok w₁.contexts.length ∧ w' = (w₁.toldOf d).grown
          (parent.extend ((options.output w project).map .directory ++ d.locations)) bindings := by
  rw [build_eq, Thread.ends_get_bind] at h
  cases hproject : w.session.projectDir with
  | none =>
    rw [hproject] at h
    exact h
  | some project =>
    rw [hproject] at h
    dsimp only at h
    rw [Thread.ends_get_bind] at h
    simp only [LoadingScope.extend_append]
    -- Without the manifest nothing is resolved, so the scope grows at once.
    cases husesManifest : options.usesManifest with
    | false =>
      rw [husesManifest] at h
      obtain ⟨rfl, rfl⟩ := ends_keepContext.mp h
      exact ⟨none, w, resolution_unasked R owner project m w, rfl, rfl⟩
    | true =>
      rw [husesManifest] at h
      obtain ⟨scope, w₂, hwith, hkeep⟩ := Thread.ends_bind'.mp h
      obtain ⟨res, w₁, hres, rfl, rfl⟩ := ends_withDependencies.mp hwith
      obtain ⟨rfl, rfl⟩ := ends_keepContext.mp hkeep
      refine ⟨some res, w₁, resolution_of_ends hres, ?_, rfl⟩
      rw [World.contexts_toldOf]

/-! ## The listener -/

/-- How often the listener of a session has been told that dependencies could not be resolved, by
what it keeps. -/
def World.complaints (w : World) : Nat :=
  match w.session.listener with
  | .transcript => w.transcript.warnings.length
  | .chronicle => w.chronicle.countP fun
    | .unresolved _ => true
    | _ => false

/-- The listener is told nothing, and what it is told would be kept as before. -/
structure SameComplaints (w w' : World) : Prop where
  display : w'.display = w.display
  isMuted : w'.isMuted = w.isMuted
  listener : w'.session.listener = w.session.listener
  complaints : w'.complaints = w.complaints

theorem isKept_sameComplaints : IsKept SameComplaints where
  refl _ := ⟨rfl, rfl, rfl, rfl⟩
  trans h h' := ⟨h'.display.trans h.display, h'.isMuted.trans h.isMuted,
    h'.listener.trans h.listener, h'.complaints.trans h.complaints⟩

theorem Fetching.sameComplaints {v v' : World} (h : Fetching v v') : SameComplaints v v' := by
  cases h with
  | host | atGate => exact ⟨rfl, rfl, rfl, rfl⟩
  | asked repository c =>
    rw [World.record]
    split
    · exact isKept_sameComplaints.refl v
    · refine ⟨rfl, rfl, rfl, ?_⟩
      simp [World.complaints]

theorem complaints_told (hdisplay : w.display = .kept) (hmuted : w.isMuted = false)
    (cause : Artifact.Failure) : (w.told cause).complaints = w.complaints + 1 := by
  rw [World.told]
  cases hlistener : w.session.listener with
  | transcript =>
    simp [World.writeEntry, hdisplay, World.record, hmuted, World.complaints, hlistener,
      Report.Transcript.warnings, Report.Transcript.write, Report.Entry.warning?]
  | chronicle => simp [World.record, hmuted, World.complaints, hlistener]

/-- The listener hears of dependencies once if they cannot be resolved. -/
theorem complaints_toldOf (hdisplay : w.display = .kept) (hmuted : w.isMuted = false)
    (d : Dependencies) :
    (w.toldOf d).complaints = w.complaints + if d.cause?.isSome then 1 else 0 := by
  rw [World.toldOf]
  cases d.cause? with
  | some cause => exact complaints_told hdisplay hmuted cause
  | none => rfl

/-! ## Building -/

/-- A context that has been built on top of a scope, when the build output comes to `output` and the
dependencies have come to `d` in the world `w₁`. -/
structure Builds (R : World → World → Prop) (owner : Owner) (parent : LoadingScope) (m : Manifest)
    (bindings : Context.Bindings) (options : RebuildOptions) (project : Path) (w : World)
    (output : List Path) (d : Dependencies) (w₁ : World) (i : Nat) (w' : World) : Prop where
  includes : options.Includes w project output
  resolution : Resolution R owner project m options.usesManifest w d w₁
  /-- From the resolution on: the listener is told, and there is one more context. -/
  result : w' = (w₁.toldOf d).grown (parent.extend (output.map .directory ++ d.locations)) bindings
  number : i = w₁.contexts.length
  context : w'.contexts[i]? = some (.new w'.session.generation
    (parent.extend (output.map .directory ++ d.locations)) bindings)
  scope : parent.Adds (output.map .directory ++ d.locations) (w'.context i).loading
  generation : w'.session.generation = w₁.session.generation + 1
  counted : (∀ v v', R v v' → v'.session.generation = v.session.generation) →
    w'.session.generation = w.session.generation + 1
  /-- The listener is told once if the dependencies were asked for and cannot be resolved. -/
  told : w.display = .kept → w.isMuted = false → (∀ v v', R v v' → SameComplaints v v') →
    w'.complaints = w.complaints + if d.cause?.isSome then 1 else 0

theorem isKept_eq {β : Type} (f : World → β) : IsKept fun v v' => f v' = f v :=
  ⟨fun _ => rfl, fun h h' => h'.trans h⟩

theorem Fetching.session {v v' : World} (h : Fetching v v') : v'.session = v.session := by
  cases h with
  | host | atGate => rfl
  | asked repository c =>
    obtain ⟨_, _, _, h⟩ := v.reports_record (.fetch repository c)
    rw [h]

theorem builds_of_resolution {parent : LoadingScope} {bindings : Context.Bindings}
    {options : RebuildOptions} {output : List Path} {d : Dependencies}
    (hoptions : options.Includes w project output)
    (h : Resolution R owner project m options.usesManifest w d w₁) :
    Builds R owner parent m bindings options project w output d w₁ w₁.contexts.length
      ((w₁.toldOf d).grown (parent.extend (output.map .directory ++ d.locations)) bindings) := by
  have hcontext := (w₁.toldOf d).getElem?_grown
    (parent.extend (output.map .directory ++ d.locations)) bindings
  rw [w₁.contexts_toldOf d] at hcontext
  have hgeneration : ((w₁.toldOf d).grown (parent.extend (output.map .directory ++ d.locations))
      bindings).session.generation = w₁.session.generation + 1 := by
    show (w₁.toldOf d).session.generation + 1 = _
    rw [w₁.session_toldOf d]
  refine ⟨hoptions, h, rfl, rfl, hcontext, ?_, hgeneration, fun hR => ?_,
    fun hdisplay hmuted hR => ?_⟩
  · rw [World.context_of_getElem? hcontext]
    exact parent.adds_extend _
  · -- Resolving leaves the number alone, so growing raises the one from before.
    have hkept := h.keeps (isKept_eq fun v => v.session.generation)
      (fun v v' hv => by rw [hv.session]) hR
    rw [hgeneration, hkept]
  · have hkept := h.keeps isKept_sameComplaints (fun _ _ => Fetching.sameComplaints) hR
    rw [← hkept.complaints]
    exact complaints_toldOf (hkept.display.trans hdisplay) (hkept.isMuted.trans hmuted) d

theorem returns_build (owner : Owner) (parent : LoadingScope) (m : Manifest)
    (bindings : Context.Bindings) (options : RebuildOptions) :
    Returns (build owner parent m bindings options) := by
  have hkeep : ∀ scope, Returns (keepContext scope bindings) := fun scope w hw =>
    ⟨_, _, ends_keepContext.mpr ⟨rfl, rfl⟩, hw.of_eq rfl rfl⟩
  -- Resolving is the only part that waits, and only for the gates of the repositories.
  have hwith : ∀ project scope, Returns (withDependencies owner project m scope) := by
    intro project scope w hw
    obtain ⟨r, w₁, hends, hw₁⟩ := returns_resolveFor owner project m w hw
    refine ⟨_, _, ends_withDependencies.mpr ⟨r, w₁, hends, rfl, rfl⟩, ?_⟩
    obtain ⟨_, _, _, htold⟩ := w₁.reports_toldOf (some r)
    rw [htold]
    exact hw₁
  rw [build_eq]
  refine .get_bind fun w => ?_
  split
  · exact .pure _
  · refine .get_bind fun w => ?_
    dsimp only
    split
    · exact .bind (hwith _ _) fun scope => hkeep scope
    · exact hkeep _

/-- Building fails exactly where there is no project, and then nothing has happened; otherwise there
is a new context, whatever the files, the repositories and the manifest are. It is over when the
repositories have answered, if not before. -/
theorem build_degrades (R : World → World → Prop) (owner : Owner) (parent : LoadingScope)
    (m : Manifest) (bindings : Context.Bindings) (options : RebuildOptions) (w : World) :
    (∀ r w', (build owner parent m bindings options).Ends R w r w' →
      (r = .error noProject ↔ w.session.projectDir = none) ∧
      (∀ e, r = .error e → e = noProject ∧ w' = w) ∧
      ∀ i, r = .ok i → ∃ project, w.session.projectDir = some project ∧
        ∃ output d w₁, Builds R owner parent m bindings options project w output d w₁ i w') ∧
    ((∀ v, R v v) → w.GatesOpen →
      ∃ r w', (build owner parent m bindings options).Ends R w r w') := by
  refine ⟨fun r w' h => ?_, fun hR hw => ?_⟩
  · have hends := ends_build h
    cases hproject : w.session.projectDir with
    | none =>
      rw [hproject] at hends
      obtain ⟨rfl, rfl⟩ := hends
      refine ⟨iff_of_true rfl rfl, ?_, nofun⟩
      rintro e ⟨⟩
      exact ⟨rfl, rfl⟩
    | some project =>
      rw [hproject] at hends
      obtain ⟨d, w₁, hresolution, rfl, rfl⟩ := hends
      refine ⟨iff_of_false nofun nofun, nofun, ?_⟩
      rintro i ⟨⟩
      exact ⟨project, rfl, _, d, w₁,
        builds_of_resolution ((options.includes_iff).mpr rfl) hresolution⟩
  · obtain ⟨r, w', hends, -⟩ := returns_build owner parent m bindings options w hw
    refine ⟨r, w', hends.mono fun v v' hv => ?_⟩
    rw [← hv]
    exact hR v

/-- What a thread that builds comes to without others. -/
theorem exists_ends_of_drive {t : Act (Except Failure Nat)} {i : Nat} {P : World → Bool}
    (h : (match Concurrency.Pool.drive 0 t w [] with
      | (v, .finished (.ok i'), _) => i' == i && P v
      | _ => false) = true) : ∃ v, t.Ends R w (.ok i) v ∧ P v = true := by
  split at h
  · rename_i hdrive
    obtain ⟨hi, hP⟩ := Bool.and_eq_true_iff.mp h
    obtain rfl := beq_iff_eq.mp hi
    exact ⟨_, Thread.ends_of_drive hdrive, hP⟩
  · cases h

/-- A session whose project has the second one of its build output directories, and a dependency
that is in no repository. -/
@[irreducible] def wantingSession : World :=
  { World.new ⟨⟨[(["w"], .directory), (["w", "project"], .directory),
      (["w", "project", "out"], .directory)]⟩, ["w"], [], []⟩ with
    session := { (default : Core) with
      projectDir := some ⟨"project"⟩
      manifest := ⟨[], [⟨"a", "b", "1"⟩], none⟩
      settings := { (default : Core).settings with
        resolver := .repositoryList
        buildOutputDirs := ["target", "./out"] } } }

/-- A context is built although a dependency cannot be had: it has the build output that is there,
and the listener is told once. -/
theorem built_without_dependency :
    let m := wantingSession.session.manifest
    ∃ v output d w₁, (build (.loose 0) .empty m .empty ⟨true, true⟩).Ends Eq wantingSession
        (.ok 0) v ∧
      Builds Eq (.loose 0) .empty m .empty ⟨true, true⟩ ⟨"project"⟩ wantingSession output d w₁ 0 v ∧
      output = [⟨"/w/project/out"⟩] ∧ d.cause?.isSome = true ∧
      (v.context 0).loading.locations = output.map .directory ∧ v.session.generation = 1 ∧
      v.complaints = 1 := by
  intro m
  obtain ⟨v, hends, hv⟩ : ∃ v, (build (.loose 0) .empty m .empty ⟨true, true⟩).Ends Eq
      wantingSession (.ok 0) v ∧ decide ((v.context 0).loading.locations =
        [.directory ⟨"/w/project/out"⟩] ∧ v.complaints = 1) = true :=
    exists_ends_of_drive (P := fun v => decide ((v.context 0).loading.locations =
      [.directory ⟨"/w/project/out"⟩] ∧ v.complaints = 1)) (by decide +kernel)
  obtain ⟨hlocations, hcomplaints⟩ := of_decide_eq_true hv
  obtain ⟨hdegrades, -⟩ := build_degrades Eq (.loose 0) .empty m .empty ⟨true, true⟩ wantingSession
  obtain ⟨project, hproject, output, d, w₁, hbuilds⟩ := (hdegrades _ _ hends).2.2 0 rfl
  have hsome : wantingSession.session.projectDir = some ⟨"project"⟩ := by decide +kernel
  obtain rfl : project = ⟨"project"⟩ := Option.some.inj (hproject.symm.trans hsome)
  have houtput : output = [⟨"/w/project/out"⟩] :=
    ((RebuildOptions.includes_iff _).mp hbuilds.includes).trans (by decide +kernel)
  have hgeneration : v.session.generation = wantingSession.session.generation + 1 :=
    hbuilds.counted fun _ _ h => by rw [h]
  have htold : v.complaints = wantingSession.complaints + if d.cause?.isSome then 1 else 0 :=
    hbuilds.told (by decide +kernel) (by decide +kernel) fun u _ h =>
      h ▸ isKept_sameComplaints.refl u
  have hcomplaints₀ : wantingSession.complaints = 0 := by decide +kernel
  have hgeneration₀ : wantingSession.session.generation = 0 := by decide +kernel
  refine ⟨v, output, d, w₁, hends, hbuilds, houtput, ?_, houtput ▸ hlocations, ?_, hcomplaints⟩
  · -- The listener would not have been told of anything else.
    by_contra hcause
    rw [if_neg hcause, hcomplaints, hcomplaints₀] at htold
    cases htold
  · rw [hgeneration, hgeneration₀]

end Session
end ScriptSession
