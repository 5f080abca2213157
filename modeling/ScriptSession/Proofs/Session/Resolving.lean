import ScriptSession.Proofs.Artifact.Resolving
import ScriptSession.Proofs.Concurrency.Outcomes
import ScriptSession.Proofs.Session.Passing

/-!
# Resolving in a session

What resolving the dependencies of a project does to a world: it changes the files of the host, it
may be recorded that a repository is asked, and a repository may keep it at a gate
(`Fetching`). So it never speaks to the listener and takes no number for a context. When it
succeeds it has the dependencies of the manifest in order, each at its place in the cache
(`makes_resolveManifest`), and it is over once the gates of the repositories are open
(`returns_resolveFor`).
-/

namespace ScriptSession

namespace Artifact

/-- The manifest that a strategy resolves on a host: that of the configuration, or the one that the
manifest file of the project adds to, and none without such a file. -/
def Strategy.manifestOn (strategy : Strategy) (host : Host) (m : Manifest) :
    Except Failure Manifest :=
  match strategy with
  | .repositoryList => .ok m
  | .manifestFile =>
    match m.manifestFile with
    | none => .ok .empty
    | some path =>
      if host.pathExists path then (ManifestFile.load host path).map m.mergedWith else .ok .empty

end Artifact

namespace Session

open Artifact (CodeLocation)
open Concurrency (IsKept Thread)

/-- A change that resolving makes. -/
inductive Fetching : World → World → Prop
  | host (w : World) (host : Host) : Fetching w { w with host := host }
  | atGate (w : World) (atGate : List (String × Owner)) : Fetching w { w with atGate := atGate }
  | asked (w : World) (repository : String) (c : Artifact.Coordinate) :
      Fetching w (w.record (.fetch repository c))

theorem Fetching.passing {w w' : World} (h : Fetching w w') : Passing w w' := by
  cases h with
  | host host => exact .host w host
  | atGate atGate => exact .atGate w atGate
  | asked repository c => exact .record w _

/-! ## Changes and results -/

theorem makes_ask (owner : Owner) (r : Artifact.Repository) (c : Artifact.Coordinate) :
    Makes Fetching (fun _ => True) (ask owner r c) := by
  refine .get_bind fun w => ?_
  split
  · exact .pure trivial
  · refine .bind (.modify fun w => .asked w _ _) fun _ _ => ?_
    split
    · exact .pure trivial
    · rename_i o _
      cases o.gate with
      | none => exact .pure trivial
      | some gate => exact .bind (makes_stopAt .atGate gate owner) fun _ _ => .pure trivial

section

variable {ask : Artifact.Repository → Artifact.Coordinate → Act Artifact.FetchAnswer}
  {cache : Artifact.Cache} {repositories : List Artifact.Repository}

section

variable (hask : ∀ r c, Makes Fetching (fun _ => True) (ask r c))
include hask

theorem makes_askInOrder (c : Artifact.Coordinate) (last : Option Artifact.Failure) :
    Makes Fetching (fun _ => True) (Artifact.askInOrder ask c repositories last) := by
  induction repositories generalizing last with
  | nil => exact .pure trivial
  | cons r rest ih =>
    refine .bind (hask r c) fun answer _ => ?_
    split
    · exact .pure trivial
    · exact ih last
    · exact ih _

/-- The file of a coordinate is its place in the cache. -/
theorem makes_resolveCoordinate (c : Artifact.Coordinate) :
    Makes Fetching (fun r => ∀ path, r = .ok path → path = cache.pathFor c)
      (Artifact.resolveCoordinate ask cache repositories c) := by
  refine .getHost_bind fun host => ?_
  split
  · rename_i path hlookup
    refine .pure ?_
    rintro _ ⟨⟩
    exact (Option.some.inj (Option.ite_none_right_eq_some.mp hlookup).2).symm
  · refine .bind (makes_askInOrder hask c none) fun answer _ => ?_
    split
    · rename_i bytes
      refine .getHost_bind fun host => ?_
      rcases hstore : cache.store c bytes host with ⟨result, stored⟩
      refine .bind (.setHost .host stored) fun _ _ => .pure ?_
      rintro path rfl
      exact (Artifact.Cache.isFile_of_store_eq_ok hstore).1
    · exact .pure nofun
    · exact .pure nofun

theorem makes_resolveAll (cs : List Artifact.Coordinate) :
    Makes Fetching (fun r => ∀ locations, r = .ok locations → locations = cs.map cache.location)
      (Artifact.resolveAll ask cache repositories cs) := by
  induction cs with
  | nil =>
    refine .pure ?_
    rintro _ ⟨⟩
    rfl
  | cons c rest ih =>
    refine .bind (makes_resolveCoordinate hask c) fun result hresult => ?_
    split
    · exact .pure nofun
    · rename_i path
      refine .bind ih fun results hresults => ?_
      split
      · exact .pure nofun
      · rename_i locations
        refine .pure ?_
        rintro _ ⟨⟩
        rw [hresult path rfl, hresults locations rfl]
        rfl

/-- When a manifest is resolved, its dependencies are there in order. -/
theorem makes_resolveManifest (m : Artifact.Manifest) :
    Makes Fetching
      (fun r => ∀ locations, r = .ok locations → locations = m.dependencies.map cache.location)
      (Artifact.resolveManifest ask cache m) := by
  rw [Artifact.resolveManifest]
  split
  · refine .pure fun locations h => ?_
    cases h
  · exact makes_resolveAll hask m.dependencies

theorem makes_resolve (strategy : Artifact.Strategy) (m : Artifact.Manifest) :
    Makes Fetching (fun _ => True) (strategy.resolve ask cache m) := by
  cases strategy with
  | repositoryList => exact (makes_resolveManifest hask m).forget
  | manifestFile =>
    rw [Artifact.Strategy.resolve]
    split
    · exact .pure trivial
    · refine .getHost_bind fun host => ?_
      split
      · exact .pure trivial
      · split
        · exact .pure trivial
        · exact (makes_resolveManifest hask _).forget

end

/-- A strategy resolves the manifest that it finds on the host. -/
theorem ends_resolve {R : World → World → Prop} {w w' : World} {strategy : Artifact.Strategy}
    {m : Artifact.Manifest} {r : Except Artifact.Failure (List CodeLocation)} :
    (strategy.resolve ask cache m).Ends R w r w' ↔
      match strategy.manifestOn w.host m with
      | .error e => r = .error e ∧ w' = w
      | .ok m' => (Artifact.resolveManifest ask cache m').Ends R w r w' := by
  cases strategy with
  | repositoryList => exact Iff.rfl
  | manifestFile =>
    rw [Artifact.Strategy.resolve, Artifact.Strategy.manifestOn]
    cases m.manifestFile with
    | none => exact Iff.rfl
    | some path =>
      show Thread.Ends R (if !w.host.pathExists path then _ else _) w r w' ↔ _
      dsimp only
      -- Without the file, and where it cannot be loaded, nothing is asked of any repository.
      cases w.host.pathExists path with
      | false => exact Iff.rfl
      | true =>
        rw [if_neg (by decide), if_pos rfl]
        cases Artifact.ManifestFile.load w.host path with
        | error e => exact Iff.rfl
        | ok file => exact Iff.rfl

end

/-! ## Quiet threads -/

theorem makes_resolveFor (owner : Owner) (project : Path) (m : Artifact.Manifest) :
    Makes Fetching (fun _ => True) (resolveFor owner project m) :=
  .get_bind fun _ => makes_resolve (makes_ask owner) _ _

theorem quiet_withDependencies (owner : Owner) (project : Path) (m : Artifact.Manifest)
    (scope : Context.LoadingScope) : Quiet (withDependencies owner project m scope) := by
  have hresolve : Quiet (resolveFor owner project m) :=
    (makes_resolveFor owner project m).mono fun _ _ => Fetching.passing
  refine .bind hresolve fun result => ?_
  split
  · exact .pure _
  · refine .bind (.get_bind fun w => ?_) fun _ => .pure _
    split
    · exact quiet_write _
    · exact .modify fun w => .record w _

/-! ## Ends -/

/-- The gates at which repositories keep a resolution are open. -/
def World.GatesOpen (w : World) : Prop :=
  ∀ offers, w.offers = some offers → ∀ o ∈ offers, ∀ gate, o.gate = some gate →
    w.openGates.contains gate = true

theorem World.GatesOpen.of_eq {w w' : World} (h : w.GatesOpen) (hoffers : w'.offers = w.offers)
    (hgates : w'.openGates = w.openGates) : w'.GatesOpen := by
  rw [GatesOpen, hoffers, hgates]
  exact h

theorem World.GatesOpen.record {w : World} (h : w.GatesOpen) (e : Event) :
    (w.record e).GatesOpen := by
  rw [World.record]
  split <;> exact h

/-- In a world the thread comes to an end by itself, and the gates of repositories are open then. -/
def ReturnsFrom {α : Type} (t : Act α) (w : World) : Prop :=
  ∃ a w', t.Ends Eq w a w' ∧ w'.GatesOpen

/-- Where the gates of repositories are open, the thread comes to an end by itself. -/
def Returns {α : Type} (t : Act α) : Prop := ∀ w, w.GatesOpen → ReturnsFrom t w

namespace ReturnsFrom

variable {α : Type} {w : World}

theorem get_bind {f : World → Act α} (h : ReturnsFrom (f w) w) :
    ReturnsFrom (getThe World >>= f) w := h

theorem modify_bind {f : World → World} {g : Unit → Act α} (h : ReturnsFrom (g ()) (f w)) :
    ReturnsFrom (modifyThe World f >>= g) w := h

end ReturnsFrom

namespace Returns

variable {α β : Type} {t : Act α}

theorem pure (a : α) : Returns (pure a : Act α) := fun w hw => ⟨a, w, ⟨rfl, rfl⟩, hw⟩

theorem bind {f : α → Act β} (h : Returns t) (hf : ∀ a, Returns (f a)) : Returns (t >>= f) := by
  intro w hw
  obtain ⟨a, w₁, ht, hw₁⟩ := h w hw
  obtain ⟨b, w₂, hfa, hw₂⟩ := hf a w₁ hw₁
  exact ⟨b, w₂, Thread.ends_bind'.mpr ⟨a, w₁, ht, hfa⟩, hw₂⟩

theorem get_bind {f : World → Act α} (hf : ∀ w, Returns (f w)) :
    Returns (getThe World >>= f) := fun w hw => hf w w hw

theorem getHost_bind {f : Host → Act α} (hf : ∀ h, Returns (f h)) :
    Returns (getThe Host >>= f) := fun w hw => hf w.host w hw

theorem setHost (h : Host) : Returns (set h : Act Unit) :=
  fun _ hw => ⟨(), _, ⟨rfl, rfl⟩, hw.of_eq rfl rfl⟩

end Returns

/-- An open gate keeps nobody. -/
theorem returnsFrom_stopAt_bind {α : Type} {gate : String} (owner : Owner) {f : Unit → Act α}
    {w : World} (hw : w.GatesOpen) (hgate : w.openGates.contains gate = true)
    (hf : Returns (f ())) : ReturnsFrom (stopAt gate owner >>= f) w := by
  have hpass : ReturnsFrom (stopAt gate owner) w :=
    ⟨(), _, .inl ⟨hgate, rfl, rfl⟩, hw.of_eq rfl rfl⟩
  obtain ⟨_, w₁, hstop, hw₁⟩ := hpass
  obtain ⟨a, w₂, hends, hw₂⟩ := hf w₁ hw₁
  exact ⟨a, w₂, Thread.ends_bind'.mpr ⟨_, w₁, hstop, hends⟩, hw₂⟩

theorem returns_ask (owner : Owner) (r : Artifact.Repository) (c : Artifact.Coordinate) :
    Returns (ask owner r c) := by
  refine fun w hw => ?_
  cases hoffers : w.offers with
  | none =>
    refine ReturnsFrom.get_bind ?_
    rw [hoffers]
    exact ⟨_, w, ⟨rfl, rfl⟩, hw⟩
  | some offers =>
    refine ReturnsFrom.get_bind ?_
    rw [hoffers]
    refine ReturnsFrom.modify_bind ?_
    -- The request is recorded, and after that only the gate of the offer can hold the thread up.
    have hrecord : (w.record (.fetch r.id c)).GatesOpen := hw.record _
    split
    · exact Returns.pure _ _ hrecord
    · rename_i o hfind
      cases hgate : o.gate with
      | none => exact Returns.pure _ _ hrecord
      | some gate =>
        refine returnsFrom_stopAt_bind owner hrecord ?_ (.pure _)
        refine hrecord offers ?_ o (List.mem_of_find?_eq_some hfind) gate hgate
        rw [World.record]
        split <;> exact hoffers

section

variable {ask : Artifact.Repository → Artifact.Coordinate → Act Artifact.FetchAnswer}
  (hask : ∀ r c, Returns (ask r c)) (cache : Artifact.Cache)
  (repositories : List Artifact.Repository)
include hask

theorem returns_askInOrder (c : Artifact.Coordinate) (last : Option Artifact.Failure) :
    Returns (Artifact.askInOrder ask c repositories last) := by
  induction repositories generalizing last with
  | nil => exact .pure _
  | cons r rest ih =>
    refine .bind (hask r c) fun answer => ?_
    split
    · exact .pure _
    · exact ih last
    · exact ih _

theorem returns_resolveCoordinate (c : Artifact.Coordinate) :
    Returns (Artifact.resolveCoordinate ask cache repositories c) := by
  refine .getHost_bind fun host => ?_
  split
  · exact .pure _
  · refine .bind (returns_askInOrder hask repositories c none) fun answer => ?_
    split
    · exact .getHost_bind fun host => .bind (.setHost _) fun _ => .pure _
    · exact .pure _
    · exact .pure _

theorem returns_resolveAll (cs : List Artifact.Coordinate) :
    Returns (Artifact.resolveAll ask cache repositories cs) := by
  induction cs with
  | nil => exact .pure _
  | cons c rest ih =>
    refine .bind (returns_resolveCoordinate hask cache repositories c) fun result => ?_
    split
    · exact .pure _
    · refine .bind ih fun results => ?_
      split
      · exact .pure _
      · exact .pure _

theorem returns_resolveManifest (m : Artifact.Manifest) :
    Returns (Artifact.resolveManifest ask cache m) := by
  rw [Artifact.resolveManifest]
  split
  · exact .pure _
  · exact returns_resolveAll hask cache m.repositories m.dependencies

end

/-- Resolving comes to an end where the gates of repositories are open. -/
theorem returns_resolveFor (owner : Owner) (project : Path) (m : Artifact.Manifest) :
    Returns (resolveFor owner project m) := by
  refine .get_bind fun w₀ w hw => ?_
  cases hmanifest : w₀.session.settings.resolver.manifestOn w.host (manifestFor project m) with
  | error e =>
    refine ⟨.error e, w, ends_resolve.mpr ?_, hw⟩
    rw [hmanifest]
    exact ⟨rfl, rfl⟩
  | ok m' =>
    obtain ⟨r, w', hends, hw'⟩ :=
      returns_resolveManifest (returns_ask owner) w₀.session.cache m' w hw
    refine ⟨r, w', ends_resolve.mpr ?_, hw'⟩
    rw [hmanifest]
    exact hends

end Session
end ScriptSession
