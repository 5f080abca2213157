import ScriptSession.Session.Scripts

/-!
# Building contexts

A context is built from the base scope of the session, the build output of the project and the
dependencies of its manifest. A dependency that cannot be resolved is told to the listener and
does not keep the context from being built; only a project directory that is not known yet does.
-/

namespace ScriptSession
namespace Session

open Artifact (CodeLocation Coordinate FetchAnswer Manifest Repository)
open Context (LoadingScope)

/-! ## Fetching -/

/-- Whether an offer answers for a repository and a coordinate. -/
def Offer.answersFor (o : Offer) (r : Repository) (c : Coordinate) : Bool :=
  o.repository.all (· = r.id) && o.coordinate = c

/-- Ask a repository: the prepared answers if there are any, or the repository itself. -/
def ask (owner : Owner) (r : Repository) (c : Coordinate) : Act FetchAnswer := do
  let w ← getThe World
  match w.offers with
  | none => return Artifact.fetch w.host r c
  | some offers =>
    modifyThe World (·.record (.fetch r.id c))
    match offers.find? fun o => o.answersFor r c with
    | none => return .ok none
    | some o =>
      if let some gate := o.gate then stopAt gate owner
      return match o.answer with
        | .ok bytes => .ok (some bytes)
        | .error message => .error (.fetch c r.id message)

/-! ## Resolving -/

/-- Why nothing can be built yet. -/
def noProject : Failure := .prematureInit "project directory is not available yet"

/-- The manifest as it is resolved for a project: one that names no file means the project's. -/
def manifestFor (project : Path) (m : Manifest) : Manifest :=
  match m.manifestFile with
  | some _ => m
  | none => { m with manifestFile := some (project.join Artifact.manifestFileName) }

/-- Resolve a manifest for a project. -/
def resolveFor (owner : Owner) (project : Path) (m : Manifest) :
    Act (Except Artifact.Failure (List CodeLocation)) := do
  let core := (← getThe World).session
  core.settings.resolver.resolve (ask owner) core.cache (manifestFor project m)

/-- Resolve a manifest. -/
def resolve (owner : Owner) (m : Manifest) : Act (Except Failure (List CodeLocation)) := do
  match (← getThe World).session.projectDir with
  | none => return .error noProject
  | some project => return (← resolveFor owner project m).mapError .resolution

/-! ## Building -/

/-- What a rebuild takes in. -/
structure RebuildOptions where
  usesManifest : Bool
  includesBuildOutput : Bool

/-- The options that settings ask for. -/
def optionsOf (s : Config.SessionSettings) : RebuildOptions :=
  ⟨s.usesManifest, s.includesBuildOutput⟩

/-- The build output directories of a project that are there. -/
def buildOutput (host : Host) (project : Path) (dirs : List String) : List Path :=
  ((dirs.map project.join).filter host.isDirectory).map fun dir =>
    (host.canonical dir).toOption.getD dir

/-- Tell the listener that dependencies could not be resolved. -/
def tellUnresolved (cause : Artifact.Failure) : Act Unit := do
  match (← getThe World).session.listener with
  | .transcript => write (.warning cause.warning)
  | .chronicle => modifyThe World (·.record (.unresolved cause))

/-- A scope with the dependencies of a manifest, as far as they can be resolved. -/
def withDependencies (owner : Owner) (project : Path) (m : Manifest) (scope : LoadingScope) :
    Act LoadingScope := do
  match ← resolveFor owner project m with
  | .ok locations => return scope.extend locations
  | .error cause =>
    tellUnresolved cause
    return scope

/-- Build a context on top of a scope: its number. -/
def build (owner : Owner) (parent : LoadingScope) (m : Manifest) (bindings : Context.Bindings)
    (options : RebuildOptions) : Act (Except Failure Nat) := do
  match (← getThe World).session.projectDir with
  | none => return .error noProject
  | some project =>
    let w ← getThe World
    let output :=
      if options.includesBuildOutput then
        buildOutput w.host project w.session.settings.buildOutputDirs
      else []
    let scope := parent.extend (output.map .directory)
    let scope ← if options.usesManifest then withDependencies owner project m scope else pure scope
    let generation := (← getThe World).session.generation + 1
    modifyThe World (·.alterSession fun c => { c with generation := generation })
    let (i, w) := (← getThe World).addContext (.new generation scope bindings)
    set w
    return .ok i

end Session
end ScriptSession
