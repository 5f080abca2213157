import ScriptSession.Artifact.Cache
import ScriptSession.Artifact.Fetch
import ScriptSession.Artifact.Manifest

/-!
# Resolution

From coordinates to files. A cached artifact is used without asking anybody. Otherwise the
repositories are asked in order; the first that has the artifact wins, and a repository that
could not be asked does not keep a later one from answering.

How a repository is asked is a parameter: the bytes may come from files, from a table, or from
somebody who takes a while to answer. Resolution only needs to run in some monad that has the
host at hand.
-/

namespace ScriptSession
namespace Artifact

/-! ## Code locations -/

/-- A place modules are loaded from. -/
inductive CodeLocation where
  | directory (path : Path)
  | artifact (coordinate : Coordinate) (path : Path)
deriving DecidableEq, Repr

namespace CodeLocation

/-- The path of a location. -/
def path : CodeLocation → Path
  | .directory p => p
  | .artifact _ p => p

/-- The same location: the same kind, the same coordinate, the same place. -/
def same : CodeLocation → CodeLocation → Bool
  | .directory p, .directory q => p.same q
  | .artifact c p, .artifact d q => c = d && p.same q
  | _, _ => false

end CodeLocation

/-! ## Coordinates -/

section

variable {m : Type → Type} [Monad m] [MonadStateOf Host m]

/-- Ask repositories in order until one has the bytes. The failure that is kept is that of the
last repository that could not be asked. -/
def askInOrder (ask : Repository → Coordinate → m FetchAnswer) (c : Coordinate) :
    List Repository → Option Failure → m (Except (Option Failure) ByteArray)
  | [], last => pure (.error last)
  | r :: rest, last => do
    match ← ask r c with
    | .ok (some bytes) => pure (.ok bytes)
    | .ok none => askInOrder ask c rest last
    | .error e => askInOrder ask c rest (some e)

/-- The file of a coordinate: the cached one, or a fresh one from the first repository that has
it. -/
def resolveCoordinate (ask : Repository → Coordinate → m FetchAnswer) (cache : Cache)
    (repositories : List Repository) (c : Coordinate) : m (Except Failure Path) := do
  match cache.lookup (← getThe Host) c with
  | some path => pure (.ok path)
  | none =>
    match ← askInOrder ask c repositories none with
    | .ok bytes =>
      let (result, host) := cache.store c bytes (← getThe Host)
      set host
      pure result
    | .error (some e) => pure (.error e)
    | .error none => pure (.error (.notFound c (repositories.map (·.id))))

/-- The files of coordinates in order. The first failure ends the search. -/
def resolveAll (ask : Repository → Coordinate → m FetchAnswer) (cache : Cache)
    (repositories : List Repository) : List Coordinate → m (Except Failure (List CodeLocation))
  | [] => pure (.ok [])
  | c :: rest => do
    match ← resolveCoordinate ask cache repositories c with
    | .error e => pure (.error e)
    | .ok path =>
      match ← resolveAll ask cache repositories rest with
      | .error e => pure (.error e)
      | .ok locations => pure (.ok (.artifact c path :: locations))

/-- The locations of a manifest. -/
def resolveManifest (ask : Repository → Coordinate → m FetchAnswer) (cache : Cache)
    (manifest : Manifest) : m (Except Failure (List CodeLocation)) :=
  match manifest.validate with
  | .error e => pure (.error e)
  | .ok () => resolveAll ask cache manifest.repositories manifest.dependencies

end

/-! ## Strategies -/

/-- Where the dependencies come from: the manifest file of the project, or the configuration. -/
inductive Strategy where
  | manifestFile
  | repositoryList
deriving DecidableEq, Repr, Inhabited

/-- The name of a strategy. -/
def Strategy.name : Strategy → String
  | .manifestFile => "ManifestFile"
  | .repositoryList => "RepositoryList"

/-- The locations of a manifest under a strategy. Without a manifest file there is nothing to
resolve for the strategy that reads it. -/
def Strategy.resolve {m : Type → Type} [Monad m] [MonadStateOf Host m] (strategy : Strategy)
    (ask : Repository → Coordinate → m FetchAnswer) (cache : Cache) (manifest : Manifest) :
    m (Except Failure (List CodeLocation)) := do
  match strategy with
  | .repositoryList => resolveManifest ask cache manifest
  | .manifestFile =>
    match manifest.manifestFile with
    | none => pure (.ok [])
    | some path =>
      let host ← getThe Host
      if !host.pathExists path then pure (.ok [])
      else
        match ManifestFile.load host path with
        | .error e => pure (.error e)
        | .ok file => resolveManifest ask cache (manifest.mergedWith file)

end Artifact
end ScriptSession
