import ScriptSession.Artifact.Failure
import ScriptSession.Host

/-!
# The artifact cache

Fetched artifacts lie below a root, each at the place its coordinate names. An entry is written
once: a second store of the same coordinate keeps what is there. Purging removes the file; when
that fails the path is remembered and tried once more at the end of the program.
-/

namespace ScriptSession
namespace Artifact

/-! ## Deferred deletions -/

/-- Paths to delete at the end of the program, in the order they were registered. -/
structure Deletions where
  paths : List Path
deriving Repr, Inhabited

namespace Deletions

/-- Nothing to delete. -/
def none : Deletions := ⟨[]⟩

/-- Remember a path, once. -/
def defer (d : Deletions) (p : Path) : Deletions :=
  if d.paths.any (·.same p) then d else ⟨d.paths ++ [p]⟩

/-- Try to delete every path of a list; how many files went. A path that cannot be deleted is
given up. -/
def removeAll (host : Host) : List Path → Nat × Host
  | [] => (0, host)
  | p :: rest =>
    match host.removeFile p with
    | .ok host =>
      let (n, host) := removeAll host rest
      (n + 1, host)
    | .error _ => removeAll host rest

/-- Try every remembered path and forget them all. -/
def run (d : Deletions) (host : Host) : Nat × Deletions × Host :=
  let (n, host) := removeAll host d.paths
  (n, none, host)

end Deletions

/-! ## The cache -/

/-- What became of a purge. -/
inductive PurgeOutcome where
  | removed
  | notCached
  | deferred
deriving DecidableEq, Repr

/-- A cached artifact and its size in bytes. -/
structure CachedArtifact where
  path : Path
  size : Nat
deriving DecidableEq, Repr

/-- A cache below a root. -/
structure Cache where
  root : Path
deriving DecidableEq, Repr, Inhabited

namespace Cache

/-- The root of the user's cache. -/
def defaultRoot (host : Host) : Path := host.cacheDirectory.join "artifacts"

/-- Where the cache keeps a coordinate. -/
def pathFor (cache : Cache) (c : Coordinate) : Path := cache.root.join c.relativePath.text

/-- The cached file of a coordinate. -/
def lookup (cache : Cache) (host : Host) (c : Coordinate) : Option Path :=
  if host.isFile (cache.pathFor c) then some (cache.pathFor c) else none

/-- Keep the bytes of a coordinate, unless there are some already. They are written to a staging
file beside the artifact's, which then takes the artifact's place or is removed. -/
def store (cache : Cache) (c : Coordinate) (bytes : ByteArray) (host : Host) :
    Except Failure Path × Host :=
  let target := cache.pathFor c
  let directory := target.parent?.getD cache.root
  match host.makeDirectories directory with
  | (some e, host) => (.error (.cache c e), host)
  | (none, host) =>
    match host.stage directory bytes with
    | .error e => (.error (.cache c e), host)
    | .ok (staged, host) =>
      if host.isFile target then (.ok target, host.discard staged)
      else
        match host.persist staged target with
        | .error e => (.error (.cache c e), host.discard staged)
        | .ok host => (.ok target, host)

/-- Remove a coordinate. A file that cannot be deleted is deferred. -/
def purge (cache : Cache) (c : Coordinate) (host : Host) (deletions : Deletions) :
    PurgeOutcome × Host × Deletions :=
  let path := cache.pathFor c
  if !host.pathExists path then (.notCached, host, deletions)
  else
    match host.removeFile path with
    | .ok host => (.removed, host, deletions)
    | .error _ => (.deferred, host, deletions.defer path)

/-- The cached artifacts, sorted by path. -/
def entries (cache : Cache) (host : Host) : List CachedArtifact :=
  let found := (host.filesBelow cache.root).filterMap fun (p, size) =>
    if p.extension? = some moduleExtension then some (CachedArtifact.mk p size) else none
  found.mergeSort fun a b => a.path.le b.path

end Cache
end Artifact
end ScriptSession
