import ScriptSession.Artifact.Resolution
import ScriptSession.Proofs.Artifact.Placement
import ScriptSession.Proofs.Artifact.Storing

/-!
# What a coordinate can reach

Resolving a coordinate reads and writes below two kinds of directories only: the root of the cache
and the directories of repositories in the file system. Main statement: the path of a parsed
coordinate consists of names, no other coordinate has it, the address says the same, and whatever is
read or changed for the coordinate is at the place that its names lead to from such a directory
(`Coordinate.placed_of_parse?`). What storing changes elsewhere, making the root of the cache
changes as well: a root that is missing is made with the directories that it is in.
-/

namespace ScriptSession
namespace Artifact

open Files (IsBelow IsOnWay Place Tree isFile_iff locate makeDirectories placeOf stagingPlace)

namespace Cache

variable {cache : Cache} {c : Coordinate} {host : Host} {cwd : Place}

/-! ## The file of a coordinate -/

/-- The directory that holds the file of a coordinate. -/
def holder (cache : Cache) (c : Coordinate) : Path := cache.root.joinAll (c.above ++ [c.version])

/-- The place of the file of a coordinate. -/
def target (cache : Cache) (cwd : Place) (c : Coordinate) : Place :=
  placeOf cwd cache.root ++ c.names

theorem pathFor_eq (h : c.IsValid) : cache.pathFor c = cache.root.joinAll c.names :=
  h.join_relativePath cache.root

theorem pathFor_eq_join (h : c.IsValid) : cache.pathFor c = (cache.holder c).join c.fileName := by
  rw [pathFor_eq h, c.names_eq, holder, Path.joinAll_concat _ (c.above ++ [c.version])]

theorem parent?_pathFor (h : c.IsValid) : (cache.pathFor c).parent? = some (cache.holder c) := by
  have hversion := h.isName_of_mem (n := c.version) (by simp [Coordinate.names])
  rw [pathFor_eq h, Coordinate.names]
  exact Path.parent?_joinAll _ hversion h.isFileName_fileName.toIsName

theorem placeOf_pathFor (h : c.IsValid) :
    placeOf cwd (cache.pathFor c) = cache.target cwd c :=
  h.placeOf_join cwd cache.root

theorem isBelow_target (cache : Cache) (cwd : Place) (c : Coordinate) :
    IsBelow (placeOf cwd cache.root) (cache.target cwd c) :=
  ⟨c.names, c.names_ne_nil, rfl⟩

theorem target_ne_stagingPlace (h : c.IsValid) (t : Tree) :
    cache.target cwd c ≠ stagingPlace t (placeOf cwd (cache.holder c)) := by
  rw [← placeOf_pathFor h]
  exact cache.placeOf_pathFor_ne_stagingPlace c cwd t _

/-! ## Storing -/

/-- The host with the directories made that the file of a coordinate lies in. -/
def prepared (cache : Cache) (c : Coordinate) (host : Host) : Host :=
  host.withFiles (makeDirectories host.files host.cwd (cache.holder c)).2

theorem files_prepared : (cache.prepared c host).files =
    (makeDirectories host.files host.cwd (cache.holder c)).2 := by
  rw [prepared, Host.withFiles]

theorem grows_prepared : host.files.Grows (cache.prepared c host).files := by
  rw [files_prepared]
  exact Files.grows_makeDirectories _ _ _

/-- What storing comes to: directories are made, and then there is a failure, or a file that was
there already, or a new one. -/
theorem store_cases (h : c.IsValid) (cache : Cache) (bytes : ByteArray) (host : Host) :
    (∃ e, cache.store c bytes host = (.error (.cache c e), cache.prepared c host)) ∨
    (cache.store c bytes host = (.ok (cache.pathFor c), cache.prepared c host) ∧
      (cache.prepared c host).isFile (cache.pathFor c) = true) ∨
    (cache.store c bytes host = (.ok (cache.pathFor c), (cache.prepared c host).withFiles
        ((cache.prepared c host).files.put (cache.target host.cwd c) (.file bytes))) ∧
      locate (cache.prepared c host).files host.cwd (cache.pathFor c) =
        .ok (cache.target host.cwd c) ∧
      (cache.prepared c host).files.get? (cache.target host.cwd c) = none) := by
  have hshelf : cache.shelf c = cache.holder c := by
    rw [shelf, parent?_pathFor h, Option.getD_some]
  have hshelved : cache.shelved c host = cache.prepared c host := by
    rw [shelved, prepared, hshelf]
  have houtcome := cache.store_outcome c bytes host
  rw [hshelved, placeOf_pathFor h] at houtcome
  exact houtcome

/-! ## Purging -/

theorem purge_of_isFile (h : c.IsValid) (deletions : Deletions)
    (hfile : host.isFile (cache.pathFor c) = true) :
    cache.purge c host deletions =
      (.removed, host.withFiles (host.files.erase (cache.target host.cwd c)), deletions) := by
  rw [purge_eq_removed cache c deletions hfile, placeOf_pathFor h]

end Cache

/-! ## Staying in a directory -/

/-- What a host has at a path with all its names is seen from the path: hosts that look alike there
agree below it and on the way to it. -/
structure Alike (root : Path) (host host' : Host) : Prop where
  cwd : host'.cwd = host.cwd
  get? : ∀ q, IsBelow (placeOf host.cwd root) q ∨ IsOnWay host.cwd root q →
    host'.files.get? q = host.files.get? q

/-- What changed is below a directory, but for directories that were made on the way to it. -/
structure Confined (root : Path) (host host' : Host) : Prop where
  cwd : host'.cwd = host.cwd
  get? : ∀ q, ¬ IsBelow (placeOf host.cwd root) q → host'.files.get? q = host.files.get? q ∨
    (host.files.get? q = none ∧ host'.files.get? q = some .directory ∧ IsOnWay host.cwd root q)

theorem Confined.refl (root : Path) (host : Host) : Confined root host host :=
  ⟨rfl, fun _ _ => .inl rfl⟩

theorem Confined.trans {root : Path} {host host' host'' : Host} (h : Confined root host host')
    (h' : Confined root host' host'') : Confined root host host'' := by
  refine ⟨h'.cwd.trans h.cwd, fun q hq => ?_⟩
  have hlater := h'.get? q
  rw [h.cwd] at hlater
  rcases h.get? q hq with heq | ⟨hnone, hdir, hway⟩ <;>
    rcases hlater hq with heq' | ⟨hnone', hdir', hway'⟩
  · exact .inl (heq'.trans heq)
  · exact .inr ⟨heq ▸ hnone', hdir', hway'⟩
  · exact .inr ⟨hnone, heq' ▸ hdir, hway⟩
  · rw [hdir] at hnone'
    cases hnone'

/-- Files changed at a place below a directory. -/
theorem Confined.of_get? {root : Path} {host : Host} {files : Tree} {place : Place}
    (hbelow : IsBelow (placeOf host.cwd root) place)
    (h : ∀ q, q ≠ place → files.get? q = host.files.get? q) :
    Confined root host (host.withFiles files) := by
  refine ⟨rfl, fun q hq => .inl (h q ?_)⟩
  rintro rfl
  exact hq hbelow

namespace Coordinate.IsValid

variable {c : Coordinate} {host host' : Host} {root : Path}

/-! ## Reading -/

theorem locate_congr (h : c.IsValid) (halike : Alike root host host') :
    locate host'.files host'.cwd (root.join c.relativePath.text) =
      locate host.files host.cwd (root.join c.relativePath.text) := by
  rw [h.join_relativePath, halike.cwd]
  exact Files.locate_joinAll_congr (fun n hn => h.isName_of_mem hn) halike.get?

theorem entry_congr (h : c.IsValid) (halike : Alike root host host') :
    Files.entry host'.files host'.cwd (root.join c.relativePath.text) =
      Files.entry host.files host.cwd (root.join c.relativePath.text) := by
  unfold Files.entry
  rw [h.locate_congr halike]
  cases hlocate : locate host.files host.cwd (root.join c.relativePath.text) with
  | error e => rfl
  | ok q =>
    have hq : q = placeOf host.cwd root ++ c.names :=
      (Files.eq_placeOf_of_locate hlocate).trans (h.placeOf_join host.cwd root)
    have hget : host'.files.get? q = host.files.get? q :=
      halike.get? q (.inl ⟨c.names, c.names_ne_nil, hq⟩)
    simp only [bind, Except.bind, hget]

theorem isFile_congr (h : c.IsValid) (halike : Alike root host host') :
    host'.isFile (root.join c.relativePath.text) = host.isFile (root.join c.relativePath.text) := by
  show Files.isFile _ _ _ = Files.isFile _ _ _
  unfold Files.isFile
  rw [h.entry_congr halike]

theorem read_congr (h : c.IsValid) (halike : Alike root host host') :
    host'.read (root.join c.relativePath.text) = host.read (root.join c.relativePath.text) := by
  show Files.read _ _ _ = Files.read _ _ _
  unfold Files.read
  rw [h.entry_congr halike]

theorem lookup_congr {cache : Cache} (h : c.IsValid) (halike : Alike cache.root host host') :
    cache.lookup host' c = cache.lookup host c := by
  unfold Cache.lookup
  rw [show host'.isFile (cache.pathFor c) = host.isFile (cache.pathFor c) from
    h.isFile_congr halike]

theorem fetchLocal_congr (h : c.IsValid) (r : Repository) (halike : Alike root host host') :
    fetchLocal host' r root c = fetchLocal host r root c := by
  unfold fetchLocal
  simp only [h.isFile_congr halike, h.read_congr halike]

theorem lookup_eq_some {cache : Cache} (h : c.IsValid) {path : Path}
    (hfound : cache.lookup host c = some path) :
    path = cache.pathFor c ∧
      ∃ bytes, host.files.get? (placeOf host.cwd cache.root ++ c.names) = some (.file bytes) := by
  unfold Cache.lookup at hfound
  split at hfound
  · rename_i hfile
    obtain ⟨-, bytes, hget⟩ := isFile_iff.mp hfile
    rw [Cache.placeOf_pathFor h] at hget
    exact ⟨(Option.some.inj hfound).symm, bytes, hget⟩
  · cases hfound

/-! ## Writing -/

theorem confined_prepared (h : c.IsValid) (cache : Cache) (host : Host) :
    Confined cache.root host (cache.prepared c host) := by
  refine ⟨rfl, fun q hq => ?_⟩
  rcases Cache.grows_prepared.get? q with heq | ⟨hnone, hdir⟩
  · exact .inl heq
  · rcases Files.get?_makeDirectories_joinAll host.files host.cwd cache.root
      (fun n hn => h.isFileName_of_mem_directory hn) hq with heq | hway
    · left
      rw [Cache.files_prepared]
      exact heq
    · exact .inr ⟨hnone, hdir, hway⟩

theorem confined_store (h : c.IsValid) (cache : Cache) (bytes : ByteArray) (host : Host) :
    Confined cache.root host (cache.store c bytes host).2 := by
  have hprepared := h.confined_prepared cache host
  rcases Cache.store_cases h cache bytes host with ⟨e, heq⟩ | ⟨heq, -⟩ | ⟨heq, -, -⟩
  · rw [heq]
    exact hprepared
  · rw [heq]
    exact hprepared
  · rw [heq]
    exact hprepared.trans (Confined.of_get? (cache.isBelow_target host.cwd c) fun q hq =>
      Tree.get?_put_of_ne _ _ _ _ hq)

theorem confined_purge (h : c.IsValid) (cache : Cache) (host : Host) (deletions : Deletions) :
    Confined cache.root host (cache.purge c host deletions).2.1 := by
  cases hfile : host.isFile (cache.pathFor c) with
  | true =>
    rw [Cache.purge_of_isFile h deletions hfile]
    exact Confined.of_get? (cache.isBelow_target host.cwd c) fun q hq => Tree.get?_erase_of_ne _ hq
  | false =>
    rcases Cache.purge_of_not_isFile cache c deletions hfile with heq | heq <;> rw [heq]
    all_goals exact Confined.refl _ _

/-- A path that is remembered for deletion is that of the coordinate, or was remembered before. -/
theorem mem_paths_purge (cache : Cache) (c : Coordinate) (host : Host) (deletions : Deletions)
    {p : Path} (hp : p ∈ (cache.purge c host deletions).2.2.paths) :
    p ∈ deletions.paths ∨ p = cache.pathFor c := by
  rw [cache.deletions_purge] at hp
  split at hp
  · exact Deletions.mem_paths_defer hp
  · exact .inl hp

end Coordinate.IsValid

/-! ## Resolving -/

/-- Ask a repository of either kind, which changes nothing. -/
def askFiles (r : Repository) (c : Coordinate) : StateM Host FetchAnswer := do
  return fetch (← get) r c

theorem askInOrder_run (c : Coordinate) (repositories : List Repository) (last : Option Failure)
    (host : Host) : ((askInOrder askFiles c repositories last).run host).2 = host := by
  induction repositories generalizing last with
  | nil => rfl
  | cons r rest ih =>
    have hask : (askFiles r c).run host = (fetch host r c, host) := rfl
    unfold askInOrder
    rw [StateT.run_bind, hask]
    cases fetch host r c with
    | ok answer =>
      cases answer with
      | some bytes => rfl
      | none => exact ih last
    | error e => exact ih (some e)

/-- What resolving a coordinate comes to. -/
theorem resolveCoordinate_eq (cache : Cache) (repositories : List Repository) (c : Coordinate)
    (host : Host) :
    (resolveCoordinate askFiles cache repositories c).run host =
      match cache.lookup host c with
      | some path => (.ok path, host)
      | none =>
        match ((askInOrder askFiles c repositories none).run host).1 with
        | .ok bytes => cache.store c bytes host
        | .error (some e) => (.error e, host)
        | .error none => (.error (.notFound c (repositories.map (·.id))), host) := by
  have hget : (getThe Host : StateM Host Host).run host = pure (host, host) := rfl
  have hhost := askInOrder_run c repositories none host
  unfold resolveCoordinate
  rw [StateT.run_bind, hget, pure_bind]
  dsimp only
  cases cache.lookup host c with
  | some path => rfl
  | none =>
    -- Asking leaves the host alone, so what is stored is stored on the host that was looked at.
    obtain ⟨answer, hask⟩ : ∃ answer, (askInOrder askFiles c repositories none).run host =
        pure (answer, host) := ⟨_, Prod.ext rfl hhost⟩
    dsimp only
    rw [StateT.run_bind, hask, pure_bind]
    cases answer with
    | ok bytes => exact Prod.eta (cache.store c bytes host)
    | error e => cases e <;> rfl

/-- Resolving a coordinate changes files below the root of the cache only, and the file that it
comes to is the one of the coordinate. -/
theorem resolveCoordinate_run {c : Coordinate} (h : c.IsValid) (cache : Cache)
    (repositories : List Repository) (host : Host) :
    Confined cache.root host ((resolveCoordinate askFiles cache repositories c).run host).2 ∧
      ∀ path, ((resolveCoordinate askFiles cache repositories c).run host).1 = .ok path →
        path = cache.pathFor c := by
  rw [resolveCoordinate_eq]
  cases hlookup : cache.lookup host c with
  | some path =>
    dsimp only
    refine ⟨Confined.refl _ _, fun p hp => ?_⟩
    rw [← Except.ok.inj hp]
    exact (h.lookup_eq_some hlookup).1
  | none =>
    dsimp only
    split
    · -- A store that comes to a path comes to that of the coordinate.
      rename_i bytes _
      refine ⟨h.confined_store cache bytes host, fun p hp => ?_⟩
      rcases Cache.store_cases h cache bytes host with ⟨e, heq⟩ | ⟨heq, -⟩ | ⟨heq, -, -⟩ <;>
        rw [heq] at hp
      · cases hp
      · exact (Except.ok.inj hp).symm
      · exact (Except.ok.inj hp).symm
    · exact ⟨Confined.refl _ _, nofun⟩
    · exact ⟨Confined.refl _ _, nofun⟩

/-! ## Main statement -/

/-- A coordinate that lies where its names lead from every directory, and nowhere else. -/
structure Coordinate.Placed (c : Coordinate) : Prop where
  names : c.names ≠ [] ∧ ∀ n ∈ c.names, Files.IsFileName n
  components : c.relativePath.components = c.names.map .normal
  address : c.urlPath = "/".intercalate c.names
  below : ∀ root : Path, (root.join c.relativePath.text).components =
    root.components ++ c.relativePath.components
  cached : ∀ (cache : Cache) (host host' : Host), Alike cache.root host host' →
    cache.lookup host' c = cache.lookup host c
  fetched : ∀ (r : Repository) (root : Path) (host host' : Host), Alike root host host' →
    fetchLocal host' r root c = fetchLocal host r root c
  stored : ∀ (cache : Cache) (bytes : ByteArray) (host : Host),
    Confined cache.root host (cache.store c bytes host).2
  purged : ∀ (cache : Cache) (host : Host) (deletions : Deletions),
    Confined cache.root host (cache.purge c host deletions).2.1 ∧
      ∀ p ∈ (cache.purge c host deletions).2.2.paths, p ∈ deletions.paths ∨ p = cache.pathFor c
  resolved : ∀ (cache : Cache) (repositories : List Repository) (host : Host),
    Confined cache.root host ((resolveCoordinate askFiles cache repositories c).run host).2 ∧
      ∀ path, ((resolveCoordinate askFiles cache repositories c).run host).1 = .ok path →
        path = cache.pathFor c

/-- A parsed coordinate is placed, and no other parsed one has its path. -/
theorem Coordinate.placed_of_parse? (s : String) (c : Coordinate) (h : parse? s = some c) :
    c.Placed ∧ ∀ s' c', parse? s' = some c' →
      c.relativePath.same c'.relativePath = true → c = c' := by
  have hvalid : c.IsValid := isValid_of_parse? h
  refine ⟨?_, fun s' c' h' hsame => hvalid.eq_of_same (isValid_of_parse? h') hsame⟩
  exact {
    names := ⟨c.names_ne_nil, fun n hn => hvalid.isFileName_of_mem hn⟩
    components := hvalid.components_relativePath
    address := c.urlPath_eq
    below := hvalid.components_join
    cached := fun _ _ _ halike => hvalid.lookup_congr halike
    fetched := fun r _ _ _ halike => hvalid.fetchLocal_congr r halike
    stored := hvalid.confined_store
    purged := fun cache host deletions =>
      ⟨hvalid.confined_purge cache host deletions, fun _ hp =>
        IsValid.mem_paths_purge cache c host deletions hp⟩
    resolved := resolveCoordinate_run hvalid
  }

/-- A group of two parts, and dots and dashes in the other segments. -/
theorem Coordinate.placed_with_dots :
    let c : Coordinate := ⟨"org.example", "stats-core", "2.1-rc.1"⟩
    parse? " org.example:stats-core:2.1-rc.1\n" = some c ∧
      c.relativePath.text = "org/example/stats-core/2.1-rc.1/stats-core-2.1-rc.1.rhai" ∧
      c.Placed := by
  intro c
  have hparse : parse? " org.example:stats-core:2.1-rc.1\n" = some c := by decide
  exact ⟨hparse, by decide, (placed_of_parse? _ c hparse).1⟩

end Artifact
end ScriptSession
