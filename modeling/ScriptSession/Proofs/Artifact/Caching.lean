import ScriptSession.Proofs.Artifact.Confinement
import ScriptSession.Proofs.Concurrency.Runs
import ScriptSession.Proofs.Path.Order

/-!
# The cache as a map

A cache is asked to store, purge, look up and list. What it holds after that is a map from
coordinates to bytes that the answers alone determine (`held`): a coordinate is held from the first
store that succeeds to the purge that removes it. Main statement: the files below the root are those
of the map, whatever requests were made in whatever order (`mirrors_iff`). A listing shows the map
unless the path of the root is empty: such a root leads nowhere by itself, though everything that is
joined to it lies in the working directory.
-/

namespace ScriptSession
namespace Artifact
namespace Cache

open Concurrency (Follows runFrom runFrom_keeps_of)
open Files (Place Tree isFile_iff locate locate_mono placeOf)

/-! ## Requests -/

/-- What a cache is asked for. -/
inductive Request where
  | store (c : Coordinate) (bytes : ByteArray)
  | purge (c : Coordinate)
  | lookup (c : Coordinate)
  | entries

/-- What a cache answers. -/
inductive Reply where
  | stored (result : Except Failure Path)
  | purged (outcome : PurgeOutcome)
  | found (path : Option Path)
  | listed (artifacts : List CachedArtifact)

/-- The coordinate of a request. -/
def Request.coordinate? : Request → Option Coordinate
  | .store c _ | .purge c | .lookup c => some c
  | .entries => none

/-- A host with a cache, and the requests that were answered so far. -/
structure Journal where
  host : Host
  deletions : Deletions
  log : List (Request × Reply)

/-- The answer to a request. -/
def answer (cache : Cache) (host : Host) (deletions : Deletions) :
    Request → Reply × Host × Deletions
  | .store c bytes =>
    (.stored (cache.store c bytes host).1, (cache.store c bytes host).2, deletions)
  | .purge c => (.purged (cache.purge c host deletions).1, (cache.purge c host deletions).2)
  | .lookup c => (.found (cache.lookup host c), host, deletions)
  | .entries => (.listed (cache.entries host), host, deletions)

/-- A request is answered. -/
def serve (cache : Cache) (j : Journal) (r : Request) : Journal where
  host := (cache.answer j.host j.deletions r).2.1
  deletions := (cache.answer j.host j.deletions r).2.2
  log := j.log ++ [(r, (cache.answer j.host j.deletions r).1)]

/-! ## The map -/

/-- Coordinates with their bytes. -/
abbrev Contents := List (Coordinate × ByteArray)

/-- What an answer says about the contents. -/
def Contents.note (held : Contents) : Request × Reply → Contents
  | (.store c bytes, .stored (.ok _)) =>
    if c ∈ held.map (·.1) then held else held ++ [(c, bytes)]
  | (.purge c, .purged .removed) => held.filter fun e => e.1 ≠ c
  | _ => held

/-- The contents that answers determine. -/
def held (log : List (Request × Reply)) : Contents := log.foldl Contents.note []

theorem held_concat (log : List (Request × Reply)) (exchange : Request × Reply) :
    held (log ++ [exchange]) = (held log).note exchange := by
  rw [held, List.foldl_concat, held]

/-- The files at and below the root are those of the contents, and nothing is in the way of them. -/
structure Represents (cache : Cache) (cwd : Place) (contents : Contents) (t : Tree) : Prop where
  valid : ∀ e ∈ contents, e.1.IsValid
  nodup : (contents.map (·.1)).Nodup
  files : (t.files.filter fun f => (placeOf cwd cache.root).isPrefixOf f.1) =
    contents.map fun e => (cache.target cwd e.1, e.2)
  found : ∀ e ∈ contents, locate t cwd (cache.pathFor e.1) = .ok (cache.target cwd e.1) ∧
    t.get? (cache.target cwd e.1) = some (.file e.2)

variable {cache : Cache} {c : Coordinate} {cwd : Place} {contents : Contents} {t t' : Tree}

theorem isPrefixOf_target (cache : Cache) (cwd : Place) (c : Coordinate) :
    (placeOf cwd cache.root).isPrefixOf (cache.target cwd c) = true := by
  rw [List.isPrefixOf_iff_prefix]
  exact List.prefix_append _ _

theorem target_injective {c c' : Coordinate} (h : cache.target cwd c = cache.target cwd c') :
    c = c' := Coordinate.names_injective (List.append_cancel_left h)

namespace Represents

/-- A coordinate is held when its file is there. -/
theorem isFile_iff_mem (h : Represents cache cwd contents t) (hc : c.IsValid) :
    Files.isFile t cwd (cache.pathFor c) = true ↔ c ∈ contents.map (·.1) := by
  rw [isFile_iff, placeOf_pathFor hc]
  constructor
  · rintro ⟨-, bytes, hget⟩
    have hmem : (cache.target cwd c, bytes) ∈
        contents.map fun e => (cache.target cwd e.1, e.2) := by
      rw [← h.files, List.mem_filter]
      exact ⟨Tree.mem_files_of_get? hget, isPrefixOf_target cache cwd c⟩
    obtain ⟨e, he, heq⟩ := List.mem_map.mp hmem
    have hsame : e.1 = c := target_injective (Prod.mk.inj heq).1
    rw [← hsame]
    exact List.mem_map_of_mem he
  · intro hmem
    obtain ⟨e, he, rfl⟩ := List.mem_map.mp hmem
    obtain ⟨hlocate, hget⟩ := h.found e he
    exact ⟨hlocate, e.2, hget⟩

/-- Directories that are made change no contents. -/
theorem of_grows (h : Represents cache cwd contents t) (hgrows : t.Grows t') :
    Represents cache cwd contents t' where
  valid := h.valid
  nodup := h.nodup
  files := by
    rw [hgrows.files]
    exact h.files
  found e he := by
    obtain ⟨hlocate, hget⟩ := h.found e he
    exact ⟨locate_mono (fun _ => hgrows.keeps) hlocate, hgrows.keeps hget⟩

/-- A coordinate is new whose file is not there. -/
theorem not_mem_of_vacant (h : Represents cache cwd contents t)
    (hget : t.get? (cache.target cwd c) = none) : c ∉ contents.map (·.1) := by
  intro hmem
  obtain ⟨e, he, rfl⟩ := List.mem_map.mp hmem
  rw [(h.found e he).2] at hget
  cases hget

/-- A new file of a coordinate adds to the contents. -/
theorem of_put (h : Represents cache cwd contents t) (hc : c.IsValid) (bytes : ByteArray)
    (hlocate : locate t cwd (cache.pathFor c) = .ok (cache.target cwd c))
    (hget : t.get? (cache.target cwd c) = none) :
    Represents cache cwd (contents ++ [(c, bytes)])
      (t.put (cache.target cwd c) (.file bytes)) := by
  have hvacant : t.get? (cache.target cwd c) ≠ some .directory := by
    rw [hget]
    exact nofun
  have hnew := h.not_mem_of_vacant hget
  constructor
  · intro e he
    rcases List.mem_append.mp he with he | he
    · exact h.valid e he
    · rw [List.mem_singleton.mp he]
      exact hc
  · -- The coordinate is a new one, since nothing lies at its place.
    rw [List.map_append, List.map_singleton, List.nodup_append]
    refine ⟨h.nodup, List.nodup_singleton _, fun d hd d' hd' heq => hnew ?_⟩
    obtain rfl : d' = c := List.mem_singleton.mp hd'
    rw [← heq]
    exact hd
  · rw [Tree.files_put_file bytes hget, List.filter_append, h.files, List.map_append]
    simp [isPrefixOf_target cache cwd c]
  · intro e he
    rw [Files.locate_put_file bytes hvacant]
    rcases List.mem_append.mp he with he | he
    · obtain ⟨hlocate', hget'⟩ := h.found e he
      refine ⟨hlocate', ?_⟩
      rw [Tree.get?_put_of_ne, hget']
      intro heq
      exact hnew (target_injective heq ▸ List.mem_map_of_mem he)
    · rw [List.mem_singleton.mp he]
      exact ⟨hlocate, Tree.get?_put_self _ _ _ (Tree.get?_eq_none_iff.mp hget).1⟩

/-- A file of a coordinate that is removed takes the coordinate from the contents. -/
theorem of_erase (h : Represents cache cwd contents t) {bytes : ByteArray}
    (hget : t.get? (cache.target cwd c) = some (.file bytes)) :
    Represents cache cwd (contents.filter fun e => e.1 ≠ c) (t.erase (cache.target cwd c)) := by
  have hmono : ∀ q, t.get? q = some .directory →
      (t.erase (cache.target cwd c)).get? q = some .directory := by
    intro q hq
    rw [Tree.get?_erase_of_ne, hq]
    rintro rfl
    rw [hget] at hq
    cases hq
  constructor
  · exact fun e he => h.valid e (List.mem_of_mem_filter he)
  · exact h.nodup.sublist (List.filter_sublist.map _)
  · -- Removing the file and looking below the root only may be done in either order.
    have hcomm : ((t.files.filter fun f => f.1 ≠ cache.target cwd c).filter
        fun f => (placeOf cwd cache.root).isPrefixOf f.1) =
        (t.files.filter fun f => (placeOf cwd cache.root).isPrefixOf f.1).filter
          fun f => f.1 ≠ cache.target cwd c := by
      rw [List.filter_filter, List.filter_filter]
      exact List.filter_congr fun f _ => Bool.and_comm _ _
    rw [Tree.files_erase, hcomm, h.files, List.filter_map]
    congr 1
    refine List.filter_congr fun e _ => ?_
    simp only [Function.comp_apply, decide_eq_decide, not_iff_not]
    exact ⟨target_injective, fun heq => heq ▸ rfl⟩
  · intro e he
    rw [List.mem_filter, decide_eq_true_eq] at he
    obtain ⟨hlocate, hget'⟩ := h.found e he.1
    refine ⟨locate_mono hmono hlocate, ?_⟩
    rw [Tree.get?_erase_of_ne, hget']
    exact fun heq => he.2 (target_injective heq)

end Represents

/-! ## Answers -/

theorem holder_ne_empty (h : c.IsValid) : (cache.holder c).text ≠ "" := by
  have hversion := Coordinate.isFileName_of_isSegment h.version
  rw [holder, Path.joinAll_concat]
  exact Path.join_ne_empty _ hversion.isAbsolute hversion.ne_empty

/-- Bytes that are there already are kept. -/
theorem store_of_isFile {host : Host} (h : c.IsValid) (bytes : ByteArray)
    (hfile : host.isFile (cache.pathFor c) = true) :
    cache.store c bytes host = (.ok (cache.pathFor c), host) := by
  have hlocate := (isFile_iff.mp hfile).1
  rw [pathFor_eq_join h] at hlocate
  obtain ⟨hholder, hdirectory⟩ :=
    Files.locate_of_join h.isFileName_fileName.toIsName (holder_ne_empty h) hlocate
  have hmade : host.makeDirectories (cache.holder c) = (none, host) := by
    unfold Host.makeDirectories
    rw [Files.makeDirectories_of_locate hholder hdirectory]
    rfl
  have hstage := Files.stage_of_locate bytes hholder hdirectory
  obtain ⟨place, hplace⟩ : ∃ place, place =
      Files.stagingPlace host.files (placeOf host.cwd (cache.holder c)) := ⟨_, rfl⟩
  have hfree : host.files.get? place = none := hplace ▸ Files.get?_stagingPlace _ _
  have hne : placeOf host.cwd (cache.pathFor c) ≠ place := by
    rw [placeOf_pathFor h, hplace]
    exact target_ne_stagingPlace h host.files
  have hstaged : (host.withFiles (host.files.put place (.file bytes))).isFile (cache.pathFor c) =
      host.isFile (cache.pathFor c) :=
    Files.isFile_put_file bytes (by rw [hfree]; exact nofun) hne
  -- The staging file was put where nothing was, so discarding it gives back the host as it was.
  have hdiscard : (host.withFiles (host.files.put place (.file bytes))).discard place = host := by
    show host.withFiles ((host.files.put place (.file bytes)).erase place) = host
    rw [Tree.erase_put _ hfree]
    rfl
  rw [← hplace] at hstage
  unfold store
  simp only [parent?_pathFor h, Option.getD_some, hmade, Host.stage, hstage, Except.map, hstaged,
    hfile, if_true, hdiscard]

theorem lookup_eq {host : Host} (h : Represents cache host.cwd contents host.files)
    (hc : c.IsValid) : cache.lookup host c =
      if c ∈ contents.map (·.1) then some (cache.pathFor c) else none := by
  unfold lookup
  exact if_congr (h.isFile_iff_mem hc) rfl rfl

/-- A purge removes what is held and nothing else. -/
theorem purge_eq_removed_iff {host : Host} (h : Represents cache host.cwd contents host.files)
    (hc : c.IsValid) (deletions : Deletions) :
    (cache.purge c host deletions).1 = .removed ↔ c ∈ contents.map (·.1) := by
  rw [← h.isFile_iff_mem hc]
  change _ ↔ host.isFile (cache.pathFor c) = true
  cases hfile : host.isFile (cache.pathFor c) with
  | true =>
    rw [purge_of_isFile hc deletions hfile]
    exact iff_of_true rfl rfl
  | false =>
    rcases purge_of_not_isFile cache c deletions hfile with heq | heq <;> rw [heq] <;> simp

/-! ## Steps -/

theorem represents_store {host : Host} (h : Represents cache host.cwd contents host.files)
    (hc : c.IsValid) (bytes : ByteArray) :
    (cache.store c bytes host).2.cwd = host.cwd ∧
      Represents cache host.cwd
        (contents.note (.store c bytes, .stored (cache.store c bytes host).1))
        (cache.store c bytes host).2.files := by
  by_cases hmem : c ∈ contents.map (·.1)
  · rw [store_of_isFile hc bytes ((h.isFile_iff_mem hc).mpr hmem)]
    refine ⟨rfl, ?_⟩
    rw [Contents.note, if_pos hmem]
    exact h
  · -- Directories may be made before storing fails, and they change nothing that is held.
    have hgrown : Represents cache host.cwd contents (cache.prepared c host).files :=
      h.of_grows grows_prepared
    rcases store_cases hc cache bytes host with ⟨e, heq⟩ | ⟨heq, hfile⟩ | ⟨heq, hlocate, hget⟩
    · rw [heq]
      exact ⟨rfl, hgrown⟩
    · exact absurd ((hgrown.isFile_iff_mem hc).mp hfile) hmem
    · rw [heq]
      refine ⟨rfl, ?_⟩
      rw [Contents.note, if_neg hmem]
      exact hgrown.of_put hc bytes hlocate hget

theorem represents_purge {host : Host} (h : Represents cache host.cwd contents host.files)
    (hc : c.IsValid) (deletions : Deletions) :
    (cache.purge c host deletions).2.1.cwd = host.cwd ∧
      Represents cache host.cwd
        (contents.note (.purge c, .purged (cache.purge c host deletions).1))
        (cache.purge c host deletions).2.1.files := by
  cases hfile : host.isFile (cache.pathFor c) with
  | true =>
    obtain ⟨-, bytes, hget⟩ := isFile_iff.mp hfile
    rw [placeOf_pathFor hc] at hget
    rw [purge_of_isFile hc deletions hfile]
    exact ⟨rfl, h.of_erase hget⟩
  | false =>
    rcases purge_of_not_isFile cache c deletions hfile with heq | heq <;> rw [heq]
    · exact ⟨rfl, h⟩
    · exact ⟨rfl, h⟩

/-- An answer tells what became of the contents. -/
theorem represents_serve {j : Journal} {r : Request}
    (hr : ∀ c, r.coordinate? = some c → c.IsValid)
    (h : Represents cache cwd (held j.log) j.host.files ∧ j.host.cwd = cwd) :
    Represents cache cwd (held (serve cache j r).log) (serve cache j r).host.files ∧
      (serve cache j r).host.cwd = cwd := by
  obtain ⟨h, rfl⟩ := h
  cases r with
  | store c bytes =>
    simp only [serve, held_concat, answer]
    exact (represents_store h (hr c rfl) bytes).symm
  | purge c =>
    simp only [serve, held_concat, answer]
    exact (represents_purge h (hr c rfl) j.deletions).symm
  | lookup c =>
    simp only [serve, held_concat, answer]
    exact ⟨h, trivial⟩
  | entries =>
    simp only [serve, held_concat, answer]
    exact ⟨h, trivial⟩

/-- Requests for parsed coordinates. -/
def AreParsed (requests : List Request) : Prop :=
  ∀ r ∈ requests, ∀ c, r.coordinate? = some c → ∃ s, Coordinate.parse? s = some c

/-- A root at or below which there are no files. -/
def IsVacant (cache : Cache) (host : Host) : Prop :=
  ∀ f ∈ host.files.files, ¬ placeOf host.cwd cache.root <+: f.1

theorem represents_run {host : Host} (hvacant : cache.IsVacant host) {requests : List Request}
    (hparsed : AreParsed requests) (deletions : Deletions) :
    let j : Journal := runFrom cache.serve ⟨host, deletions, []⟩ requests
    Represents cache host.cwd (held j.log) j.host.files ∧ j.host.cwd = host.cwd := by
  have hstart : Represents cache host.cwd (held []) host.files := by
    refine ⟨nofun, List.nodup_nil, ?_, nofun⟩
    rw [held, List.foldl_nil, List.map_nil, List.filter_eq_nil_iff]
    intro f hf hprefix
    exact hvacant f hf (List.isPrefixOf_iff_prefix.mp hprefix)
  refine runFrom_keeps_of (fun _ r => r ∈ requests)
    (P := fun j : Journal =>
      Represents cache host.cwd (held j.log) j.host.files ∧ j.host.cwd = host.cwd)
    ⟨hstart, rfl⟩ (fun j r hr hj => represents_serve ?_ hj) requests fun past r hfollows => ?_
  · intro c hc
    obtain ⟨s, hs⟩ := hparsed r hr c hc
    exact Coordinate.isValid_of_parse? hs
  · exact hfollows.subset (List.mem_append_right past (List.mem_singleton_self r))

/-! ## Listings -/

/-- What a listing of contents holds, in no order. -/
def listing (cache : Cache) (contents : Contents) : List CachedArtifact :=
  contents.map fun e => ⟨cache.pathFor e.1, e.2.size⟩

/-- A list that shows contents: each artifact once, with its size, in the order of paths. -/
structure Lists (cache : Cache) (contents : Contents) (artifacts : List CachedArtifact) : Prop where
  perm : artifacts.Perm (cache.listing contents)
  nodup : (artifacts.map (·.path)).Nodup
  sorted : artifacts.Pairwise fun a b => a.path.le b.path = true

theorem pathFor_injective {c c' : Coordinate} (h : c.IsValid) (h' : c'.IsValid)
    (heq : cache.pathFor c = cache.pathFor c') : c = c' := by
  have hcomponents := congrArg Path.components heq
  rw [pathFor_eq h, pathFor_eq h', Path.components_joinAll _ fun n hn => h.isName_of_mem hn,
    Path.components_joinAll _ fun n hn => h'.isName_of_mem hn, List.append_cancel_left_eq,
    List.map_inj_right fun _ _ heq => (Path.Component.normal.inj heq)] at hcomponents
  exact Coordinate.names_injective hcomponents

theorem extension?_pathFor (h : c.IsValid) :
    (cache.pathFor c).extension? = some moduleExtension := by
  have hstem : c.artifact ++ "-" ++ c.version ≠ "" := by simp
  rw [pathFor_eq_join h, Path.extension?, Path.fileName?_join _ h.isFileName_fileName.toIsName,
    Option.bind_some, Coordinate.fileName, Path.splitName_append hstem (by decide)]

/-- The contents in the order of paths. -/
theorem lists_mergeSort (h : Represents cache cwd contents t) :
    Lists cache contents ((cache.listing contents).mergeSort fun a b => a.path.le b.path) := by
  have hperm := List.mergeSort_perm (cache.listing contents) fun a b => a.path.le b.path
  refine ⟨hperm, ?_, ?_⟩
  · have hpaths : (cache.listing contents).map (·.path) =
        (contents.map (·.1)).map cache.pathFor := by
      rw [listing, List.map_map, List.map_map]
      rfl
    rw [(hperm.map _).nodup_iff, hpaths]
    refine h.nodup.map_on fun c hc c' hc' heq => ?_
    obtain ⟨e, he, rfl⟩ := List.mem_map.mp hc
    obtain ⟨e', he', rfl⟩ := List.mem_map.mp hc'
    exact pathFor_injective (h.valid e he) (h.valid e' he') heq
  · have htotal : ∀ a b : CachedArtifact, (a.path.le b.path || b.path.le a.path) = true := by
      intro a b
      rw [Bool.or_eq_true]
      exact Path.le_total a.path b.path
    exact @List.pairwise_mergeSort CachedArtifact (fun a b => a.path.le b.path)
      (fun a b c hab hbc => Path.le_trans hab hbc) htotal (cache.listing contents)

/-- The files below a root that leads somewhere are those of the contents. -/
theorem found_eq {host : Host} (h : Represents cache host.cwd contents host.files)
    {e : Files.Entry} (hroot : Files.entry host.files host.cwd cache.root =
      .ok (placeOf host.cwd cache.root, e)) :
    (host.filesBelow cache.root).filterMap (fun (p, size) =>
      if p.extension? = some moduleExtension then some (CachedArtifact.mk p size) else none) =
      cache.listing contents := by
  have hbelow : host.filesBelow cache.root =
      contents.map fun e => (cache.pathFor e.1, e.2.size) := by
    unfold Host.filesBelow
    rw [hroot]
    simp only [Tree.filesBelow_eq, h.files, List.map_map]
    refine List.map_congr_left fun e he => ?_
    simp [target, pathFor_eq (h.valid e he)]
  rw [hbelow, List.filterMap_map, listing, ← List.filterMap_eq_map]
  refine List.filterMap_congr fun e he => ?_
  simp [extension?_pathFor (h.valid e he)]

/-- What a listing comes to. -/
theorem entries_eq {host : Host} (h : Represents cache host.cwd contents host.files) :
    cache.entries host = if cache.root.text = "" then []
      else (cache.listing contents).mergeSort fun a b => a.path.le b.path := by
  have hnothing : ∀ e, Files.entry host.files host.cwd cache.root = .error e →
      cache.entries host = [] := by
    intro e hentry
    unfold entries Host.filesBelow
    simp [hentry]
  split
  · rename_i hempty
    refine hnothing .missing ?_
    rw [Files.entry, Files.locate, if_pos hempty]
    rfl
  · rename_i hne
    cases hentry : Files.entry host.files host.cwd cache.root with
    | error e =>
      -- Nothing can be held below a root that is not there.
      have hcontents : contents = [] := by
        refine List.eq_nil_iff_forall_not_mem.mpr fun held hmem => ?_
        have hvalid := h.valid held hmem
        have hlocate := (h.found held hmem).1
        rw [pathFor_eq hvalid] at hlocate
        have hroot := Files.locate_of_joinAll held.1.names_ne_nil
          (fun n hn => hvalid.isName_of_mem hn) hne hlocate
        rw [Files.entry_eq_ok.mpr hroot] at hentry
        cases hentry
      rw [hnothing e hentry, hcontents]
      simp [listing]
    | ok found =>
      obtain ⟨q, e⟩ := found
      have hq : q = placeOf host.cwd cache.root :=
        Files.eq_placeOf_of_locate (Files.entry_eq_ok.mp hentry).1
      rw [hq] at hentry
      unfold entries
      rw [found_eq h hentry]

/-! ## Main statement -/

/-- A host whose cache behaves like the map that contents are. -/
structure Mirrors (cache : Cache) (contents : Contents) (host : Host) : Prop where
  lookup : ∀ s c, Coordinate.parse? s = some c → cache.lookup host c =
    if c ∈ contents.map (·.1) then some (cache.pathFor c) else none
  read : ∀ e ∈ contents, host.read (cache.pathFor e.1) = .ok e.2
  store : ∀ e ∈ contents, ∀ bytes, cache.store e.1 bytes host = (.ok (cache.pathFor e.1), host)
  purge : ∀ s c, Coordinate.parse? s = some c → ∀ deletions,
    ((cache.purge c host deletions).1 = .removed ↔ c ∈ contents.map (·.1))
  files : ∀ f ∈ host.files.files, placeOf host.cwd cache.root <+: f.1 →
    ∃ e ∈ contents, f = (cache.target host.cwd e.1, e.2)

theorem mirrors_of_represents {host : Host}
    (h : Represents cache host.cwd contents host.files) : Mirrors cache contents host where
  lookup _ _ hparse := lookup_eq h (Coordinate.isValid_of_parse? hparse)
  read e he := by
    obtain ⟨hlocate, hget⟩ := h.found e he
    refine Files.read_eq_ok.mpr ?_
    rw [placeOf_pathFor (h.valid e he)]
    exact ⟨hlocate, hget⟩
  store e he bytes := store_of_isFile (h.valid e he) bytes
    ((h.isFile_iff_mem (h.valid e he)).mpr (List.mem_map_of_mem he))
  purge _ _ hparse := purge_eq_removed_iff h (Coordinate.isValid_of_parse? hparse)
  files f hf hprefix := by
    have hmem : f ∈ contents.map fun e => (cache.target host.cwd e.1, e.2) := by
      rw [← h.files, List.mem_filter]
      exact ⟨hf, List.isPrefixOf_iff_prefix.mpr hprefix⟩
    obtain ⟨e, he, rfl⟩ := List.mem_map.mp hmem
    exact ⟨e, he, rfl⟩

/-- After any requests for parsed coordinates a cache whose root was vacant is the map that its
answers determine, and lists it exactly if the path of the root is not empty or nothing is held. -/
theorem mirrors_iff (cache : Cache) (host : Host) (deletions : Deletions)
    (requests : List Request) (hvacant : cache.IsVacant host) (hparsed : AreParsed requests) :
    let j : Journal := runFrom cache.serve ⟨host, deletions, []⟩ requests
    Mirrors cache (held j.log) j.host ∧
      (Lists cache (held j.log) (cache.entries j.host) ↔
        cache.root.text ≠ "" ∨ held j.log = []) := by
  intro j
  obtain ⟨hrepresents, hcwd⟩ := represents_run hvacant hparsed deletions
  rw [← hcwd] at hrepresents
  refine ⟨mirrors_of_represents hrepresents, ?_⟩
  rw [entries_eq hrepresents]
  split
  · rename_i hempty
    constructor
    · intro hlists
      right
      have hlength := hlists.perm.length_eq
      rw [listing, List.length_map, List.length_nil] at hlength
      exact List.length_eq_zero_iff.mp hlength.symm
    · rintro (hne | hnil)
      · exact absurd hempty hne
      · rw [hnil]
        exact ⟨.nil, List.nodup_nil, .nil⟩
  · rename_i hne
    exact iff_of_true (lists_mergeSort hrepresents) (.inl hne)

/-- A host with an empty working directory. -/
def emptyHost : Host := ⟨⟨[(["w"], .directory)]⟩, ["w"], [], []⟩

/-- An artifact in whose file another one would have to lie. -/
def outer : Coordinate := ⟨"a", "b", "1"⟩

/-- An artifact whose directory is called like the file of another one. -/
def inner : Coordinate := ⟨"a.b.1", "b-1.rhai", "2"⟩

theorem isVacant_emptyHost (cache : Cache) : cache.IsVacant emptyHost := by
  intro f hf
  simp [emptyHost, Tree.files] at hf

/-- Of two artifacts that are in each other's way the first one is held, with its first bytes. -/
theorem mirrors_with_overlap :
    let cache : Cache := ⟨⟨"r"⟩⟩
    let requests : List Request :=
      [.store outer ⟨#[1]⟩, .store inner ⟨#[2]⟩, .store outer ⟨#[3, 4]⟩, .purge inner, .entries]
    let j : Journal := runFrom cache.serve ⟨emptyHost, .none, []⟩ requests
    (cache.IsVacant emptyHost ∧ AreParsed requests) ∧ held j.log = [(outer, ⟨#[1]⟩)] ∧
      Mirrors cache (held j.log) j.host ∧ Lists cache (held j.log) (cache.entries j.host) := by
  intro cache requests j
  have hvacant := isVacant_emptyHost cache
  have houter : Coordinate.parse? "a:b:1" = some outer := by decide
  have hinner : Coordinate.parse? "a.b.1:b-1.rhai:2" = some inner := by decide
  have hparsed : AreParsed requests := by
    intro r hr c hc
    simp only [requests, List.mem_cons, List.not_mem_nil, or_false] at hr
    rcases hr with rfl | rfl | rfl | rfl | rfl <;> cases hc
    · exact ⟨_, houter⟩
    · exact ⟨_, hinner⟩
    · exact ⟨_, houter⟩
    · exact ⟨_, hinner⟩
  obtain ⟨hmirrors, hlists⟩ := mirrors_iff cache emptyHost .none requests hvacant hparsed
  exact ⟨⟨hvacant, hparsed⟩, by decide +kernel, hmirrors, hlists.mpr (.inl (by decide))⟩

/-- Below a root whose path is empty an artifact is stored and found, and not listed. -/
theorem unlisted_below_empty_root :
    let cache : Cache := ⟨⟨""⟩⟩
    let j : Journal := runFrom cache.serve ⟨emptyHost, .none, []⟩ [.store outer ⟨#[1]⟩]
    Coordinate.parse? "a:b:1" = some outer ∧ cache.IsVacant emptyHost ∧
      held j.log = [(outer, ⟨#[1]⟩)] ∧
      cache.lookup j.host outer = some ⟨"a/b/1/b-1.rhai"⟩ ∧
      cache.entries j.host = [] ∧ ¬ Lists cache (held j.log) (cache.entries j.host) := by
  intro cache j
  have hheld : held j.log = [(outer, ⟨#[1]⟩)] := by decide +kernel
  have hentries : cache.entries j.host = [] := by decide +kernel
  refine ⟨by decide, isVacant_emptyHost cache, hheld, by decide +kernel, hentries, fun hlists => ?_⟩
  have hlength := hlists.perm.length_eq
  rw [hheld, hentries] at hlength
  cases hlength

end Cache
end Artifact
end ScriptSession
