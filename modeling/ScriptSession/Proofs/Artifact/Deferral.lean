import ScriptSession.Proofs.Artifact.Storing
import ScriptSession.Proofs.Concurrency.Runs

/-!
# Deferred deletions

A purge that cannot delete remembers a path, and the end of the program deletes what lies at the
paths that are remembered then. Between the two, what was in the way may have gone and the artifact
may have been stored again. Such an artifact ought to be spared (`State.Spares`).

A path is remembered until the next run of deferred deletions, whatever happens at it. So a run
removes the files that the purges deferred since the run before lead to, all of them and no others.
Main statement: it spares what it ought to exactly if no such purge leads to an artifact that was
purged or stored later (`spares_iff`).

Caches of any roots and coordinates of any texts are used side by side, and others change the files
as they like, so several paths may lead to one artifact. It is told from others by its place.
-/

namespace ScriptSession
namespace Artifact
namespace Deletions

open Concurrency (runFrom runFrom_concat)
open Files (Place Tree isFile_iff placeOf)

/-! ## What happens -/

/-- Something that happens to caches, to what is remembered, or to the files. -/
inductive Event where
  | store (cache : Cache) (c : Coordinate) (bytes : ByteArray)
  | purge (cache : Cache) (c : Coordinate)
  | others (files : Tree)
  | run

/-- What an event says about an artifact: that it was stored where none was, what its purge came to,
or that deletions were run. -/
inductive Note where
  | stored (cache : Cache) (c : Coordinate)
  | purged (cache : Cache) (c : Coordinate) (outcome : PurgeOutcome)
  | ran
deriving DecidableEq

/-- A host, what is remembered, and the notes so far. -/
structure State where
  host : Host
  deletions : Deletions
  log : List Note

/-- No file lies where a path leads. -/
def lacksFile (host : Host) (p : Path) : Bool :=
  match host.files.get? (placeOf host.cwd p) with
  | some (.file _) => false
  | _ => true

namespace State

/-- A host before anything was remembered. -/
def start (host : Host) : State := ⟨host, .none, []⟩

/-- The state after an event. -/
def step (s : State) : Event → State
  | .store cache c bytes =>
    let stored := cache.store c bytes s.host
    let isFresh := stored.1.isOk && lacksFile s.host (cache.pathFor c)
    { s with host := stored.2, log := s.log ++ if isFresh then [.stored cache c] else [] }
  | .purge cache c =>
    let purged := cache.purge c s.host s.deletions
    ⟨purged.2.1, purged.2.2, s.log ++ [.purged cache c purged.1]⟩
  | .others files => { s with host := s.host.withFiles files }
  | .run =>
    let ran := s.deletions.run s.host
    ⟨ran.2.2, ran.2.1, s.log ++ [.ran]⟩

/-- The state after events. -/
def after (host : Host) (events : List Event) : State := runFrom step (start host) events

end State

/-! ## What is expected -/

/-- A note is about the artifact at a place. -/
def Note.concerns (cwd q : Place) : Note → Bool
  | .stored cache c | .purged cache c _ => placeOf cwd (cache.pathFor c) = q
  | .ran => false

/-- The artifacts whose purges were deferred since deletions were last run. -/
def pending (log : List Note) : List (Cache × Coordinate) :=
  log.foldl (fun deferred note =>
    match note with
    | .purged cache c .deferred => deferred ++ [(cache, c)]
    | .ran => []
    | _ => deferred) []

namespace State

/-- The place of an artifact. -/
def place (s : State) (cache : Cache) (c : Coordinate) : Place :=
  placeOf s.host.cwd (cache.pathFor c)

/-- The deletion of an artifact is owed: its last purge was deferred, and it was not stored again
since. -/
def Owes (s : State) (q : Place) : Prop :=
  ∃ cache c, (s.log.filter (·.concerns s.host.cwd q)).getLast? = some (.purged cache c .deferred)

/-- A run of deferred deletions would leave an artifact alone whose deletion is not owed. -/
def Spares (s : State) : Prop :=
  ∀ cache c bytes, s.host.read (cache.pathFor c) = .ok bytes → ¬ s.Owes (s.place cache c) →
    cache.lookup (s.step .run).host c = some (cache.pathFor c) ∧
      (s.step .run).host.read (cache.pathFor c) = .ok bytes

/-- A purge that was deferred since deletions were last run leads to the file at a place. -/
def Reaches (s : State) (q : Place) : Prop :=
  ∃ e ∈ pending s.log, s.host.isFile (e.1.pathFor e.2) = true ∧ s.place e.1 e.2 = q

end State

/-! ## Running -/

/-- A host after an attempt to delete a path. -/
def without (host : Host) (p : Path) : Host :=
  if host.isFile p then host.withFiles (host.files.erase (placeOf host.cwd p)) else host

theorem removeAll_cons (host : Host) (p : Path) (rest : List Path) :
    removeAll host (p :: rest) =
      ((removeAll (without host p) rest).1 + if host.isFile p then 1 else 0,
        (removeAll (without host p) rest).2) := by
  rw [removeAll, Host.removeFile, without]
  cases hfile : host.isFile p with
  | true =>
    rw [Files.removeFile_of_isFile hfile]
    rfl
  | false =>
    obtain ⟨e, hremove⟩ := Files.removeFile_of_not_isFile hfile
    rw [hremove]
    rfl

theorem cwd_without (host : Host) (p : Path) : (without host p).cwd = host.cwd := by
  rw [without]
  split <;> rfl

theorem get?_without (host : Host) (p : Path) (q : Place) :
    (without host p).files.get? q =
      if host.isFile p = true ∧ placeOf host.cwd p = q then .none else host.files.get? q := by
  rw [without]
  split
  · rename_i hfile
    obtain ⟨-, content, hget⟩ := isFile_iff.mp hfile
    by_cases hq : placeOf host.cwd p = q
    · subst hq
      have hne : placeOf host.cwd p ≠ [] := by
        intro hroot
        rw [hroot, Tree.get?_root] at hget
        cases hget
      rw [if_pos ⟨hfile, rfl⟩]
      exact Tree.get?_erase_self _ hne
    · rw [if_neg fun h => hq h.2]
      exact Tree.get?_erase_of_ne _ (Ne.symm hq)
  · rename_i hfile
    rw [if_neg fun h => hfile h.1]

theorem isFile_without {host : Host} {p p' : Path} :
    (without host p).isFile p' = true ↔ host.isFile p' = true ∧
      ¬ (host.isFile p = true ∧ placeOf host.cwd p = placeOf host.cwd p') := by
  rw [without]
  split
  · rename_i hfile
    obtain ⟨-, content, hget⟩ := isFile_iff.mp hfile
    refine (Files.isFile_erase hget).trans (and_congr_right fun _ => ?_)
    rw [Host.cwd_withFiles, and_iff_right hfile, ne_comm]
  · rename_i hfile
    exact (and_iff_left fun h => hfile h.1).symm

/-- A run removes the files that the paths lead to, and changes nothing else. -/
theorem removeAll_spec (host : Host) (paths : List Path) :
    (removeAll host paths).2.cwd = host.cwd ∧
      ∀ q, (removeAll host paths).2.files.get? q =
        if ∃ p ∈ paths, host.isFile p = true ∧ placeOf host.cwd p = q then .none
        else host.files.get? q := by
  induction paths generalizing host with
  | nil => exact ⟨rfl, fun q => (if_neg fun ⟨p, hp, _⟩ => nomatch hp).symm⟩
  | cons p rest ih =>
    rw [removeAll_cons]
    dsimp only
    refine ⟨(ih _).1.trans (cwd_without host p), fun q => ?_⟩
    rw [(ih _).2 q, get?_without, cwd_without]
    -- Either the first path leads to the place, or it is still to be seen whether another one does.
    by_cases hq : host.isFile p = true ∧ placeOf host.cwd p = q
    · rw [if_pos hq, ite_self, if_pos ⟨p, List.mem_cons_self, hq⟩]
    · rw [if_neg hq]
      refine if_congr ⟨?_, ?_⟩ rfl rfl
      · rintro ⟨p', hp', hfile', hplace⟩
        exact ⟨p', List.mem_cons_of_mem p hp', (isFile_without.mp hfile').1, hplace⟩
      · rintro ⟨p', hp', hfile', rfl⟩
        obtain rfl | hrest := List.mem_cons.mp hp'
        · exact absurd ⟨hfile', rfl⟩ hq
        · exact ⟨p', hrest, isFile_without.mpr ⟨hfile', hq⟩, rfl⟩

/-! ## What is remembered -/

theorem mem_paths_defer_of_mem {d : Deletions} {q : Path} (p : Path) (h : q ∈ d.paths) :
    q ∈ (d.defer p).paths := by
  rw [defer]
  split
  · exact h
  · exact List.mem_append_left _ h

/-- A path that is remembered may be spelled in the way in which it was remembered first. -/
theorem exists_same_defer (d : Deletions) (p : Path) :
    ∃ q ∈ (d.defer p).paths, q.same p = true := by
  rw [defer]
  split
  · rename_i hany
    exact List.any_eq_true.mp hany
  · exact ⟨p, List.mem_append_right _ (List.mem_singleton_self p), Path.same_refl p⟩

theorem pending_concat (log : List Note) (note : Note) :
    pending (log ++ [note]) =
      match note with
      | .purged cache c .deferred => pending log ++ [(cache, c)]
      | .ran => []
      | _ => pending log := by
  rw [pending, List.foldl_concat]
  rfl

namespace State

/-- What is remembered are the paths of the purges that were deferred since the last run, each in
some spelling. -/
structure Remembers (s : State) : Prop where
  isPending : ∀ p ∈ s.deletions.paths, ∃ e ∈ pending s.log, e.1.pathFor e.2 = p
  isKept : ∀ e ∈ pending s.log, ∃ p ∈ s.deletions.paths, p.same (e.1.pathFor e.2) = true

theorem remembers_step (s : State) (e : Event) (h : s.Remembers) : (s.step e).Remembers := by
  cases e with
  | others files => exact ⟨h.isPending, h.isKept⟩
  | run => exact ⟨nofun, by simp [step, pending_concat]⟩
  | store cache c bytes =>
    have hpending : pending (s.step (.store cache c bytes)).log = pending s.log := by
      simp only [step]
      split
      · exact pending_concat _ _
      · rw [List.append_nil]
    refine ⟨?_, ?_⟩ <;> rw [hpending]
    · exact h.isPending
    · exact h.isKept
  | purge cache c =>
    have hdeletions := cache.deletions_purge c s.host s.deletions
    have hpending := pending_concat s.log (.purged cache c (cache.purge c s.host s.deletions).1)
    -- What is remembered depends on the outcome only, which is also what is noted.
    obtain ⟨outcome, houtcome⟩ :
        ∃ outcome, outcome = (cache.purge c s.host s.deletions).1 := ⟨_, rfl⟩
    rw [← houtcome] at hdeletions hpending
    suffices h : Remembers ⟨(cache.purge c s.host s.deletions).2.1,
        (cache.purge c s.host s.deletions).2.2, s.log ++ [.purged cache c outcome]⟩ by
      rw [houtcome] at h
      exact h
    rw [hdeletions]
    cases outcome with
    | removed | notCached =>
      rw [if_neg (by decide)]
      exact ⟨by simpa only [hpending] using h.isPending, by simpa only [hpending] using h.isKept⟩
    | deferred =>
      rw [if_pos rfl]
      constructor
      · intro p hp
        simp only [hpending, List.mem_append, List.mem_singleton]
        obtain hold | rfl := mem_paths_defer hp
        · obtain ⟨e, he, hpath⟩ := h.isPending p hold
          exact ⟨e, .inl he, hpath⟩
        · exact ⟨(cache, c), .inr rfl, rfl⟩
      · intro e he
        simp only [hpending, List.mem_append, List.mem_singleton] at he
        obtain hold | rfl := he
        · obtain ⟨p, hp, hsame⟩ := h.isKept e hold
          exact ⟨p, mem_paths_defer_of_mem _ hp, hsame⟩
        · exact exists_same_defer s.deletions (cache.pathFor c)

theorem remembers_after (host : Host) (events : List Event) : (after host events).Remembers :=
  Concurrency.runFrom_keeps (P := Remembers)
    ⟨by simp [start, Deletions.none], by simp [start, pending]⟩ remembers_step events

/-! ## What a run removes -/

variable {s : State} {cache : Cache} {c : Coordinate} {bytes : ByteArray}

/-- However a path is spelled that is remembered, it leads where the purge that was deferred did. -/
theorem Remembers.reaches_iff (h : s.Remembers) (q : Place) :
    (∃ p ∈ s.deletions.paths, s.host.isFile p = true ∧ placeOf s.host.cwd p = q) ↔ s.Reaches q := by
  constructor
  · rintro ⟨p, hp, hfile, rfl⟩
    obtain ⟨e, he, rfl⟩ := h.isPending p hp
    exact ⟨e, he, hfile, rfl⟩
  · rintro ⟨e, he, hfile, rfl⟩
    obtain ⟨p, hp, hsame⟩ := h.isKept e he
    obtain ⟨e', -, rfl⟩ := h.isPending p hp
    obtain ⟨hfile', hplace⟩ := Files.isFile_of_same ((Path.same_comm _ _).trans hsame)
      (Cache.endsInName_pathFor _ _).endsInStep (Cache.endsInName_pathFor _ _).endsInStep hfile
    exact ⟨_, hp, hfile', hplace⟩

theorem cwd_step (s : State) (e : Event) : (s.step e).host.cwd = s.host.cwd := by
  cases e with
  | others files => rfl
  | run => exact (removeAll_spec s.host s.deletions.paths).1
  | store cache c bytes => rw [step, cache.cwd_store c bytes s.host]
  | purge cache c => rw [step, cache.cwd_purge c s.host s.deletions]

/-- An artifact has one place, whatever happens. -/
theorem place_step (s : State) (e : Event) (cache : Cache) (c : Coordinate) :
    (s.step e).place cache c = s.place cache c := by rw [place, cwd_step, place]

/-- A run removes the files that the deferred purges lead to, and changes nothing else. -/
theorem Remembers.get?_run (h : s.Remembers) (q : Place) [Decidable (s.Reaches q)] :
    (s.step .run).host.files.get? q = if s.Reaches q then .none else s.host.files.get? q := by
  rw [← if_congr (h.reaches_iff q) rfl rfl]
  exact (removeAll_spec s.host s.deletions.paths).2 q

/-- What a deferred purge leads to is a file. -/
theorem Reaches.isFile {q : Place} (h : s.Reaches q) :
    ∃ content, s.host.files.get? q = some (.file content) := by
  obtain ⟨e, -, hfile, rfl⟩ := h
  exact (isFile_iff.mp hfile).2

/-- An artifact is gone after a run if a deferred purge leads to it, and only then. -/
theorem Remembers.run_spec (h : s.Remembers) (hread : s.host.read (cache.pathFor c) = .ok bytes) :
    (s.Reaches (s.place cache c) → cache.lookup (s.step .run).host c = .none) ∧
      (¬ s.Reaches (s.place cache c) →
        cache.lookup (s.step .run).host c = some (cache.pathFor c) ∧
          (s.step .run).host.read (cache.pathFor c) = .ok bytes) := by
  classical
  obtain ⟨hlocate, hget⟩ := Files.read_eq_ok.mp hread
  have hplace : placeOf (s.step .run).host.cwd (cache.pathFor c) = s.place cache c :=
    s.place_step .run cache c
  constructor
  · intro hreaches
    rw [Cache.lookup, if_neg]
    intro hfile
    obtain ⟨-, content, hcontent⟩ := isFile_iff.mp hfile
    rw [hplace, h.get?_run, if_pos hreaches] at hcontent
    cases hcontent
  · intro hreaches
    -- Directories stay where they are, so the way to the artifact does.
    have hdirectory : ∀ q, s.host.files.get? q = some .directory →
        (s.step .run).host.files.get? q = some .directory := by
      intro q hq
      rw [h.get?_run, if_neg, hq]
      intro hq'
      obtain ⟨content, hcontent⟩ := hq'.isFile
      rw [hq] at hcontent
      cases hcontent
    have hread' : (s.step .run).host.read (cache.pathFor c) = .ok bytes := by
      refine Files.read_eq_ok.mpr ⟨?_, ?_⟩
      · rw [s.cwd_step]
        exact Files.locate_mono hdirectory hlocate
      · rw [hplace, h.get?_run, if_neg hreaches]
        exact hget
    exact ⟨if_pos (Host.isFile_iff_read.mpr ⟨bytes, hread'⟩), hread'⟩

/-! ## Sparing -/

/-- A store that succeeds where no file was leaves its bytes. -/
theorem read_store_of_lacksFile {host : Host} (hok : (cache.store c bytes host).1.isOk = true)
    (hfresh : lacksFile host (cache.pathFor c) = true) :
    (cache.store c bytes host).2.read (cache.pathFor c) = .ok bytes := by
  obtain ⟨e, heq⟩ | ⟨heq, hfile⟩ | ⟨heq, hlocate, hnone⟩ := cache.store_outcome c bytes host
  · rw [heq] at hok
    cases hok
  · -- Directories were made, and none of them is the file that was found.
    obtain ⟨-, content, hcontent⟩ := isFile_iff.mp hfile
    rw [Cache.cwd_shelved] at hcontent
    rw [lacksFile] at hfresh
    obtain hget | ⟨-, hget⟩ := Cache.grows_shelved.get? (placeOf host.cwd (cache.pathFor c)) <;>
      rw [hcontent] at hget
    · rw [← hget] at hfresh
      cases hfresh
    · cases hget
  · rw [heq, Host.read, Host.cwd_withFiles, Host.files_withFiles, Cache.cwd_shelved,
      Files.read_eq_ok]
    exact ⟨(Tree.Retains.put _ hnone).locate hlocate,
      Tree.get?_put_self _ _ _ (Tree.get?_eq_none_iff.mp hnone).1⟩

/-- A store that succeeds where no file was leaves its bytes and owes no deletion. -/
theorem read_of_fresh (s : State) (hok : (cache.store c bytes s.host).1.isOk = true)
    (hfresh : lacksFile s.host (cache.pathFor c) = true) :
    (s.step (.store cache c bytes)).host.read (cache.pathFor c) = .ok bytes ∧
      ¬ (s.step (.store cache c bytes)).Owes (s.place cache c) := by
  have hhost : (s.step (.store cache c bytes)).host = (cache.store c bytes s.host).2 := by
    simp only [step]
  constructor
  · rw [hhost]
    exact read_store_of_lacksFile hok hfresh
  · rintro ⟨cache', c', hlast⟩
    have hlog : (s.step (.store cache c bytes)).log = s.log ++ [.stored cache c] := by
      simp only [step, hok, hfresh, Bool.and_self, if_true]
    rw [cwd_step, hlog, List.filter_append] at hlast
    simp [Note.concerns, place] at hlast

/-- Deferred deletions spare what they ought to exactly if every deferred purge that leads to a
file leads to one whose deletion is still owed. -/
theorem Remembers.spares_iff_owes (h : s.Remembers) :
    s.Spares ↔ ∀ e ∈ pending s.log, s.host.isFile (e.1.pathFor e.2) = true →
      s.Owes (s.place e.1 e.2) := by
  constructor
  · intro hspares e he hfile
    by_contra howes
    obtain ⟨content, hread⟩ := Host.isFile_iff_read.mp hfile
    have hfound := (hspares e.1 e.2 content hread howes).1
    rw [(h.run_spec hread).1 ⟨e, he, hfile, rfl⟩] at hfound
    cases hfound
  · intro howed cache c bytes hread howes
    refine (h.run_spec hread).2 ?_
    rintro ⟨e, he, hfile, hplace⟩
    exact howes (hplace ▸ howed e he hfile)

end State

/-- Whatever happened, a store that succeeds where no file was leaves its bytes and owes no
deletion, and an artifact is gone after a run exactly if a purge deferred since the run before leads
to it. So deferred deletions spare every artifact whose deletion is not owed exactly if each such
purge that leads to a file leads to one that was neither purged nor stored later. -/
theorem spares_iff (host : Host) (past : List Event) :
    let s := State.after host past
    (∀ cache c bytes, ((cache.store c bytes s.host).1.isOk &&
        lacksFile s.host (cache.pathFor c)) = true →
      (s.step (.store cache c bytes)).host.read (cache.pathFor c) = .ok bytes ∧
        ¬ (s.step (.store cache c bytes)).Owes (s.place cache c)) ∧
    (∀ cache c bytes, s.host.read (cache.pathFor c) = .ok bytes →
      (s.Reaches (s.place cache c) → cache.lookup (s.step .run).host c = .none) ∧
      (¬ s.Reaches (s.place cache c) →
        cache.lookup (s.step .run).host c = some (cache.pathFor c) ∧
          (s.step .run).host.read (cache.pathFor c) = .ok bytes)) ∧
    (s.Spares ↔ ∀ e ∈ pending s.log, s.host.isFile (e.1.pathFor e.2) = true →
      s.Owes (s.place e.1 e.2)) := by
  intro s
  have hremembers : s.Remembers := State.remembers_after host past
  refine ⟨fun cache c bytes hstored => ?_, fun cache c bytes => hremembers.run_spec,
    hremembers.spares_iff_owes⟩
  rw [Bool.and_eq_true] at hstored
  exact s.read_of_fresh hstored.1 hstored.2

/-- The place of the artifact `a:b:1` below `cache`, seen from the working directory `w`. -/
def shelvedPlace : Place := ["w", "cache", "a", "b", "1", "b-1.rhai"]

/-- The directories on the way to that place, and what is at it. -/
def filesAround (found : Option Files.Entry) : Tree :=
  ⟨[["w"], ["w", "cache"], ["w", "cache", "a"], ["w", "cache", "a", "b"],
      ["w", "cache", "a", "b", "1"]].map (·, .directory) ++
    (found.map fun e => (shelvedPlace, e)).toList⟩

/-- An artifact whose deletion is owed is deleted, and one that was stored beside it is spared. -/
theorem spared_beside_owed :
    let cache : Cache := ⟨⟨"cache"⟩⟩
    let c : Coordinate := ⟨"a", "b", "1"⟩
    let c' : Coordinate := ⟨"a", "b", "2"⟩
    let past := [.others (filesAround (some .directory)), .purge cache c,
      .others (filesAround (some (.file ⟨#[1]⟩))), .store cache c' ⟨#[2]⟩]
    let s := State.after (Host.empty ["w"]) past
    s.log = [.purged cache c .deferred, .stored cache c'] ∧ s.Spares ∧
      cache.lookup (s.step .run).host c = .none ∧
      cache.lookup (s.step .run).host c' = some (cache.pathFor c') := by
  intro cache c c' past s
  have hlog : s.log = [.purged cache c .deferred, .stored cache c'] := by decide +kernel
  have hpending : pending s.log = [(cache, c)] := by
    rw [hlog]
    rfl
  have hspares := (spares_iff (Host.empty ["w"]) past).2.2
  refine ⟨hlog, hspares.mpr fun e he _ => ?_, by decide +kernel, by decide +kernel⟩
  obtain rfl := List.mem_singleton.mp (hpending ▸ he)
  exact ⟨cache, c, by decide +kernel⟩

/-- An artifact that was stored after its purge was deferred is deleted all the same. -/
theorem removed_after_store :
    let cache : Cache := ⟨⟨"cache"⟩⟩
    let c : Coordinate := ⟨"a", "b", "1"⟩
    let s := State.after (Host.empty ["w"]) [.others (filesAround (some .directory)),
      .purge cache c, .others (filesAround .none), .store cache c ⟨#[1]⟩]
    s.log = [.purged cache c .deferred, .stored cache c] ∧
      s.host.read (cache.pathFor c) = .ok ⟨#[1]⟩ ∧
      cache.lookup (s.step .run).host c = .none ∧ ¬ s.Spares := by
  intro cache c s
  have hlog : s.log = [.purged cache c .deferred, .stored cache c] := by decide +kernel
  have hread : s.host.read (cache.pathFor c) = .ok ⟨#[1]⟩ := by decide +kernel
  have hgone : cache.lookup (s.step .run).host c = .none := by decide +kernel
  refine ⟨hlog, hread, hgone, fun hspares => ?_⟩
  have howes : ¬ s.Owes (s.place cache c) := by
    rintro ⟨cache', c', hlast⟩
    have hlast' : (s.log.filter (·.concerns s.host.cwd (s.place cache c))).getLast? =
        some (.stored cache c) := by
      decide +kernel
    rw [hlast'] at hlast
    cases hlast
  have hfound := (hspares cache c _ hread howes).1
  rw [hgone] at hfound
  cases hfound

end Deletions
end Artifact
end ScriptSession
