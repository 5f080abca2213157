import Mathlib.Algebra.GroupWithZero.Nat
import Mathlib.Data.List.Dedup
import ScriptSession.Proofs.Artifact.Deferral

/-!
# Deletions that fail again

A path is remembered because what is there could not be deleted, and it ought to be remembered until
nothing is there any more, so that the next run of deletions tries it again. But a run forgets all
paths before it tries the first one, and what resists it stays. So nothing that resists a run is
tried by another one, and what ought to be holds as long as no run comes on anything that resists it
(`forgets_iff`). What a run counts is right in any case: its counts are the files it removed.

Between the calls others change the files as they like, so any path may resist any run.
-/

namespace ScriptSession
namespace Artifact
namespace Deletions

open Concurrency (Follows noted noted_concat runFrom runFrom_concat)
open Files (Place Tree isFile_iff locate_mono pathExists_iff placeOf)

/-! ## Files that are gone -/

/-- The places that held a file and hold nothing any more. -/
def filesGone (host host' : Host) : List Place :=
  (host.files.entries.map (·.1)).dedup.filter fun q =>
    match host.files.get? q with
    | some (.file _) => (host'.files.get? q).isNone
    | _ => false

variable {host host' : Host} {p : Path}

theorem mem_filesGone {q : Place} :
    q ∈ filesGone host host' ↔
      (∃ content, host.files.get? q = some (.file content)) ∧ host'.files.get? q = .none := by
  rw [filesGone, List.mem_filter, List.mem_dedup, List.mem_map]
  constructor
  · rintro ⟨-, h⟩
    split at h
    · rename_i content hget
      exact ⟨⟨content, hget⟩, Option.isNone_iff_eq_none.mp h⟩
    · cases h
  · rintro ⟨⟨content, hget⟩, hgone⟩
    have hne : q ≠ [] := by
      rintro rfl
      rw [Tree.get?_root] at hget
      cases hget
    refine ⟨⟨_, Tree.mem_entries_of_get? hne hget, rfl⟩, ?_⟩
    rw [hget, hgone]
    rfl

theorem nodup_filesGone (host host' : Host) : (filesGone host host').Nodup :=
  (List.nodup_dedup _).filter _

/-- A file that is removed is one more that is gone in the end. -/
theorem filesGone_without (hfile : host.isFile p = true)
    (hgone : host'.files.get? (placeOf host.cwd p) = .none) :
    (filesGone host host').Perm (placeOf host.cwd p :: filesGone (without host p) host') := by
  obtain ⟨-, content, hcontent⟩ := isFile_iff.mp hfile
  refine (List.perm_ext_iff_of_nodup (nodup_filesGone _ _) (List.nodup_cons.mpr
    ⟨fun hq => ?_, nodup_filesGone _ _⟩)).mpr fun q => ?_
  · obtain ⟨⟨content', hget⟩, -⟩ := mem_filesGone.mp hq
    rw [get?_without, if_pos ⟨hfile, rfl⟩] at hget
    cases hget
  · rw [List.mem_cons, mem_filesGone, mem_filesGone, get?_without]
    by_cases hq : placeOf host.cwd p = q
    · subst hq
      exact iff_of_true ⟨⟨content, hcontent⟩, hgone⟩ (.inl rfl)
    · rw [if_neg fun h => hq h.2, or_iff_right (Ne.symm hq)]

/-- A run counts the files that are gone after it, however often and in whatever spellings they
were remembered. -/
theorem count_removeAll (host : Host) (paths : List Path) :
    (removeAll host paths).1 = (filesGone host (removeAll host paths).2).length := by
  induction paths generalizing host with
  | nil =>
    refine (List.length_eq_zero_iff.mpr (List.eq_nil_iff_forall_not_mem.mpr fun q hq => ?_)).symm
    obtain ⟨⟨content, hget⟩, hgone⟩ := mem_filesGone.mp hq
    rw [removeAll, hget] at hgone
    cases hgone
  | cons p rest ih =>
    rw [removeAll_cons]
    dsimp only
    rw [ih]
    cases hfile : host.isFile p with
    | true =>
      -- Nothing that is tried later brings the file back.
      have hgone : (removeAll (without host p) rest).2.files.get? (placeOf host.cwd p) = .none := by
        rw [(removeAll_spec _ rest).2, get?_without, if_pos (And.intro hfile rfl), ite_self]
      exact (filesGone_without hfile hgone).length_eq.symm
    | false =>
      rw [without, hfile]
      rfl

/-! ## What resists -/

/-- There is something at a path that cannot be deleted. -/
def Resists (host : Host) (p : Path) : Prop :=
  host.pathExists p = true ∧ (host.removeFile p).isOk = false

theorem resists_iff : Resists host p ↔ host.pathExists p = true ∧ host.isFile p = false := by
  refine and_congr_right fun _ => ?_
  rw [Host.removeFile]
  cases hfile : host.isFile p with
  | true =>
    rw [Files.removeFile_of_isFile hfile]
    exact iff_of_false Bool.false_ne_true.symm Bool.false_ne_true.symm
  | false =>
    obtain ⟨e, hremove⟩ := Files.removeFile_of_not_isFile hfile
    rw [hremove]
    exact iff_of_true rfl rfl

/-- A run leaves all directories, and makes none. -/
theorem get?_removeAll_eq_directory (host : Host) (paths : List Path) (q : Place) :
    (removeAll host paths).2.files.get? q = some .directory ↔
      host.files.get? q = some .directory := by
  rw [(removeAll_spec host paths).2 q]
  split
  · rename_i h
    obtain ⟨p, -, hfile, rfl⟩ := h
    obtain ⟨-, content, hcontent⟩ := isFile_iff.mp hfile
    rw [hcontent]
    exact iff_of_false nofun nofun
  · exact Iff.rfl

/-- After a run, there is something at a path that it tried exactly if that resisted. -/
theorem pathExists_removeAll {paths : List Path} (hp : p ∈ paths) :
    (removeAll host paths).2.pathExists p = true ↔ Resists host p := by
  have hdirectory := get?_removeAll_eq_directory host paths
  obtain ⟨hcwd, hfiles⟩ := removeAll_spec host paths
  rw [resists_iff, Host.pathExists, Host.pathExists, pathExists_iff, pathExists_iff, hcwd]
  constructor
  · -- What is left was there before, and it is no file, since a file at this path would be gone.
    rintro ⟨hlocate, e, hget⟩
    have hlocate' := locate_mono (fun q => (hdirectory q).mp) hlocate
    rw [hfiles] at hget
    split at hget
    · cases hget
    · rename_i hkept
      refine ⟨⟨hlocate', e, hget⟩, Bool.eq_false_iff.mpr fun hfile => ?_⟩
      exact hkept ⟨p, hp, hfile, rfl⟩
  · -- What resists is a directory, and no run changes the directories, those on the way included.
    rintro ⟨⟨hlocate, e, hget⟩, hfile⟩
    cases e with
    | file content =>
      have hfile' : host.isFile p = true := isFile_iff.mpr ⟨hlocate, content, hget⟩
      rw [hfile] at hfile'
      cases hfile'
    | directory =>
      exact ⟨locate_mono (fun q => (hdirectory q).mpr) hlocate, .directory, (hdirectory _).mpr hget⟩

/-! ## Calls -/

/-- A call that has to do with what is remembered, or a change of the files by others. -/
inductive Call where
  | defer (p : Path)
  | purge (cache : Cache) (c : Coordinate)
  | others (files : Tree)
  | run

/-- A host and what is remembered. -/
structure Scene where
  host : Host
  deletions : Deletions

namespace Scene

/-- A host before anything was remembered. -/
def start (host : Host) : Scene := ⟨host, .none⟩

/-- The scene after a call. -/
def step (s : Scene) : Call → Scene
  | .defer p => { s with deletions := s.deletions.defer p }
  | .purge cache c =>
    let purged := cache.purge c s.host s.deletions
    ⟨purged.2.1, purged.2.2⟩
  | .others files => { s with host := s.host.withFiles files }
  | .run =>
    let ran := s.deletions.run s.host
    ⟨ran.2.2, ran.2.1⟩

/-- The scene after calls. -/
def after (host : Host) (calls : List Call) : Scene := runFrom step (start host) calls

/-- What a run returns. -/
def count (s : Scene) : Call → List Nat
  | .run => [(s.deletions.run s.host).1]
  | _ => []

/-- The files that a run removes. -/
def removed (s : Scene) : Call → List Place
  | .run => filesGone s.host (s.step .run).host
  | _ => []

/-- A call forgets a path only if nothing is there any more. -/
def ForgetsOnlyGone (s : Scene) (e : Call) : Prop :=
  ∀ p ∈ s.deletions.paths, p ∉ (s.step e).deletions.paths → (s.step e).host.pathExists p = false

/-- What resists a run is remembered until the next one. -/
def Retries (host : Host) (calls : List Call) : Prop :=
  ∀ past between, Follows (past ++ [.run] ++ between) .run calls → Call.run ∉ between →
    ∀ p ∈ (after host past).deletions.paths, Resists (after host past).host p →
      p ∈ (after host (past ++ [.run] ++ between)).deletions.paths

variable {s : Scene} {e : Call}

theorem after_concat (host : Host) (past : List Call) (e : Call) :
    after host (past ++ [e]) = (after host past).step e := runFrom_concat ..

/-- Only a run forgets. -/
theorem mem_paths_step (he : e ≠ .run) (hp : p ∈ s.deletions.paths) :
    p ∈ (s.step e).deletions.paths := by
  cases e with
  | defer p' => exact mem_paths_defer_of_mem p' hp
  | purge cache c =>
    rw [step]
    dsimp only
    rw [cache.deletions_purge]
    split
    · exact mem_paths_defer_of_mem _ hp
    · exact hp
  | others files => exact hp
  | run => exact absurd rfl he

/-- A path is forgotten by a run, whatever is there, and by nothing else. -/
theorem forgets_iff_run (hp : p ∈ s.deletions.paths) :
    p ∉ (s.step e).deletions.paths ↔ e = .run := by
  constructor
  · intro hforgotten
    by_contra he
    exact hforgotten (mem_paths_step he hp)
  · rintro rfl
    exact List.not_mem_nil

/-- After a run, there is something at a path that was remembered exactly if that resisted. -/
theorem pathExists_run (hp : p ∈ s.deletions.paths) :
    (s.step .run).host.pathExists p = true ↔ Resists s.host p := pathExists_removeAll hp

theorem forgetsOnlyGone_run_iff :
    s.ForgetsOnlyGone .run ↔ ∀ p ∈ s.deletions.paths, ¬ Resists s.host p := by
  refine forall₂_congr fun p hp => ?_
  rw [forall_prop_of_true ((forgets_iff_run hp).mpr rfl), ← pathExists_run hp, Bool.not_eq_true]

theorem forgetsOnlyGone_of_ne_run (he : e ≠ .run) : s.ForgetsOnlyGone e :=
  fun _ hp hforgotten => absurd ((forgets_iff_run hp).mp hforgotten) he

/-- The counts that are returned add up to the number of the files that runs removed. -/
theorem sum_counts (host : Host) (calls : List Call) :
    (noted step count (start host) calls).sum =
      (noted step removed (start host) calls).length := by
  induction calls using List.reverseRecOn with
  | nil => rfl
  | append_singleton past e ih =>
    rw [noted_concat, noted_concat, List.sum_append, List.length_append, ih]
    cases e with
    | run => exact congrArg _ (count_removeAll _ _)
    | defer p | purge cache c | others files => rfl

end Scene

/-- A run forgets every path, and nothing else forgets one; after the run there is something at a
path that it tried exactly if that resisted it. So a path is forgotten only when nothing is there,
and what resists a run is tried again by the next one, exactly if no run comes on anything that
resists it. The counts add up to the number of the files removed. -/
theorem forgets_iff (host : Host) (calls : List Call) :
    (∀ past e, Follows past e calls → ∀ p ∈ (Scene.after host past).deletions.paths,
      (p ∉ (Scene.after host (past ++ [e])).deletions.paths ↔ e = .run)) ∧
    (∀ past, Follows past .run calls → ∀ p ∈ (Scene.after host past).deletions.paths,
      ((Scene.after host (past ++ [.run])).host.pathExists p = true ↔
        Resists (Scene.after host past).host p)) ∧
    ((∀ past e, Follows past e calls → (Scene.after host past).ForgetsOnlyGone e) ∧
        Scene.Retries host calls ↔
      ∀ past, Follows past .run calls → ∀ p ∈ (Scene.after host past).deletions.paths,
        ¬ Resists (Scene.after host past).host p) ∧
    (noted Scene.step Scene.count (Scene.start host) calls).sum =
      (noted Scene.step Scene.removed (Scene.start host) calls).length := by
  refine ⟨fun past e _ p hp => ?_, fun past _ p hp => ?_, ⟨?_, fun h => ⟨fun past e hfollows => ?_,
    ?_⟩⟩, Scene.sum_counts host calls⟩
  · rw [Scene.after_concat]
    exact Scene.forgets_iff_run hp
  · rw [Scene.after_concat]
    exact Scene.pathExists_run hp
  · rintro ⟨hforgets, -⟩ past hfollows
    exact Scene.forgetsOnlyGone_run_iff.mp (hforgets past .run hfollows)
  · by_cases he : e = .run
    · subst he
      exact Scene.forgetsOnlyGone_run_iff.mpr (h past hfollows)
    · exact Scene.forgetsOnlyGone_of_ne_run he
  · -- Without anything that resists there is nothing to be tried again.
    intro past between hfollows _ p hp hresists
    have hrun : Follows past .run calls :=
      ((List.prefix_append _ between).trans (List.prefix_append _ _)).trans hfollows
    exact absurd hresists (h past hrun p hp)

/-- A directory at the place of an artifact is there after a run, and is forgotten. The file that is
there at the next run stays, too. -/
theorem left_after_two_runs :
    let cache : Cache := ⟨⟨"cache"⟩⟩
    let c : Coordinate := ⟨"a", "b", "1"⟩
    let p := cache.pathFor c
    let past := [.others (filesAround (some .directory)), .purge cache c]
    let between := [.others (filesAround (some (.file ⟨#[1]⟩)))]
    let calls := past ++ [.run] ++ between ++ [.run]
    let host := Host.empty ["w"]
    Resists (Scene.after host past).host p ∧
      p ∈ (Scene.after host past).deletions.paths ∧
      p ∉ (Scene.after host (past ++ [.run])).deletions.paths ∧
      (Scene.after host (past ++ [.run])).host.pathExists p = true ∧
      (Scene.after host calls).host.isFile p = true ∧
      noted Scene.step Scene.count (Scene.start host) calls = [0, 0] ∧
      ¬ Scene.Retries host calls ∧
      ¬ ∀ past e, Follows past e calls → (Scene.after host past).ForgetsOnlyGone e := by
  intro cache c p past between calls host
  have hresists : Resists (Scene.after host past).host p := by
    constructor <;> decide +kernel
  have hp : p ∈ (Scene.after host past).deletions.paths := by decide +kernel
  have hforgotten : p ∉ (Scene.after host (past ++ [.run])).deletions.paths := by decide +kernel
  have hleft : (Scene.after host (past ++ [.run])).host.pathExists p = true := by decide +kernel
  refine ⟨hresists, hp, hforgotten, hleft, by decide +kernel, by decide +kernel, fun hretries => ?_,
    fun hforgets => ?_⟩
  · have hnone : p ∉ (Scene.after host (past ++ [.run] ++ between)).deletions.paths := by
      decide +kernel
    exact hnone (hretries past between (List.prefix_refl _) (by simp [between]) p hp hresists)
  · have hfollows : Follows past .run calls := by
      refine (List.prefix_append _ (between ++ [.run])).trans ?_
      rw [← List.append_assoc]
    have hgone := hforgets past .run hfollows p hp (by rwa [Scene.after_concat] at hforgotten)
    rw [← Scene.after_concat, hleft] at hgone
    cases hgone

end Deletions
end Artifact
end ScriptSession
