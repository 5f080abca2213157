import ScriptSession.Artifact.Cache
import ScriptSession.Proofs.Files.Changes
import ScriptSession.Proofs.Files.Spellings

/-!
# Storing and purging

What a store and a purge come to for any coordinate, one that nobody would parse included: its
segments may hold separators and steps to the parent, so that the file lies anywhere. What is known
of the path is that it ends in the extension of module files, which keeps the file apart from
staging files (`placeOf_pathFor_ne_stagingPlace`). That is enough for a store to add one file at
most and to take nothing away (`store_outcome`, `keeps_store`).
-/

namespace ScriptSession

/-! ## Keeping what is there -/

namespace Files

/-- Whatever was there is there, as it was. -/
def Tree.Retains (t t' : Tree) : Prop := ∀ q e, t.get? q = some e → t'.get? q = some e

namespace Tree.Retains

variable {t t' t'' : Tree}

theorem refl (t : Tree) : t.Retains t := fun _ _ h => h

theorem trans (h : t.Retains t') (h' : t'.Retains t'') : t.Retains t'' :=
  fun q e hget => h' q e (h q e hget)

theorem of_grows (h : t.Grows t') : t.Retains t' := fun _ _ hget => h.keeps hget

/-- A file that is put where nothing was takes nothing away. -/
theorem put {place : Place} (entry : Entry) (h : t.get? place = none) :
    t.Retains (t.put place entry) := by
  intro q e hget
  rw [Tree.get?_put_of_ne, hget]
  rintro rfl
  rw [h] at hget
  cases hget

variable {cwd : Place} {p : Path}

theorem locate {q : Place} (h : t.Retains t') (hlocate : Files.locate t cwd p = .ok q) :
    Files.locate t' cwd p = .ok q := locate_mono (fun d => h d .directory) hlocate

theorem read {content : ByteArray} (h : t.Retains t')
    (hread : Files.read t cwd p = .ok content) : Files.read t' cwd p = .ok content := by
  rw [read_eq_ok] at hread ⊢
  exact ⟨h.locate hread.1, h _ _ hread.2⟩

end Tree.Retains

/-- Where a file is, nothing is in the way of another one. -/
theorem obstacle?_of_isFile {t : Tree} {cwd : Place} {p : Path} (hp : p.EndsInName)
    (h : isFile t cwd p = true) : obstacle? t (placeOf cwd p) = none := by
  obtain ⟨hlocate, content, hget⟩ := isFile_iff.mp h
  obtain ⟨name, hlast, hname⟩ := hp
  obtain ⟨front, hfront⟩ := List.getLast?_eq_some_iff.mp hlast
  rw [obstacle?_eq_none_iff, hget]
  refine ⟨nofun, ?_⟩
  -- The way to a name goes through the directory that the name is in.
  have hwalk := (locate_eq_ok hlocate).2.2
  rw [hfront, walk_append] at hwalk
  cases hholder : walk t front (origin cwd p) with
  | error failure =>
    rw [hholder] at hwalk
    cases hwalk
  | ok holder =>
    rw [hholder] at hwalk
    obtain rfl : holder = front.foldl stepTo (origin cwd p) := eq_of_walk hholder
    rw [placeOf, hfront, List.foldl_concat, stepTo_of_isName _ hname, List.dropLast_concat]
    exact (walk_cons_eq_ok.mp hwalk).1

theorem rename_of_isFile {t : Tree} {cwd source : Place} {p : Path} {e : Entry}
    (hp : p.EndsInName) (h : isFile t cwd p = true) (hsource : t.get? source = some e) :
    rename t cwd source p = .ok ((t.erase source).put (placeOf cwd p) e) := by
  simp only [rename, (isFile_iff.mp h).1, bind, Except.bind, hsource, obstacle?_of_isFile hp h]
  rfl

theorem stagingName_ne_of_extension {name : String} {front : List Char}
    (h : name.toList = front ++ ['.', 'r', 'h', 'a', 'i']) (n : Nat) : name ≠ stagingName n := by
  rintro rfl
  have hmem : 'h' ∈ (stagingName n).toList := by simp [h]
  rw [stagingName, String.toList_append, List.mem_append, Nat.toString_eq_repr,
    Nat.toList_repr] at hmem
  obtain hmem | hmem := hmem
  · exact absurd hmem (by decide)
  · exact absurd (Nat.isDigit_of_mem_toDigits (by decide) (by decide) hmem) (by decide)

end Files

namespace Host

@[simp] theorem files_withFiles (host : Host) (files : Files.Tree) :
    (host.withFiles files).files = files := rfl

@[simp] theorem cwd_withFiles (host : Host) (files : Files.Tree) :
    (host.withFiles files).cwd = host.cwd := rfl

theorem isFile_iff_read {host : Host} {p : Path} :
    host.isFile p = true ↔ ∃ content, host.read p = .ok content := by
  simp only [isFile, read, Files.isFile_iff, Files.read_eq_ok, exists_and_left]

/-- On a host there is what was there before, and it is seen from the same place. -/
structure Keeps (host host' : Host) : Prop where
  cwd : host'.cwd = host.cwd
  retains : host.files.Retains host'.files

namespace Keeps

variable {host host' host'' : Host} {p : Path}

theorem refl (host : Host) : host.Keeps host := ⟨rfl, .refl _⟩

theorem trans (h : host.Keeps host') (h' : host'.Keeps host'') : host.Keeps host'' :=
  ⟨h'.cwd.trans h.cwd, h.retains.trans h'.retains⟩

theorem read {content : ByteArray} (h : host.Keeps host') (hread : host.read p = .ok content) :
    host'.read p = .ok content := by
  rw [Host.read, h.cwd]
  exact h.retains.read hread

theorem isFile (h : host.Keeps host') (hfile : host.isFile p = true) :
    host'.isFile p = true := by
  obtain ⟨content, hread⟩ := isFile_iff_read.mp hfile
  exact isFile_iff_read.mpr ⟨content, h.read hread⟩

end Keeps
end Host

namespace Artifact
namespace Cache

open Files (Place Tree isFile_iff isFile_put_file locate placeOf rename_staged stage_eq_ok
  stagingPlace)
open ScriptSession.Path (IsName)

variable {cache : Cache} {c : Coordinate} {host : Host}

/-! ## The path of a coordinate -/

/-- A text that is joined to a path stands at its end. -/
theorem exists_text_join (p : Path) (q : String) : ∃ front, (p.join q).text = front ++ q := by
  rw [Path.join]
  split
  · exact ⟨"", (String.empty_append).symm⟩
  · split
    · exact ⟨p.text, rfl⟩
    · exact ⟨p.text ++ "/", rfl⟩

/-- The last segment of the path of any coordinate is a name with the extension of module files. -/
theorem exists_name_pathFor (cache : Cache) (c : Coordinate) :
    ∃ name front, (cache.pathFor c).segments.getLast? = some name ∧ IsName name ∧
      name.toList = front ++ ['.', 'r', 'h', 'a', 'i'] := by
  obtain ⟨root, hroot⟩ := exists_text_join cache.root c.relativePath.text
  obtain ⟨directory, hdirectory⟩ := exists_text_join c.directory c.fileName
  obtain ⟨front, hfront⟩ : ∃ front, (cache.pathFor c).text.toList =
      front ++ ['.', 'r', 'h', 'a', 'i'] := by
    refine ⟨(root ++ directory ++ c.artifact ++ "-" ++ c.version).toList, ?_⟩
    rw [pathFor, hroot, Coordinate.relativePath, hdirectory]
    simp [Coordinate.fileName, moduleExtension, String.toList_append]
  have hslash : '/' ∉ ['.', 'r', 'h', 'a', 'i'] := by decide
  obtain ⟨piece, hpiece⟩ := Text.getLast?_splitChars_append front hslash
  have hlist : (String.ofList (piece ++ ['.', 'r', 'h', 'a', 'i'])).toList =
      piece ++ ['.', 'r', 'h', 'a', 'i'] := String.toList_ofList
  -- It is longer than the segments that are no names.
  have hlength : 5 ≤ (String.ofList (piece ++ ['.', 'r', 'h', 'a', 'i'])).toList.length := by
    simp
  refine ⟨String.ofList (piece ++ ['.', 'r', 'h', 'a', 'i']), piece, ?_, ⟨?_, ?_, ?_, ?_⟩, hlist⟩
  · rw [Path.segments, Text.splitOn, hfront, List.getLast?_map, hpiece]
    rfl
  · rw [hlist]
    exact Text.not_mem_of_mem_splitChars (List.mem_of_getLast? hpiece)
  all_goals
    intro heq
    rw [heq] at hlength
    revert hlength
    decide

theorem endsInName_pathFor (cache : Cache) (c : Coordinate) : (cache.pathFor c).EndsInName := by
  obtain ⟨name, -, hlast, hname, -⟩ := cache.exists_name_pathFor c
  exact ⟨name, hlast, hname⟩

/-- No artifact lies where a staging file does. -/
theorem placeOf_pathFor_ne_stagingPlace (cache : Cache) (c : Coordinate) (cwd : Place) (t : Tree)
    (directory : Place) : placeOf cwd (cache.pathFor c) ≠ stagingPlace t directory := by
  obtain ⟨name, front, hlast, hname, hextension⟩ := cache.exists_name_pathFor c
  obtain ⟨holder, hplace⟩ := Files.placeOf_of_endsInName cwd hlast hname
  rw [hplace, stagingPlace]
  intro heq
  exact Files.stagingName_ne_of_extension hextension _
    (List.cons.inj (List.append_inj' heq rfl).2).1

/-! ## What a store comes to -/

/-- The directory that a store works in. -/
def shelf (cache : Cache) (c : Coordinate) : Path := (cache.pathFor c).parent?.getD cache.root

theorem shelf_eq : (cache.pathFor c).parent?.getD cache.root = cache.shelf c := by rw [shelf]

/-- The host with the directory made that a store works in, as far as that is possible. -/
def shelved (cache : Cache) (c : Coordinate) (host : Host) : Host :=
  host.withFiles (Files.makeDirectories host.files host.cwd (cache.shelf c)).2

@[simp] theorem cwd_shelved : (cache.shelved c host).cwd = host.cwd := by
  rw [shelved, Host.withFiles]

theorem files_shelved : (cache.shelved c host).files =
    (Files.makeDirectories host.files host.cwd (cache.shelf c)).2 := by
  rw [shelved, Host.withFiles]

theorem grows_shelved : host.files.Grows (cache.shelved c host).files := by
  rw [files_shelved]
  exact Files.grows_makeDirectories _ _ _

theorem keeps_shelved : host.Keeps (cache.shelved c host) := ⟨cwd_shelved, .of_grows grows_shelved⟩

/-- What storing comes to: directories are made, and then there is a failure, or a file that was
there already, or a new one. -/
theorem store_outcome (cache : Cache) (c : Coordinate) (bytes : ByteArray) (host : Host) :
    (∃ e, cache.store c bytes host = (.error (.cache c e), cache.shelved c host)) ∨
    (cache.store c bytes host = (.ok (cache.pathFor c), cache.shelved c host) ∧
      (cache.shelved c host).isFile (cache.pathFor c) = true) ∨
    (cache.store c bytes host = (.ok (cache.pathFor c), (cache.shelved c host).withFiles
        ((cache.shelved c host).files.put (placeOf host.cwd (cache.pathFor c)) (.file bytes))) ∧
      locate (cache.shelved c host).files host.cwd (cache.pathFor c) =
        .ok (placeOf host.cwd (cache.pathFor c)) ∧
      (cache.shelved c host).files.get? (placeOf host.cwd (cache.pathFor c)) = none) := by
  have hshelved : cache.shelved c host = (host.makeDirectories (cache.shelf c)).2 := by
    rw [shelved, Host.makeDirectories]
  unfold store
  simp only [shelf_eq]
  rcases hmade : host.makeDirectories (cache.shelf c) with ⟨failure, grown⟩
  rw [hmade] at hshelved
  have hcwd : grown.cwd = host.cwd := by
    rw [← (cwd_shelved : (cache.shelved c host).cwd = host.cwd), hshelved]
  rw [hshelved, ← hcwd]
  cases failure with
  | some e => exact .inl ⟨e, rfl⟩
  | none =>
    simp only [Host.stage]
    cases hstage : Files.stage grown.files grown.cwd (cache.shelf c) bytes with
    | error e => exact .inl ⟨e, rfl⟩
    | ok staged =>
      obtain ⟨place, files⟩ := staged
      obtain ⟨hplace, rfl⟩ := stage_eq_ok hstage
      -- The staging file is away from the target and leaves no trace when it is removed.
      have hfree : grown.files.get? place = none := hplace ▸ Files.get?_stagingPlace _ _
      have hne : placeOf grown.cwd (cache.pathFor c) ≠ place :=
        hplace ▸ cache.placeOf_pathFor_ne_stagingPlace c _ _ _
      have hdiscard : (grown.withFiles (grown.files.put place (.file bytes))).discard place =
          grown := by
        show grown.withFiles ((grown.files.put place (.file bytes)).erase place) = grown
        rw [Tree.erase_put _ hfree]
        rfl
      have hisFile : (grown.withFiles (grown.files.put place (.file bytes))).isFile
          (cache.pathFor c) = grown.isFile (cache.pathFor c) :=
        isFile_put_file bytes (by rw [hfree]; exact nofun) hne
      simp only [Except.map, hisFile, hdiscard]
      cases hfile : grown.isFile (cache.pathFor c) with
      | true => exact .inr (.inl ⟨rfl, rfl⟩)
      | false =>
        simp only [Host.persist]
        cases hrename : Files.rename (grown.files.put place (.file bytes)) grown.cwd place
            (cache.pathFor c) with
        | error e =>
          refine .inl ⟨e, ?_⟩
          simp [Host.withFiles, hrename, Except.map]
        | ok files =>
          obtain ⟨hlocate, hvacant, rfl⟩ := rename_staged hfree hne hfile hrename
          refine .inr (.inr ⟨?_, hlocate, hvacant⟩)
          simp [Host.withFiles, hrename, Except.map]

theorem cwd_store (cache : Cache) (c : Coordinate) (bytes : ByteArray) (host : Host) :
    (cache.store c bytes host).2.cwd = host.cwd := by
  rcases cache.store_outcome c bytes host with ⟨e, heq⟩ | ⟨heq, -⟩ | ⟨heq, -, -⟩ <;>
    simp only [heq, Host.cwd_withFiles, cwd_shelved]

/-- A store takes nothing away. -/
theorem keeps_store (cache : Cache) (c : Coordinate) (bytes : ByteArray) (host : Host) :
    host.Keeps (cache.store c bytes host).2 := by
  refine ⟨cache.cwd_store c bytes host, ?_⟩
  have hgrown : host.files.Retains (cache.shelved c host).files := keeps_shelved.retains
  rcases cache.store_outcome c bytes host with ⟨e, heq⟩ | ⟨heq, -⟩ | ⟨heq, -, hget⟩ <;> rw [heq]
  · exact hgrown
  · exact hgrown
  · exact hgrown.trans (.put _ hget)

/-- An artifact that was found is found, and with the bytes that it had. -/
theorem lookup_of_keeps {host' : Host} {path : Path} (h : host.Keeps host')
    (hlookup : cache.lookup host c = some path) :
    cache.lookup host' c = some path ∧
      host'.read (cache.pathFor c) = host.read (cache.pathFor c) := by
  have hfile : host.isFile (cache.pathFor c) = true := by
    by_contra hmiss
    rw [lookup, if_neg hmiss] at hlookup
    cases hlookup
  obtain ⟨content, hread⟩ := Host.isFile_iff_read.mp hfile
  refine ⟨?_, (h.read hread).trans hread.symm⟩
  rw [← hlookup, lookup, lookup, if_pos hfile, if_pos (h.isFile hfile)]

/-- What was stored is found. -/
theorem isFile_of_store_eq_ok {bytes : ByteArray} {path : Path} {stored : Host}
    (h : cache.store c bytes host = (.ok path, stored)) :
    path = cache.pathFor c ∧ stored.isFile (cache.pathFor c) = true := by
  rcases cache.store_outcome c bytes host with ⟨e, heq⟩ | ⟨heq, hfile⟩ | ⟨heq, hlocate, hget⟩ <;>
    rw [heq] at h <;> cases h
  · exact ⟨rfl, hfile⟩
  · rw [Host.isFile, Host.cwd_withFiles, Host.files_withFiles, cwd_shelved, isFile_iff]
    exact ⟨rfl, (Tree.Retains.put _ hget).locate hlocate, bytes,
      Tree.get?_put_self _ _ _ (Tree.get?_eq_none_iff.mp hget).1⟩

/-! ## What a purge comes to -/

theorem purge_eq_removed (cache : Cache) (c : Coordinate) (deletions : Deletions)
    (hfile : host.isFile (cache.pathFor c) = true) :
    cache.purge c host deletions =
      (.removed, host.withFiles (host.files.erase (placeOf host.cwd (cache.pathFor c))),
        deletions) := by
  have hremove := Files.removeFile_of_isFile hfile
  have hexists : host.pathExists (cache.pathFor c) = true := Files.pathExists_of_isFile hfile
  unfold purge
  simp [hexists, Host.removeFile, hremove, Except.map]

/-- Where no file is there is nothing to remove; a directory is remembered to be removed later. -/
theorem purge_of_not_isFile (cache : Cache) (c : Coordinate) (deletions : Deletions)
    (hfile : host.isFile (cache.pathFor c) = false) :
    cache.purge c host deletions = (.notCached, host, deletions) ∨
      cache.purge c host deletions = (.deferred, host, deletions.defer (cache.pathFor c)) := by
  obtain ⟨e, hremove⟩ := Files.removeFile_of_not_isFile hfile
  unfold purge
  by_cases hexists : host.pathExists (cache.pathFor c) = true
  · right
    simp [hexists, Host.removeFile, hremove, Except.map]
  · left
    simp [hexists]

/-- A purge remembers the path if it is deferred, and else nothing. -/
theorem deletions_purge (cache : Cache) (c : Coordinate) (host : Host) (deletions : Deletions) :
    (cache.purge c host deletions).2.2 =
      if (cache.purge c host deletions).1 = .deferred then deletions.defer (cache.pathFor c)
      else deletions := by
  cases hfile : host.isFile (cache.pathFor c) with
  | true =>
    rw [purge_eq_removed cache c deletions hfile]
    exact (if_neg nofun).symm
  | false =>
    obtain heq | heq := purge_of_not_isFile cache c deletions hfile <;> rw [heq]
    · exact (if_neg nofun).symm
    · exact (if_pos rfl).symm

theorem cwd_purge (cache : Cache) (c : Coordinate) (host : Host) (deletions : Deletions) :
    (cache.purge c host deletions).2.1.cwd = host.cwd := by
  cases hfile : host.isFile (cache.pathFor c) with
  | true => rw [purge_eq_removed cache c deletions hfile, Host.cwd_withFiles]
  | false => obtain heq | heq := purge_of_not_isFile cache c deletions hfile <;> rw [heq]

end Cache

theorem Deletions.mem_paths_defer {d : Deletions} {p q : Path} (h : q ∈ (d.defer p).paths) :
    q ∈ d.paths ∨ q = p := by
  rw [defer] at h
  split at h
  · exact .inl h
  · rwa [List.mem_append, List.mem_singleton] at h

end Artifact
end ScriptSession
