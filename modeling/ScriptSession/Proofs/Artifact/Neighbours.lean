import ScriptSession.Proofs.Artifact.Caching

/-!
# Artifacts in each other's way

The parts of a group, an artifact and a version are all directories, and an artifact or a version
may be called like a file. So the file of one artifact may be where another one needs a directory,
and then a cache holds one of the two. It is known exactly when (`Coordinate.Blocks`): the names of
the first one have to go on in those of the other one, and only an artifact or a version has a dot
in it.

Main statement: artifacts that could be stored by themselves can be stored together, in whatever
order, exactly if none of them is in the way of another one (`stored_together_iff`).
-/

namespace ScriptSession

/-- A path names a directory that another one goes through. -/
def Path.IsAncestor (p q : Path) : Prop :=
  p.components <+: q.components ∧ p.components ≠ q.components

namespace Artifact

open Concurrency (Follows runFrom runFrom_keeps_of)

/-! ## Names in front of others -/

namespace Coordinate

variable {c d : Coordinate}

/-- The file of an artifact is where another one needs a directory: for its own artifacts, or for
the versions of its artifact. -/
inductive Blocks (c d : Coordinate) : Prop where
  | artifact (hartifact : '.' ∉ c.artifact.toList) (hversion : '.' ∉ c.version.toList)
      (hgroup : d.group = c.group ++ "." ++ c.artifact ++ "." ++ c.version)
      (hfile : d.artifact = c.fileName)
  | version (hartifact : '.' ∉ c.artifact.toList) (hgroup : d.group = c.group ++ "." ++ c.artifact)
      (hversion : d.artifact = c.version) (hfile : d.version = c.fileName)

/-- What is blocked has the longer group. -/
theorem Blocks.length_group_lt (h : c.Blocks d) : c.group.length < d.group.length := by
  have hdot : ".".length = 1 := rfl
  cases h with
  | artifact _ _ hgroup _ =>
    rw [hgroup]
    simp only [String.length_append]
    omega
  | version _ hgroup _ _ =>
    rw [hgroup]
    simp only [String.length_append]
    omega

theorem dot_mem_fileName (c : Coordinate) : '.' ∈ c.fileName.toList := by
  simp [fileName, String.toList_append]

/-- Behind a dot a text without dots is one more part. -/
theorem splitOn_append_part (s : String) {part : String} (h : '.' ∉ part.toList) :
    Text.splitOn '.' (s ++ "." ++ part) = Text.splitOn '.' s ++ [part] := by
  have hlist : (s ++ "." ++ part).toList = s.toList ++ '.' :: part.toList := by
    simp [String.toList_append]
  rw [Text.splitOn, hlist, Text.splitChars_append, List.map_append, Text.splitChars_of_not_mem h,
    List.map_singleton, String.ofList_toList, Text.splitOn]

theorem not_mem_of_mem_splitOn {s part : String} (h : part ∈ Text.splitOn '.' s) :
    '.' ∉ part.toList := by
  obtain ⟨piece, hpiece, rfl⟩ := List.mem_map.mp h
  rw [String.toList_ofList]
  exact Text.not_mem_of_mem_splitChars hpiece

/-- A text with one more part is the text of the others, a dot and the part. -/
theorem eq_of_splitOn_concat {s s' part : String}
    (h : Text.splitOn '.' s' = Text.splitOn '.' s ++ [part]) :
    '.' ∉ part.toList ∧ s' = s ++ "." ++ part := by
  have hpart : '.' ∉ part.toList := not_mem_of_mem_splitOn (s := s') (by simp [h])
  exact ⟨hpart, Text.splitOn_injective '.' (h.trans (splitOn_append_part s hpart).symm)⟩

theorem names_prefix_of_blocks (h : c.Blocks d) : c.names <+: d.names ∧ c.names ≠ d.names := by
  obtain ⟨more, hne, hmore⟩ : ∃ more, more ≠ [] ∧ c.names ++ more = d.names := by
    cases h with
    | artifact hartifact hversion hgroup hfile =>
      refine ⟨[d.version, d.fileName], by simp, ?_⟩
      rw [names, names, above, above, hgroup, splitOn_append_part _ hversion,
        splitOn_append_part _ hartifact, hfile]
      simp
    | version hartifact hgroup hversion hfile =>
      refine ⟨[d.fileName], by simp, ?_⟩
      rw [names, names, above, above, hgroup, splitOn_append_part _ hartifact, hversion, hfile]
      simp
  refine ⟨⟨more, hmore⟩, fun heq => hne ?_⟩
  rwa [← heq, List.append_right_eq_self] at hmore

/-- The names of one artifact go on in those of another one only behind its file, which is an
artifact or a version there: it has a dot, and parts of a group have none. -/
theorem blocks_of_names_prefix (h : c.names <+: d.names) (hne : c.names ≠ d.names) :
    c.Blocks d := by
  obtain ⟨more, hmore⟩ := h
  have hnames (c : Coordinate) : c.names =
      Text.splitOn '.' c.group ++ [c.artifact] ++ [c.version] ++ [c.fileName] := by
    simp [names, above]
  -- Behind the file of the first one there follow one name or two.
  obtain rfl | ⟨more, last, rfl⟩ := List.eq_nil_or_concat' more
  · rw [List.append_nil] at hmore
    exact absurd hmore hne
  rw [hnames c, hnames d, ← List.append_assoc] at hmore
  obtain ⟨hmore, -⟩ := List.append_inj' hmore rfl
  obtain rfl | ⟨more, last', rfl⟩ := List.eq_nil_or_concat' more
  · rw [List.append_nil] at hmore
    obtain ⟨hmore, hfile⟩ := List.append_inj' hmore rfl
    obtain ⟨hgroup, hversion⟩ := List.append_inj' hmore rfl
    obtain ⟨hartifact, hgroup⟩ := eq_of_splitOn_concat hgroup.symm
    exact .version hartifact hgroup (List.cons.inj hversion).1.symm (List.cons.inj hfile).1.symm
  rw [← List.append_assoc] at hmore
  obtain ⟨hmore, -⟩ := List.append_inj' hmore rfl
  obtain rfl | ⟨more, last'', rfl⟩ := List.eq_nil_or_concat' more
  · rw [List.append_nil] at hmore
    obtain ⟨hgroup, hfile⟩ := List.append_inj' hmore rfl
    have hartifact : '.' ∉ c.artifact.toList :=
      not_mem_of_mem_splitOn (s := d.group) (by simp [← hgroup])
    rw [← splitOn_append_part _ hartifact] at hgroup
    obtain ⟨hversion, hgroup⟩ := eq_of_splitOn_concat hgroup.symm
    exact .artifact hartifact hversion hgroup (List.cons.inj hfile).1.symm
  · rw [← List.append_assoc] at hmore
    obtain ⟨hgroup, -⟩ := List.append_inj' hmore rfl
    refine absurd c.dot_mem_fileName (not_mem_of_mem_splitOn (s := d.group) ?_)
    simp [← hgroup]

theorem isAncestor_iff (hc : c.IsValid) (hd : d.IsValid) :
    c.relativePath.IsAncestor d.relativePath ↔ c.Blocks d := by
  have hinjective : Function.Injective Path.Component.normal := fun _ _ => Path.Component.normal.inj
  rw [Path.IsAncestor, hc.components_relativePath, hd.components_relativePath,
    List.prefix_map_iff_of_injective hinjective, Ne, List.map_inj_right fun _ _ h => hinjective h]
  exact ⟨fun h => blocks_of_names_prefix h.1 h.2, names_prefix_of_blocks⟩

end Coordinate

/-! ## Room for an artifact -/

namespace Cache

open Files (IsOnWay Tree isFile_iff locate locate_mono makeDirectories placeOf)

variable {cache : Cache} {host host' : Host} {c d : Coordinate}

theorem target_eq_concat (h : c.IsValid) :
    cache.target host.cwd c = placeOf host.cwd (cache.holder c) ++ [c.fileName] := by
  rw [← placeOf_pathFor h, pathFor_eq_join h, Files.placeOf_join _ _ h.isFileName_fileName.toIsName]

theorem cwd_prepared (cache : Cache) (c : Coordinate) (host : Host) :
    (cache.prepared c host).cwd = host.cwd := by
  rw [prepared, Host.withFiles]

/-- The directories that an artifact needs can be made, its path leads into them, and its own place
is none of them. -/
structure HasRoom (cache : Cache) (host : Host) (c : Coordinate) : Prop where
  made : (makeDirectories host.files host.cwd (cache.holder c)).1 = none
  leads : locate (cache.prepared c host).files host.cwd (cache.pathFor c) =
    .ok (cache.target host.cwd c)
  free : (cache.prepared c host).files.get? (cache.target host.cwd c) ≠ some .directory

namespace HasRoom

theorem holder (hc : c.IsValid) (h : cache.HasRoom host c) :
    locate (cache.prepared c host).files host.cwd (cache.holder c) =
        .ok (placeOf host.cwd (cache.holder c)) ∧
      (cache.prepared c host).files.get? (placeOf host.cwd (cache.holder c)) =
        some .directory := by
  have hleads := h.leads
  rw [pathFor_eq_join hc] at hleads
  exact Files.locate_of_join hc.isFileName_fileName.toIsName (holder_ne_empty hc) hleads

/-- A store succeeds where there is room. -/
theorem store (hc : c.IsValid) (h : cache.HasRoom host c) (bytes : ByteArray) :
    (cache.store c bytes host).1 = .ok (cache.pathFor c) := by
  obtain ⟨hholder, hdirectory⟩ := h.holder hc
  have hmade : host.makeDirectories (cache.holder c) = (none, cache.prepared c host) := by
    rw [Host.makeDirectories, prepared, ← h.made]
  have hstage := Files.stage_of_locate bytes hholder hdirectory
  obtain ⟨place, hplace⟩ : ∃ place, place = Files.stagingPlace (cache.prepared c host).files
      (placeOf host.cwd (cache.holder c)) := ⟨_, rfl⟩
  have hvacant : (cache.prepared c host).files.get? place = none :=
    hplace ▸ Files.get?_stagingPlace _ _
  have hnew : (cache.prepared c host).files.get? place ≠ some .directory := by
    simp [hvacant]
  have hdirectories (q : Files.Place) := Tree.get?_put_file_eq_directory (q := q) bytes hnew
  -- Beside the staging file the way to the artifact's place is the same.
  have hlocate : locate ((cache.prepared c host).files.put place (.file bytes)) host.cwd
      (cache.pathFor c) = .ok (placeOf host.cwd (cache.pathFor c)) := by
    rw [Files.locate_put_file bytes hnew, placeOf_pathFor hc, h.leads]
  have hobstacle : Files.obstacle? ((cache.prepared c host).files.put place (.file bytes))
      (placeOf host.cwd (cache.pathFor c)) = none := by
    rw [Files.obstacle?_eq_none_iff, Ne, hdirectories, hdirectories, placeOf_pathFor hc]
    refine ⟨h.free, ?_⟩
    rw [target_eq_concat hc, List.dropLast_concat, hdirectory]
  have hrename := Files.rename_of_locate hlocate
    (Tree.get?_put_self _ _ (.file bytes) (Tree.get?_eq_none_iff.mp hvacant).1) hobstacle
  have hcwd : (cache.prepared c host).cwd = host.cwd := cache.cwd_prepared c host
  rw [← hplace] at hstage
  unfold Cache.store
  simp only [parent?_pathFor hc, Option.getD_some, hmade, Host.stage, hcwd, hstage, Except.map]
  split
  · rfl
  · simp only [Host.persist, Host.files_withFiles, Host.cwd_withFiles, hcwd, hrename, Except.map]

/-- There is room for what could be stored. -/
theorem of_store (hc : c.IsValid) {bytes : ByteArray} {path : Path}
    (h : (cache.store c bytes host).1 = .ok path) : cache.HasRoom host c := by
  have hmade : (makeDirectories host.files host.cwd (cache.holder c)).1 = none := by
    rcases hmake : makeDirectories host.files host.cwd (cache.holder c) with ⟨failure, made⟩
    cases failure with
    | none => rfl
    | some e =>
      unfold Cache.store at h
      simp only [parent?_pathFor hc, Option.getD_some, Host.makeDirectories, hmake] at h
      cases h
  obtain ⟨e, heq⟩ | ⟨-, hfile⟩ | ⟨-, hleads, hfree⟩ := store_cases hc cache bytes host
  · rw [heq] at h
    cases h
  · rw [Host.isFile, cwd_prepared] at hfile
    obtain ⟨hleads, content, hget⟩ := isFile_iff.mp hfile
    rw [placeOf_pathFor hc] at hleads hget
    exact ⟨hmade, hleads, by simp [hget]⟩
  · exact ⟨hmade, hleads, by simp [hfree]⟩

/-- On the way to the directory of an artifact that there is room for, directories can be made. -/
theorem isDirectory (hc : c.IsValid) (h : cache.HasRoom host c) {q : Files.Place}
    (hway : IsOnWay host.cwd (cache.holder c) q) :
    (cache.prepared c host).files.get? q = some .directory :=
  hway.isDirectory (h.holder hc).1 (h.holder hc).2

theorem not_isOnWay_holder (hc : c.IsValid) (h : cache.HasRoom host c) :
    ¬ IsOnWay host.cwd (cache.holder c) (cache.target host.cwd c) :=
  fun hway => h.free (h.isDirectory hc hway)

/-- The way to the directory of one artifact goes through the place of another one only if the other
one is in its way. -/
theorem blocks_of_isOnWay (hc : c.IsValid) (hd : d.IsValid) (h : cache.HasRoom host c)
    (hway : IsOnWay host.cwd (cache.holder d) (cache.target host.cwd c)) : c.Blocks d := by
  obtain hroot | ⟨front, hfront, heq⟩ :=
    hway.of_joinAll fun n hn => (hd.isFileName_of_mem_directory hn).toIsName
  · -- A root that goes through the artifact's own place leaves it no room.
    exact absurd (hroot.joinAll fun n hn => (hc.isFileName_of_mem_directory hn).toIsName)
      (h.not_isOnWay_holder hc)
  · obtain rfl : c.names = front := List.append_cancel_left heq
    have hlength := hfront.length_le
    refine Coordinate.blocks_of_names_prefix ?_ fun hnames => ?_
    · rw [d.names_eq]
      exact hfront.trans (List.prefix_append _ [d.fileName])
    · rw [hnames, d.names_eq, List.length_append, List.length_singleton] at hlength
      omega

end HasRoom

/-! ## Stores beside each other -/

/-- What a host holds beside what another one holds: files at the places of artifacts, and the
directories on the way to them. -/
structure Beside (cache : Cache) (host host' : Host) (stored : List Coordinate) : Prop where
  keeps : host.Keeps host'
  files : ∀ q content, host'.files.get? q = some (.file content) →
    host.files.get? q = some (.file content) ∨ ∃ d ∈ stored, q = cache.target host.cwd d
  directories : ∀ q, host'.files.get? q = some .directory →
    host.files.get? q = some .directory ∨ ∃ d ∈ stored, IsOnWay host.cwd (cache.holder d) q

namespace Beside

variable {stored : List Coordinate}

theorem refl (cache : Cache) (host : Host) : cache.Beside host host [] :=
  ⟨.refl host, fun _ _ h => .inl h, fun _ h => .inl h⟩

/-- Where there is room for an artifact there still is beside others, if none is in the way of the
other. -/
theorem hasRoom (h : cache.Beside host host' stored) (hc : c.IsValid) (hroom : cache.HasRoom host c)
    (hstored : ∀ d ∈ stored, d.IsValid ∧ cache.HasRoom host d ∧ ¬ c.Blocks d ∧ ¬ d.Blocks c) :
    cache.HasRoom host' c := by
  have hcwd : host'.cwd = host.cwd := h.keeps.cwd
  have hkept : ∀ q, host.files.get? q = some .directory → host'.files.get? q = some .directory :=
    fun q => h.keeps.retains q .directory
  -- On the way to the artifact there is no file: none was there, and none of the others is.
  have hnoFile : ∀ q, IsOnWay host.cwd (cache.holder c) q →
      ∀ content, host'.files.get? q ≠ some (.file content) := by
    intro q hway content hfile
    obtain hbefore | ⟨d, hd, rfl⟩ := h.files q content hfile
    · have hgrows : host.files.Grows (cache.prepared c host).files := grows_prepared
      have hstays := hgrows.keeps hbefore
      rw [hroom.isDirectory hc hway] at hstays
      cases hstays
    · obtain ⟨hvalid, hroom', -, hblocks⟩ := hstored d hd
      exact hblocks (hroom'.blocks_of_isOnWay hvalid hc hway)
  obtain ⟨hmade, hmore⟩ := Files.makeDirectories_beside hroom.made hkept hnoFile
  have hprepared : (cache.prepared c host').files =
      (makeDirectories host'.files host.cwd (cache.holder c)).2 := by
    rw [files_prepared, hcwd]
  rw [← hprepared, ← files_prepared] at hmore
  refine ⟨hcwd ▸ hmade, ?_, ?_⟩
  · rw [hcwd]
    exact locate_mono hmore hroom.leads
  · -- Nor is there a directory at its place, whether made for another one or for itself.
    rw [hcwd]
    intro hdirectory
    have hway := hroom.not_isOnWay_holder hc
    obtain heq | hmadeHere := Files.get?_makeDirectories host'.files host.cwd (cache.holder c)
      (cache.target host.cwd c)
    · rw [hprepared, heq] at hdirectory
      obtain hbefore | ⟨d, hd, hother⟩ := h.directories _ hdirectory
      · have hgrows : host.files.Grows (cache.prepared c host).files := grows_prepared
        exact hroom.free (hgrows.keeps hbefore)
      · obtain ⟨hvalid, -, hblocks, -⟩ := hstored d hd
        exact hblocks (hroom.blocks_of_isOnWay hc hvalid hother)
    · exact hway hmadeHere

/-- The directories that are made for an artifact are on the way to it. -/
theorem prepare (h : cache.Beside host host' stored) (c : Coordinate) :
    cache.Beside host (cache.prepared c host') (stored ++ [c]) := by
  have hgrows : host'.files.Grows (cache.prepared c host').files := grows_prepared
  have hkeeps : host'.Keeps (cache.prepared c host') :=
    ⟨cache.cwd_prepared c host', .of_grows hgrows⟩
  refine ⟨h.keeps.trans hkeeps, fun q content hget => ?_, fun q hget => ?_⟩
  · -- What is new are directories, so a file was there before.
    obtain heq | ⟨-, hdirectory⟩ := hgrows.get? q
    · rw [heq] at hget
      refine (h.files q content hget).imp_right ?_
      rintro ⟨d, hd, hq⟩
      exact ⟨d, List.mem_append_left [c] hd, hq⟩
    · rw [hdirectory] at hget
      cases hget
  · rw [files_prepared, h.keeps.cwd] at hget
    obtain heq | hway := Files.get?_makeDirectories host'.files host.cwd (cache.holder c) q
    · rw [heq] at hget
      refine (h.directories q hget).imp_right ?_
      rintro ⟨d, hd, hq⟩
      exact ⟨d, List.mem_append_left [c] hd, hq⟩
    · exact .inr ⟨c, List.mem_append_right stored (List.mem_singleton_self c), hway⟩

/-- The file of an artifact is put where nothing was. -/
theorem put (h : cache.Beside host host' stored) (hc : c ∈ stored) (bytes : ByteArray)
    (hvacant : host'.files.get? (cache.target host.cwd c) = none) :
    cache.Beside host
      (host'.withFiles (host'.files.put (cache.target host.cwd c) (.file bytes))) stored := by
  have hnew : host'.files.get? (cache.target host.cwd c) ≠ some .directory := by
    simp [hvacant]
  have hkeeps : host'.Keeps
      (host'.withFiles (host'.files.put (cache.target host.cwd c) (.file bytes))) :=
    ⟨rfl, .put _ hvacant⟩
  refine ⟨h.keeps.trans hkeeps, fun q content hget => ?_, fun q hget => ?_⟩
  · by_cases hq : q = cache.target host.cwd c
    · exact .inr ⟨c, hc, hq⟩
    · rw [Host.files_withFiles, Tree.get?_put_of_ne _ _ _ _ hq] at hget
      exact h.files q content hget
  · rw [Host.files_withFiles, Tree.get?_put_file_eq_directory bytes hnew] at hget
    exact h.directories q hget

/-- Whatever a store comes to, it brings no more than the artifact and the directories on the way
to it. -/
theorem store (h : cache.Beside host host' stored) (hc : c.IsValid) (bytes : ByteArray) :
    cache.Beside host (cache.store c bytes host').2 (stored ++ [c]) := by
  have hprepared := h.prepare c
  obtain ⟨e, heq⟩ | ⟨heq, -⟩ | ⟨heq, -, hvacant⟩ := store_cases hc cache bytes host' <;> rw [heq]
  · exact hprepared
  · exact hprepared
  · rw [h.keeps.cwd] at hvacant ⊢
    exact hprepared.put (List.mem_append_right stored (List.mem_singleton_self c)) bytes hvacant

end Beside

/-! ## Storing one after the other -/

/-- The host after an artifact was stored, or could not be. -/
def keep (cache : Cache) (host : Host) (e : Coordinate × ByteArray) : Host :=
  (cache.store e.1 e.2 host).2

/-- The host after artifacts were stored one after the other, as far as they could be. -/
def keepAll (cache : Cache) (host : Host) (entries : List (Coordinate × ByteArray)) : Host :=
  runFrom cache.keep host entries

theorem keepAll_concat (cache : Cache) (host : Host) (past : List (Coordinate × ByteArray))
    (e : Coordinate × ByteArray) :
    cache.keepAll host (past ++ [e]) = cache.keep (cache.keepAll host past) e :=
  Concurrency.runFrom_concat host past e

variable {entries : List (Coordinate × ByteArray)}

theorem beside_keepAll (cache : Cache) (host : Host) (hvalid : ∀ e ∈ entries, e.1.IsValid) :
    cache.Beside host (cache.keepAll host entries) (entries.map (·.1)) := by
  induction entries using List.reverseRecOn with
  | nil => exact .refl cache host
  | append_singleton past e ih =>
    rw [keepAll_concat, List.map_append]
    exact (ih fun e' he => hvalid e' (List.mem_append_left [e] he)).store
      (hvalid e (List.mem_append_right past (List.mem_singleton_self e))) e.2

theorem keeps_keep (cache : Cache) (host : Host) (e : Coordinate × ByteArray) :
    host.Keeps (cache.keep host e) := by
  rw [keep]
  exact cache.keeps_store e.1 e.2 host

/-- What was found on the way is found at the end. -/
theorem keeps_keepAll (cache : Cache) (host : Host) {past : List (Coordinate × ByteArray)}
    (h : past <+: entries) : (cache.keepAll host past).Keeps (cache.keepAll host entries) :=
  Concurrency.runFrom_relates (R := Host.Keeps) .refl (fun _ _ _ h h' => h.trans h')
    (fun _ e => cache.keeps_keep _ e) h

/-- Artifacts that there is room for, and that are not in each other's way, can all be stored. -/
theorem store_keepAll (hvalid : ∀ e ∈ entries, e.1.IsValid)
    (hroom : ∀ e ∈ entries, cache.HasRoom host e.1)
    (hapart : ∀ e ∈ entries, ∀ e' ∈ entries, ¬ e.1.Blocks e'.1)
    {past : List (Coordinate × ByteArray)} {e : Coordinate × ByteArray}
    (h : Follows past e entries) :
    (cache.store e.1 e.2 (cache.keepAll host past)).1 = .ok (cache.pathFor e.1) := by
  have hpast : ∀ e' ∈ past, e' ∈ entries := fun e' he =>
    h.subset (List.mem_append_left [e] he)
  have he : e ∈ entries := h.mem
  have hbeside := beside_keepAll cache host fun e' he => hvalid e' (hpast e' he)
  refine (hbeside.hasRoom (hvalid e he) (hroom e he) ?_).store (hvalid e he) e.2
  intro d hd
  obtain ⟨e', he', rfl⟩ := List.mem_map.mp hd
  exact ⟨hvalid e' (hpast e' he'), hroom e' (hpast e' he'), hapart e he e' (hpast e' he'),
    hapart e' (hpast e' he') e he⟩

/-- Where two artifacts are both found, none is in the way of the other. -/
theorem not_blocks_of_isFile (hc : c.IsValid) (hd : d.IsValid)
    (hfile : host.isFile (cache.pathFor c) = true)
    (hother : host.isFile (cache.pathFor d) = true) : ¬ c.Blocks d := by
  intro hblocks
  obtain ⟨⟨more, hmore⟩, hne⟩ := Coordinate.names_prefix_of_blocks hblocks
  obtain ⟨-, content, hget⟩ := isFile_iff.mp hfile
  have hlocate := (isFile_iff.mp hother).1
  rw [pathFor_eq hd, ← hmore, Path.joinAll_append, ← pathFor_eq hc] at hlocate
  have hmoreNe : more ≠ [] := by
    rintro rfl
    exact hne ((List.append_nil _).symm.trans hmore)
  obtain ⟨-, hdirectory⟩ := Files.locate_of_joinAll hmoreNe
    (fun n hn => hd.isName_of_mem (hmore ▸ List.mem_append_right c.names hn))
    (Files.text_ne_empty_of_endsInStep (cache.endsInName_pathFor c).endsInStep) hlocate
  rw [hget] at hdirectory
  cases hdirectory

theorem lookup_eq_some_iff : cache.lookup host c = some (cache.pathFor c) ↔
    host.isFile (cache.pathFor c) = true := by
  rw [lookup]
  split <;> simp_all

/-! ## Main statement -/

/-- The path of a parsed artifact goes through that of another one exactly if the file of the other
one is in its way. Artifacts that could be stored by themselves are all stored and found afterwards,
in whatever order they are stored, exactly if none of them is in the way of another one. -/
theorem stored_together_iff (cache : Cache) (host : Host)
    (entries : List (Coordinate × ByteArray))
    (hparsed : ∀ e ∈ entries, ∃ s, Coordinate.parse? s = some e.1)
    (halone : ∀ e ∈ entries, ∃ path, (cache.store e.1 e.2 host).1 = .ok path) :
    (∀ s s' c d, Coordinate.parse? s = some c → Coordinate.parse? s' = some d →
      (c.relativePath.IsAncestor d.relativePath ↔ c.Blocks d)) ∧
    ((∀ past e, Follows past e entries →
        (cache.store e.1 e.2 (cache.keepAll host past)).1 = .ok (cache.pathFor e.1)) ∧
      (∀ e ∈ entries,
        cache.lookup (cache.keepAll host entries) e.1 = some (cache.pathFor e.1)) ↔
      ∀ e ∈ entries, ∀ e' ∈ entries, ¬ e.1.Blocks e'.1) := by
  have hvalid (e : Coordinate × ByteArray) (he : e ∈ entries) : e.1.IsValid :=
    have ⟨_, hparse⟩ := hparsed e he
    Coordinate.isValid_of_parse? hparse
  have hroom (e : Coordinate × ByteArray) (he : e ∈ entries) : cache.HasRoom host e.1 :=
    have ⟨_, hstore⟩ := halone e he
    .of_store (hvalid e he) hstore
  refine ⟨fun s s' c d hs hs' => ?_, fun h e he e' he' => ?_, fun hapart => ⟨fun past e h => ?_,
    fun e he => ?_⟩⟩
  · exact Coordinate.isAncestor_iff (Coordinate.isValid_of_parse? hs)
      (Coordinate.isValid_of_parse? hs')
  · exact not_blocks_of_isFile (hvalid e he) (hvalid e' he') (lookup_eq_some_iff.mp (h.2 e he))
      (lookup_eq_some_iff.mp (h.2 e' he'))
  · exact store_keepAll hvalid hroom hapart h
  · obtain ⟨past, rest, rfl⟩ := List.append_of_mem he
    have hfollows : Follows past e (past ++ e :: rest) := ⟨rest, by simp⟩
    have hstored := store_keepAll hvalid hroom hapart hfollows
    rcases hstore : cache.store e.1 e.2 (cache.keepAll host past) with ⟨result, stored⟩
    rw [hstore] at hstored
    obtain rfl : result = .ok (cache.pathFor e.1) := hstored
    obtain ⟨-, hfile⟩ := isFile_of_store_eq_ok hstore
    have hkeeps := keeps_keepAll cache host hfollows
    rw [keepAll_concat, keep, hstore] at hkeeps
    exact lookup_eq_some_iff.mpr (hkeeps.isFile hfile)

/-- Of an artifact and one that needs a directory in the place of its file, each can be stored by
itself, and only the first one that is stored is found. -/
theorem outer_excludes_inner :
    let cache : Cache := ⟨⟨"cache"⟩⟩
    let x : Coordinate × ByteArray := (outer, ⟨#[1]⟩)
    let y : Coordinate × ByteArray := (inner, ⟨#[2]⟩)
    Coordinate.parse? "a:b:1" = some outer ∧ Coordinate.parse? "a.b.1:b-1.rhai:2" = some inner ∧
      outer ≠ inner ∧ outer.relativePath.IsAncestor inner.relativePath ∧
      (cache.store x.1 x.2 emptyHost).1 = .ok (cache.pathFor outer) ∧
      (cache.store y.1 y.2 emptyHost).1 = .ok (cache.pathFor inner) ∧
      (cache.store y.1 y.2 (cache.keepAll emptyHost [x])).1 = .error (.cache inner .notDirectory) ∧
      (cache.store x.1 x.2 (cache.keepAll emptyHost [y])).1 = .error (.cache outer .isDirectory) ∧
      cache.lookup (cache.keepAll emptyHost [x, y]) inner = none ∧
      cache.lookup (cache.keepAll emptyHost [y, x]) outer = none := by
  intro cache x y
  have hancestor : outer.relativePath.IsAncestor inner.relativePath := by
    rw [Path.IsAncestor]
    decide
  exact ⟨by decide, by decide, by decide, hancestor, by decide +kernel, by decide +kernel,
    by decide +kernel, by decide +kernel, by decide +kernel, by decide +kernel⟩

/-- Two versions of an artifact are found beside each other. -/
theorem two_versions_together :
    let cache : Cache := ⟨⟨"cache"⟩⟩
    let entries : List (Coordinate × ByteArray) :=
      [(⟨"a", "b", "2"⟩, ⟨#[2]⟩), (outer, ⟨#[1]⟩)]
    (∀ e ∈ entries, ∃ s, Coordinate.parse? s = some e.1) ∧
      (∀ e ∈ entries, ∃ path, (cache.store e.1 e.2 emptyHost).1 = .ok path) ∧
      (∀ e ∈ entries, ∀ e' ∈ entries, ¬ e.1.Blocks e'.1) ∧
      ∀ e ∈ entries,
        cache.lookup (cache.keepAll emptyHost entries) e.1 = some (cache.pathFor e.1) := by
  intro cache entries
  have hparsed : ∀ e ∈ entries, ∃ s, Coordinate.parse? s = some e.1 := by
    simp only [entries, List.forall_mem_cons]
    exact ⟨⟨"a:b:2", by decide⟩, ⟨"a:b:1", by decide⟩, nofun⟩
  have halone : ∀ e ∈ entries, ∃ path, (cache.store e.1 e.2 emptyHost).1 = .ok path := by
    simp only [entries, List.forall_mem_cons]
    exact ⟨⟨cache.pathFor ⟨"a", "b", "2"⟩, by decide +kernel⟩,
      ⟨cache.pathFor outer, by decide +kernel⟩, nofun⟩
  have hapart : ∀ e ∈ entries, ∀ e' ∈ entries, ¬ e.1.Blocks e'.1 := by
    have hgroup : ∀ e ∈ entries, e.1.group = "a" := by
      simp [entries, outer]
    intro e he e' he' hblocks
    have hlonger := hblocks.length_group_lt
    rw [hgroup e he, hgroup e' he'] at hlonger
    exact lt_irrefl _ hlonger
  have hiff := (stored_together_iff cache emptyHost entries hparsed halone).2
  exact ⟨hparsed, halone, hapart, (hiff.mpr hapart).2⟩

end Cache
end Artifact
end ScriptSession
