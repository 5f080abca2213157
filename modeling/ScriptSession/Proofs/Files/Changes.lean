import ScriptSession.Proofs.Files.Places

/-!
# Changes of file trees along paths

A file that is staged and moved comes to lie where nothing was (`rename_staged`). Directories are
made where there are none, and making those of a path with names behind it makes them below the
place of the path and on the way to it only (`get?_makeDirectories_joinAll`).
-/

namespace ScriptSession
namespace Files

open ScriptSession.Path (IsName)

variable {t t' : Tree} {cwd place : Place}

/-! ## Putting files -/

theorem locate_put_file {p : Path} {q : Place} (content : ByteArray)
    (h : t.get? place ≠ some .directory) :
    locate (t.put place (.file content)) cwd p = .ok q ↔ locate t cwd p = .ok q :=
  ⟨locate_mono fun _ => (Tree.get?_put_file_eq_directory content h).mp,
    locate_mono fun _ => (Tree.get?_put_file_eq_directory content h).mpr⟩

theorem isFile_put_file {p : Path} (content : ByteArray) (h : t.get? place ≠ some .directory)
    (hne : placeOf cwd p ≠ place) :
    isFile (t.put place (.file content)) cwd p = isFile t cwd p := by
  rw [Bool.eq_iff_iff, isFile_iff, isFile_iff, locate_put_file content h,
    Tree.get?_put_of_ne _ _ _ _ hne]

theorem obstacle?_eq_none_iff :
    obstacle? t place = none ↔
      t.get? place ≠ some .directory ∧ t.get? place.dropLast = some .directory := by
  unfold obstacle?
  split <;> simp_all

/-- What is written is a file at the place of its path. -/
theorem write_eq_ok {p : Path} {content : ByteArray} :
    write t cwd p content = .ok t' ↔ locate t cwd p = .ok (placeOf cwd p) ∧
      obstacle? t (placeOf cwd p) = none ∧ t' = t.put (placeOf cwd p) (.file content) := by
  unfold write
  cases hlocate : locate t cwd p with
  | error e => exact iff_of_false nofun fun h => nomatch h.1
  | ok q =>
    obtain rfl := eq_placeOf_of_locate hlocate
    cases hobstacle : obstacle? t (placeOf cwd p) with
    | some e =>
      simp only [bind, Except.bind, hobstacle]
      exact iff_of_false nofun fun h => nomatch h.2.1
    | none =>
      simp only [bind, Except.bind, hobstacle, pure, Except.pure, Except.ok.injEq, true_and]
      exact eq_comm

/-- What was written is read. -/
theorem read_of_write {p : Path} {content : ByteArray} (h : write t cwd p content = .ok t') :
    read t' cwd p = .ok content := by
  obtain ⟨hlocate, hobstacle, rfl⟩ := write_eq_ok.mp h
  have hdirectory := (obstacle?_eq_none_iff.mp hobstacle).1
  have hne : placeOf cwd p ≠ [] := by
    intro hroot
    rw [hroot] at hdirectory
    exact hdirectory t.get?_root
  rw [read_eq_ok, locate_put_file content hdirectory]
  exact ⟨hlocate, Tree.get?_put_self _ _ _ hne⟩

/-- A directory stays one when a file is written. -/
theorem isDirectory_of_write {p : Path} {content : ByteArray} {q : Place}
    (h : write t cwd p content = .ok t') (hq : t.get? q = some .directory) :
    t'.get? q = some .directory := by
  obtain ⟨-, hobstacle, rfl⟩ := write_eq_ok.mp h
  exact (Tree.get?_put_file_eq_directory content (obstacle?_eq_none_iff.mp hobstacle).1).mpr hq

/-- Where a file was written another one can be written over it. -/
theorem write_again {p : Path} {content : ByteArray} (content' : ByteArray)
    (h : write t cwd p content = .ok t') :
    write t' cwd p content' = .ok (t'.put (placeOf cwd p) (.file content')) := by
  obtain ⟨hlocate, hobstacle, rfl⟩ := write_eq_ok.mp h
  obtain ⟨hplace, hholder⟩ := obstacle?_eq_none_iff.mp hobstacle
  refine write_eq_ok.mpr ⟨(locate_put_file content hplace).mpr hlocate, ?_, rfl⟩
  rw [obstacle?_eq_none_iff, Ne, Tree.get?_put_file_eq_directory content hplace,
    Tree.get?_put_file_eq_directory content hplace]
  exact ⟨hplace, hholder⟩

theorem stage_eq_ok {d : Path} {content : ByteArray} {staged : Place}
    (h : stage t cwd d content = .ok (staged, t')) :
    staged = stagingPlace t (placeOf cwd d) ∧ t' = t.put staged (.file content) := by
  unfold stage at h
  cases hentry : entry t cwd d with
  | error e =>
    rw [hentry] at h
    cases h
  | ok found =>
    obtain ⟨q, e⟩ := found
    obtain rfl := eq_placeOf_of_locate (entry_eq_ok.mp hentry).1
    rw [hentry] at h
    cases e with
    | file content' => cases h
    | directory =>
      cases h
      exact ⟨rfl, rfl⟩

theorem stage_of_locate {d : Path} (content : ByteArray)
    (h : locate t cwd d = .ok (placeOf cwd d)) (hdir : t.get? (placeOf cwd d) = some .directory) :
    stage t cwd d content = .ok (stagingPlace t (placeOf cwd d),
      t.put (stagingPlace t (placeOf cwd d)) (.file content)) := by
  rw [stage, entry_eq_ok.mpr ⟨h, hdir⟩]
  rfl

theorem rename_eq_ok {source : Place} {p : Path} (h : rename t cwd source p = .ok t') :
    locate t cwd p = .ok (placeOf cwd p) ∧ obstacle? t (placeOf cwd p) = none ∧
      ∃ e, t.get? source = some e ∧ t' = (t.erase source).put (placeOf cwd p) e := by
  unfold rename at h
  cases hlocate : locate t cwd p with
  | error e =>
    rw [hlocate] at h
    cases h
  | ok q =>
    obtain rfl := eq_placeOf_of_locate hlocate
    rw [hlocate] at h
    cases hsource : t.get? source with
    | none => simp [bind, Except.bind, hsource] at h
    | some e =>
      cases hobstacle : obstacle? t (placeOf cwd p) with
      | some failure => simp [bind, Except.bind, hsource, hobstacle] at h
      | none =>
        simp only [bind, Except.bind, hsource, hobstacle, pure, Except.pure, Except.ok.injEq] at h
        exact ⟨rfl, rfl, e, rfl, h.symm⟩

/-- What there is can be moved to a path that leads into a directory, where there is none. -/
theorem rename_of_locate {source : Place} {p : Path} {e : Entry}
    (hlocate : locate t cwd p = .ok (placeOf cwd p)) (hsource : t.get? source = some e)
    (hobstacle : obstacle? t (placeOf cwd p) = none) :
    rename t cwd source p = .ok ((t.erase source).put (placeOf cwd p) e) := by
  simp only [rename, hlocate, bind, Except.bind, hsource, hobstacle]
  rfl

/-- A staging file that is moved to a path where no file is ends up where nothing was. -/
theorem rename_staged {p : Path} {content : ByteArray} (hfree : t.get? place = none)
    (hne : placeOf cwd p ≠ place) (hfile : isFile t cwd p = false)
    (h : rename (t.put place (.file content)) cwd place p = .ok t') :
    locate t cwd p = .ok (placeOf cwd p) ∧ t.get? (placeOf cwd p) = none ∧
      t' = t.put (placeOf cwd p) (.file content) := by
  obtain ⟨hlocate, hobstacle, e, hsource, rfl⟩ := rename_eq_ok h
  rw [locate_put_file content (by rw [hfree]; exact nofun)] at hlocate
  rw [obstacle?_eq_none_iff, Tree.get?_put_of_ne _ _ _ _ hne] at hobstacle
  rw [Tree.get?_put_self _ _ _ (Tree.get?_eq_none_iff.mp hfree).1] at hsource
  refine ⟨hlocate, ?_, by rw [Tree.erase_put _ hfree, Option.some.inj hsource]⟩
  cases hget : t.get? (placeOf cwd p) with
  | none => rfl
  | some e =>
    cases e with
    | directory => exact absurd hget hobstacle.1
    | file content' =>
      rw [isFile_iff.mpr ⟨hlocate, content', hget⟩] at hfile
      cases hfile

/-! ## Removing files -/

/-- A file that is removed is no directory, and every directory stays one. -/
theorem get?_erase_eq_directory {q : Place} {content : ByteArray}
    (h : t.get? place = some (.file content)) :
    (t.erase place).get? q = some .directory ↔ t.get? q = some .directory := by
  by_cases hq : q = place
  · subst hq
    have hne : q ≠ [] := by
      rintro rfl
      rw [t.get?_root] at h
      cases h
    rw [Tree.get?_erase_self t hne, h]
    exact iff_of_false nofun nofun
  · rw [Tree.get?_erase_of_ne t hq]

theorem locate_erase {p : Path} {q : Place} {content : ByteArray}
    (h : t.get? place = some (.file content)) :
    locate (t.erase place) cwd p = .ok q ↔ locate t cwd p = .ok q :=
  ⟨locate_mono fun _ => (get?_erase_eq_directory h).mp,
    locate_mono fun _ => (get?_erase_eq_directory h).mpr⟩

/-- Where a file was removed no path leads to one, and every other file is still there. -/
theorem isFile_erase {p : Path} {content : ByteArray}
    (h : t.get? place = some (.file content)) :
    isFile (t.erase place) cwd p = true ↔ isFile t cwd p = true ∧ placeOf cwd p ≠ place := by
  have hne : place ≠ [] := by
    rintro rfl
    rw [t.get?_root] at h
    cases h
  rw [isFile_iff, isFile_iff, locate_erase h]
  by_cases hp : placeOf cwd p = place
  · rw [hp, Tree.get?_erase_self t hne]
    exact iff_of_false (fun hfile => nomatch hfile.2) fun hfile => hfile.2 rfl
  · rw [Tree.get?_erase_of_ne t hp]
    exact ⟨fun hfile => ⟨hfile, hp⟩, fun hfile => hfile.1⟩

theorem read_erase {p : Path} {content removed : ByteArray}
    (h : t.get? place = some (.file removed)) (hne : placeOf cwd p ≠ place) :
    read (t.erase place) cwd p = .ok content ↔ read t cwd p = .ok content := by
  rw [read_eq_ok, read_eq_ok, locate_erase h, Tree.get?_erase_of_ne t hne]

/-- A file that is moved to a path is what is read there. -/
theorem read_of_rename {source : Place} {p : Path} {content : ByteArray}
    (h : rename t cwd source p = .ok t') (hsource : t.get? source = some (.file content))
    (hne : placeOf cwd p ≠ source) : read t' cwd p = .ok content := by
  obtain ⟨hlocate, hobstacle, e, hget, rfl⟩ := rename_eq_ok h
  obtain rfl : Entry.file content = e := Option.some.inj (hsource.symm.trans hget)
  have hvacant := (obstacle?_eq_none_iff.mp hobstacle).1
  have hroot : placeOf cwd p ≠ [] := by
    intro hroot
    rw [hroot, Tree.get?_root] at hvacant
    exact hvacant rfl
  rw [← Tree.get?_erase_of_ne t hne] at hvacant
  rw [read_eq_ok, locate_put_file content hvacant, locate_erase hsource]
  exact ⟨hlocate, Tree.get?_put_self _ _ _ hroot⟩

/-! ## Making directories -/

/-- One step of making directories. -/
theorem walkCreating_cons (t : Tree) (segment : String) (rest : List String) (place : Place) :
    walkCreating t (segment :: rest) place =
      if segment = "" ∨ segment = "." ∨ segment = ".." then
        walkCreating t rest (stepTo place segment)
      else if nameLimit < segment.utf8ByteSize then (some .nameTooLong, t)
      else
        match t.get? (stepTo place segment) with
        | some .directory => walkCreating t rest (stepTo place segment)
        | some (.file _) =>
          (some (if rest.all (fun s => s = "" ∨ s = ".") then .exists_ else .notDirectory), t)
        | none =>
          walkCreating (t.put (stepTo place segment) .directory) rest (stepTo place segment) := by
  rw [walkCreating, stepTo]
  by_cases hidle : segment = "" ∨ segment = "."
  · simp only [if_pos hidle, if_pos (hidle.imp_right .inl : segment = "" ∨ segment = "." ∨ _)]
  · by_cases hparent : segment = ".."
    · simp only [if_neg hidle, if_pos hparent,
        if_pos (.inr (.inr hparent) : segment = "" ∨ segment = "." ∨ segment = "..")]
    · have hname : ¬ (segment = "" ∨ segment = "." ∨ segment = "..") := by tauto
      simp only [if_neg hidle, if_neg hparent]
      exact (if_neg hname).symm

theorem grows_walkCreating (t : Tree) (segments : List String) (place : Place) :
    t.Grows (walkCreating t segments place).2 := by
  induction segments generalizing t place with
  | nil => exact .refl t
  | cons s rest ih =>
    rw [walkCreating_cons]
    split
    · exact ih t _
    · split
      · exact .refl t
      · split
        · exact ih t _
        · exact .refl t
        · rename_i hnone
          exact (Tree.Grows.put hnone).trans (ih _ _)

theorem grows_makeDirectories (t : Tree) (cwd : Place) (p : Path) :
    t.Grows (makeDirectories t cwd p).2 := by
  rw [makeDirectories]
  split
  · exact .refl t
  · split
    · exact .refl t
    · exact grows_walkCreating t _ _

/-- What was made along segments needs not be made again, as long as no directory went away. -/
theorem walkCreating_again {segments : List String} {t'' : Tree}
    (h : walkCreating t segments place = (none, t'))
    (hkept : ∀ q, t'.get? q = some .directory → t''.get? q = some .directory) :
    walkCreating t'' segments place = (none, t'') := by
  induction segments generalizing t place with
  | nil => rfl
  | cons s rest ih =>
    rw [walkCreating_cons] at h ⊢
    by_cases hidle : s = "" ∨ s = "." ∨ s = ".."
    · rw [if_pos hidle] at h ⊢
      exact ih h
    · rw [if_neg hidle] at h ⊢
      by_cases hlong : nameLimit < s.utf8ByteSize
      · rw [if_pos hlong] at h
        cases h
      · rw [if_neg hlong] at h ⊢
        -- A directory of the way stays one to the end.
        have hstays : ∀ t : Tree, t.get? (stepTo place s) = some .directory →
            walkCreating t rest (stepTo place s) = (none, t') →
            t''.get? (stepTo place s) = some .directory := by
          intro t hdir hrest
          have hgrows := grows_walkCreating t rest (stepTo place s)
          rw [hrest] at hgrows
          exact hkept _ (hgrows.keeps hdir)
        cases hget : t.get? (stepTo place s) with
        | none =>
          rw [hget] at h
          have hmade := Tree.get?_put_self t (stepTo place s) .directory
            (Tree.get?_eq_none_iff.mp hget).1
          simp only [hstays _ hmade h]
          exact ih h
        | some e =>
          rw [hget] at h
          cases e with
          | directory =>
            simp only [hstays _ hget h]
            exact ih h
          | file content => cases h

theorem makeDirectories_again {p : Path} {t'' : Tree} (h : makeDirectories t cwd p = (none, t'))
    (hkept : ∀ q, t'.get? q = some .directory → t''.get? q = some .directory) :
    makeDirectories t'' cwd p = (none, t'') := by
  rw [makeDirectories] at h ⊢
  by_cases hempty : p.text = ""
  · rw [if_pos hempty]
  · rw [if_neg hempty] at h ⊢
    by_cases hnul : p.text.toList.contains '\x00' = true
    · rw [if_pos hnul] at h
      cases h
    · rw [if_neg hnul] at h ⊢
      exact walkCreating_again h hkept

/-- What is made along segments is on their way. -/
theorem get?_walkCreating (t : Tree) (segments : List String) (place : Place) (q : Place) :
    (walkCreating t segments place).2.get? q = t.get? q ∨
      ∃ front, front <+: segments ∧ q = front.foldl stepTo place := by
  induction segments generalizing t place with
  | nil => exact .inl rfl
  | cons s rest ih =>
    -- The tree changes before the rest is made, so the induction has to be for every tree.
    have hrest : ∀ t, (walkCreating t rest (stepTo place s)).2.get? q = t.get? q ∨
        ∃ front, front <+: s :: rest ∧ q = front.foldl stepTo place := fun t =>
      (ih t (stepTo place s)).imp_right fun ⟨front, hfront, hq⟩ =>
        ⟨s :: front, List.cons_prefix_cons.mpr ⟨rfl, hfront⟩, hq⟩
    rw [walkCreating_cons]
    split
    · exact hrest t
    · split
      · exact .inl rfl
      · split
        · exact hrest t
        · exact .inl rfl
        · by_cases hq : q = stepTo place s
          · exact .inr ⟨[s], List.cons_prefix_cons.mpr ⟨rfl, List.nil_prefix⟩, hq⟩
          · rw [← Tree.get?_put_of_ne t (stepTo place s) q .directory hq]
            exact hrest _

/-- One step of making directories by a name, where no file is in the way: the walk goes on from a
directory. -/
theorem exists_walkCreating_cons {s : String} (rest : List String)
    (hname : ¬ (s = "" ∨ s = "." ∨ s = "..")) (hshort : ¬ nameLimit < s.utf8ByteSize)
    (hfree : ∀ content, t.get? (stepTo place s) ≠ some (.file content)) :
    ∃ grown, walkCreating t (s :: rest) place = walkCreating grown rest (stepTo place s) ∧
      grown.get? (stepTo place s) = some .directory ∧
      ∀ q, q ≠ stepTo place s → grown.get? q = t.get? q := by
  rw [walkCreating_cons, if_neg hname, if_neg hshort]
  cases hget : t.get? (stepTo place s) with
  | none =>
    exact ⟨_, rfl, Tree.get?_put_self t _ _ (Tree.get?_eq_none_iff.mp hget).1,
      fun q hq => Tree.get?_put_of_ne t _ q _ hq⟩
  | some e =>
    cases e with
    | directory => exact ⟨t, rfl, hget, fun _ _ => rfl⟩
    | file content => exact absurd hget (hfree content)

/-- What could be made along segments can be made in a tree with more directories, unless a file is
on the way. -/
theorem walkCreating_beside {segments : List String} {made : Tree}
    (h : walkCreating t segments place = (none, made))
    (hkept : ∀ q, t.get? q = some .directory → t'.get? q = some .directory)
    (hfree : ∀ front, front <+: segments →
      ∀ content, t'.get? (front.foldl stepTo place) ≠ some (.file content)) :
    (walkCreating t' segments place).1 = none ∧ ∀ q, made.get? q = some .directory →
      (walkCreating t' segments place).2.get? q = some .directory := by
  induction segments generalizing t t' place with
  | nil =>
    cases h
    exact ⟨rfl, hkept⟩
  | cons s rest ih =>
    have hrest : ∀ front, front <+: rest →
        ∀ content, t'.get? (front.foldl stepTo (stepTo place s)) ≠ some (.file content) :=
      fun front hfront => hfree (s :: front) (List.cons_prefix_cons.mpr ⟨rfl, hfront⟩)
    by_cases hname : s = "" ∨ s = "." ∨ s = ".."
    · rw [walkCreating_cons, if_pos hname] at h ⊢
      exact ih h hkept hrest
    by_cases hshort : nameLimit < s.utf8ByteSize
    · rw [walkCreating_cons, if_neg hname, if_pos hshort] at h
      cases h
    -- Both walks go on from a directory, and the trees differ from before at its place only.
    have hnext : ∀ content, t'.get? (stepTo place s) ≠ some (.file content) :=
      hfree [s] (List.cons_prefix_cons.mpr ⟨rfl, List.nil_prefix⟩)
    have hfirst : ∀ content, t.get? (stepTo place s) ≠ some (.file content) := by
      intro content hget
      rw [walkCreating_cons, if_neg hname, if_neg hshort, hget] at h
      cases h
    obtain ⟨grown, heq, hdir, hsame⟩ := exists_walkCreating_cons rest hname hshort hfirst
    obtain ⟨grown', heq', hdir', hsame'⟩ := exists_walkCreating_cons rest hname hshort hnext
    rw [heq] at h
    rw [heq']
    refine ih h (fun q hq => ?_) fun front hfront content => ?_
    · by_cases hplace : q = stepTo place s
      · rw [hplace, hdir']
      · rw [hsame' q hplace]
        exact hkept q (hsame q hplace ▸ hq)
    · by_cases hplace : front.foldl stepTo (stepTo place s) = stepTo place s
      · rw [hplace, hdir']
        exact nofun
      · rw [hsame' _ hplace]
        exact hrest front hfront content

/-- Where a walk arrives at a directory there is nothing to make. -/
theorem walkCreating_of_walk {segments : List String} {q : Place}
    (h : walk t segments place = .ok q) (hq : t.get? q = some .directory) :
    walkCreating t segments place = (none, t) := by
  induction segments generalizing place with
  | nil => rfl
  | cons s rest ih =>
    obtain ⟨-, hlength, hrest⟩ := walk_cons_eq_ok.mp h
    have hnext : t.get? (stepTo place s) = some .directory := isDirectory_of_walk hrest hq
    rw [walkCreating_cons]
    split
    · exact ih hrest
    · rw [if_neg (by omega)]
      simp only [hnext]
      exact ih hrest

theorem makeDirectories_of_locate {p : Path} {q : Place} (h : locate t cwd p = .ok q)
    (hq : t.get? q = some .directory) : makeDirectories t cwd p = (none, t) := by
  obtain ⟨hne, hnul, hwalk⟩ := locate_eq_ok h
  rw [makeDirectories, if_neg hne, if_neg (by simpa using hnul)]
  exact walkCreating_of_walk hwalk hq

/-- Directories along two lists of segments are made one after the other. -/
theorem walkCreating_append (t : Tree) (xs ys : List String) (place : Place) :
    (walkCreating t (xs ++ ys) place).2 =
      match walkCreating t xs place with
      | (none, t') => (walkCreating t' ys (xs.foldl stepTo place)).2
      | (some _, t') => t' := by
  induction xs generalizing t place with
  | nil => rfl
  | cons x xs ih =>
    rw [List.cons_append, walkCreating_cons, walkCreating_cons, List.foldl_cons]
    split
    · exact ih t _
    · split
      · rfl
      · split
        · exact ih t _
        · rfl
        · exact ih _ _

/-- An empty segment makes nothing. -/
theorem walkCreating_idle (t : Tree) (xs ys : List String) (place : Place) :
    walkCreating t (xs ++ "" :: ys) place = walkCreating t (xs ++ ys) place := by
  induction xs generalizing t place with
  | nil => rfl
  | cons x xs ih =>
    have hall : (xs ++ "" :: ys).all (fun s => decide (s = "" ∨ s = ".")) =
        (xs ++ ys).all fun s => decide (s = "" ∨ s = ".") := by
      simp
    rw [List.cons_append, List.cons_append, walkCreating, walkCreating, hall]
    simp only [ih]

theorem walkCreating_joinAll (t : Tree) (p : Path) {names : List String}
    (h : ∀ n ∈ names, IsName n) (ys : List String) (place : Place) :
    walkCreating t ((p.joinAll names).segments ++ ys) place =
      walkCreating t (p.segments ++ (names ++ ys)) place := by
  induction names generalizing p with
  | nil => rfl
  | cons n names ih =>
    have hjoin := ih (p.join n) fun m hm => h m (List.mem_cons_of_mem n hm)
    obtain heq | ⟨front, hp, heq⟩ := Path.segments_join p (h n List.mem_cons_self)
    · rw [heq, List.append_assoc] at hjoin
      exact hjoin
    · rw [heq, List.append_assoc, List.singleton_append] at hjoin
      rw [hp, List.append_assoc, List.singleton_append, walkCreating_idle]
      exact hjoin

/-- Making directories by names from a place changes nothing but what is below it. -/
theorem get?_walkCreating_of_names (t : Tree) {names : List String} (h : ∀ n ∈ names, IsName n)
    (place : Place) {q : Place} (hq : ¬ IsBelow place q) :
    (walkCreating t names place).2.get? q = t.get? q := by
  induction names generalizing t place with
  | nil => rfl
  | cons n names ih =>
    have hn : IsName n := h n List.mem_cons_self
    -- What is below the next place is below this one, and the next place itself is too.
    have hnext : ¬ IsBelow (place ++ [n]) q := by
      rintro ⟨more, -, rfl⟩
      exact hq ⟨n :: more, by simp, by simp⟩
    have hrest := fun t => ih t (fun m hm => h m (List.mem_cons_of_mem n hm)) (place ++ [n]) hnext
    rw [walkCreating_cons, stepTo_of_isName place hn,
      if_neg (by simp [hn.ne_empty, hn.ne_dot, hn.ne_dots])]
    split
    · rfl
    · split
      · exact hrest t
      · rfl
      · rw [hrest, Tree.get?_put_of_ne]
        rintro rfl
        exact hq ⟨[n], by simp, rfl⟩

theorem contains_nul_joinAll (p : Path) {names : List String} (h : ∀ n ∈ names, IsFileName n) :
    (p.joinAll names).text.toList.contains '\x00' = p.text.toList.contains '\x00' := by
  induction names generalizing p with
  | nil => rfl
  | cons n names ih =>
    have hn : IsFileName n := h n List.mem_cons_self
    have hjoin := ih (p.join n) fun m hm => h m (List.mem_cons_of_mem n hm)
    have hname : n.toList.contains '\x00' = false := by simpa using hn.noNul
    have hjoint : p.joint.toList.contains '\x00' = false := by
      rw [Path.joint]
      split <;> decide
    rw [Path.text_join p hn.isAbsolute, String.toList_append, String.toList_append,
      List.contains_append, List.contains_append, hname, hjoint, Bool.or_false,
      Bool.or_false] at hjoin
    exact hjoin

theorem makeDirectories_eq (t : Tree) (cwd : Place) (p : Path) :
    makeDirectories t cwd p =
      if p.text.toList.contains '\x00' then (some .nulInName, t)
      else walkCreating t p.segments (origin cwd p) := by
  rw [makeDirectories, origin]
  split
  · rename_i hempty
    obtain ⟨text⟩ := p
    obtain rfl : text = "" := hempty
    rfl
  · rfl

/-- What is made for a path is on the way to it. -/
theorem get?_makeDirectories (t : Tree) (cwd : Place) (p : Path) (q : Place) :
    (makeDirectories t cwd p).2.get? q = t.get? q ∨ IsOnWay cwd p q := by
  rw [makeDirectories_eq]
  split
  · exact .inl rfl
  · exact get?_walkCreating t p.segments (origin cwd p) q

/-- The directories of a path that could be made can be made in a tree with more directories, unless
a file is on the way. -/
theorem makeDirectories_beside {p : Path} (h : (makeDirectories t cwd p).1 = none)
    (hkept : ∀ q, t.get? q = some .directory → t'.get? q = some .directory)
    (hfree : ∀ q, IsOnWay cwd p q → ∀ content, t'.get? q ≠ some (.file content)) :
    (makeDirectories t' cwd p).1 = none ∧
      ∀ q, (makeDirectories t cwd p).2.get? q = some .directory →
        (makeDirectories t' cwd p).2.get? q = some .directory := by
  rw [makeDirectories_eq] at h ⊢
  rw [makeDirectories_eq]
  by_cases hnul : p.text.toList.contains '\x00' = true
  · rw [if_pos hnul] at h
    cases h
  · rw [if_neg hnul] at h ⊢
    rw [if_neg hnul]
    rcases hmade : walkCreating t p.segments (origin cwd p) with ⟨failure, made⟩
    rw [hmade] at h
    obtain rfl : failure = none := h
    exact walkCreating_beside hmade hkept fun front hfront => hfree _ ⟨front, hfront, rfl⟩

/-- Outside of the directory of a path, making directories behind it makes directories on the way
to it only. -/
theorem get?_makeDirectories_joinAll (t : Tree) (cwd : Place) (p : Path) {names : List String}
    (h : ∀ n ∈ names, IsFileName n) {q : Place} (hq : ¬ IsBelow (placeOf cwd p) q) :
    (makeDirectories t cwd (p.joinAll names)).2.get? q = t.get? q ∨ IsOnWay cwd p q := by
  have hnames : ∀ n ∈ names, IsName n := fun n hn => (h n hn).toIsName
  rw [makeDirectories_eq, contains_nul_joinAll p h, origin_joinAll cwd p hnames]
  split
  · exact .inl rfl
  · have hjoin := walkCreating_joinAll t p hnames [] (origin cwd p)
    rw [List.append_nil, List.append_nil] at hjoin
    have hway := get?_walkCreating t p.segments (origin cwd p) q
    rw [hjoin, walkCreating_append]
    rcases hfront : walkCreating t p.segments (origin cwd p) with ⟨failure, t'⟩
    rw [hfront] at hway
    cases failure with
    | some e => exact hway
    | none =>
      rw [show (walkCreating t' names (p.segments.foldl stepTo (origin cwd p))).2.get? q = t'.get? q
        from get?_walkCreating_of_names t' hnames _ hq]
      exact hway

end Files
end ScriptSession
