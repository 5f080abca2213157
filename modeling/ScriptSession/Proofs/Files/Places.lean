import ScriptSession.Proofs.Files.Trees
import ScriptSession.Proofs.Path.Names

/-!
# Places of paths

The text of a path alone says which place it leads to (`placeOf`); the tree only decides whether a
walk along the path gets there. So whatever is joined to a path by names lies below the place of the
path (`placeOf_joinAll`), whoever looks for it looks below that place and on the way to
it only (`locate_joinAll_congr`).
-/

namespace ScriptSession
namespace Files

open ScriptSession.Path (IsName)

/-! ## Where paths lead -/

/-- Where a segment leads from a place. -/
def stepTo (place : Place) (segment : String) : Place :=
  if segment = "" ∨ segment = "." then place
  else if segment = ".." then place.dropLast
  else place ++ [segment]

/-- Where a path starts. -/
def origin (cwd : Place) (p : Path) : Place := if p.isAbsolute then [] else cwd

/-- The place a path leads to, if all that it goes through are directories. -/
def placeOf (cwd : Place) (p : Path) : Place := p.segments.foldl stepTo (origin cwd p)

/-- The name of an entry: a segment that is a name, without the character no path may have. -/
structure IsFileName (name : String) : Prop extends IsName name where
  noNul : '\x00' ∉ name.toList

/-- A place in a directory or further below it. -/
def IsBelow (directory place : Place) : Prop := ∃ names, names ≠ [] ∧ place = directory ++ names

/-- A place that a path goes through or leads to. -/
def IsOnWay (cwd : Place) (p : Path) (place : Place) : Prop :=
  ∃ front, front <+: p.segments ∧ place = front.foldl stepTo (origin cwd p)

theorem stepTo_of_isName (place : Place) {name : String} (h : IsName name) :
    stepTo place name = place ++ [name] := by
  rw [stepTo, if_neg (not_or.mpr ⟨h.ne_empty, h.ne_dot⟩), if_neg h.ne_dots]

theorem foldl_stepTo {names : List String} (h : ∀ n ∈ names, IsName n) (place : Place) :
    names.foldl stepTo place = place ++ names := by
  induction names generalizing place with
  | nil => simp
  | cons n names ih =>
    rw [List.foldl_cons, stepTo_of_isName place (h n List.mem_cons_self),
      ih fun m hm => h m (List.mem_cons_of_mem n hm), List.append_assoc, List.singleton_append]

theorem origin_join (cwd : Place) (p : Path) {name : String} (h : IsName name) :
    origin cwd (p.join name) = origin cwd p := by
  rw [origin, origin, Path.isAbsolute_join p h.isAbsolute]

theorem origin_joinAll (cwd : Place) (p : Path) {names : List String} (h : ∀ n ∈ names, IsName n) :
    origin cwd (p.joinAll names) = origin cwd p := by
  induction names generalizing p with
  | nil => rfl
  | cons n names ih =>
    have hjoin := ih (p.join n) fun m hm => h m (List.mem_cons_of_mem n hm)
    rw [origin_join cwd p (h n List.mem_cons_self)] at hjoin
    exact hjoin

/-- A name behind a path leads into the directory of the path. -/
theorem placeOf_join (cwd : Place) (p : Path) {name : String} (h : IsName name) :
    placeOf cwd (p.join name) = placeOf cwd p ++ [name] := by
  rw [placeOf, placeOf, origin_join cwd p h]
  obtain heq | ⟨front, hp, heq⟩ := Path.segments_join p h
  · rw [heq, List.foldl_append, List.foldl_cons, List.foldl_nil, stepTo_of_isName _ h]
  · rw [heq, hp, List.foldl_append, List.foldl_append]
    exact stepTo_of_isName _ h

/-- Names behind a path lead below the place of the path. -/
theorem placeOf_joinAll (cwd : Place) (p : Path) {names : List String}
    (h : ∀ n ∈ names, IsName n) : placeOf cwd (p.joinAll names) = placeOf cwd p ++ names := by
  induction names generalizing p with
  | nil => exact (List.append_nil _).symm
  | cons n names ih =>
    have hjoin := ih (p.join n) fun m hm => h m (List.mem_cons_of_mem n hm)
    rw [placeOf_join cwd p (h n List.mem_cons_self), List.append_assoc] at hjoin
    exact hjoin

/-! ## Walking -/

variable {t t' : Tree} {cwd place : Place}

/-- The segments that are no names are short enough for a directory. -/
theorem length_le_of_not_name {s : String} (h : s = "" ∨ s = "." ∨ s = "..") :
    ¬ nameLimit < s.utf8ByteSize := by
  rcases h with rfl | rfl | rfl <;> decide

/-- One step of a walk. -/
theorem walk_cons (t : Tree) (segment : String) (rest : List String) (place : Place) :
    walk t (segment :: rest) place =
      match t.get? place with
      | none => .error .missing
      | some (.file _) => .error .notDirectory
      | some .directory =>
        if nameLimit < segment.utf8ByteSize then .error .nameTooLong
        else walk t rest (stepTo place segment) := by
  rw [walk, stepTo]
  cases t.get? place with
  | none => rfl
  | some e =>
    cases e with
    | file content => rfl
    | directory =>
      by_cases hidle : segment = "" ∨ segment = "."
      · simp only [if_pos hidle, if_neg (length_le_of_not_name (hidle.imp_right .inl))]
      · by_cases hparent : segment = ".."
        · simp only [if_neg hidle, if_pos hparent,
            if_neg (length_le_of_not_name (.inr (.inr hparent)))]
        · simp only [if_neg hidle, if_neg hparent]

/-- What a walk that arrives has met. -/
theorem walk_cons_eq_ok {segment : String} {rest : List String} {q : Place} :
    walk t (segment :: rest) place = .ok q ↔
      t.get? place = some .directory ∧ segment.utf8ByteSize ≤ nameLimit ∧
        walk t rest (stepTo place segment) = .ok q := by
  rw [walk_cons]
  split
  · rename_i h
    simp [h]
  · rename_i h
    simp [h]
  · rename_i h
    split
    · rename_i hlength
      simp [Nat.not_le.mpr hlength]
    · rename_i hlength
      simp [h, Nat.not_lt.mp hlength]

theorem walk_append (t : Tree) (xs ys : List String) (place : Place) :
    walk t (xs ++ ys) place = (walk t xs place).bind (walk t ys) := by
  induction xs generalizing place with
  | nil => rfl
  | cons x xs ih =>
    rw [List.cons_append, walk_cons, walk_cons]
    split
    · rfl
    · rfl
    · split
      · rfl
      · exact ih (stepTo place x)

/-- A walk that arrives is where the segments lead. -/
theorem eq_of_walk {segments : List String} {q : Place} (h : walk t segments place = .ok q) :
    q = segments.foldl stepTo place := by
  induction segments generalizing place with
  | nil => exact (Except.ok.inj h).symm
  | cons s rest ih => exact ih (walk_cons_eq_ok.mp h).2.2

/-- A walk that arrives still does when there are more directories. -/
theorem walk_mono {segments : List String} {q : Place}
    (hmono : ∀ p, t.get? p = some .directory → t'.get? p = some .directory)
    (h : walk t segments place = .ok q) : walk t' segments place = .ok q := by
  induction segments generalizing place with
  | nil => exact h
  | cons s rest ih =>
    obtain ⟨hdir, hlength, hrest⟩ := walk_cons_eq_ok.mp h
    exact walk_cons_eq_ok.mpr ⟨hmono place hdir, hlength, ih hrest⟩

/-- A walk that ends in a directory has begun in one. -/
theorem isDirectory_of_walk {segments : List String} {q : Place}
    (h : walk t segments place = .ok q) (hq : t.get? q = some .directory) :
    t.get? place = some .directory := by
  cases segments with
  | nil => exact Except.ok.inj h ▸ hq
  | cons s rest => exact (walk_cons_eq_ok.mp h).1

/-- A walk looks at nothing but the places that it goes through. -/
theorem walk_congr {segments : List String}
    (h : ∀ front, front <+: segments →
      t'.get? (front.foldl stepTo place) = t.get? (front.foldl stepTo place)) :
    walk t' segments place = walk t segments place := by
  induction segments generalizing place with
  | nil => rfl
  | cons s rest ih =>
    have hplace : t'.get? place = t.get? place := h [] (List.nil_prefix)
    have hrest : walk t' rest (stepTo place s) = walk t rest (stepTo place s) :=
      ih fun front hfront => h (s :: front) (List.cons_prefix_cons.mpr ⟨rfl, hfront⟩)
    rw [walk_cons, walk_cons, hplace, hrest]

/-- A walk that has further to go is not changed by a step to the place itself. -/
theorem walk_cons_of_idle (t : Tree) {s : String} (hs : s = "" ∨ s = ".") (y : String)
    (ys : List String) (place : Place) : walk t (s :: y :: ys) place = walk t (y :: ys) place := by
  rw [walk]
  cases hplace : t.get? place with
  | none => simp [walk, hplace]
  | some e =>
    cases e with
    | directory => exact if_pos hs
    | file content => simp [walk, hplace]

/-- An empty segment in front of another one asks for what that one asks for. -/
theorem walk_idle (t : Tree) (xs ys : List String) (y : String) (place : Place) :
    walk t (xs ++ "" :: y :: ys) place = walk t (xs ++ y :: ys) place := by
  rw [walk_append, walk_append]
  cases walk t xs place with
  | error e => rfl
  | ok q => exact walk_cons_of_idle t (.inl rfl) y ys q

theorem walk_join (t : Tree) (p : Path) {name : String} (h : IsName name) (ys : List String)
    (place : Place) :
    walk t ((p.join name).segments ++ ys) place = walk t (p.segments ++ name :: ys) place := by
  obtain heq | ⟨front, hp, heq⟩ := Path.segments_join p h
  · rw [heq, List.append_assoc, List.singleton_append]
  · rw [heq, hp, List.append_assoc, List.append_assoc, List.singleton_append,
      List.singleton_append, walk_idle]

/-- The walk along a path with names behind it goes along the path and then along the names. -/
theorem walk_joinAll (t : Tree) (p : Path) {names : List String} (h : ∀ n ∈ names, IsName n)
    (ys : List String) (place : Place) :
    walk t ((p.joinAll names).segments ++ ys) place =
      walk t (p.segments ++ (names ++ ys)) place := by
  induction names generalizing p with
  | nil => rfl
  | cons n names ih =>
    have hjoin := ih (p.join n) fun m hm => h m (List.mem_cons_of_mem n hm)
    rw [walk_join t p (h n List.mem_cons_self)] at hjoin
    exact hjoin

/-! ## Locating -/

theorem locate_eq_ok {p : Path} {q : Place} (h : locate t cwd p = .ok q) :
    p.text ≠ "" ∧ '\x00' ∉ p.text.toList ∧ walk t p.segments (origin cwd p) = .ok q := by
  rw [locate] at h
  split at h
  · cases h
  · rename_i hne
    split at h
    · cases h
    · rename_i hnul
      exact ⟨hne, by simpa using hnul, h⟩

theorem locate_of_walk {p : Path} (hne : p.text ≠ "") (hnul : '\x00' ∉ p.text.toList) :
    locate t cwd p = walk t p.segments (origin cwd p) := by
  rw [locate, if_neg hne, if_neg (by simpa using hnul), origin]

/-- A path that is found is found at the place its text leads to. -/
theorem eq_placeOf_of_locate {p : Path} {q : Place} (h : locate t cwd p = .ok q) :
    q = placeOf cwd p := eq_of_walk (locate_eq_ok h).2.2

theorem locate_mono {p : Path} {q : Place}
    (hmono : ∀ p, t.get? p = some .directory → t'.get? p = some .directory)
    (h : locate t cwd p = .ok q) : locate t' cwd p = .ok q := by
  obtain ⟨hne, hnul, hwalk⟩ := locate_eq_ok h
  rw [locate_of_walk hne hnul]
  exact walk_mono hmono hwalk

/-- To find a name behind a path is to find a directory at the path. -/
theorem locate_of_join {p : Path} {name : String} {q : Place} (hname : IsName name)
    (hp : p.text ≠ "") (h : locate t cwd (p.join name) = .ok q) :
    locate t cwd p = .ok (placeOf cwd p) ∧ t.get? (placeOf cwd p) = some .directory := by
  obtain ⟨-, hnul, hwalk⟩ := locate_eq_ok h
  rw [Path.text_join p hname.isAbsolute] at hnul
  -- The path alone is as free of zero characters as with the name behind it.
  have hpnul : '\x00' ∉ p.text.toList := by
    intro hmem
    apply hnul
    simp [String.toList_append, hmem]
  have hjoin := walk_join t p hname [] (origin cwd p)
  rw [List.append_nil] at hjoin
  rw [origin_join cwd p hname, hjoin, walk_append] at hwalk
  cases hfront : walk t p.segments (origin cwd p) with
  | error e =>
    rw [hfront] at hwalk
    cases hwalk
  | ok r =>
    rw [hfront] at hwalk
    obtain rfl : r = placeOf cwd p := eq_of_walk hfront
    rw [locate_of_walk hp hpnul]
    exact ⟨hfront, (walk_cons_eq_ok.mp hwalk).1⟩

/-- To find names behind a path is to find a directory at the path. -/
theorem locate_of_joinAll {p : Path} {names : List String} {q : Place} (hne : names ≠ [])
    (h : ∀ n ∈ names, IsName n) (hp : p.text ≠ "")
    (hlocate : locate t cwd (p.joinAll names) = .ok q) :
    locate t cwd p = .ok (placeOf cwd p) ∧ t.get? (placeOf cwd p) = some .directory := by
  induction names generalizing p with
  | nil => exact absurd rfl hne
  | cons n rest ih =>
    have hn : IsName n := h n List.mem_cons_self
    by_cases hrest : rest = []
    · subst hrest
      exact locate_of_join hn hp hlocate
    · obtain ⟨hjoin, -⟩ := ih hrest (fun m hm => h m (List.mem_cons_of_mem n hm))
        (Path.join_ne_empty p hn.isAbsolute hn.ne_empty) hlocate
      exact locate_of_join hn hp hjoin

/-- Looking for names behind a path, one looks at the way to the path and below it. -/
theorem locate_joinAll_congr {p : Path} {names : List String} (h : ∀ n ∈ names, IsName n)
    (hsame : ∀ q, IsBelow (placeOf cwd p) q ∨ IsOnWay cwd p q → t'.get? q = t.get? q) :
    locate t' cwd (p.joinAll names) = locate t cwd (p.joinAll names) := by
  have hway : walk t' p.segments (origin cwd p) = walk t p.segments (origin cwd p) :=
    walk_congr fun front hfront => hsame _ (.inr ⟨front, hfront, rfl⟩)
  have hnames : walk t' names (placeOf cwd p) = walk t names (placeOf cwd p) := by
    refine walk_congr fun front hfront => hsame _ ?_
    rw [foldl_stepTo fun n hn => h n (hfront.subset hn)]
    by_cases hnil : front = []
    · subst hnil
      rw [List.append_nil]
      exact .inr ⟨p.segments, List.prefix_rfl, rfl⟩
    · exact .inl ⟨front, hnil, rfl⟩
  -- One walks to the path first, and from where one is then along the names.
  have hwalk : ∀ t : Tree, walk t (p.joinAll names).segments (origin cwd (p.joinAll names)) =
      (walk t p.segments (origin cwd p)).bind (walk t names) := by
    intro t
    have hjoin := walk_joinAll t p h [] (origin cwd p)
    rw [List.append_nil, List.append_nil] at hjoin
    rw [origin_joinAll cwd p h, hjoin, walk_append]
  unfold locate
  split
  · rfl
  · split
    · rfl
    · change walk t' _ (origin cwd _) = walk t _ (origin cwd _)
      rw [hwalk, hwalk, hway]
      cases hfront : walk t p.segments (origin cwd p) with
      | error e => rfl
      | ok q =>
        obtain rfl : q = placeOf cwd p := eq_of_walk hfront
        exact hnames

/-! ## On the way -/

/-- A walk that ends in a directory goes through directories only. -/
theorem isDirectory_on_walk {segments front : List String} {q : Place}
    (h : walk t segments place = .ok q) (hq : t.get? q = some .directory)
    (hfront : front <+: segments) : t.get? (front.foldl stepTo place) = some .directory := by
  obtain ⟨rest, rfl⟩ := hfront
  rw [walk_append] at h
  cases hwalk : walk t front place with
  | error e =>
    rw [hwalk] at h
    cases h
  | ok r =>
    rw [hwalk] at h
    obtain rfl : r = front.foldl stepTo place := eq_of_walk hwalk
    exact isDirectory_of_walk h hq

theorem IsOnWay.isDirectory {p : Path} {q r : Place} (hway : IsOnWay cwd p r)
    (h : locate t cwd p = .ok q) (hq : t.get? q = some .directory) :
    t.get? r = some .directory := by
  obtain ⟨front, hfront, rfl⟩ := hway
  exact isDirectory_on_walk (locate_eq_ok h).2.2 hq hfront

/-- The way to a path is part of the way to a name behind it. -/
theorem IsOnWay.join {p : Path} {name : String} {q : Place} (hway : IsOnWay cwd p q)
    (h : IsName name) : IsOnWay cwd (p.join name) q := by
  obtain ⟨front, hfront, rfl⟩ := hway
  rw [IsOnWay, origin_join cwd p h]
  obtain heq | ⟨start, hp, heq⟩ := Path.segments_join p h
  · exact ⟨front, heq ▸ hfront.trans (List.prefix_append p.segments [name]), rfl⟩
  · rw [hp] at hfront
    obtain rfl | hfront := List.prefix_concat_iff.mp hfront
    · refine ⟨start, heq ▸ List.prefix_append start [name], ?_⟩
      rw [List.foldl_concat, stepTo, if_pos (.inl rfl)]
    · exact ⟨front, heq ▸ hfront.trans (List.prefix_append start [name]), rfl⟩

theorem IsOnWay.joinAll {p : Path} {names : List String} {q : Place} (hway : IsOnWay cwd p q)
    (h : ∀ n ∈ names, IsName n) : IsOnWay cwd (p.joinAll names) q := by
  induction names generalizing p with
  | nil => exact hway
  | cons n names ih =>
    exact ih (hway.join (h n List.mem_cons_self)) fun m hm => h m (List.mem_cons_of_mem n hm)

/-- The way to a name behind a path is the way to the path, and the name. -/
theorem IsOnWay.of_join {p : Path} {name : String} {q : Place} (h : IsName name)
    (hway : IsOnWay cwd (p.join name) q) : IsOnWay cwd p q ∨ q = placeOf cwd p ++ [name] := by
  obtain ⟨front, hfront, rfl⟩ := hway
  rw [← placeOf_join cwd p h, origin_join cwd p h, placeOf, origin_join cwd p h]
  obtain heq | ⟨start, hp, heq⟩ := Path.segments_join p h
  · rw [heq] at hfront ⊢
    obtain rfl | hfront := List.prefix_concat_iff.mp hfront
    · exact .inr rfl
    · exact .inl ⟨front, hfront, rfl⟩
  · rw [heq] at hfront ⊢
    obtain rfl | hfront := List.prefix_concat_iff.mp hfront
    · exact .inr rfl
    · exact .inl ⟨front, hp ▸ hfront.trans (List.prefix_append start [""]), rfl⟩

theorem IsOnWay.of_joinAll {p : Path} {names : List String} {q : Place}
    (h : ∀ n ∈ names, IsName n) (hway : IsOnWay cwd (p.joinAll names) q) :
    IsOnWay cwd p q ∨ ∃ front, front <+: names ∧ q = placeOf cwd p ++ front := by
  induction names generalizing p with
  | nil => exact .inl hway
  | cons n names ih =>
    have hn : IsName n := h n List.mem_cons_self
    obtain hjoin | ⟨front, hfront, rfl⟩ := ih (fun m hm => h m (List.mem_cons_of_mem n hm)) hway
    · obtain hp | rfl := hjoin.of_join hn
      · exact .inl hp
      · exact .inr ⟨[n], List.cons_prefix_cons.mpr ⟨rfl, List.nil_prefix⟩, rfl⟩
    · refine .inr ⟨n :: front, List.cons_prefix_cons.mpr ⟨rfl, hfront⟩, ?_⟩
      rw [placeOf_join cwd p hn, List.append_assoc, List.singleton_append]

/-! ## Questions -/

theorem entry_eq_ok {p : Path} {q : Place} {e : Entry} :
    entry t cwd p = .ok (q, e) ↔ locate t cwd p = .ok q ∧ t.get? q = some e := by
  rw [entry]
  cases hlocate : locate t cwd p with
  | error failure => exact iff_of_false nofun fun h => nomatch h.1
  | ok r =>
    simp only [bind, Except.bind, Except.ok.injEq]
    constructor
    · intro h
      split at h
      · rename_i e' he
        cases h
        exact ⟨rfl, he⟩
      · cases h
    · rintro ⟨rfl, he⟩
      rw [he]
      rfl

theorem read_eq_ok {p : Path} {content : ByteArray} :
    read t cwd p = .ok content ↔
      locate t cwd p = .ok (placeOf cwd p) ∧ t.get? (placeOf cwd p) = some (.file content) := by
  rw [read]
  cases hentry : entry t cwd p with
  | error failure =>
    refine iff_of_false nofun fun h => ?_
    rw [entry_eq_ok.mpr h] at hentry
    cases hentry
  | ok found =>
    obtain ⟨q, e⟩ := found
    obtain ⟨hlocate, hget⟩ := entry_eq_ok.mp hentry
    obtain rfl := eq_placeOf_of_locate hlocate
    cases e with
    | file content' =>
      show Except.ok content' = Except.ok content ↔ _
      rw [hlocate, hget]
      simp
    | directory =>
      refine iff_of_false nofun fun h => ?_
      rw [hget] at h
      cases h.2

theorem isFile_iff {p : Path} :
    isFile t cwd p = true ↔
      locate t cwd p = .ok (placeOf cwd p) ∧
        ∃ content, t.get? (placeOf cwd p) = some (.file content) := by
  rw [isFile]
  constructor
  · intro h
    split at h
    · rename_i q content hentry
      obtain ⟨hlocate, hget⟩ := entry_eq_ok.mp hentry
      obtain rfl := eq_placeOf_of_locate hlocate
      exact ⟨hlocate, content, hget⟩
    · cases h
  · rintro ⟨hlocate, content, hget⟩
    rw [entry_eq_ok.mpr ⟨hlocate, hget⟩]

theorem pathExists_iff {p : Path} :
    pathExists t cwd p = true ↔
      locate t cwd p = .ok (placeOf cwd p) ∧ ∃ e, t.get? (placeOf cwd p) = some e := by
  rw [pathExists]
  constructor
  · intro h
    cases hentry : entry t cwd p with
    | error failure =>
      rw [hentry] at h
      cases h
    | ok found =>
      obtain ⟨q, e⟩ := found
      obtain ⟨hlocate, hget⟩ := entry_eq_ok.mp hentry
      obtain rfl := eq_placeOf_of_locate hlocate
      exact ⟨hlocate, e, hget⟩
  · rintro ⟨hlocate, e, hget⟩
    rw [entry_eq_ok.mpr ⟨hlocate, hget⟩]
    rfl

theorem pathExists_of_isFile {p : Path} (h : isFile t cwd p = true) :
    pathExists t cwd p = true := by
  obtain ⟨hlocate, content, hget⟩ := isFile_iff.mp h
  exact pathExists_iff.mpr ⟨hlocate, _, hget⟩

theorem removeFile_of_isFile {p : Path} (h : isFile t cwd p = true) :
    removeFile t cwd p = .ok (t.erase (placeOf cwd p)) := by
  obtain ⟨hlocate, content, hget⟩ := isFile_iff.mp h
  rw [removeFile, entry_eq_ok.mpr ⟨hlocate, hget⟩]
  rfl

theorem removeFile_of_not_isFile {p : Path} (h : isFile t cwd p = false) :
    ∃ e, removeFile t cwd p = .error e := by
  unfold isFile at h
  unfold removeFile
  cases hentry : entry t cwd p with
  | error e => exact ⟨e, rfl⟩
  | ok found =>
    obtain ⟨q, e⟩ := found
    cases e with
    | directory => exact ⟨.isDirectory, rfl⟩
    | file content =>
      rw [hentry] at h
      cases h

end Files
end ScriptSession
