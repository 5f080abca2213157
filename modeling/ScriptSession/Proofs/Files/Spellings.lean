import ScriptSession.Proofs.Files.Places

/-!
# Spellings of paths

Paths that have the same components are spelled differently only where nothing is named: by
separators and by steps to the place itself. Such steps ask for a directory, and so does every name
that follows them. So two paths that end in a step of their own and have the same components lead to
the same place (`locate_of_same`), and only such paths lead to files (`endsInStep_of_isFile`).
-/

namespace ScriptSession

/-! ## Components and segments -/

namespace Path

/-- A path whose last segment is a name. -/
def EndsInName (p : Path) : Prop := ∃ name, p.segments.getLast? = some name ∧ IsName name

/-- A segment that leads somewhere. -/
def isStep (segment : String) : Bool := (innerComponent segment).isSome

/-- Whether the last segment of a path leads somewhere: there is no separator and no step to the
place itself at the end. -/
def endsInStep (p : Path) : Bool := p.segments.getLast?.any isStep

theorem EndsInName.endsInStep {p : Path} (h : p.EndsInName) : p.endsInStep = true := by
  obtain ⟨name, hlast, hname⟩ := h
  rw [Path.endsInStep, hlast, Option.any_some, isStep, hname.innerComponent]
  rfl

/-- The segment that stands for a component. -/
def Component.segment : Component → String
  | .root => ""
  | .current => "."
  | .parent => ".."
  | .normal name => name

/-- The names and the steps to the parent are spelled in one way only. -/
theorem map_segment_filterMap (segments : List String) :
    (segments.filterMap innerComponent).map Component.segment = segments.filter isStep := by
  induction segments with
  | nil => rfl
  | cons s rest ih =>
    rw [List.filterMap_cons, List.filter_cons, isStep]
    cases hs : innerComponent s with
    | none => exact ih
    | some c =>
      have hsegment : c.segment = s := by
        rw [innerComponent] at hs
        split at hs
        · cases hs
        · split at hs <;> cases hs
          · exact Eq.symm ‹_›
          · rfl
      simp only [List.map_cons, hsegment, ih, Option.isSome_some, if_true]

/-- A component that leads somewhere from where a path starts. -/
def Component.isInner : Component → Bool
  | .root | .current => false
  | .parent | .normal _ => true

theorem isInner_of_mem_walk {cs : List Char} {c : Component} (h : c ∈ walk cs) :
    c.isInner = true := by
  obtain rfl | ⟨name, rfl, -⟩ := of_mem_walk h <;> rfl

/-- A path is absolute exactly if it has the root. -/
theorem isAbsolute_iff {p : Path} : p.isAbsolute = true ↔ .root ∈ p.components := by
  refine ⟨root_mem_of_isAbsolute, fun hmem => ?_⟩
  by_contra hrelative
  rw [Bool.not_eq_true] at hrelative
  have hroot : .root ∉ walk p.text.toList := fun h => nomatch isInner_of_mem_walk h
  obtain heq | ⟨heq, -⟩ := components_of_relative hrelative
  · exact hroot (heq ▸ hmem)
  · rw [heq] at hmem
    obtain h | h := List.mem_cons.mp hmem
    · cases h
    · exact hroot h

/-- But for where it starts, the components of a path are those of its segments. -/
theorem filter_components (p : Path) :
    p.components.filter Component.isInner = p.segments.filterMap innerComponent := by
  have hinner : ∀ cs, (walk cs).filter Component.isInner = walk cs := fun cs =>
    List.filter_eq_self.mpr fun c hc => isInner_of_mem_walk hc
  change _ = walk p.text.toList
  cases habsolute : p.isAbsolute with
  | true =>
    rw [isAbsolute, beq_iff_eq, List.head?_eq_some_iff] at habsolute
    obtain ⟨ys, hys⟩ := habsolute
    rw [components_of_slash (f := []) (b := ys) hys, if_pos rfl, hys]
    exact (hinner ys).trans (walk_append [] ys).symm
  | false =>
    obtain heq | ⟨heq, -⟩ := components_of_relative habsolute <;> rw [heq]
    · exact hinner _
    · exact hinner _

/-- Paths with the same components start at the same place and lead along the same names. -/
theorem of_same {p p' : Path} (h : p.same p' = true) :
    p.isAbsolute = p'.isAbsolute ∧ p.segments.filter isStep = p'.segments.filter isStep := by
  rw [same, beq_iff_eq] at h
  constructor
  · rw [Bool.eq_iff_iff, isAbsolute_iff, isAbsolute_iff, h]
  · rw [← map_segment_filterMap, ← map_segment_filterMap, ← filter_components,
      ← filter_components, h]

theorem same_refl (p : Path) : p.same p = true := by rw [same, beq_self_eq_true]

theorem same_comm (p p' : Path) : p.same p' = p'.same p := by rw [same, same, Bool.beq_comm]

/-- A character that names, unlike separators and steps, may hold is held by every spelling. -/
theorem mem_text_of_same {p p' : Path} (h : p.same p' = true) {c : Char} (hslash : c ≠ '/')
    (hdot : c ≠ '.') (hc : c ∈ p'.text.toList) : c ∈ p.text.toList := by
  obtain ⟨piece, hpiece, hmem⟩ := Text.mem_piece_of_mem hc hslash
  have hstep : isStep (String.ofList piece) = true := by
    rw [isStep, Option.isSome_iff_ne_none, Ne, ← isIdle_iff, isIdle]
    intro hidle
    rw [Bool.or_eq_true, List.isEmpty_iff, beq_iff_eq] at hidle
    rcases hidle with rfl | rfl
    · cases hmem
    · exact hdot (List.mem_singleton.mp hmem)
  have hsegment : String.ofList piece ∈ p'.segments.filter isStep :=
    List.mem_filter.mpr ⟨List.mem_map_of_mem hpiece, hstep⟩
  rw [← (of_same h).2] at hsegment
  obtain ⟨other, hother, heq⟩ := List.mem_map.mp (List.mem_of_mem_filter hsegment)
  rw [String.ofList_injective heq] at hother
  exact Text.mem_of_mem_piece hother hmem

theorem same_trans {p p' p'' : Path} (h : p.same p' = true) (h' : p'.same p'' = true) :
    p.same p'' = true := by
  rw [same, beq_iff_eq] at *
  exact h.trans h'

/-- What is joined to a path does not show how the path is spelled. -/
theorem same_join {p p' : Path} (h : p.same p' = true) {q : String}
    (hq : (Path.mk q).isAbsolute = false) : (p.join q).same (p'.join q) = true := by
  rw [same, beq_iff_eq] at h ⊢
  have hempty : p.text = "" ↔ p'.text = "" := by
    rw [← components_eq_nil_iff, ← components_eq_nil_iff, h]
  rw [components_join p hq, components_join p' hq, h]
  exact if_congr hempty rfl rfl

theorem endsInStep_join (p : Path) {q : String} (hq : (Path.mk q).isAbsolute = false) :
    (p.join q).endsInStep = (Path.mk q).endsInStep := by
  rw [endsInStep, endsInStep, getLast?_segments_join_of_relative p hq]

/-- A path whose file name was replaced ends in the new one. -/
theorem endsInName_withFileName (p : Path) {name : String} (h : IsName name) :
    (p.withFileName name).EndsInName := by
  rw [withFileName]
  split
  · exact ⟨name, getLast?_segments_join _ h, h⟩
  · exact ⟨name, getLast?_segments_join _ h, h⟩

end Path

/-! ## Walking -/

namespace Files

open ScriptSession.Path (EndsInName IsName isStep)

variable {t : Tree} {cwd place : Place}

theorem isStep_eq_false_iff {s : String} : isStep s = false ↔ s = "" ∨ s = "." := by
  rw [isStep, Option.isSome_eq_false_iff, Option.isNone_iff_eq_none,
    Path.innerComponent_eq_none_iff]

/-- Segments that end in a name lead where those among them lead that lead somewhere. -/
theorem walk_filter (t : Tree) (front : List String) {name : String} (hname : isStep name = true)
    (place : Place) :
    walk t ((front ++ [name]).filter isStep) place = walk t (front ++ [name]) place := by
  induction front generalizing place with
  | nil => simp [hname]
  | cons s front ih =>
    rw [List.cons_append]
    cases hs : isStep s with
    | true =>
      rw [List.filter_cons_of_pos hs, walk_cons, walk_cons]
      simp only [ih]
    | false =>
      rw [List.filter_cons_of_neg (by simp [hs]), ih]
      obtain ⟨y, ys, hys⟩ := List.exists_cons_of_ne_nil
        (show front ++ [name] ≠ [] by simp)
      rw [hys, walk_cons_of_idle t (isStep_eq_false_iff.mp hs)]

theorem walk_segments (t : Tree) {p : Path} (h : p.endsInStep = true) (place : Place) :
    walk t (p.segments.filter isStep) place = walk t p.segments place := by
  obtain ⟨s, hlast, hstep⟩ := (Option.any_eq_true _ _).mp h
  obtain ⟨front, hfront⟩ := List.getLast?_eq_some_iff.mp hlast
  rw [hfront]
  exact walk_filter t front hstep place

theorem text_ne_empty_of_endsInStep {p : Path} (h : p.endsInStep = true) : p.text ≠ "" := by
  intro hempty
  rw [Path.endsInStep, Path.segments, hempty] at h
  revert h
  decide

/-- However a path is spelled that ends in a step of its own, it leads to one place. -/
theorem locate_of_same {p p' : Path} (hsame : p.same p' = true) (hp : p.endsInStep = true)
    (hp' : p'.endsInStep = true) {q : Place} (h : locate t cwd p = .ok q) :
    locate t cwd p' = .ok q := by
  obtain ⟨-, hnul, hwalk⟩ := locate_eq_ok h
  obtain ⟨habsolute, hsteps⟩ := Path.of_same hsame
  have hnul' : '\x00' ∉ p'.text.toList := fun hmem =>
    hnul (Path.mem_text_of_same hsame (by decide) (by decide) hmem)
  rw [locate_of_walk (text_ne_empty_of_endsInStep hp') hnul', ← walk_segments t hp', ← hsteps,
    walk_segments t hp, origin, ← habsolute]
  exact hwalk

theorem isFile_of_same {p p' : Path} (hsame : p.same p' = true) (hp : p.endsInStep = true)
    (hp' : p'.endsInStep = true) (h : isFile t cwd p = true) :
    isFile t cwd p' = true ∧ placeOf cwd p' = placeOf cwd p := by
  obtain ⟨hlocate, content, hget⟩ := isFile_iff.mp h
  have hlocate' := locate_of_same hsame hp hp' hlocate
  have hplace := eq_placeOf_of_locate hlocate'
  rw [hplace] at hlocate' hget
  exact ⟨isFile_iff.mpr ⟨hlocate', content, hget⟩, hplace.symm⟩

/-- A path that ends in a separator or in a step to the place itself leads to no file: a walk that
gets there has a directory before that last segment, and goes nowhere from it. -/
theorem endsInStep_of_isFile {p : Path} (h : isFile t cwd p = true) : p.endsInStep = true := by
  obtain ⟨hlocate, content, hget⟩ := isFile_iff.mp h
  obtain ⟨-, -, hwalk⟩ := locate_eq_ok hlocate
  have hne : p.segments ≠ [] := fun hnil =>
    Text.splitChars_ne_nil '/' _ (List.map_eq_nil_iff.mp hnil)
  obtain ⟨front, last, hlast⟩ : ∃ front last, p.segments = front ++ [last] :=
    ⟨_, _, (List.dropLast_concat_getLast hne).symm⟩
  rw [Path.endsInStep, hlast, List.getLast?_concat, Option.any_some]
  -- A last segment that is no step leaves the walk where it is, which is at a directory.
  by_contra hidle
  rw [Bool.not_eq_true, isStep_eq_false_iff] at hidle
  rw [hlast, walk_append] at hwalk
  cases hfront : walk t front (origin cwd p) with
  | error e =>
    rw [hfront] at hwalk
    cases hwalk
  | ok q =>
    rw [hfront] at hwalk
    obtain ⟨hdirectory, -, hend⟩ := walk_cons_eq_ok.mp hwalk
    have hthere : stepTo q last = q := by rw [stepTo, if_pos hidle]
    rw [hthere, walk] at hend
    cases hend
    rw [hdirectory] at hget
    cases hget

/-- Two spellings of a path lead to a file alike, if neither or both of them ask for a directory. -/
theorem isFile_congr {p p' : Path} (hsame : p.same p' = true)
    (hend : p.endsInStep = p'.endsInStep) : isFile t cwd p = isFile t cwd p' := by
  rw [Bool.eq_iff_iff]
  constructor
  · intro hfile
    have hstep := endsInStep_of_isFile hfile
    exact (isFile_of_same hsame hstep (hend ▸ hstep) hfile).1
  · intro hfile
    have hstep := endsInStep_of_isFile hfile
    rw [Path.same_comm] at hsame
    exact (isFile_of_same hsame hstep (hend ▸ hstep) hfile).1

/-- A path that ends in a name leads to a place with that name. -/
theorem placeOf_of_endsInName (cwd : Place) {p : Path} {name : String}
    (hlast : p.segments.getLast? = some name) (hname : IsName name) :
    ∃ directory, placeOf cwd p = directory ++ [name] := by
  obtain ⟨front, hfront⟩ := List.getLast?_eq_some_iff.mp hlast
  refine ⟨front.foldl stepTo (origin cwd p), ?_⟩
  rw [placeOf, hfront, List.foldl_append]
  exact stepTo_of_isName _ hname

end Files
end ScriptSession
