import ScriptSession.Path
import ScriptSession.Proofs.Text.Pieces

/-!
# Components of paths

How the operations on paths change their components. The text behind a separator contributes its
names and its steps to the parent (`Path.walk`), whatever stands before the separator. So joining
appends the components of what is joined, and taking the parent of a path that ends in a name takes
that name away.
-/

namespace ScriptSession
namespace Path

open Text (joinChars joinChars_append joinChars_splitChars splitChars splitChars_append
  splitChars_joinChars splitChars_ne_nil not_mem_of_mem_splitChars)

/-- The components that a text contributes behind a separator. -/
def walk (cs : List Char) : List Component :=
  ((splitChars '/' cs).map String.ofList).filterMap innerComponent

/-! ## Segments -/

theorem innerComponent_eq_none_iff {s : String} : innerComponent s = none ↔ s = "" ∨ s = "." := by
  rw [innerComponent]
  split
  · rename_i h
    exact iff_of_true rfl h
  · rename_i h
    refine iff_of_false ?_ h
    split <;> exact nofun

/-- The segments without meaning are those that contribute no component. -/
theorem isIdle_iff (cs : List Char) :
    isIdle cs = true ↔ innerComponent (String.ofList cs) = none := by
  rw [innerComponent_eq_none_iff, isIdle, Bool.or_eq_true, List.isEmpty_iff, beq_iff_eq,
    String.ofList_eq_empty_iff]
  have hdot : String.ofList cs = "." ↔ cs = ['.'] := by
    rw [← String.toList_inj, String.toList_ofList]
    rfl
  rw [hdot]

/-- A segment that is a name contributes itself. -/
theorem innerComponent_eq_normal_iff {s name : String} :
    innerComponent s = some (.normal name) ↔ s = name ∧ s ≠ "" ∧ s ≠ "." ∧ s ≠ ".." := by
  rw [innerComponent]
  split
  · rename_i h
    exact iff_of_false nofun fun ⟨_, hempty, hdot, _⟩ => h.elim hempty hdot
  · rename_i h
    rw [not_or] at h
    split
    · rename_i hparent
      exact iff_of_false nofun fun ⟨_, _, _, hne⟩ => hne hparent
    · rename_i hparent
      rw [Option.some.injEq, Component.normal.injEq]
      exact ⟨fun heq => ⟨heq, h.1, h.2, hparent⟩, fun heq => heq.1⟩

/-- A text that is a file name: a segment by itself that is a name. -/
structure IsName (name : String) : Prop where
  single : '/' ∉ name.toList
  ne_empty : name ≠ ""
  ne_dot : name ≠ "."
  ne_dots : name ≠ ".."

theorem IsName.innerComponent {name : String} (h : IsName name) :
    innerComponent name = some (.normal name) :=
  innerComponent_eq_normal_iff.mpr ⟨rfl, h.ne_empty, h.ne_dot, h.ne_dots⟩

@[simp] theorem walk_nil : walk [] = [] := rfl

theorem walk_append (xs ys : List Char) : walk (xs ++ '/' :: ys) = walk xs ++ walk ys := by
  rw [walk, splitChars_append, List.map_append, List.filterMap_append, walk, walk]

theorem walk_of_isName {name : String} (h : IsName name) : walk name.toList = [.normal name] := by
  rw [walk, Text.splitChars_of_not_mem h.single, List.map_singleton, String.ofList_toList,
    List.filterMap_cons_some h.innerComponent, List.filterMap_nil]

/-- Behind a separator stand names and steps to the parent. -/
theorem of_mem_walk {cs : List Char} {c : Component} (h : c ∈ walk cs) :
    c = .parent ∨ ∃ name, c = .normal name ∧ IsName name := by
  rw [walk, List.mem_filterMap] at h
  obtain ⟨s, hs, hc⟩ := h
  obtain ⟨piece, hpiece, rfl⟩ := List.mem_map.mp hs
  cases c with
  | root | current =>
    rw [innerComponent] at hc
    split at hc
    · cases hc
    · split at hc <;> cases hc
  | parent => exact .inl rfl
  | normal name =>
    obtain ⟨rfl, hempty, hdot, hdots⟩ := innerComponent_eq_normal_iff.mp hc
    refine .inr ⟨_, rfl, ?_, hempty, hdot, hdots⟩
    rw [String.toList_ofList]
    exact not_mem_of_mem_splitChars hpiece

/-! ## A separator in a path -/

/-- The components of a path with a separator in it. A separator in front is the root. -/
theorem components_of_slash {p : Path} {f b : List Char} (h : p.text.toList = f ++ '/' :: b) :
    p.components =
      (if f = [] then [.root] else (Path.mk (String.ofList f)).components) ++ walk b := by
  have hp : p.segments = ((splitChars '/' f).map String.ofList) ++
      (splitChars '/' b).map String.ofList := by
    rw [segments, Text.splitOn, h, splitChars_append, List.map_append]
  have hx : (Path.mk (String.ofList f)).segments = (splitChars '/' f).map String.ofList := by
    rw [segments, Text.splitOn, String.toList_ofList]
  have hjoin : joinChars '/' (splitChars '/' f) = f := joinChars_splitChars '/' f
  rw [components, components, hp, hx]
  -- The first segment alone decides what a path begins with, and it is one of the front part.
  obtain ⟨first, rest, hxs⟩ := List.exists_cons_of_ne_nil (splitChars_ne_nil '/' f)
  rw [hxs]
  have hys : (splitChars '/' b).map String.ofList ≠ [] := by
    rw [Ne, List.map_eq_nil_iff]
    exact splitChars_ne_nil '/' b
  have hnotlast : (rest.map String.ofList ++ (splitChars '/' b).map String.ofList).isEmpty =
      false := by
    rw [List.isEmpty_eq_false_iff, Ne, List.append_eq_nil_iff]
    exact fun hnil => hys hnil.2
  simp only [List.map_cons, List.cons_append, List.filterMap_append, hnotlast,
    Bool.false_eq_true, if_false]
  rw [hxs] at hjoin
  by_cases hempty : String.ofList first = ""
  · rw [String.ofList_eq_empty_iff] at hempty
    subst hempty
    cases rest with
    | nil =>
      have hnil : f = [] := hjoin.symm
      rw [if_pos hnil]
      rfl
    | cons next rest =>
      have hne : f ≠ [] := by
        rw [← hjoin, Text.joinChars_cons [] (by simp)]
        exact List.cons_ne_nil _ _
      rw [if_neg hne, ← List.append_assoc]
      rfl
  · have hne : f ≠ [] := by
      rintro rfl
      rw [splitChars, List.cons.injEq] at hxs
      exact hempty (String.ofList_eq_empty_iff.mpr hxs.1.symm)
    rw [if_neg hne, if_neg hempty, if_neg hempty, List.append_assoc]
    rfl

/-- A path that is not absolute consists of what it would contribute behind a separator, and of a
step to the place itself if it begins with one. -/
theorem components_of_relative {p : Path} (h : p.isAbsolute = false) :
    p.components = walk p.text.toList ∨
      (p.components = .current :: walk p.text.toList ∧
        ∃ rest, splitChars '/' p.text.toList = ['.'] :: rest) := by
  have hjoin : joinChars '/' (splitChars '/' p.text.toList) = p.text.toList :=
    joinChars_splitChars '/' _
  rw [components, segments, Text.splitOn, walk]
  obtain ⟨first, rest, hsegments⟩ :=
    List.exists_cons_of_ne_nil (splitChars_ne_nil '/' p.text.toList)
  rw [hsegments] at hjoin ⊢
  simp only [List.map_cons, List.filterMap_cons]
  by_cases hempty : String.ofList first = ""
  · left
    rw [String.ofList_eq_empty_iff] at hempty
    subst hempty
    cases rest with
    | nil => rfl
    | cons next rest =>
      -- An empty segment in front of others is a separator in front, so the path is absolute.
      rw [Text.joinChars_cons [] (by simp), List.nil_append] at hjoin
      rw [isAbsolute, ← hjoin] at h
      cases h
  · by_cases hdot : String.ofList first = "."
    · right
      have hfirst : first = ['.'] := by
        rw [← String.toList_ofList (l := first), hdot]
        rfl
      subst hfirst
      exact ⟨rfl, rest, rfl⟩
    · left
      rw [if_neg hempty, if_neg hdot]
      cases innerComponent (String.ofList first) <;> rfl

/-- A path that begins with a separator has the root. -/
theorem root_mem_of_isAbsolute {p : Path} (h : p.isAbsolute = true) : .root ∈ p.components := by
  rw [isAbsolute, beq_iff_eq] at h
  obtain ⟨ys, hys⟩ : ∃ ys, p.text.toList = '/' :: ys := by
    cases hcs : p.text.toList with
    | nil =>
      rw [hcs] at h
      cases h
    | cons c ys =>
      rw [hcs, List.head?_cons, Option.some.injEq] at h
      exact ⟨ys, by rw [h]⟩
  rw [components_of_slash (f := []) (b := ys) hys, if_pos rfl]
  exact List.mem_cons_self

/-- Only the empty path has no components. -/
theorem components_eq_nil_iff {p : Path} : p.components = [] ↔ p.text = "" := by
  constructor
  · intro hnil
    by_contra hne
    rw [components, segments, Text.splitOn] at hnil
    obtain ⟨first, rest, hsegments⟩ :=
      List.exists_cons_of_ne_nil (splitChars_ne_nil '/' p.text.toList)
    simp only [hsegments, List.map_cons, List.append_eq_nil_iff] at hnil
    obtain ⟨hlead, -⟩ := hnil
    split at hlead
    · -- An empty first segment is the root, unless it is the whole path.
      rename_i hempty
      rw [String.ofList_eq_empty_iff] at hempty
      cases rest with
      | nil =>
        have hjoin : joinChars '/' (splitChars '/' p.text.toList) = p.text.toList :=
          joinChars_splitChars '/' _
        rw [hsegments, hempty] at hjoin
        exact hne (String.toList_eq_nil_iff.mp hjoin.symm)
      | cons next rest => cases hlead
    · rename_i hempty
      split at hlead
      · cases hlead
      · rename_i hdot
        rw [Option.toList_eq_nil_iff, innerComponent_eq_none_iff] at hlead
        exact hlead.elim hempty hdot
  · intro hempty
    obtain ⟨text⟩ := p
    obtain rfl : text = "" := hempty
    rfl

/-- What follows the front of a path are names and steps to the parent. -/
theorem isName_of_mem_components {p : Path} {name : String} (h : .normal name ∈ p.components) :
    IsName name := by
  have hwalk : ∀ {cs : List Char}, Component.normal name ∈ walk cs → IsName name := by
    intro cs hmem
    obtain hparent | ⟨name', heq, hname⟩ := of_mem_walk hmem
    · cases hparent
    · cases heq
      exact hname
  cases habsolute : p.isAbsolute with
  | true =>
    rw [isAbsolute, beq_iff_eq, List.head?_eq_some_iff] at habsolute
    obtain ⟨ys, hys⟩ := habsolute
    rw [components_of_slash (f := []) (b := ys) hys, if_pos rfl] at h
    obtain hroot | hmem := List.mem_cons.mp h
    · cases hroot
    · exact hwalk hmem
  | false =>
    obtain heq | ⟨heq, -⟩ := components_of_relative habsolute
    · rw [heq] at h
      exact hwalk h
    · rw [heq] at h
      obtain hcurrent | hmem := List.mem_cons.mp h
      · cases hcurrent
      · exact hwalk hmem

/-! ## Joining -/

/-- Joining appends the components. A step to the place itself in front of what is joined counts
only where nothing is before it. -/
theorem components_join (p : Path) {q : String} (hq : (Path.mk q).isAbsolute = false) :
    (p.join q).components =
      if p.text = "" then (Path.mk q).components else p.components ++ walk q.toList := by
  rw [join, if_neg (by rw [hq]; exact Bool.false_ne_true)]
  by_cases hempty : p.text = ""
  · rw [if_pos (.inl hempty), if_pos hempty, hempty, String.empty_append]
  · rw [if_neg hempty]
    by_cases hslash : p.text.toList.getLast? = some '/'
    · rw [if_pos (.inr hslash)]
      -- The separator at the end of the path divides the joined text.
      obtain ⟨xs, hxs⟩ := List.getLast?_eq_some_iff.mp hslash
      have hjoined : (Path.mk (p.text ++ q)).text.toList = xs ++ '/' :: q.toList := by
        show (p.text ++ q).toList = _
        rw [String.toList_append, hxs, List.append_assoc]
        rfl
      rw [components_of_slash hjoined, components_of_slash hxs, walk_nil, List.append_nil]
    · rw [if_neg (not_or.mpr ⟨hempty, hslash⟩)]
      have hjoined : (Path.mk (p.text ++ "/" ++ q)).text.toList =
          p.text.toList ++ '/' :: q.toList := by
        show (p.text ++ "/" ++ q).toList = _
        rw [String.toList_append, String.toList_append, List.append_assoc]
        rfl
      rw [components_of_slash hjoined, if_neg (by rwa [String.toList_eq_nil_iff]),
        String.ofList_toList]

theorem components_of_isName {name : String} (h : IsName name) :
    (Path.mk name).components = [.normal name] ∧ (Path.mk name).isAbsolute = false := by
  have hrelative : (Path.mk name).isAbsolute = false := by
    rw [isAbsolute, beq_eq_false_iff_ne]
    intro hhead
    exact h.single (List.mem_of_mem_head? hhead)
  refine ⟨?_, hrelative⟩
  obtain heq | ⟨-, rest, hrest⟩ := components_of_relative hrelative
  · rw [heq]
    exact walk_of_isName h
  · rw [Text.splitChars_of_not_mem h.single, List.cons.injEq] at hrest
    refine absurd ?_ h.ne_dot
    rw [← String.toList_inj]
    exact hrest.1

/-- Joining a name appends it. -/
theorem components_join_name (p : Path) {name : String} (h : IsName name) :
    (p.join name).components = p.components ++ [.normal name] := by
  obtain ⟨hcomponents, hrelative⟩ := components_of_isName h
  rw [components_join p hrelative, hcomponents, walk_of_isName h]
  split
  · rename_i hempty
    obtain ⟨text⟩ := p
    obtain rfl : text = "" := hempty
    rfl
  · rfl

/-! ## The parent -/

theorem components_root : (Path.mk (String.ofList ['/'])).components = [.root] :=
  components_of_slash (f := []) (b := []) String.toList_ofList

theorem components_current : (Path.mk (String.ofList ['.'])).components = [.current] := rfl

/-- The components of a path are those of its anchor and what follows contributes. -/
theorem components_eq_anchor (p : Path) :
    p.components = (Path.mk (String.ofList (p.text.toList.take p.anchorLength))).components ++
      walk (p.text.toList.drop p.anchorLength) := by
  -- The cases are those of the anchor: a separator, a dot alone, a dot before a separator, nothing.
  rw [anchorLength]
  split
  · rename_i ys hys
    rw [components_of_slash (f := []) (b := ys) hys, hys, List.take_one, List.head?_cons,
      Option.toList_some, components_root]
    rfl
  · rename_i hdot
    obtain ⟨text⟩ := p
    obtain rfl : text = "." := by
      rw [← String.toList_inj]
      exact hdot
    rfl
  · rename_i ys hys
    have hwalk : walk ('/' :: ys) = walk ys := walk_append [] ys
    rw [components_of_slash (f := ['.']) (b := ys) hys, hys, List.take_one, List.head?_cons,
      Option.toList_some, List.drop_one, List.tail_cons, hwalk]
    rfl
  · rename_i hroot hdot hcurrent
    have hrelative : p.isAbsolute = false := by
      rw [isAbsolute, beq_eq_false_iff_ne, Ne, List.head?_eq_some_iff]
      rintro ⟨ys, hys⟩
      exact hroot ys hys
    obtain heq | ⟨-, rest, hrest⟩ := components_of_relative hrelative
    · rw [heq]
      rfl
    · -- A path whose first segment is a dot has an anchor.
      have hjoin : joinChars '/' (['.'] :: rest) = p.text.toList := by
        rw [← hrest]
        exact joinChars_splitChars '/' _
      cases rest with
      | nil => exact (hdot hjoin.symm).elim
      | cons next rest =>
        rw [Text.joinChars_cons ['.'] (by simp)] at hjoin
        exact (hcurrent _ hjoin.symm).elim

theorem not_normal_mem_anchor (p : Path) (name : String) :
    .normal name ∉ (Path.mk (String.ofList (p.text.toList.take p.anchorLength))).components := by
  rw [anchorLength]
  split
  · rename_i ys hys
    rw [hys, List.take_one, List.head?_cons, Option.toList_some, components_root]
    simp
  · rename_i hdot
    rw [hdot, List.take_one, List.head?_cons, Option.toList_some, components_current]
    simp
  · rename_i ys hys
    rw [hys, List.take_one, List.head?_cons, Option.toList_some, components_current]
    simp
  · exact List.not_mem_nil

theorem walk_joinChars {ps : List (List Char)} (hne : ps ≠ []) (h : ∀ q ∈ ps, '/' ∉ q) :
    walk (joinChars '/' ps) = (ps.map String.ofList).filterMap innerComponent := by
  rw [walk, splitChars_joinChars hne h]

/-- Segments from the back: what follows the last one with a meaning contributes nothing. -/
theorem exists_idle (qs : List (List Char)) :
    ∃ idle : List (List Char), qs.reverse = (qs.dropWhile isIdle).reverse ++ idle ∧
      (idle.map String.ofList).filterMap innerComponent = [] := by
  refine ⟨(qs.takeWhile isIdle).reverse, ?_, ?_⟩
  · rw [← List.reverse_append, List.takeWhile_append_dropWhile]
  · rw [List.filterMap_eq_nil_iff]
    intro s hs
    obtain ⟨q, hq, rfl⟩ := List.mem_map.mp hs
    have hidle : isIdle q = true :=
      List.all_eq_true.mp List.all_takeWhile q (List.mem_reverse.mp hq)
    exact (isIdle_iff q).mp hidle

/-- The segments of a text whose last component is a name are those that its parent keeps, which do
not end in an idle one, and those of the name. -/
theorem exists_kept {cs : List Char} {name : String}
    (h : (walk cs).getLast? = some (.normal name)) :
    ∃ last rest tail, (splitChars '/' cs).reverse.dropWhile isIdle = last :: rest ∧
      splitChars '/' cs = (rest.dropWhile isIdle).reverse ++ tail ∧ tail ≠ [] ∧
      (tail.map String.ofList).filterMap innerComponent = [.normal name] := by
  rw [walk] at h
  generalize splitChars '/' cs = segments at h ⊢
  obtain ⟨idle, hsegments, hidle⟩ := exists_idle segments.reverse
  rw [List.reverse_reverse] at hsegments
  cases hbody : segments.reverse.dropWhile isIdle with
  | nil =>
    rw [hbody, List.reverse_nil, List.nil_append] at hsegments
    rw [hsegments, hidle] at h
    cases h
  | cons last rest =>
    obtain ⟨idle', hrest, hidle'⟩ := exists_idle rest
    rw [hbody, List.reverse_cons, hrest] at hsegments
    refine ⟨last, rest, idle' ++ [last] ++ idle, rfl, ?_, by simp, ?_⟩
    · rw [hsegments, List.append_assoc, List.append_assoc, List.append_assoc]
    · -- The last segment with a meaning is the one that contributes the last component.
      have hmeaning : isIdle last = false := by
        have hhead := List.head?_dropWhile_not isIdle segments.reverse
        rw [hbody] at hhead
        exact hhead
      rw [hsegments] at h
      simp only [List.map_append, List.filterMap_append, hidle, hidle', List.nil_append,
        List.append_nil, List.map_cons, List.map_nil] at h ⊢
      cases hlast : innerComponent (String.ofList last) with
      | none =>
        rw [← isIdle_iff, hmeaning] at hlast
        cases hlast
      | some c =>
        simp only [List.filterMap_cons, hlast, List.filterMap_nil, List.getLast?_concat] at h ⊢
        rw [Option.some.inj h]

theorem fileName?_eq_some_iff {p : Path} {name : String} :
    p.fileName? = some name ↔ p.components.getLast? = some (.normal name) := by
  rw [fileName?]
  split
  · rename_i last hlast
    rw [hlast, Option.some.injEq, Option.some.injEq, Component.normal.injEq]
  · rename_i hnot
    exact iff_of_false nofun fun h => hnot name h

/-- Pieces that do not end in an idle one are joined to a text. -/
theorem joinChars_reverse_dropWhile_ne_nil {rest : List (List Char)}
    (h : (rest.dropWhile isIdle).reverse ≠ []) :
    joinChars '/' (rest.dropWhile isIdle).reverse ≠ [] := by
  cases hbody : rest.dropWhile isIdle with
  | nil =>
    rw [hbody] at h
    exact absurd rfl h
  | cons last front =>
    have hmeaning := List.head?_dropWhile_not isIdle rest
    rw [hbody] at hmeaning
    have hlast : last ≠ [] := by
      rintro rfl
      cases hmeaning
    rw [List.reverse_cons]
    by_cases hfront : front = []
    · rw [hfront, List.reverse_nil, List.nil_append]
      exact hlast
    · rw [joinChars_append (by rwa [Ne, List.reverse_eq_nil_iff]) (by simp)]
      simp

/-- A path that ends in a name is its parent and that name. -/
theorem components_eq_parent {p : Path} {name : String} (h : p.fileName? = some name) :
    ∃ q, p.parent? = some q ∧ p.components = q.components ++ [.normal name] := by
  rw [fileName?_eq_some_iff] at h
  have hanchor : p.components = _ := p.components_eq_anchor
  have hwalk : (walk (p.text.toList.drop p.anchorLength)).getLast? = some (.normal name) := by
    rw [hanchor, List.getLast?_append, Option.or_eq_some_iff] at h
    obtain hlast | ⟨-, hlast⟩ := h
    · exact hlast
    · exact absurd (List.mem_of_getLast? hlast) (p.not_normal_mem_anchor name)
  obtain ⟨last, rest, tail, hbody, hsegments, htail, hname⟩ := exists_kept hwalk
  have hparent : p.parent? = some ⟨String.ofList (p.text.toList.take p.anchorLength ++
      joinChars '/' (rest.dropWhile isIdle).reverse)⟩ := by
    rw [parent?]
    simp only [hbody]
  refine ⟨_, hparent, ?_⟩
  have hpieces : ∀ q ∈ tail, '/' ∉ q := fun q hq =>
    not_mem_of_mem_splitChars (hsegments ▸ List.mem_append_right _ hq)
  -- The text is the anchor, what the parent keeps, and the segments of the name.
  have htext : p.text.toList = p.text.toList.take p.anchorLength ++
      joinChars '/' ((rest.dropWhile isIdle).reverse ++ tail) := by
    rw [← hsegments, joinChars_splitChars, List.take_append_drop]
  by_cases hkept : (rest.dropWhile isIdle).reverse = []
  · -- Nothing is kept but the anchor.
    rw [hkept, List.nil_append] at hsegments
    rw [hanchor, hkept, walk, hsegments, hname]
    simp [joinChars]
  · rw [joinChars_append hkept htail, ← List.append_assoc] at htext
    rw [components_of_slash htext, if_neg, walk_joinChars htail hpieces, hname]
    rw [List.append_eq_nil_iff]
    exact fun hnil => joinChars_reverse_dropWhile_ne_nil hkept hnil.2

/-- Replacing the file name leaves what is before it alone. A path without one gets it behind. -/
theorem components_withFileName (p : Path) {name : String} (h : IsName name) :
    (p.withFileName name).components =
      (if p.fileName?.isSome then p.components.dropLast else p.components) ++ [.normal name] := by
  rw [withFileName]
  cases hfile : p.fileName? with
  | none => exact p.components_join_name h
  | some old =>
    obtain ⟨q, hq, hcomponents⟩ := components_eq_parent hfile
    simp only [hq, Option.getD_some, Option.isSome_some, if_true]
    rw [components_join_name q h, hcomponents, List.dropLast_concat]

/-! ## Extensions -/

/-- A name ends in the extension that is put behind it, unless nothing is before the dot. -/
theorem splitName_append {stem ext : String} (hstem : stem ≠ "") (hext : '.' ∉ ext.toList) :
    splitName (stem ++ "." ++ ext) = (stem, some ext) := by
  have hback : (stem ++ "." ++ ext).toList.reverse =
      ext.toList.reverse ++ '.' :: stem.toList.reverse := by
    simp [String.toList_append]
  have htake : (ext.toList.reverse ++ '.' :: stem.toList.reverse).takeWhile (· ≠ '.') =
      ext.toList.reverse := by
    rw [List.takeWhile_append_of_pos]
    · simp
    · intro c hc
      rw [decide_eq_true_eq]
      rintro rfl
      exact hext (List.mem_reverse.mp hc)
  have hne : stem.toList.reverse.isEmpty = false := by
    rw [List.isEmpty_eq_false_iff, Ne, List.reverse_eq_nil_iff, String.toList_eq_nil_iff]
    exact hstem
  rw [splitName]
  simp only [hback, htake, List.drop_left, hne, Bool.false_eq_true, if_false, List.reverse_reverse,
    String.ofList_toList]

end Path
end ScriptSession
