import Mathlib.Data.List.Induction
import ScriptSession.Proofs.Path.Components

/-!
# Names behind a path

A path that names are joined to, one after the other, has the segments of the path and then the
names, but for an empty segment that a separator at the end of the path leaves. Names can be joined
to each other before they are joined to the path (`join_joinAll`), and the parent of a joined name
is the path it was joined to (`parent?_join`).
-/

namespace ScriptSession
namespace Path

open Text (joinChars joinChars_splitChars splitChars splitChars_append splitChars_joinChars
  splitChars_ne_nil splitChars_of_not_mem)

/-! ## Joining texts -/

theorem IsName.isAbsolute {name : String} (h : IsName name) : (Path.mk name).isAbsolute = false :=
  (components_of_isName h).2

/-- What stands between a path and a text that is joined to it. -/
def joint (p : Path) : String :=
  if p.text = "" ∨ p.text.toList.getLast? = some '/' then "" else "/"

theorem text_join (p : Path) {q : String} (hq : (Path.mk q).isAbsolute = false) :
    (p.join q).text = p.text ++ p.joint ++ q := by
  rw [join, joint, if_neg (by simp [hq])]
  split
  · rw [String.append_empty]
  · rfl

/-- The text of a joined path ends as the text that was joined does. -/
theorem joint_join (p : Path) {q : String} (hq : (Path.mk q).isAbsolute = false) (hne : q ≠ "") :
    (p.join q).joint = (Path.mk q).joint := by
  have hlist : q.toList ≠ [] := by rwa [Ne, String.toList_eq_nil_iff]
  have hlast : (p.join q).text.toList.getLast? = q.toList.getLast? := by
    rw [text_join p hq, String.toList_append, List.getLast?_append, List.getLast?_eq_some_getLast
      hlist, Option.some_or]
  have hjoined : (p.join q).text ≠ "" := by
    rw [text_join p hq]
    simp [hne]
  simp only [joint, hlast, hjoined, hne, false_or]

theorem join_ne_empty (p : Path) {q : String} (hq : (Path.mk q).isAbsolute = false)
    (hne : q ≠ "") : (p.join q).text ≠ "" := by
  rw [text_join p hq]
  simp [hne]

theorem isAbsolute_join_of_ne_empty {p : Path} {q : String}
    (hq : (Path.mk q).isAbsolute = false) (hne : p.text ≠ "") :
    (p.join q).isAbsolute = p.isAbsolute := by
  obtain ⟨c, cs, hcs⟩ := List.exists_cons_of_ne_nil fun hnil =>
    hne (String.toList_eq_nil_iff.mp hnil)
  rw [isAbsolute, isAbsolute, text_join p hq, String.toList_append, String.toList_append, hcs]
  rfl

/-- Joining something relative does not make a path absolute, and keeps it so. -/
theorem isAbsolute_join (p : Path) {q : String} (hq : (Path.mk q).isAbsolute = false) :
    (p.join q).isAbsolute = p.isAbsolute := by
  by_cases hp : p.text = ""
  · obtain ⟨text⟩ := p
    obtain rfl : text = "" := hp
    have htext : (Path.mk "").join q = ⟨q⟩ := by simp [join, hq]
    rw [htext, hq]
    rfl
  · exact isAbsolute_join_of_ne_empty hq hp

/-- Two texts can be joined to each other before they are joined to a path. -/
theorem join_join (p : Path) {q r : String} (hq : (Path.mk q).isAbsolute = false) (hne : q ≠ "")
    (hr : (Path.mk r).isAbsolute = false) :
    p.join ((Path.mk q).join r).text = (p.join q).join r := by
  have hqr : (Path.mk ((Path.mk q).join r).text).isAbsolute = false := by
    rw [isAbsolute_join_of_ne_empty hr hne, hq]
  rw [Path.mk.injEq, text_join p hqr, text_join _ hr, text_join _ hr, text_join p hq,
    joint_join p hq hne]
  simp only [String.append_assoc]

/-- Names can be joined to each other before they are joined to a path. -/
theorem join_joinAll (p : Path) {names : List String} (hne : names ≠ [])
    (h : ∀ n ∈ names, IsName n) : p.join ((Path.mk "").joinAll names).text = p.joinAll names := by
  -- The empty path is left behind with the first name, so the induction begins at the second.
  have hbehind : ∀ (rest : List String) (q : String), (Path.mk q).isAbsolute = false → q ≠ "" →
      (∀ n ∈ rest, IsName n) →
      p.join ((Path.mk q).joinAll rest).text = (p.join q).joinAll rest := by
    intro rest
    induction rest with
    | nil => exact fun q _ _ _ => rfl
    | cons n rest ih =>
      intro q hq hqne hnames
      have hn : IsName n := hnames n List.mem_cons_self
      have hstep := ih ((Path.mk q).join n).text
        ((isAbsolute_join_of_ne_empty hn.isAbsolute hqne).trans hq)
        (join_ne_empty _ hn.isAbsolute hn.ne_empty)
        fun m hm => hnames m (List.mem_cons_of_mem n hm)
      rw [join_join p hq hqne hn.isAbsolute] at hstep
      exact hstep
  obtain ⟨n, rest, rfl⟩ := List.exists_cons_of_ne_nil hne
  have hn : IsName n := h n List.mem_cons_self
  have hfirst : (Path.mk "").join n = ⟨n⟩ := by simp [join, hn.isAbsolute]
  have := hbehind rest n hn.isAbsolute hn.ne_empty fun m hm => h m (List.mem_cons_of_mem n hm)
  rw [joinAll, List.foldl_cons, hfirst]
  exact this

theorem joinAll_append (p : Path) (xs ys : List String) :
    p.joinAll (xs ++ ys) = (p.joinAll xs).joinAll ys := by
  rw [joinAll, joinAll, joinAll, List.foldl_append]

theorem joinAll_concat (p : Path) (names : List String) (name : String) :
    p.joinAll (names ++ [name]) = (p.joinAll names).join name := joinAll_append p names [name]

/-- Joining names appends them to the components. -/
theorem components_joinAll (p : Path) {names : List String} (h : ∀ n ∈ names, IsName n) :
    (p.joinAll names).components = p.components ++ names.map .normal := by
  induction names generalizing p with
  | nil => simp [joinAll]
  | cons n names ih =>
    have hjoin := ih (p.join n) fun m hm => h m (List.mem_cons_of_mem n hm)
    rw [components_join_name p (h n List.mem_cons_self), List.append_assoc] at hjoin
    exact hjoin

/-! ## Segments -/

/-- A path with a name behind it has its own segments and the name, but for an empty one that it
ends in. -/
theorem segments_join (p : Path) {name : String} (h : IsName name) :
    (p.join name).segments = p.segments ++ [name] ∨
      ∃ front, p.segments = front ++ [""] ∧ (p.join name).segments = front ++ [name] := by
  have hpiece : (splitChars '/' name.toList).map String.ofList = [name] := by
    rw [splitChars_of_not_mem h.single, List.map_singleton, String.ofList_toList]
  have htext := text_join p h.isAbsolute
  rw [joint] at htext
  simp only [segments, Text.splitOn, htext]
  split
  · rename_i hend
    right
    obtain hempty | hslash := hend
    · exact ⟨[], by simp [hempty, splitChars], by simp [hempty, hpiece]⟩
    · -- The separator at the end is the one before the name.
      obtain ⟨xs, hxs⟩ := List.getLast?_eq_some_iff.mp hslash
      have hfront : splitChars '/' (xs ++ ['/']) = splitChars '/' xs ++ [[]] :=
        splitChars_append xs []
      have hjoined : splitChars '/' (p.text ++ "" ++ name).toList =
          splitChars '/' xs ++ splitChars '/' name.toList := by
        rw [String.append_empty, String.toList_append, hxs, List.append_assoc]
        exact splitChars_append xs name.toList
      refine ⟨(splitChars '/' xs).map String.ofList, ?_, ?_⟩
      · rw [hxs, hfront, List.map_append]
        rfl
      · rw [hjoined, List.map_append, hpiece]
  · left
    have hjoined : (p.text ++ "/" ++ name).toList = p.text.toList ++ '/' :: name.toList := by
      simp [String.toList_append]
    rw [hjoined, splitChars_append, List.map_append, hpiece]

theorem getLast?_segments_join (p : Path) {name : String} (h : IsName name) :
    (p.join name).segments.getLast? = some name := by
  obtain heq | ⟨front, -, heq⟩ := segments_join p h <;> rw [heq, List.getLast?_concat]

/-- A joined path ends in the last segment of what was joined. -/
theorem getLast?_segments_join_of_relative (p : Path) {q : String}
    (hq : (Path.mk q).isAbsolute = false) :
    (p.join q).segments.getLast? = (Path.mk q).segments.getLast? := by
  -- Wherever the separator comes from, it stands right before what is joined.
  have hbehind : ∀ f : List Char, (p.join q).text.toList = f ++ '/' :: q.toList →
      (p.join q).segments.getLast? = (Path.mk q).segments.getLast? := by
    intro f hf
    have hne : (splitChars '/' q.toList).map String.ofList ≠ [] := fun hnil =>
      splitChars_ne_nil '/' _ (List.map_eq_nil_iff.mp hnil)
    rw [segments, segments, Text.splitOn, Text.splitOn, hf, splitChars_append, List.map_append,
      List.getLast?_append, List.getLast?_eq_some_getLast hne, Option.some_or]
  by_cases hempty : p.text = ""
  · rw [join, if_neg (by simp [hq]), if_pos (.inl hempty), hempty, String.empty_append]
  · by_cases hslash : p.text.toList.getLast? = some '/'
    · obtain ⟨xs, hxs⟩ := List.getLast?_eq_some_iff.mp hslash
      apply hbehind xs
      rw [text_join p hq, joint, if_pos (.inr hslash), String.append_empty, String.toList_append,
        hxs, List.append_assoc]
      rfl
    · apply hbehind p.text.toList
      rw [text_join p hq, joint, if_neg (not_or.mpr ⟨hempty, hslash⟩)]
      simp [String.toList_append]

/-! ## The parent of a joined name -/

theorem anchorLength_le (p : Path) : p.anchorLength ≤ 1 := by
  unfold anchorLength
  split <;> simp

/-- What a path is anchored at shows in a longer text too. -/
theorem anchorLength_append {f b : List Char} (hf : f ≠ []) (hdot : f ≠ ['.']) :
    (Path.mk (String.ofList (f ++ b))).anchorLength = (Path.mk (String.ofList f)).anchorLength := by
  simp only [anchorLength, String.toList_ofList]
  cases f with
  | nil => exact absurd rfl hf
  | cons c f =>
    cases f with
    | nil =>
      have hc : c ≠ '.' := fun heq => hdot (by rw [heq])
      by_cases hslash : c = '/'
      · simp [hslash]
      · simp only [List.cons_append, List.nil_append]
        split <;> split <;> simp_all
    | cons d f =>
      simp only [List.cons_append]
      split <;> split <;> simp_all

/-- Behind its anchor a path has the last segment it has as a whole, if that one has a meaning. -/
theorem getLast?_behind_anchor {f last : List Char}
    (hlast : (splitChars '/' f).getLast? = some last) (hmeaning : isIdle last = false) :
    (splitChars '/' (f.drop (Path.mk (String.ofList f)).anchorLength)).getLast? = some last := by
  have hbehind : ∀ cs : List Char, (splitChars '/' ('/' :: cs)).getLast? =
      (splitChars '/' cs).getLast? := by
    intro cs
    have hsplit : splitChars '/' ('/' :: cs) = [] :: splitChars '/' cs := splitChars_append [] cs
    rw [hsplit, List.getLast?_cons_of_ne_nil (splitChars_ne_nil '/' cs)]
  simp only [anchorLength, String.toList_ofList]
  split
  · rename_i cs
    rw [hbehind] at hlast
    exact hlast
  · have hsplit : splitChars '/' ['.'] = [['.']] := by decide
    rw [hsplit, List.getLast?_singleton, Option.some.injEq] at hlast
    rw [← hlast] at hmeaning
    cases hmeaning
  · rename_i cs
    have hsplit : splitChars '/' ('.' :: '/' :: cs) = ['.'] :: splitChars '/' cs :=
      splitChars_append ['.'] cs
    rw [hsplit, List.getLast?_cons_of_ne_nil (splitChars_ne_nil '/' cs)] at hlast
    rw [List.drop_one, List.tail_cons, hbehind]
    exact hlast
  · exact hlast

/-- A text whose last segment has a meaning is not empty, is no single dot and does not end in a
separator. -/
theorem of_last_segment {f last : List Char} (hlast : (splitChars '/' f).getLast? = some last)
    (hmeaning : isIdle last = false) : f ≠ [] ∧ f ≠ ['.'] ∧ f.getLast? ≠ some '/' := by
  refine ⟨?_, ?_, fun hend => ?_⟩
  · rintro rfl
    rw [splitChars, List.getLast?_singleton, Option.some.injEq] at hlast
    rw [← hlast] at hmeaning
    cases hmeaning
  · rintro rfl
    have hsplit : splitChars '/' ['.'] = [['.']] := by decide
    rw [hsplit, List.getLast?_singleton, Option.some.injEq] at hlast
    rw [← hlast] at hmeaning
    cases hmeaning
  · obtain ⟨xs, rfl⟩ := List.getLast?_eq_some_iff.mp hend
    have hsplit : splitChars '/' (xs ++ ['/']) = splitChars '/' xs ++ [[]] :=
      splitChars_append xs []
    rw [hsplit, List.getLast?_concat, Option.some.injEq] at hlast
    rw [← hlast] at hmeaning
    cases hmeaning

/-- Behind the anchor there is nothing idle at the end. -/
theorem dropWhile_behind_anchor {f last : List Char}
    (hlast : (splitChars '/' f).getLast? = some last) (hmeaning : isIdle last = false) :
    (splitChars '/' (f.drop (Path.mk (String.ofList f)).anchorLength)).reverse.dropWhile isIdle =
      (splitChars '/' (f.drop (Path.mk (String.ofList f)).anchorLength)).reverse := by
  obtain ⟨front, hfront⟩ :=
    List.getLast?_eq_some_iff.mp (getLast?_behind_anchor hlast hmeaning)
  rw [hfront, List.reverse_append, List.reverse_singleton, List.singleton_append,
    List.dropWhile_cons_of_neg (by simp [hmeaning])]

/-- The parent of a name behind a path is the path, if that ends in a segment with a meaning. -/
theorem parent?_join {p : Path} {name last : String} (h : IsName name)
    (hlast : p.segments.getLast? = some last) (hmeaning : innerComponent last ≠ none) :
    (p.join name).parent? = some p := by
  obtain ⟨text⟩ := p
  obtain ⟨f, rfl⟩ : ∃ f, text = String.ofList f := ⟨text.toList, String.ofList_toList.symm⟩
  -- The last segment of the path, as characters.
  obtain ⟨piece, hpiece, rfl⟩ : ∃ piece, (splitChars '/' f).getLast? = some piece ∧
      String.ofList piece = last := by
    rw [segments, Text.splitOn, String.toList_ofList, List.getLast?_map, Option.map_eq_some_iff]
      at hlast
    exact hlast
  have hidle : isIdle piece = false := by
    rw [← Bool.not_eq_true, isIdle_iff]
    exact hmeaning
  obtain ⟨hf, hdot, hslash⟩ := of_last_segment hpiece hidle
  have hjoined : (Path.mk (String.ofList f)).join name =
      ⟨String.ofList (f ++ '/' :: name.toList)⟩ := by
    rw [Path.mk.injEq, text_join _ h.isAbsolute, joint, if_neg, ← String.toList_inj]
    · simp [String.toList_append]
    · simp [hf, hslash]
  -- Behind the anchor the segments of the path are followed by the name.
  have hrest := dropWhile_behind_anchor hpiece hidle
  have hle : (Path.mk (String.ofList f)).anchorLength ≤ f.length := by
    have := anchorLength_le (Path.mk (String.ofList f))
    have := List.length_pos_iff.mpr hf
    omega
  have hanchor := anchorLength_append (b := '/' :: name.toList) hf hdot
  generalize (Path.mk (String.ofList f)).anchorLength = anchor at hrest hle hanchor
  have hbody : (splitChars '/' ((f ++ '/' :: name.toList).drop anchor)).reverse =
      name.toList :: (splitChars '/' (f.drop anchor)).reverse := by
    rw [List.drop_append_of_le_length hle, splitChars_append, splitChars_of_not_mem h.single,
      List.reverse_append]
    rfl
  have hname : isIdle name.toList = false := by
    rw [← Bool.not_eq_true, isIdle_iff, String.ofList_toList, h.innerComponent]
    exact Option.some_ne_none _
  rw [hjoined, parent?]
  simp only [String.toList_ofList, hanchor, hbody,
    List.dropWhile_cons_of_neg (show ¬ isIdle name.toList = true by simp [hname]), hrest,
    List.reverse_reverse, joinChars_splitChars, List.take_append_of_le_length hle,
    List.take_append_drop]

/-- The parent of several names behind a path is the path with all of them but the last. -/
theorem parent?_joinAll (p : Path) {names : List String} {last name : String}
    (hlast : IsName last) (hname : IsName name) :
    (p.joinAll (names ++ [last, name])).parent? = some (p.joinAll (names ++ [last])) := by
  have hjoin : p.joinAll (names ++ [last, name]) = (p.joinAll (names ++ [last])).join name := by
    rw [← joinAll_concat, List.append_assoc]
    rfl
  have hend : (p.joinAll (names ++ [last])).segments.getLast? = some last := by
    rw [joinAll_concat]
    exact getLast?_segments_join _ hlast
  rw [hjoin]
  exact parent?_join hname hend (by rw [hlast.innerComponent]; exact nofun)

/-! ## The name at the end -/

theorem fileName?_join (p : Path) {name : String} (h : IsName name) :
    (p.join name).fileName? = some name := by
  rw [fileName?_eq_some_iff, components_join_name p h, List.getLast?_concat]

end Path
end ScriptSession
