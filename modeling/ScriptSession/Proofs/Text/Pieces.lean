import Mathlib.Data.List.TakeWhile
import Mathlib.Logic.Function.Basic
import ScriptSession.Text.Blank

/-!
# Pieces of a text

Splitting at a separator and joining with it are inverse to each other, piece by piece: a separator
between two texts separates their pieces, and pieces that do not hold the separator come back from
the text that they are joined to. What trimming leaves of a text begins with something else than a
blank, or is nothing.
-/

namespace ScriptSession
namespace Text

variable {sep : Char}

/-- A character that is no separator goes into the first piece. -/
theorem exists_splitChars_cons {c : Char} (hc : c ≠ sep) (cs : List Char) :
    ∃ first rest, splitChars sep cs = first :: rest ∧
      splitChars sep (c :: cs) = (c :: first) :: rest := by
  obtain ⟨first, rest, hpieces⟩ := List.exists_cons_of_ne_nil (splitChars_ne_nil sep cs)
  exact ⟨first, rest, hpieces, by rw [splitChars, if_neg hc, hpieces]⟩

/-- A separator in a text divides its pieces. -/
theorem splitChars_append (xs ys : List Char) :
    splitChars sep (xs ++ sep :: ys) = splitChars sep xs ++ splitChars sep ys := by
  induction xs with
  | nil => simp [splitChars]
  | cons x xs ih =>
    by_cases hx : x = sep
    · rw [List.cons_append, splitChars, splitChars, if_pos hx, if_pos hx, ih, List.cons_append]
    · obtain ⟨first, rest, hpieces, hcons⟩ := exists_splitChars_cons hx xs
      rw [hcons, List.cons_append, splitChars, if_neg hx, ih, hpieces]
      rfl

/-- No piece holds the separator. -/
theorem not_mem_of_mem_splitChars {cs piece : List Char} (h : piece ∈ splitChars sep cs) :
    sep ∉ piece := by
  induction cs generalizing piece with
  | nil =>
    rw [splitChars, List.mem_singleton] at h
    rw [h]
    exact List.not_mem_nil
  | cons c cs ih =>
    by_cases hc : c = sep
    · rw [splitChars, if_pos hc] at h
      obtain rfl | hrest := List.mem_cons.mp h
      · exact List.not_mem_nil
      · exact ih hrest
    · obtain ⟨first, rest, hpieces, hcons⟩ := exists_splitChars_cons hc cs
      rw [hcons] at h
      rw [hpieces] at ih
      obtain rfl | hrest := List.mem_cons.mp h
      · rw [List.mem_cons, not_or]
        exact ⟨fun hsep => hc hsep.symm, ih List.mem_cons_self⟩
      · exact ih (List.mem_cons_of_mem _ hrest)

/-- A text without the separator is its only piece. -/
theorem splitChars_of_not_mem {cs : List Char} (h : sep ∉ cs) : splitChars sep cs = [cs] := by
  induction cs with
  | nil => rfl
  | cons c cs ih =>
    rw [List.mem_cons, not_or] at h
    rw [splitChars, if_neg (Ne.symm h.1), ih h.2]

theorem joinChars_cons (piece : List Char) {rest : List (List Char)} (h : rest ≠ []) :
    joinChars sep (piece :: rest) = piece ++ sep :: joinChars sep rest := by
  cases rest with
  | nil => exact absurd rfl h
  | cons next rest => rfl

/-- Pieces are joined with one separator between the first ones and the others. -/
theorem joinChars_append {ps qs : List (List Char)} (hps : ps ≠ []) (hqs : qs ≠ []) :
    joinChars sep (ps ++ qs) = joinChars sep ps ++ sep :: joinChars sep qs := by
  induction ps with
  | nil => exact absurd rfl hps
  | cons p ps ih =>
    cases ps with
    | nil => exact joinChars_cons p hqs
    | cons q ps =>
      rw [List.cons_append, joinChars_cons p (by simp), ih (by simp),
        joinChars_cons p (by simp), List.append_assoc, List.cons_append]

/-- Pieces without the separator come back from the text that they are joined to. -/
theorem splitChars_joinChars {ps : List (List Char)} (hne : ps ≠ []) (h : ∀ p ∈ ps, sep ∉ p) :
    splitChars sep (joinChars sep ps) = ps := by
  induction ps with
  | nil => exact absurd rfl hne
  | cons p ps ih =>
    have hp : splitChars sep p = [p] := splitChars_of_not_mem (h p List.mem_cons_self)
    cases ps with
    | nil => exact hp
    | cons q ps =>
      rw [joinChars_cons p (by simp), splitChars_append, hp,
        ih (by simp) fun r hr => h r (List.mem_cons_of_mem p hr)]
      rfl

/-- Every character of a text is a separator or in a piece. -/
theorem mem_piece_of_mem {cs : List Char} {c : Char} (hc : c ∈ cs) (hne : c ≠ sep) :
    ∃ piece ∈ splitChars sep cs, c ∈ piece := by
  induction cs with
  | nil => cases hc
  | cons d cs ih =>
    by_cases hd : d = sep
    · rw [splitChars, if_pos hd]
      obtain rfl | hrest := List.mem_cons.mp hc
      · exact absurd hd hne
      · obtain ⟨piece, hpiece, hmem⟩ := ih hrest
        exact ⟨piece, List.mem_cons_of_mem _ hpiece, hmem⟩
    · obtain ⟨first, rest, hpieces, hcons⟩ := exists_splitChars_cons hd cs
      rw [hcons]
      rw [hpieces] at ih
      obtain rfl | hrest := List.mem_cons.mp hc
      · exact ⟨c :: first, List.mem_cons_self, List.mem_cons_self⟩
      · obtain ⟨piece, hpiece, hmem⟩ := ih hrest
        -- The first piece has grown by the character in front, the others are as before.
        obtain rfl | hpiece := List.mem_cons.mp hpiece
        · exact ⟨d :: piece, List.mem_cons_self, List.mem_cons_of_mem d hmem⟩
        · exact ⟨piece, List.mem_cons_of_mem _ hpiece, hmem⟩

/-- What is in a piece is in the text. -/
theorem mem_of_mem_piece {cs piece : List Char} (hpiece : piece ∈ splitChars sep cs) {c : Char}
    (hc : c ∈ piece) : c ∈ cs := by
  induction cs generalizing piece with
  | nil =>
    rw [splitChars, List.mem_singleton] at hpiece
    exact hpiece ▸ hc
  | cons d cs ih =>
    by_cases hd : d = sep
    · rw [splitChars, if_pos hd] at hpiece
      obtain rfl | hrest := List.mem_cons.mp hpiece
      · cases hc
      · exact List.mem_cons_of_mem d (ih hrest hc)
    · obtain ⟨first, rest, hpieces, hcons⟩ := exists_splitChars_cons hd cs
      rw [hcons] at hpiece
      rw [hpieces] at ih
      obtain rfl | hrest := List.mem_cons.mp hpiece
      · obtain rfl | hfirst := List.mem_cons.mp hc
        · exact List.mem_cons_self
        · exact List.mem_cons_of_mem d (ih List.mem_cons_self hfirst)
      · exact List.mem_cons_of_mem d (ih (List.mem_cons_of_mem _ hrest) hc)

/-- The last piece of a text ends as the text does, as far as there is no separator. -/
theorem getLast?_splitChars_append (front : List Char) {back : List Char} (h : sep ∉ back) :
    ∃ piece, (splitChars sep (front ++ back)).getLast? = some (piece ++ back) := by
  induction front with
  | nil => exact ⟨[], by rw [List.nil_append, splitChars_of_not_mem h]; rfl⟩
  | cons c front ih =>
    obtain ⟨piece, hpiece⟩ := ih
    rw [List.cons_append]
    by_cases hc : c = sep
    · rw [splitChars, if_pos hc, List.getLast?_cons_of_ne_nil (splitChars_ne_nil sep _)]
      exact ⟨piece, hpiece⟩
    · obtain ⟨first, rest, hpieces, hcons⟩ := exists_splitChars_cons hc (front ++ back)
      rw [hcons]
      rw [hpieces] at hpiece
      -- The character changes the last piece only if there is no other one.
      cases rest with
      | nil =>
        rw [List.getLast?_singleton, Option.some.injEq] at hpiece
        exact ⟨c :: piece, by rw [hpiece]; rfl⟩
      | cons next rest => exact ⟨piece, hpiece⟩

theorem splitOn_injective (sep : Char) : Function.Injective (splitOn sep) := by
  intro s s' h
  rw [splitOn, splitOn, List.map_inj_right fun _ _ heq => String.ofList_injective heq] at h
  rw [← String.toList_inj, ← joinChars_splitChars sep s.toList, h, joinChars_splitChars]

/-! ## Trimming -/

/-- What is left of a text that has something but blanks begins with something that is none. -/
theorem exists_trimChars_eq_cons {cs : List Char} (h : cs.all isBlank = false) :
    ∃ c rest, trimChars cs = c :: rest ∧ isBlank c = false := by
  obtain ⟨d, hd, hblank⟩ := List.all_eq_false.mp h
  cases hkept : cs.dropWhile isBlank with
  | nil =>
    rw [List.dropWhile_eq_nil_iff] at hkept
    exact absurd (hkept d hd) hblank
  | cons c rest =>
    have hc : isBlank c = false := by
      have hhead := List.head_dropWhile_not isBlank (w := by rw [hkept]; exact nofun)
      simpa only [hkept, List.head_cons] using hhead
    refine ⟨c, (rest.reverse.dropWhile isBlank).reverse, ?_, hc⟩
    rw [trimChars, hkept, List.reverse_cons, List.dropWhile_append]
    split
    · rename_i hempty
      rw [List.isEmpty_iff.mp hempty]
      simp [List.dropWhile, hc]
    · simp

theorem trimChars_of_all {cs : List Char} (h : cs.all isBlank = true) : trimChars cs = [] := by
  have hempty : cs.dropWhile isBlank = [] := by
    rw [List.dropWhile_eq_nil_iff]
    exact List.all_eq_true.mp h
  rw [trimChars, hempty]
  rfl

/-- Nothing is left of a text if and only if there are only blanks. -/
theorem trim_eq_empty_iff (s : String) : trim s = "" ↔ isBlankText s = true := by
  rw [trim, isBlankText]
  cases hblank : s.toList.all isBlank with
  | true =>
    rw [trimChars_of_all hblank]
    exact iff_of_true rfl rfl
  | false =>
    obtain ⟨c, rest, htrim, -⟩ := exists_trimChars_eq_cons hblank
    rw [htrim]
    refine iff_of_false (fun hempty => ?_) Bool.false_ne_true
    have hchars := congrArg String.toList hempty
    rw [String.toList_ofList] at hchars
    cases hchars

end Text
end ScriptSession
