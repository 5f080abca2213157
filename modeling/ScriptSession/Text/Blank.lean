/-!
# Blank characters, trimming and lines

Text that people type arrives with blanks around it and with line ends of two kinds. This file
fixes which characters count as blank, and the three ways the rest of the library cuts a text:
trimming both ends, splitting at a separator, and reading it line by line.

Splitting never loses a character: `joinChars_splitChars` puts the pieces back together.
-/

namespace ScriptSession
namespace Text

/-! ## Blanks -/

/-- The Unicode property `White_Space`: the characters that trimming removes. -/
def isBlank (c : Char) : Bool :=
  let n := c.val.toNat
  (9 ≤ n && n ≤ 13) || n == 0x20 || n == 0x85 || n == 0xA0 || n == 0x1680 ||
    (0x2000 ≤ n && n ≤ 0x200A) || n == 0x2028 || n == 0x2029 || n == 0x202F || n == 0x205F ||
    n == 0x3000

/-- Drop the blanks at both ends of a character list. -/
def trimChars (cs : List Char) : List Char :=
  ((cs.dropWhile isBlank).reverse.dropWhile isBlank).reverse

/-- The text without the blanks around it. -/
def trim (s : String) : String := String.ofList (trimChars s.toList)

/-- Nothing but blanks, or nothing at all. -/
def isBlankText (s : String) : Bool := s.toList.all isBlank

/-! ## Pieces between separators -/

/-- The pieces of a character list between the occurrences of a separator. There is always
one piece more than there are separators. -/
def splitChars (sep : Char) : List Char → List (List Char)
  | [] => [[]]
  | c :: cs =>
    if c = sep then [] :: splitChars sep cs
    else
      match splitChars sep cs with
      | [] => [[c]]
      | piece :: rest => (c :: piece) :: rest

/-- Put pieces back together with a separator between them. -/
def joinChars (sep : Char) : List (List Char) → List Char
  | [] => []
  | [piece] => piece
  | piece :: rest => piece ++ sep :: joinChars sep rest

/-- There is always a first piece. -/
theorem splitChars_ne_nil (sep : Char) (cs : List Char) : splitChars sep cs ≠ [] := by
  cases cs with
  | nil => simp [splitChars]
  | cons c cs =>
    by_cases h : c = sep
    · simp [splitChars, h]
    · simp only [splitChars, h, if_false]
      split <;> simp

/-- Splitting loses nothing. -/
theorem joinChars_splitChars (sep : Char) (cs : List Char) :
    joinChars sep (splitChars sep cs) = cs := by
  induction cs with
  | nil => rfl
  | cons c cs ih =>
    have hne := splitChars_ne_nil sep cs
    by_cases h : c = sep
    · subst h
      cases hs : splitChars c cs with
      | nil => exact absurd hs hne
      | cons piece rest =>
        rw [hs] at ih
        simp [splitChars, hs, joinChars, ih]
    · cases hs : splitChars sep cs with
      | nil => exact absurd hs hne
      | cons piece rest =>
        rw [hs] at ih
        cases rest with
        | nil => simp_all [splitChars, joinChars]
        | cons q qs => simp_all [splitChars, joinChars]

/-- The pieces of a text between the occurrences of a separator. -/
def splitOn (sep : Char) (s : String) : List String :=
  (splitChars sep s.toList).map String.ofList

/-! ## Lines -/

/-- A line without the carriage return that may end it. -/
def dropCarriageReturn (cs : List Char) : List Char :=
  match cs.reverse with
  | '\r' :: rest => rest.reverse
  | _ => cs

/-- The lines of a text. A line ends with a line feed or with a carriage return and a line
feed; a line feed at the very end starts no further line. -/
def lines (s : String) : List String :=
  let pieces := splitChars '\n' s.toList
  let closed := pieces.dropLast.map dropCarriageReturn
  let open_ := pieces.getLast?.getD []
  (if open_.isEmpty then closed else closed ++ [open_]).map String.ofList

/-- The text on a single line: blanks around it dropped, line feeds written as a comma. -/
def singleLine (s : String) : String :=
  String.ofList ((trimChars s.toList).flatMap fun c => if c = '\n' then [',', ' '] else [c])

/-- The lines of the trimmed text, each behind an indent. A text of blanks has none. -/
def indentLines (s indent : String) : String :=
  "\n".intercalate ((lines (trim s)).map (indent ++ ·))

end Text
end ScriptSession
