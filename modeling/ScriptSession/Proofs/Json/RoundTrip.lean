import ScriptSession.Json.Reader
import ScriptSession.Json.Writer

/-!
# Reading what was written

The spread text of a value is read back as the value, if the value holds no number and all its
literals name texts: a number is kept as the text it was written with, which may be none that a
reader accepts, and a literal without text is written as some half of a pair. Main statement:
`parse_pretty`. The induction is on the value; the fuel of a reader is enough as long as it is no
less than the number of characters that are to be read.
-/

namespace ScriptSession
namespace Json

/-! ## Values that are read back -/

mutual

/-- A value without numbers whose literals name texts. -/
def Value.IsPlain : Value → Prop
  | .null => True
  | .bool _ => True
  | .number _ => False
  | .text s => s.isSome = true
  | .array items => ArePlain items
  | .object fields => FieldsArePlain fields

/-- Plain values. -/
def ArePlain : List Value → Prop
  | [] => True
  | v :: rest => v.IsPlain ∧ ArePlain rest

/-- Fields with names and plain values. -/
def FieldsArePlain : List (Option String × Value) → Prop
  | [] => True
  | (name, v) :: rest => name.isSome = true ∧ v.IsPlain ∧ FieldsArePlain rest

end

/-! ## Blanks -/

/-- The blanks that a reader skips. -/
def IsBlank (c : Char) : Prop := c = ' ' ∨ c = '\n' ∨ c = '\t' ∨ c = '\r'

theorem skipBlanks_of_not {c : Char} (h : ¬ IsBlank c) (rest : List Char) :
    skipBlanks (c :: rest) = c :: rest := if_neg h

theorem skipBlanks_append {blanks : List Char} (h : ∀ c ∈ blanks, IsBlank c)
    (rest : List Char) : skipBlanks (blanks ++ rest) = skipBlanks rest := by
  induction blanks with
  | nil => rfl
  | cons c blanks ih =>
    have hc : c = ' ' ∨ c = '\n' ∨ c = '\t' ∨ c = '\r' := h c List.mem_cons_self
    rw [List.cons_append, skipBlanks, if_pos hc,
      ih fun d hd => h d (List.mem_cons_of_mem c hd)]

theorem skipBlanks_skipBlanks (cs : List Char) : skipBlanks (skipBlanks cs) = skipBlanks cs := by
  induction cs with
  | nil => rfl
  | cons c cs ih =>
    by_cases hc : IsBlank c
    · have hskip : skipBlanks (c :: cs) = skipBlanks cs := if_pos hc
      rw [hskip, ih]
    · rw [skipBlanks_of_not hc, skipBlanks_of_not hc]

theorem isBlank_of_mem_newLine {level : Nat} {c : Char} (hc : c ∈ newLine level) : IsBlank c := by
  rw [newLine, List.mem_cons, List.mem_replicate] at hc
  rcases hc with rfl | ⟨-, rfl⟩
  · exact .inr (.inl rfl)
  · exact .inl rfl

theorem skipBlanks_newLine (level : Nat) (rest : List Char) :
    skipBlanks (newLine level ++ rest) = skipBlanks rest :=
  skipBlanks_append (fun _ hc => isBlank_of_mem_newLine hc) rest

theorem length_newLine (level : Nat) : (newLine level).length = 2 * level + 1 := by
  simp [newLine]

/-- Blanks in front of a value are not read. -/
theorem readValue_congr {cs cs' : List Char} (h : skipBlanks cs = skipBlanks cs') (fuel : Nat) :
    readValue fuel cs = readValue fuel cs' := by
  cases fuel with
  | zero => rfl
  | succ fuel => rw [readValue, readValue, h]

theorem readValue_space (fuel : Nat) (cs : List Char) :
    readValue fuel (' ' :: cs) = readValue fuel cs :=
  readValue_congr (show skipBlanks (' ' :: cs) = skipBlanks cs from if_pos (.inl rfl)) fuel

theorem readItems_congr {cs cs' : List Char} (h : skipBlanks cs = skipBlanks cs') (fuel : Nat) :
    readItems fuel cs = readItems fuel cs' := by
  cases fuel with
  | zero => rfl
  | succ fuel => rw [readItems, readItems, readValue_congr h]

theorem readFields_congr {cs cs' : List Char} (h : skipBlanks cs = skipBlanks cs') (fuel : Nat) :
    readFields fuel cs = readFields fuel cs' := by
  cases fuel with
  | zero => rfl
  | succ fuel => rw [readFields, readFields, h]

/-! ## Literals -/

/-- The digits that a control is written with have its value. -/
theorem hexValue?_hexDigit : ∀ n, n < 32 →
    hexValue? (hexDigit (n / 16)) = some (n / 16) ∧ hexValue? (hexDigit n) = some (n % 16) := by
  decide

/-- What a character is written as is read as the character. -/
theorem readLiteral_escapeChar (fuel : Nat) (c : Char) (rest acc : List Char) :
    readLiteral (fuel + 1) (escapeChar c ++ rest) (some acc) =
      readLiteral fuel rest (some (c :: acc)) := by
  unfold escapeChar
  split
  · rfl
  · rfl
  · rfl
  · rfl
  · rfl
  · rfl
  · rfl
  · dsimp only
    split
    · -- A control without a letter of its own.
      rename_i hcontrol
      change c.toNat < 32 at hcontrol
      obtain ⟨hhigh, hlow⟩ := hexValue?_hexDigit c.toNat hcontrol
      have hzero : hexValue? '0' = some 0 := rfl
      have hunit : readUnit ('0' :: '0' :: hexDigit (c.toNat / 16) :: hexDigit c.toNat :: rest) =
          some (c.toNat, rest) := by
        simp [readUnit, hzero, hhigh, hlow]
        omega
      have hnotHigh : isHighHalf c.toNat = false := by
        simp [isHighHalf]
        omega
      have hnotLow : isLowHalf c.toNat = false := by
        simp [isLowHalf]
        omega
      show readLiteral (fuel + 1) ('\\' :: 'u' :: '0' :: '0' :: hexDigit (c.toNat / 16) ::
        hexDigit c.toNat :: rest) (some acc) = _
      rw [readLiteral, hunit]
      simp [hnotHigh, hnotLow, Char.ofNat_toNat]
    · -- Any other character stands for itself.
      rename_i hprinted
      change ¬ c.toNat < 32 at hprinted
      rw [List.cons_append, List.nil_append, readLiteral, if_neg hprinted]
      · rfl
      all_goals simp_all

theorem escapeChar_ne_nil (c : Char) : escapeChar c ≠ [] := by
  unfold escapeChar
  split
  case h_8 =>
    dsimp only
    split <;> exact nofun
  all_goals exact nofun

theorem length_le_length_flatMap_escapeChar (cs : List Char) :
    cs.length ≤ (cs.flatMap escapeChar).length := by
  induction cs with
  | nil => exact Nat.le_refl _
  | cons c cs ih =>
    have hpos := List.length_pos_iff.mpr (escapeChar_ne_nil c)
    rw [List.flatMap_cons, List.length_append, List.length_cons]
    omega

theorem readLiteral_flatMap (cs rest acc : List Char) {fuel : Nat} (hfuel : cs.length < fuel) :
    readLiteral fuel (cs.flatMap escapeChar ++ '\"' :: rest) (some acc) =
      some (some (String.ofList (acc.reverse ++ cs)), rest) := by
  induction cs generalizing acc fuel with
  | nil =>
    obtain ⟨fuel, rfl⟩ := Nat.exists_eq_add_of_lt hfuel
    simp [readLiteral]
  | cons c cs ih =>
    rw [List.length_cons] at hfuel
    obtain ⟨fuel, rfl⟩ : ∃ n, fuel = n + 1 := ⟨fuel - 1, by omega⟩
    rw [List.flatMap_cons, List.append_assoc, readLiteral_escapeChar, ih _ (by omega)]
    simp

/-- The rest of a written literal is read as its text. -/
theorem readLiteral_literal (s : String) (rest : List Char) :
    let cs := s.toList.flatMap escapeChar ++ '\"' :: rest
    readLiteral (cs.length + 1) cs (some []) = some (some s, rest) := by
  intro cs
  have hlength := length_le_length_flatMap_escapeChar s.toList
  have hfuel : s.toList.length < cs.length + 1 := by
    simp only [cs, List.length_append]
    omega
  have hread := readLiteral_flatMap s.toList rest [] hfuel
  rw [List.reverse_nil, List.nil_append, String.ofList_toList] at hread
  exact hread

/-! ## Values -/

theorem readValue_null (fuel : Nat) (rest : List Char) :
    readValue (fuel + 1) ('n' :: 'u' :: 'l' :: 'l' :: rest) = some (.null, rest) := by
  rw [readValue, skipBlanks_of_not (by simp [IsBlank])]
  rfl

theorem readValue_true (fuel : Nat) (rest : List Char) :
    readValue (fuel + 1) ('t' :: 'r' :: 'u' :: 'e' :: rest) = some (.bool true, rest) := by
  rw [readValue, skipBlanks_of_not (by simp [IsBlank])]
  rfl

theorem readValue_false (fuel : Nat) (rest : List Char) :
    readValue (fuel + 1) ('f' :: 'a' :: 'l' :: 's' :: 'e' :: rest) = some (.bool false, rest) := by
  rw [readValue, skipBlanks_of_not (by simp [IsBlank])]
  rfl

theorem readValue_literal (fuel : Nat) (s : String) (rest : List Char) :
    readValue (fuel + 1) (literal s ++ rest) = some (.text (some s), rest) := by
  have hlist : literal s ++ rest = '\"' :: (s.toList.flatMap escapeChar ++ '\"' :: rest) := by
    simp [literal]
  rw [hlist, readValue, skipBlanks_of_not (by simp [IsBlank])]
  simp only [readLiteral_literal s rest]
  rfl

/-- Behind the bracket of an array come its end or its items. -/
theorem readValue_array (fuel : Nat) (cs : List Char) :
    readValue (fuel + 1) ('[' :: cs) =
      match skipBlanks cs with
      | ']' :: rest => some (.array [], rest)
      | rest => (readItems fuel rest).bind fun r => some (.array r.1, r.2) := by
  rw [readValue, skipBlanks_of_not (by simp [IsBlank])]
  rfl

/-- An array that is not closed at once has items. -/
theorem readValue_bracket {cs : List Char} (h : ∀ rest, skipBlanks cs ≠ ']' :: rest)
    (fuel : Nat) :
    readValue (fuel + 1) ('[' :: cs) = (readItems fuel cs).map fun r => (.array r.1, r.2) := by
  have hcongr : readItems fuel (skipBlanks cs) = readItems fuel cs :=
    readItems_congr (skipBlanks_skipBlanks cs) fuel
  rw [readValue_array]
  split
  · rename_i rest hclosed
    exact absurd hclosed (h rest)
  · rw [hcongr]
    cases readItems fuel cs <;> rfl

/-- Behind the brace of an object come its end or its fields. -/
theorem readValue_object (fuel : Nat) (cs : List Char) :
    readValue (fuel + 1) ('\x7b' :: cs) =
      match skipBlanks cs with
      | '\x7d' :: rest => some (.object [], rest)
      | rest => (readFields fuel rest).bind fun r => some (.object r.1, r.2) := by
  rw [readValue, skipBlanks_of_not (by simp [IsBlank])]
  rfl

/-- An object that is not closed at once has fields. -/
theorem readValue_brace {cs : List Char} (h : ∀ rest, skipBlanks cs ≠ '\x7d' :: rest)
    (fuel : Nat) :
    readValue (fuel + 1) ('\x7b' :: cs) = (readFields fuel cs).map fun r => (.object r.1, r.2) := by
  have hcongr : readFields fuel (skipBlanks cs) = readFields fuel cs :=
    readFields_congr (skipBlanks_skipBlanks cs) fuel
  rw [readValue_object]
  split
  · rename_i rest hclosed
    exact absurd hclosed (h rest)
  · rw [hcongr]
    cases readFields fuel cs <;> rfl

/-- A field is a name, a colon and a value. After a comma there are more, and after a brace there
are none. -/
theorem readFields_field {fuel : Nat} {cs rest : List Char} {v : Value} (name : String)
    (hvalue : readValue fuel cs = some (v, rest)) :
    readFields (fuel + 1) (literal name ++ ':' :: cs) =
      match skipBlanks rest with
      | ',' :: more => (readFields fuel more).bind fun r => some ((some name, v) :: r.1, r.2)
      | '\x7d' :: more => some ([(some name, v)], more)
      | _ => none := by
  have hlist : literal name ++ ':' :: cs =
      '\"' :: (name.toList.flatMap escapeChar ++ '\"' :: ':' :: cs) := by
    simp [literal]
  rw [hlist, readFields, skipBlanks_of_not (by simp [IsBlank])]
  simp only [readLiteral_literal name (':' :: cs), Option.bind_eq_bind, Option.bind_some,
    skipBlanks_of_not (c := ':') (by simp [IsBlank])]
  rw [hvalue]
  rfl

/-! ## Spread values -/

/-- A spread value begins with no blank and no closing bracket. -/
theorem exists_cons_spread (level : Nat) {v : Value} (h : v.IsPlain) :
    ∃ c cs, spread level v = c :: cs ∧ ¬ IsBlank c ∧ c ≠ ']' := by
  cases v with
  | null => exact ⟨'n', _, rfl, by simp [IsBlank], by decide⟩
  | bool b =>
    cases b with
    | true => exact ⟨'t', _, rfl, by simp [IsBlank], by decide⟩
    | false => exact ⟨'f', _, rfl, by simp [IsBlank], by decide⟩
  | number l => exact absurd h (by simp [Value.IsPlain])
  | text s =>
    cases s with
    | none => exact absurd h (by simp [Value.IsPlain])
    | some s => exact ⟨'\"', _, rfl, by simp [IsBlank], by decide⟩
  | array items =>
    rw [spread]
    split
    · exact ⟨'[', _, rfl, by simp [IsBlank], by decide⟩
    · exact ⟨'[', _, rfl, by simp [IsBlank], by decide⟩
  | object fields =>
    rw [spread]
    split
    · exact ⟨'\x7b', _, rfl, by simp [IsBlank], by decide⟩
    · exact ⟨'\x7b', _, rfl, by simp [IsBlank], by decide⟩

theorem length_spread_pos (level : Nat) {v : Value} (h : v.IsPlain) :
    0 < (spread level v).length := by
  obtain ⟨c, cs, hspread, -⟩ := exists_cons_spread level h
  simp [hspread]

/-- Items are spread one by one: what follows an item is nothing, or a comma and the others. -/
theorem spreadItems_cons (level : Nat) (v : Value) (items : List Value) :
    spreadItems level (v :: items) = newLine level ++ spread level v ++
      (if items = [] then [] else ',' :: spreadItems level items) := by
  cases items with
  | nil => simp [spreadItems]
  | cons w items =>
    rw [spreadItems]
    · simp
    · exact nofun

theorem spreadFields_cons (level : Nat) (name : String) (v : Value)
    (fields : List (Option String × Value)) :
    spreadFields level ((some name, v) :: fields) =
      newLine level ++ literal name ++ [':', ' '] ++ spread level v ++
        (if fields = [] then [] else ',' :: spreadFields level fields) := by
  cases fields with
  | nil => simp [spreadFields, optionalLiteral]
  | cons f fields =>
    rw [spreadFields]
    · simp [optionalLiteral]
    · exact nofun

mutual

/-- A spread value is read with as much fuel as it has characters. -/
theorem readValue_spread (level : Nat) (rest : List Char) : ∀ (v : Value), v.IsPlain →
    ∀ fuel, (spread level v).length ≤ fuel →
      readValue fuel (spread level v ++ rest) = some (v, rest)
  -- A value is at least one character, so there is fuel to begin with.
  | v, h, 0, hfuel => by
    have hpos := length_spread_pos level h
    omega
  | .null, _, fuel + 1, _ => readValue_null fuel rest
  | .bool true, _, fuel + 1, _ => readValue_true fuel rest
  | .bool false, _, fuel + 1, _ => readValue_false fuel rest
  | .text (some s), _, fuel + 1, _ => readValue_literal fuel s rest
  | .array [], _, fuel + 1, _ => rfl
  | .array (v :: items), h, fuel + 1, hfuel => by
    have hlist : spread level (.array (v :: items)) ++ rest =
        '[' :: (spreadItems (level + 1) (v :: items) ++ (newLine level ++ ']' :: rest)) := by
      rw [spread]
      simp
    have hlength : (spreadItems (level + 1) (v :: items)).length ≤ fuel := by
      rw [spread] at hfuel
      simp at hfuel
      omega
    have hitems := readItems_spreadItems (level + 1) level rest v items h fuel hlength
    rw [hlist, readValue_bracket _ fuel, hitems, Option.map_some]
    -- The bracket is not followed by the closing one, since the first item begins otherwise.
    intro more
    obtain ⟨c, cs, hspread, hblank, hbracket⟩ := exists_cons_spread (level + 1) h.1
    rw [spreadItems_cons, hspread]
    simp only [List.append_assoc, List.cons_append, skipBlanks_newLine, skipBlanks_of_not hblank]
    intro heq
    exact hbracket (List.cons.inj heq).1
  | .object [], _, fuel + 1, _ => rfl
  | .object ((some name, v) :: fields), h, fuel + 1, hfuel => by
    have hlist : spread level (.object ((some name, v) :: fields)) ++ rest =
        '\x7b' :: (spreadFields (level + 1) ((some name, v) :: fields) ++
          (newLine level ++ '\x7d' :: rest)) := by
      rw [spread]
      simp
    have hlength : (spreadFields (level + 1) ((some name, v) :: fields)).length ≤ fuel := by
      rw [spread] at hfuel
      simp at hfuel
      omega
    have hfields := readFields_spreadFields (level + 1) level rest name v fields h.2 fuel hlength
    rw [hlist, readValue_brace _ fuel, hfields, Option.map_some]
    intro more
    rw [spreadFields_cons, literal]
    simp only [List.append_assoc, List.cons_append, skipBlanks_newLine,
      skipBlanks_of_not (c := '\"') (by simp [IsBlank])]
    intro heq
    exact absurd (List.cons.inj heq).1 (by decide)
termination_by _ _ fuel => fuel

theorem readItems_spreadItems (level outer : Nat) (rest : List Char) : ∀ (v : Value)
    (items : List Value), ArePlain (v :: items) →
    ∀ fuel, (spreadItems level (v :: items)).length ≤ fuel →
      readItems fuel (spreadItems level (v :: items) ++ (newLine outer ++ ']' :: rest)) =
        some (v :: items, rest)
  | v, items, h, 0, hfuel => by
    have hpos := length_newLine level
    rw [spreadItems_cons] at hfuel
    simp [hpos] at hfuel
  | v, [], h, fuel + 1, hfuel => by
    rw [spreadItems_cons, List.length_append, List.length_append, length_newLine] at hfuel
    have hvalue := readValue_spread level (newLine outer ++ ']' :: rest) v h.1 fuel (by omega)
    rw [spreadItems_cons, if_pos rfl, List.append_nil, List.append_assoc,
      readItems_congr (skipBlanks_newLine level _), readItems, hvalue]
    simp only [Option.bind_eq_bind, Option.bind_some, skipBlanks_newLine,
      skipBlanks_of_not (c := ']') (by simp [IsBlank])]
  | v, w :: items, h, fuel + 1, hfuel => by
    rw [spreadItems_cons, if_neg nofun, List.length_append, List.length_append, length_newLine,
      List.length_cons] at hfuel
    have hvalue := readValue_spread level
      (',' :: (spreadItems level (w :: items) ++ (newLine outer ++ ']' :: rest))) v h.1 fuel
      (by omega)
    have hitems := readItems_spreadItems level outer rest w items h.2 fuel (by omega)
    rw [spreadItems_cons, if_neg nofun, List.append_assoc, List.append_assoc,
      readItems_congr (skipBlanks_newLine level _), readItems, List.cons_append, hvalue]
    simp only [Option.bind_eq_bind, Option.bind_some,
      skipBlanks_of_not (c := ',') (by simp [IsBlank]), hitems]
termination_by _ _ _ fuel => fuel

theorem readFields_spreadFields (level outer : Nat) (rest : List Char) : ∀ (name : String)
    (v : Value) (fields : List (Option String × Value)), v.IsPlain ∧ FieldsArePlain fields →
    ∀ fuel, (spreadFields level ((some name, v) :: fields)).length ≤ fuel →
      readFields fuel (spreadFields level ((some name, v) :: fields) ++
        (newLine outer ++ '\x7d' :: rest)) = some ((some name, v) :: fields, rest)
  | name, v, fields, h, 0, hfuel => by
    have hpos := length_newLine level
    rw [spreadFields_cons] at hfuel
    simp [hpos] at hfuel
  | name, v, [], h, fuel + 1, hfuel => by
    rw [spreadFields_cons] at hfuel
    simp only [List.length_append, length_newLine] at hfuel
    have hvalue := readValue_spread level (newLine outer ++ '\x7d' :: rest) v h.1 fuel (by omega)
    rw [← readValue_space] at hvalue
    have hlast := readFields_field name hvalue
    simp only [skipBlanks_newLine, skipBlanks_of_not (c := '\x7d') (by simp [IsBlank])] at hlast
    rw [spreadFields_cons, if_pos rfl, ← hlast]
    simp only [List.append_assoc, List.cons_append, List.nil_append]
    exact readFields_congr (skipBlanks_newLine level _) _
  | name, v, (some name', w) :: fields, h, fuel + 1, hfuel => by
    rw [spreadFields_cons, if_neg nofun] at hfuel
    simp only [List.length_append, length_newLine, List.length_cons] at hfuel
    have hvalue := readValue_spread level
      (',' :: (spreadFields level ((some name', w) :: fields) ++ (newLine outer ++ '\x7d' :: rest)))
      v h.1 fuel (by omega)
    rw [← readValue_space] at hvalue
    have hfields := readFields_spreadFields level outer rest name' w fields h.2.2 fuel (by omega)
    have hmore := readFields_field name hvalue
    simp only [skipBlanks_of_not (c := ',') (by simp [IsBlank]), hfields, Option.bind_some] at hmore
    rw [spreadFields_cons, if_neg nofun, ← hmore]
    simp only [List.append_assoc, List.cons_append, List.nil_append]
    exact readFields_congr (skipBlanks_newLine level _) _
termination_by _ _ _ _ fuel => fuel

end

/-! ## Documents -/

/-- A plain value is read back from its spread text. -/
theorem parse_pretty {v : Value} (h : v.IsPlain) : parse v.pretty = some v := by
  have hread := readValue_spread 0 [] v h (2 * (spread 0 v).length + 2) (by omega)
  rw [List.append_nil] at hread
  simp only [parse, Value.pretty, String.toList_ofList, hread, Option.bind_eq_bind,
    Option.bind_some]
  rfl

end Json
end ScriptSession
