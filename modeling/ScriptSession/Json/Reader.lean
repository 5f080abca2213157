import ScriptSession.Json.Value

/-!
# Reading JSON

One document, with blanks around it and nothing after it. The reader accepts exactly the JSON
grammar: no comments, no trailing commas, no leading zeros, blanks only of the four kinds. Half
a surrogate pair is a well formed escape; the literal that holds it names no text.

Every function consumes from a list of characters and returns what is left. The depth of
recursion is bounded by the length of the document.
-/

namespace ScriptSession
namespace Json

/-- Drop the blanks JSON knows. -/
def skipBlanks : List Char → List Char
  | c :: cs => if c = ' ' ∨ c = '\n' ∨ c = '\t' ∨ c = '\r' then skipBlanks cs else c :: cs
  | [] => []

/-- The value of a digit to base sixteen, in either case. -/
def hexValue? (c : Char) : Option Nat :=
  if '0' ≤ c ∧ c ≤ '9' then some (c.toNat - '0'.toNat)
  else if 'a' ≤ c ∧ c ≤ 'f' then some (c.toNat - 'a'.toNat + 10)
  else if 'A' ≤ c ∧ c ≤ 'F' then some (c.toNat - 'A'.toNat + 10)
  else none

/-- Four digits to base sixteen. -/
def readUnit : List Char → Option (Nat × List Char)
  | a :: b :: c :: d :: rest => do
    let a ← hexValue? a
    let b ← hexValue? b
    let c ← hexValue? c
    let d ← hexValue? d
    some (a * 4096 + b * 256 + c * 16 + d, rest)
  | _ => none

/-- A unit that is the first half of a pair. -/
def isHighHalf (n : Nat) : Bool := 0xD800 ≤ n && n < 0xDC00

/-- A unit that is the second half of a pair. -/
def isLowHalf (n : Nat) : Bool := 0xDC00 ≤ n && n < 0xE000

/-- The character of an escape of one letter. -/
def shortEscape? : Char → Option Char
  | '\"' => some '\"'
  | '\\' => some '\\'
  | '/' => some '/'
  | 'b' => some '\x08'
  | 'f' => some '\x0c'
  | 'n' => some '\n'
  | 'r' => some '\r'
  | 't' => some '\t'
  | _ => none

/-- The rest of a string literal after its opening quote. The text read so far is in reverse,
or `none` once half a pair stood alone. -/
def readLiteral : Nat → List Char → Option (List Char) → Option (Option String × List Char)
  | 0, _, _ => none
  | fuel + 1, cs, acc =>
    match cs with
    | '\"' :: rest => some (acc.map fun a => String.ofList a.reverse, rest)
    | '\\' :: 'u' :: rest => do
      let (n, rest) ← readUnit rest
      if isHighHalf n then
        match rest with
        | '\\' :: 'u' :: more =>
          let (k, after) ← readUnit more
          if isLowHalf k then
            let c := Char.ofNat (0x10000 + (n - 0xD800) * 1024 + (k - 0xDC00))
            readLiteral fuel after (acc.map (c :: ·))
          else readLiteral fuel rest none
        | _ => readLiteral fuel rest none
      else if isLowHalf n then readLiteral fuel rest none
      else readLiteral fuel rest (acc.map (Char.ofNat n :: ·))
    | '\\' :: c :: rest => do
      let c ← shortEscape? c
      readLiteral fuel rest (acc.map (c :: ·))
    | c :: rest => if c.toNat < 32 then none else readLiteral fuel rest (acc.map (c :: ·))
    | [] => none

/-- The digits in front. -/
def digits (cs : List Char) : List Char × List Char :=
  (cs.takeWhile Char.isDigit, cs.dropWhile Char.isDigit)

/-- A number literal: a sign, a whole part without leading zeros, a fraction, an exponent. -/
def readNumber (cs : List Char) : Option (String × List Char) := do
  let (sign, cs) := match cs with
    | '-' :: rest => (['-'], rest)
    | _ => ([], cs)
  let (whole, cs) := digits cs
  if whole.isEmpty ∨ (whole.head? = some '0' ∧ 1 < whole.length) then none
  let (fraction, cs) ← match cs with
    | '.' :: rest =>
      let (ds, rest) := digits rest
      if ds.isEmpty then none else some ('.' :: ds, rest)
    | _ => some ([], cs)
  let (power, cs) ← match cs with
    | e :: rest =>
      if e = 'e' ∨ e = 'E' then
        let (mark, rest) := match rest with
          | '+' :: more => (['+'], more)
          | '-' :: more => (['-'], more)
          | _ => ([], rest)
        let (ds, rest) := digits rest
        if ds.isEmpty then none else some (e :: mark ++ ds, rest)
      else some ([], cs)
    | [] => some ([], [])
  some (String.ofList (sign ++ whole ++ fraction ++ power), cs)

mutual

/-- A value, with blanks allowed before it. -/
def readValue : Nat → List Char → Option (Value × List Char)
  | 0, _ => none
  | fuel + 1, cs =>
    match skipBlanks cs with
    | 'n' :: 'u' :: 'l' :: 'l' :: rest => some (.null, rest)
    | 't' :: 'r' :: 'u' :: 'e' :: rest => some (.bool true, rest)
    | 'f' :: 'a' :: 'l' :: 's' :: 'e' :: rest => some (.bool false, rest)
    | '\"' :: rest => do
      let (s, rest) ← readLiteral (rest.length + 1) rest (some [])
      some (.text s, rest)
    | '[' :: rest =>
      match skipBlanks rest with
      | ']' :: rest => some (.array [], rest)
      | rest => do
        let (items, rest) ← readItems fuel rest
        some (.array items, rest)
    | '\x7b' :: rest =>
      match skipBlanks rest with
      | '\x7d' :: rest => some (.object [], rest)
      | rest => do
        let (fields, rest) ← readFields fuel rest
        some (.object fields, rest)
    | cs => do
      let (literal, rest) ← readNumber cs
      some (.number literal, rest)

/-- At least one item, up to the closing bracket. -/
def readItems : Nat → List Char → Option (List Value × List Char)
  | 0, _ => none
  | fuel + 1, cs => do
    let (v, rest) ← readValue fuel cs
    match skipBlanks rest with
    | ',' :: rest => do
      let (items, rest) ← readItems fuel rest
      some (v :: items, rest)
    | ']' :: rest => some ([v], rest)
    | _ => none

/-- At least one field, up to the closing brace. -/
def readFields : Nat → List Char → Option (List (Option String × Value) × List Char)
  | 0, _ => none
  | fuel + 1, cs => do
    match skipBlanks cs with
    | '\"' :: rest =>
      let (name, rest) ← readLiteral (rest.length + 1) rest (some [])
      match skipBlanks rest with
      | ':' :: rest =>
        let (v, rest) ← readValue fuel rest
        match skipBlanks rest with
        | ',' :: rest => do
          let (fields, rest) ← readFields fuel rest
          some ((name, v) :: fields, rest)
        | '\x7d' :: rest => some ([(name, v)], rest)
        | _ => none
      | _ => none
    | _ => none

end

/-- The value of a document. -/
def parse (s : String) : Option Value := do
  let cs := s.toList
  let (v, rest) ← readValue (2 * cs.length + 2) cs
  if skipBlanks rest = [] then some v else none

end Json
end ScriptSession
