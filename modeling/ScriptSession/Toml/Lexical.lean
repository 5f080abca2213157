import ScriptSession.Decimal.Nearest
import ScriptSession.Json.Reader
import ScriptSession.Toml.Value

/-!
# The small parts of TOML

Blanks, comments, keys, strings, numbers, dates and times. Every function consumes from a list of
characters and returns what is left, or nothing when the text is malformed.
-/

namespace ScriptSession
namespace Toml

/-! ## Blanks and comments -/

/-- Drop blanks and tabs. -/
def skipBlanks (cs : List Char) : List Char := cs.dropWhile fun c => c = ' ' ∨ c = '\t'

/-- A character a comment or a string may hold as it is. -/
def isPlain (c : Char) : Bool := c == '\t' || (32 ≤ c.toNat && c.toNat ≠ 127)

/-- A line end. -/
def lineEnd? : List Char → Option (List Char)
  | '\n' :: rest => some rest
  | '\r' :: '\n' :: rest => some rest
  | _ => none

/-- Drop a comment up to its line end. -/
def skipComment : List Char → List Char
  | '#' :: rest => rest.dropWhile isPlain
  | cs => cs

/-- The rest of a line that has said everything: blanks, a comment, and the line end or the end
of the document. -/
def closeLine (cs : List Char) : Option (List Char) :=
  match skipComment (skipBlanks cs) with
  | [] => some []
  | rest => lineEnd? rest

/-- Drop blanks, comments and line ends. -/
def skipSpace : Nat → List Char → List Char
  | 0, cs => cs
  | fuel + 1, cs =>
    let cs := skipComment (skipBlanks cs)
    match lineEnd? cs with
    | some rest => skipSpace fuel rest
    | none => cs

/-! ## Strings -/

/-- A number of hexadecimal digits. -/
def readHex : Nat → List Char → Option (Nat × List Char)
  | 0, cs => some (0, cs)
  | _ + 1, [] => none
  | n + 1, c :: cs => do
    let d ← Json.hexValue? c
    let (v, rest) ← readHex n cs
    some (d * 16 ^ n + v, rest)

/-- A character by its number. Halves of pairs are no characters. -/
def scalar? (n : Nat) : Option Char :=
  if n < 0xD800 ∨ (0xE000 ≤ n ∧ n < 0x110000) then some (Char.ofNat n) else none

/-- An escape, behind its backslash. -/
def readEscape : List Char → Option (Char × List Char)
  | 'b' :: rest => some ('\x08', rest)
  | 't' :: rest => some ('\t', rest)
  | 'n' :: rest => some ('\n', rest)
  | 'f' :: rest => some ('\x0c', rest)
  | 'r' :: rest => some ('\r', rest)
  | '\"' :: rest => some ('\"', rest)
  | '\\' :: rest => some ('\\', rest)
  | 'u' :: rest => do
    let (n, rest) ← readHex 4 rest
    some (← scalar? n, rest)
  | 'U' :: rest => do
    let (n, rest) ← readHex 8 rest
    some (← scalar? n, rest)
  | _ => none

/-- The rest of a basic string of one line. -/
def readBasic : Nat → List Char → List Char → Option (String × List Char)
  | 0, _, _ => none
  | fuel + 1, cs, acc =>
    match cs with
    | '\"' :: rest => some (String.ofList acc.reverse, rest)
    | '\\' :: rest => do
      let (c, rest) ← readEscape rest
      readBasic fuel rest (c :: acc)
    | c :: rest => if isPlain c then readBasic fuel rest (c :: acc) else none
    | [] => none

/-- The rest of a literal string of one line. -/
def readLiteral (cs : List Char) : Option (String × List Char) :=
  match cs.dropWhile (fun c => c ≠ '\'' ∧ isPlain c) with
  | '\'' :: rest => some (String.ofList (cs.takeWhile fun c => c ≠ '\'' ∧ isPlain c), rest)
  | _ => none

/-- How many of a character stand in front, at most a number of them. -/
def countFront (mark : Char) (limit : Nat) (cs : List Char) : Nat :=
  ((cs.take limit).takeWhile (· = mark)).length

/-- Drop everything blank, line ends included. -/
def skipFolded : Nat → List Char → List Char
  | 0, cs => cs
  | fuel + 1, cs =>
    let cs := skipBlanks cs
    match lineEnd? cs with
    | some rest => skipFolded fuel rest
    | none => cs

/-- The rest of a string of several lines. Up to two quotes may stand in front of the closing
three. A backslash at the end of a line of a basic string folds the blanks that follow. -/
def readMultiline (mark : Char) : Nat → List Char → List Char → Option (String × List Char)
  | 0, _, _ => none
  | fuel + 1, cs, acc =>
    let quotes := countFront mark 5 cs
    if 3 ≤ quotes then
      some (String.ofList (acc.reverse ++ List.replicate (quotes - 3) mark), cs.drop quotes)
    else
      match cs with
      | '\\' :: rest =>
        if mark = '\'' then readMultiline mark fuel rest ('\\' :: acc)
        else
          match lineEnd? (skipBlanks rest) with
          | some more => readMultiline mark fuel (skipFolded more.length more) acc
          | none => do
            let (c, rest) ← readEscape rest
            readMultiline mark fuel rest (c :: acc)
      | '\r' :: '\n' :: rest => readMultiline mark fuel rest ('\n' :: acc)
      | '\n' :: rest => readMultiline mark fuel rest ('\n' :: acc)
      | c :: rest => if isPlain c then readMultiline mark fuel rest (c :: acc) else none
      | [] => none

/-- Drop the line end directly behind an opening mark. -/
def dropFirstLineEnd (cs : List Char) : List Char := (lineEnd? cs).getD cs

/-- A string of any of the four kinds. -/
def readString (cs : List Char) : Option (String × List Char) :=
  let fuel := cs.length + 1
  match cs with
  | '\"' :: '\"' :: '\"' :: rest => readMultiline '\"' fuel (dropFirstLineEnd rest) []
  | '\'' :: '\'' :: '\'' :: rest => readMultiline '\'' fuel (dropFirstLineEnd rest) []
  | '\"' :: rest => readBasic fuel rest []
  | '\'' :: rest => readLiteral rest
  | _ => none

/-! ## Keys -/

/-- A character of a bare key. -/
def isBare (c : Char) : Bool := c.isAlphanum || c == '_' || c == '-'

/-- One part of a key. -/
def readKeyPart (cs : List Char) : Option (String × List Char) :=
  match cs with
  | '\"' :: rest => readBasic (rest.length + 1) rest []
  | '\'' :: rest => readLiteral rest
  | _ =>
    match cs.takeWhile isBare with
    | [] => none
    | part => some (String.ofList part, cs.dropWhile isBare)

/-- The parts of a key between dots, with blanks around them. -/
def readKey : Nat → List Char → Option (List String × List Char)
  | 0, _ => none
  | fuel + 1, cs => do
    let (part, rest) ← readKeyPart (skipBlanks cs)
    match skipBlanks rest with
    | '.' :: rest => do
      let (parts, rest) ← readKey fuel rest
      some (part :: parts, rest)
    | rest => some ([part], rest)

/-! ## Numbers -/

/-- Digits behind a digit or an underscore: a digit has to follow an underscore. -/
def moreDigits (isDigit : Char → Bool) : Bool → List Char → Option (List Char × List Char)
  | needed, [] => if needed then none else some ([], [])
  | needed, c :: cs =>
    if isDigit c then do
      let (ds, rest) ← moreDigits isDigit false cs
      some (c :: ds, rest)
    else if c = '_' && !needed then moreDigits isDigit true cs
    else if needed then none
    else some ([], c :: cs)

/-- Digits with single underscores between them. -/
def readDigits (isDigit : Char → Bool) (cs : List Char) : Option (List Char × List Char) :=
  moreDigits isDigit true cs

/-- A number in range. -/
def intInRange (n : Int) : Option Value :=
  if -9223372036854775808 ≤ n ∧ n ≤ 9223372036854775807 then some (.int n) else none

/-- The value of digits to a base. -/
def ofDigits (base : Nat) (ds : List Char) : Nat :=
  ds.foldl (fun n d => base * n + (Json.hexValue? d).getD 0) 0

/-- A whole number to base sixteen, eight or two. -/
def readRadix (base : Nat) (cs : List Char) : Option (Value × List Char) := do
  let (ds, rest) ← readDigits (fun c => (Json.hexValue? c).any (· < base)) cs
  some (← intInRange (ofDigits base ds), rest)

/-- The fraction and exponent of a number, as the text of a literal. -/
def readTail (cs : List Char) : Option (List Char × List Char) := do
  let (fraction, cs) ← match cs with
    | '.' :: rest => do
      let (ds, rest) ← readDigits Char.isDigit rest
      some ('.' :: ds, rest)
    | _ => some ([], cs)
  match cs with
  | e :: rest =>
    if e = 'e' ∨ e = 'E' then do
      let (sign, rest) := match rest with
        | '+' :: more => (['+'], more)
        | '-' :: more => (['-'], more)
        | _ => ([], rest)
      let (ds, rest) ← readDigits Char.isDigit rest
      some (fraction ++ 'e' :: sign ++ ds, rest)
    else some (fraction, cs)
  | [] => some (fraction, [])

/-- A number with an optional sign. -/
def readNumber (cs : List Char) : Option (Value × List Char) :=
  match cs with
  | '0' :: 'x' :: rest => readRadix 16 rest
  | '0' :: 'o' :: rest => readRadix 8 rest
  | '0' :: 'b' :: rest => readRadix 2 rest
  | _ =>
    let (negative, body) := match cs with
      | '-' :: rest => (true, rest)
      | '+' :: rest => (false, rest)
      | _ => (false, cs)
    match body with
    | 'i' :: 'n' :: 'f' :: rest =>
      some (.float (if negative then -(1.0 / 0.0) else 1.0 / 0.0), rest)
    | 'n' :: 'a' :: 'n' :: rest => some (.float (0.0 / 0.0), rest)
    | _ => do
      let (ds, rest) ← readDigits Char.isDigit body
      if ds.head? = some '0' ∧ 1 < ds.length then none
      let (tail, rest) ← readTail rest
      if tail.isEmpty then
        let n : Int := ofDigits 10 ds
        some (← intInRange (if negative then -n else n), rest)
      else
        let x := Decimal.ofLiteral ((if negative then ['-'] else []) ++ ds ++ tail)
        if x.isInf then none else some (.float x, rest)

/-! ## Dates and times -/

/-- A fixed number of digits. -/
def readFixed : Nat → List Char → Option (Nat × List Char)
  | 0, cs => some (0, cs)
  | _ + 1, [] => none
  | n + 1, c :: cs =>
    if c.isDigit then do
      let (v, rest) ← readFixed n cs
      some ((c.toNat - '0'.toNat) * 10 ^ n + v, rest)
    else none

/-- The number of days of a month. -/
def daysIn (year month : Nat) : Nat :=
  if month = 2 then
    (if (year % 4 = 0 ∧ year % 100 ≠ 0) ∨ year % 400 = 0 then 29 else 28)
  else if month = 4 ∨ month = 6 ∨ month = 9 ∨ month = 11 then 30
  else 31

/-- A date. -/
def readDate (cs : List Char) : Option (List Char) := do
  let (year, cs) ← readFixed 4 cs
  match cs with
  | '-' :: cs => do
    let (month, cs) ← readFixed 2 cs
    match cs with
    | '-' :: cs => do
      let (day, cs) ← readFixed 2 cs
      if 1 ≤ month ∧ month ≤ 12 ∧ 1 ≤ day ∧ day ≤ daysIn year month then some cs else none
    | _ => none
  | _ => none

/-- A time of day. -/
def readTime (cs : List Char) : Option (List Char) := do
  let (hour, cs) ← readFixed 2 cs
  match cs with
  | ':' :: cs => do
    let (minute, cs) ← readFixed 2 cs
    match cs with
    | ':' :: cs => do
      let (second, cs) ← readFixed 2 cs
      if 23 < hour ∨ 59 < minute ∨ 60 < second then none
      match cs with
      | '.' :: rest =>
        if (rest.takeWhile Char.isDigit).isEmpty then none else some (rest.dropWhile Char.isDigit)
      | _ => some cs
    | _ => none
  | _ => none

/-- An offset from universal time, if there is one. -/
def readOffset (cs : List Char) : Option (List Char) :=
  match cs with
  | c :: rest =>
    if c = 'Z' ∨ c = 'z' then some rest
    else if c = '+' ∨ c = '-' then do
      let (hour, rest) ← readFixed 2 rest
      match rest with
      | ':' :: rest => do
        let (minute, rest) ← readFixed 2 rest
        if 23 < hour ∨ 59 < minute then none else some rest
      | _ => none
    else some cs
  | [] => some []

/-- A date, a time, or both. The text of the value is what was read. -/
def readDatetime (cs : List Char) : Option (Value × List Char) :=
  let done (rest : List Char) : Option (Value × List Char) :=
    some (.datetime (String.ofList (cs.take (cs.length - rest.length))), rest)
  if (cs.take 4).all Char.isDigit && cs[4]? == some '-' then do
    let afterDate ← readDate cs
    match afterDate with
    | mark :: rest =>
      if mark = 'T' ∨ mark = 't' then do done (← readOffset (← readTime rest))
      else if mark = ' ' ∧ (rest.head?.any Char.isDigit) then do
        done (← readOffset (← readTime rest))
      else done afterDate
    | [] => done []
  else do done (← readTime cs)

/-- Whether a value that starts with a digit is a date or a time. -/
def startsDatetime (cs : List Char) : Bool :=
  let front := cs.takeWhile Char.isDigit
  (front.length = 4 && cs[4]? == some '-') || (front.length = 2 && cs[2]? == some ':')

end Toml
end ScriptSession
