import ScriptSession.Json.Value

/-!
# Writing JSON

Two layouts of one grammar: compact, without any blank, and spread, with one item per line and
an indent of two blanks per level. Empty arrays and objects are written closed in both.

Only what has to be escaped is escaped: quotes, backslashes and the controls below the space.
-/

namespace ScriptSession
namespace Json

/-- A digit to base sixteen. -/
def hexDigit (n : Nat) : Char := (Nat.toDigits 16 (n % 16)).headD '0'

/-- One character inside a string literal. -/
def escapeChar (c : Char) : List Char :=
  match c with
  | '\"' => ['\\', '\"']
  | '\\' => ['\\', '\\']
  | '\n' => ['\\', 'n']
  | '\r' => ['\\', 'r']
  | '\t' => ['\\', 't']
  | '\x08' => ['\\', 'b']
  | '\x0c' => ['\\', 'f']
  | c =>
    let n := c.val.toNat
    if n < 32 then ['\\', 'u', '0', '0', hexDigit (n / 16), hexDigit n] else [c]

/-- A string literal. -/
def literal (s : String) : List Char := '\"' :: s.toList.flatMap escapeChar ++ ['\"']

/-- The literal of an optional text. A literal without text is written as half a pair. -/
def optionalLiteral : Option String → List Char
  | some s => literal s
  | none => ['\"', '\\', 'u', 'd', '8', '0', '0', '\"']

mutual

/-- The value without blanks. -/
def compact : Value → List Char
  | .null => ['n', 'u', 'l', 'l']
  | .bool true => ['t', 'r', 'u', 'e']
  | .bool false => ['f', 'a', 'l', 's', 'e']
  | .number l => l.toList
  | .text s => optionalLiteral s
  | .array items => '[' :: compactItems items ++ [']']
  | .object fields => '\x7b' :: compactFields fields ++ ['\x7d']

/-- Items between commas. -/
def compactItems : List Value → List Char
  | [] => []
  | [v] => compact v
  | v :: rest => compact v ++ ',' :: compactItems rest

/-- Fields between commas. -/
def compactFields : List (Option String × Value) → List Char
  | [] => []
  | [(name, v)] => optionalLiteral name ++ ':' :: compact v
  | (name, v) :: rest => optionalLiteral name ++ ':' :: compact v ++ ',' :: compactFields rest

end

/-- A line feed and the indent of a level. -/
def newLine (level : Nat) : List Char := '\n' :: List.replicate (2 * level) ' '

mutual

/-- The value with one item per line, at a level of indent. -/
def spread (level : Nat) : Value → List Char
  | .null => ['n', 'u', 'l', 'l']
  | .bool true => ['t', 'r', 'u', 'e']
  | .bool false => ['f', 'a', 'l', 's', 'e']
  | .number l => l.toList
  | .text s => optionalLiteral s
  | .array items =>
    if items.isEmpty then ['[', ']']
    else '[' :: spreadItems (level + 1) items ++ newLine level ++ [']']
  | .object fields =>
    if fields.isEmpty then ['\x7b', '\x7d']
    else '\x7b' :: spreadFields (level + 1) fields ++ newLine level ++ ['\x7d']

/-- Items between commas, each on a line. -/
def spreadItems (level : Nat) : List Value → List Char
  | [] => []
  | [v] => newLine level ++ spread level v
  | v :: rest => newLine level ++ spread level v ++ ',' :: spreadItems level rest

/-- Fields between commas, each on a line. -/
def spreadFields (level : Nat) : List (Option String × Value) → List Char
  | [] => []
  | [(name, v)] => newLine level ++ optionalLiteral name ++ [':', ' '] ++ spread level v
  | (name, v) :: rest =>
    newLine level ++ optionalLiteral name ++ [':', ' '] ++ spread level v ++
      ',' :: spreadFields level rest

end

/-- The compact text of a value. -/
def Value.compress (v : Value) : String := String.ofList (compact v)

/-- The spread text of a value. -/
def Value.pretty (v : Value) : String := String.ofList (spread 0 v)

end Json
end ScriptSession
