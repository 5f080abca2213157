import ScriptSession.Text.Printable

/-!
# Quoted text

The unambiguous form of a text: between double quotes, with everything escaped that a reader
could mistake for something else. Values inside arrays and maps, file paths inside messages and
the output of `debug` are written this way.

A quote, a backslash and the common controls have an escape of one letter. A character without a
printed form of its own, and a mark that would attach itself to the character before it, are
written by number.
-/

namespace ScriptSession
namespace Text

/-- The digits of a number to base sixteen, lower case and without leading zeros. -/
def hexDigits (n : Nat) : List Char := Nat.toDigits 16 n

/-- The escape of a character by its number. -/
def numericEscape (c : Char) : List Char :=
  ['\\', 'u', '\x7b'] ++ hexDigits c.val.toNat ++ ['\x7d']

/-- One character as it stands between double quotes. -/
def quoteChar (c : Char) : List Char :=
  match c with
  | '\x00' => ['\\', '0']
  | '\t' => ['\\', 't']
  | '\n' => ['\\', 'n']
  | '\r' => ['\\', 'r']
  | '\"' => ['\\', '\"']
  | '\\' => ['\\', '\\']
  | c => if isExtending c || !isPrintable c then numericEscape c else [c]

/-- A text between double quotes. -/
def quoted (s : String) : String :=
  String.ofList ('\"' :: s.toList.flatMap quoteChar ++ ['\"'])

end Text
end ScriptSession
