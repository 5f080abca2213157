/-!
# Reading bytes that need not be a text

Bytes that should be UTF-8 are read even where they are not: every longest start of a character
that is not completed, and every byte that starts none, is read as the replacement character.
-/

namespace ScriptSession
namespace Text

/-- The replacement character. -/
def replacement : Char := Char.ofNat 0xFFFD

/-- How many bytes a character has that starts with this byte; none if no character does. -/
def sequenceLength (b : UInt8) : Nat :=
  if b < 0x80 then 1
  else if b < 0xC2 then 0
  else if b < 0xE0 then 2
  else if b < 0xF0 then 3
  else if b < 0xF5 then 4
  else 0

/-- Whether a byte can only stand inside a character. -/
def continues (b : UInt8) : Bool := 0x80 ≤ b && b < 0xC0

/-- Whether a byte can be the second one behind this first one. Some first bytes leave no choice
of all: the others would be needlessly long, half of a surrogate pair or too large. -/
def canFollow (first second : UInt8) : Bool :=
  continues second &&
    (if first = 0xE0 then 0xA0 ≤ second
    else if first = 0xED then second < 0xA0
    else if first = 0xF0 then 0x90 ≤ second
    else if first = 0xF4 then second < 0x90
    else true)

/-- The bytes behind the first one that belong to its character. -/
def continuation (first : UInt8) : List UInt8 → List UInt8
  | [] => []
  | second :: rest =>
    if 1 < sequenceLength first && canFollow first second then
      second :: (rest.take (sequenceLength first - 2)).takeWhile continues
    else []

/-- The character of a complete sequence. -/
def decodeSequence (first : UInt8) (others : List UInt8) : Char :=
  let start := first.toNat % Nat.pow 2 (if others.isEmpty then 7 else 6 - others.length)
  Char.ofNat (others.foldl (fun n b => n * 64 + b.toNat % 64) start)

/-- The characters of some bytes. -/
def lossyChars : List UInt8 → List Char
  | [] => []
  | first :: rest =>
    let others := continuation first rest
    let c := if others.length + 1 = sequenceLength first then decodeSequence first others
      else replacement
    c :: lossyChars (rest.drop others.length)
termination_by bytes => bytes.length
decreasing_by
  simp only [List.length_drop, List.length_cons]
  omega

/-- The text of some bytes. -/
def ofBytesLossy (bytes : ByteArray) : String :=
  (String.fromUTF8? bytes).getD (String.ofList (lossyChars bytes.toList))

end Text
end ScriptSession
