/-!
# JSON values

A JSON document as data. Objects keep their fields in order, repeated names included, and a
number keeps the text it was written with: what a number means is for its reader to say.

A string literal may hold half of a surrogate pair. Such a literal is well formed but names no
text, which is why a text is optional here.
-/

namespace ScriptSession
namespace Json

/-- A JSON value. A text or name of `none` is a literal that names no text. -/
inductive Value where
  | null
  | bool (b : Bool)
  | number (literal : String)
  | text (s : Option String)
  | array (items : List Value)
  | object (fields : List (Option String × Value))
deriving Inhabited, Repr

namespace Value

/-- A text value. -/
def ofString (s : String) : Value := .text (some s)

/-- A whole number. -/
def ofInt (n : Int) : Value := .number (toString n)

/-- A natural number. -/
def ofNat (n : Nat) : Value := .number (toString n)

/-- An object with the given names. -/
def record (fields : List (String × Value)) : Value :=
  .object (fields.map fun f => (some f.1, f.2))

/-- The value of the last field of a name. -/
def field? (name : String) : Value → Option Value
  | .object fields => (fields.reverse.find? fun f => f.1 = some name).map (·.2)
  | _ => none

/-- The text of a text value. -/
def string? : Value → Option String
  | .text s => s
  | _ => none

/-- The items of an array. -/
def items? : Value → Option (List Value)
  | .array items => some items
  | _ => none

/-- A truth value. -/
def bool? : Value → Option Bool
  | .bool b => some b
  | _ => none

/-- A number without point and exponent. -/
def int? : Value → Option Int
  | .number literal => literal.toInt?
  | _ => none

end Value
end Json
end ScriptSession
