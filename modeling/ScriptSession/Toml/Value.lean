/-!
# TOML values

What a TOML document says. Tables keep their fields in the order in which the document first
names them; no field occurs twice.
-/

namespace ScriptSession
namespace Toml

/-- A TOML value. Dates and times keep the text they were written with. -/
inductive Value where
  | text (s : String)
  | int (n : Int)
  | float (x : Float)
  | bool (b : Bool)
  | datetime (text : String)
  | array (items : List Value)
  | table (fields : List (String × Value))
deriving Inhabited, Repr

/-- The value of a field. -/
def Value.field? (name : String) : Value → Option Value
  | .table fields => (fields.find? fun f => f.1 = name).map (·.2)
  | _ => none

end Toml
end ScriptSession
