import ScriptSession.Decimal.Shortest
import ScriptSession.Text.Quoted

/-!
# Script values

What a script computes with. Whole numbers are those of 64 bits; the operations that make them
check the range. Maps keep their fields sorted by name, which makes equal maps equal lists.

A value has two texts: the one that `print` writes, and the unambiguous one that stands inside
arrays and maps.
-/

namespace ScriptSession
namespace Script

/-- A script value. -/
inductive Value where
  | unit
  | bool (b : Bool)
  | int (n : Int)
  | float (x : Float)
  | char (c : Char)
  | text (s : String)
  | array (items : List Value)
  | map (fields : List (String × Value))
  | range (first last : Int) (closed : Bool)
  | callable (name : String)
deriving Inhabited, Repr

namespace Value

/-! ## Types -/

/-- The name of a value's type. -/
def typeName : Value → String
  | .unit => "()"
  | .bool _ => "bool"
  | .int _ => "i64"
  | .float _ => "f64"
  | .char _ => "char"
  | .text _ => "string"
  | .array _ => "array"
  | .map _ => "map"
  | .range _ _ false => "range"
  | .range _ _ true => "range="
  | .callable _ => "Fn"

/-- The name of a value's type as it stands in the signature of a call. -/
def signatureName : Value → String
  | .text _ => "&str | ImmutableString | String"
  | v => v.typeName

/-! ## Whole numbers -/

/-- The least whole number of 64 bits. -/
def leastInt : Int := -9223372036854775808

/-- The greatest whole number of 64 bits. -/
def greatestInt : Int := 9223372036854775807

/-- Whether a number fits in 64 bits. -/
def fits (n : Int) : Bool := leastInt ≤ n && n ≤ greatestInt

/-! ## Texts of numbers -/

/-- A sign in front of a text. -/
def signed (negative : Bool) (s : String) : String := if negative then "-" ++ s else s

/-- Positional notation with at least one digit behind the point. -/
def pointed (s : String) : String := if s.toList.contains '.' then s else s ++ ".0"

/-- The text of a floating point number, positional between the bounds and scientific outside. -/
def floatText (tooSmall tooLarge : Float → Bool) (zero : Bool → String) (x : Float) : String :=
  match Decimal.read x with
  | .nan => "NaN"
  | .infinite negative => signed negative "inf"
  | .finite negative b =>
    if b.mantissa = 0 then zero negative
    else
      let size := x.abs
      if tooSmall size || tooLarge size then signed negative b.shortest.scientific
      else signed negative (pointed b.shortest.positional)

/-- The text `print` writes for a floating point number. The bounds are those of single precision
nearest to the powers of ten. -/
def floatDisplay : Float → String :=
  floatText (· < 9.9999998245167e-14) (fun x => 9999999827968.0 < x) fun _ => "0.0"

/-- The text of a floating point number inside an array or map. -/
def floatDebug : Float → String :=
  floatText (· < 1e-4) (fun x => 1e16 ≤ x) fun negative => signed negative "0.0"

/-! ## Texts of values -/

/-- A character between single quotes. -/
def quotedChar (c : Char) : String :=
  if c = '\'' then "'\\''"
  else if c = '\"' then "'\"'"
  else String.ofList ('\'' :: Text.quoteChar c ++ ['\''])

/-- A range as it is written in a script. -/
def rangeText (first last : Int) (closed : Bool) : String :=
  toString first ++ (if closed then "..=" else "..") ++ toString last

mutual

/-- The unambiguous text of a value. -/
def debug : Value → String
  | .unit => "()"
  | .bool b => if b then "true" else "false"
  | .int n => toString n
  | .float x => floatDebug x
  | .char c => quotedChar c
  | .text s => Text.quoted s
  | .array items => "[" ++ debugItems items ++ "]"
  | .map fields => "#\x7b" ++ debugFields fields ++ "\x7d"
  | .range first last closed => rangeText first last closed
  | .callable name => "Fn(" ++ name ++ ")"

/-- Items between commas. -/
def debugItems : List Value → String
  | [] => ""
  | [v] => debug v
  | v :: rest => debug v ++ ", " ++ debugItems rest

/-- Fields between commas. -/
def debugFields : List (String × Value) → String
  | [] => ""
  | [(name, v)] => Text.quoted name ++ ": " ++ debug v
  | (name, v) :: rest => Text.quoted name ++ ": " ++ debug v ++ ", " ++ debugFields rest

end

/-- The text `print` writes. -/
def display : Value → String
  | .unit => ""
  | .float x => floatDisplay x
  | .char c => String.singleton c
  | .text s => s
  | v => v.debug

/-! ## Maps -/

/-- Set a field, keeping the names sorted. -/
def setField (name : String) (v : Value) : List (String × Value) → List (String × Value)
  | [] => [(name, v)]
  | (other, w) :: rest =>
    if name = other then (name, v) :: rest
    else if name < other then (name, v) :: (other, w) :: rest
    else (other, w) :: setField name v rest

/-- The value of a field. -/
def getField (name : String) (fields : List (String × Value)) : Option Value :=
  (fields.find? fun f => f.1 = name).map (·.2)

/-- Fields in any order as a map. A later field of the same name replaces an earlier one. -/
def ofFields (fields : List (String × Value)) : Value :=
  .map (fields.foldl (fun acc f => setField f.1 f.2 acc) [])

/-- Nothing to show. -/
def isUnit : Value → Bool
  | .unit => true
  | _ => false

end Value
end Script
end ScriptSession
