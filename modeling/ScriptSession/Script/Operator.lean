import ScriptSession.Script.Fault

/-!
# Operators

Operators on values. Whole numbers are of 64 bits and a result that does not fit is a fault;
floating point numbers follow their own rules, and a whole number beside one is converted. A text
takes in anything that is added to it on either side. Values of different types are simply
different: the equality of such values is false and so is every order between them.
-/

namespace ScriptSession
namespace Script
namespace Operator

/-- The name and the types of a call, for messages. -/
def signature (name : String) (args : List Value) : String :=
  name ++ " (" ++ ", ".intercalate (args.map Value.signatureName) ++ ")"

/-- There is no such function. -/
def notFound {α : Type} (name : String) (args : List Value) (p : Position) : Except Fault α :=
  .error (.functionNotFound (signature name args) (some p))

/-- A whole number as a result, or a fault when it does not fit. -/
def checked (n : Int) (text : String) (p : Position) : Except Fault Value :=
  if Value.fits n then .ok (.int n) else .error (.arithmetic text (some p))

/-- A message with both operands. -/
def between (what : String) (a : Int) (op : String) (b : Int) : String :=
  what ++ ": " ++ toString a ++ " " ++ op ++ " " ++ toString b

/-- An operator on whole numbers; nothing when there is none. -/
def onInts (op : String) (a b : Int) (p : Position) : Option (Except Fault Value) :=
  let stop (text : String) : Except Fault Value := .error (.arithmetic text (some p))
  match op with
  | "+" => some (checked (a + b) (between "Addition overflow" a "+" b) p)
  | "-" => some (checked (a - b) (between "Subtraction overflow" a "-" b) p)
  | "*" => some (checked (a * b) (between "Multiplication overflow" a "*" b) p)
  | "/" =>
    some (if b = 0 then stop (between "Division by zero" a "/" b)
      else checked (a.tdiv b) (between "Division overflow" a "/" b) p)
  | "%" =>
    some (if b = 0 ∨ (a = Value.leastInt ∧ b = -1) then
        stop (between "Modulo division by zero or overflow" a "%" b)
      else .ok (.int (a.tmod b)))
  | ".." => some (.ok (.range a b false))
  | "..=" => some (.ok (.range a b true))
  | _ => none

/-- The remainder of a division of floating point numbers. -/
def floatRemainder (a b : Float) : Float :=
  let q := a / b
  a - b * (if q < 0 then q.ceil else q.floor)

/-- An operator on floating point numbers; nothing when there is none. -/
def onFloats (op : String) (a b : Float) : Option Value :=
  match op with
  | "+" => some (.float (a + b))
  | "-" => some (.float (a - b))
  | "*" => some (.float (a * b))
  | "/" => some (.float (a / b))
  | "%" => some (.float (floatRemainder a b))
  | _ => none

/-! ## Comparisons -/

/-- Whether an operator compares. -/
def isComparison (op : String) : Bool := ["==", "!=", "<", "<=", ">", ">="].contains op

/-- A comparison from equality and order. -/
def compareBy (op : String) (equal less : Bool) : Bool :=
  match op with
  | "==" => equal
  | "!=" => !equal
  | "<" => less
  | "<=" => less || equal
  | ">" => !less && !equal
  | _ => !less

/-- A comparison of floating point numbers, where nothing compares with what is no number. -/
def compareFloats (op : String) (a b : Float) : Bool :=
  match op with
  | "==" => a == b
  | "!=" => a != b
  | "<" => a < b
  | "<=" => a ≤ b
  | ">" => b < a
  | _ => b ≤ a

mutual

/-- Equality of values. -/
def equal : Value → Value → Bool
  | .unit, .unit => true
  | .bool a, .bool b => a == b
  | .int a, .int b => a == b
  | .float a, .float b => a == b
  | .int a, .float b => Float.ofInt a == b
  | .float a, .int b => a == Float.ofInt b
  | .char a, .char b => a == b
  | .text a, .text b => a == b
  | .array a, .array b => equalItems a b
  | .map a, .map b => equalFields a b
  | .range a b c, .range x y z => a == x && b == y && c == z
  | _, _ => false

/-- Equality of arrays. -/
def equalItems : List Value → List Value → Bool
  | [], [] => true
  | v :: vs, w :: ws => equal v w && equalItems vs ws
  | _, _ => false

/-- Equality of maps. -/
def equalFields : List (String × Value) → List (String × Value) → Bool
  | [], [] => true
  | (n, v) :: vs, (m, w) :: ws => n == m && equal v w && equalFields vs ws
  | _, _ => false

end

/-- Compare two values. -/
def compare (op : String) (l r : Value) (p : Position) : Except Fault Value :=
  let answer (b : Bool) : Except Fault Value := .ok (.bool b)
  match l, r with
  | .int a, .int b => answer (compareBy op (a == b) (a < b))
  | .float a, .float b => answer (compareFloats op a b)
  | .int a, .float b => answer (compareFloats op (Float.ofInt a) b)
  | .float a, .int b => answer (compareFloats op a (Float.ofInt b))
  | .text a, .text b => answer (compareBy op (a == b) (a < b))
  | .char a, .char b => answer (compareBy op (a == b) (a < b))
  | .char a, .text b => answer (compareBy op (a.toString == b) (a.toString < b))
  | .text a, .char b => answer (compareBy op (a == b.toString) (a < b.toString))
  | .bool a, .bool b => answer (compareBy op (a == b) (!a && b))
  | .unit, .unit => answer (compareBy op true false)
  | l, r =>
    if l.typeName = r.typeName then
      if op = "==" then answer (equal l r)
      else if op = "!=" then answer (!equal l r)
      else notFound op [l, r] p
    else answer (op = "!=")

/-! ## All operators -/

/-- Fields of one map over those of another. -/
def mixed (base newer : List (String × Value)) : List (String × Value) :=
  newer.foldl (fun acc f => Value.setField f.1 f.2 acc) base

/-- Addition of values that are not both numbers. -/
def add (l r : Value) (p : Position) : Except Fault Value :=
  match l, r with
  | .array a, .array b => .ok (.array (a ++ b))
  | .map a, .map b => .ok (.map (mixed a b))
  | .text a, r => .ok (.text (a ++ r.display))
  | l, .text b => .ok (.text (l.display ++ b))
  | .char a, .char b => .ok (.text (a.toString ++ b.toString))
  | l, r => notFound "+" [l, r] p

/-- An operator between two values. -/
def binary (op : String) (l r : Value) (p : Position) : Except Fault Value :=
  let floats (a b : Float) : Except Fault Value :=
    match onFloats op a b with
    | some v => .ok v
    | none => notFound op [l, r] p
  if isComparison op then compare op l r p
  else
    match l, r with
    | .int a, .int b => (onInts op a b p).getD (notFound op [l, r] p)
    | .float a, .float b => floats a b
    | .int a, .float b => floats (Float.ofInt a) b
    | .float a, .int b => floats a (Float.ofInt b)
    | l, r => if op = "+" then add l r p else notFound op [l, r] p

/-- An operator in front of a value. -/
def unary (op : String) (v : Value) (p : Position) : Except Fault Value :=
  match op, v with
  | "-", .int n => checked (-n) ("Negation overflow: -" ++ toString n) p
  | "-", .float x => .ok (.float (-x))
  | "+", .int n => .ok (.int n)
  | "+", .float x => .ok (.float x)
  | "!", .bool b => .ok (.bool (!b))
  | op, v => notFound op [v] p

/-- An assignment that computes. An array takes in a single value as a further item. -/
def update (op : String) (old v : Value) (p : Position) : Except Fault Value :=
  match op, old, v with
  | "+", .array a, .array b => .ok (.array (a ++ b))
  | "+", .array a, v => .ok (.array (a ++ [v]))
  | op, old, v => binary op old v p

end Operator
end Script
end ScriptSession
