import ScriptSession.Script.Value

/-!
# Scopes

The variables of a script, the latest first. A name can stand more than once; the latest variable
of a name is the one that is seen, and it hides the others.
-/

namespace ScriptSession
namespace Script

/-- A variable. -/
structure Entry where
  name : String
  isConstant : Bool
  value : Value
  exportedAs : List String
deriving Inhabited, Repr

namespace Entry

/-- A variable that can change. -/
def variable_ (name : String) (v : Value) : Entry := ⟨name, false, v, []⟩

/-- A constant. -/
def constant (name : String) (v : Value) : Entry := ⟨name, true, v, []⟩

end Entry

/-- Variables, the latest first. -/
structure Scope where
  entries : List Entry
deriving Inhabited, Repr

namespace Scope

/-- No variables. -/
def empty : Scope := ⟨[]⟩

/-- How many variables there are. -/
def size (s : Scope) : Nat := s.entries.length

/-- Add a variable. -/
def push (s : Scope) (e : Entry) : Scope := ⟨e :: s.entries⟩

/-- The variable that a name stands for. -/
def find? (s : Scope) (name : String) : Option Entry := s.entries.find? fun e => e.name = name

/-- The value of a name. -/
def get? (s : Scope) (name : String) : Option Value := (s.find? name).map (·.value)

/-- Whether a name stands for anything. -/
def contains (s : Scope) (name : String) : Bool := (s.find? name).isSome

/-- Whether a name stands for a constant. -/
def isConstant (s : Scope) (name : String) : Bool := (s.find? name).any (·.isConstant)

/-- Change the latest entry of a name. -/
def alterIn (name : String) (f : Entry → Entry) : List Entry → List Entry
  | [] => []
  | e :: rest => if e.name = name then f e :: rest else e :: alterIn name f rest

/-- Change the variable that a name stands for. -/
def alter (s : Scope) (name : String) (f : Entry → Entry) : Scope := ⟨alterIn name f s.entries⟩

/-- Give the variable that a name stands for another value. -/
def assign (s : Scope) (name : String) (v : Value) : Scope :=
  s.alter name fun e => { e with value := v }

/-- Only the oldest variables. -/
def truncate (s : Scope) (n : Nat) : Scope := ⟨s.entries.drop (s.size - n)⟩

/-- Whether a name stands for a variable younger than the oldest ones. -/
def containsSince (s : Scope) (n : Nat) (name : String) : Bool :=
  (s.entries.take (s.size - n)).any fun e => e.name = name

/-- Declare a variable. One of the same name in the same block is replaced in place. -/
def declare (s : Scope) (base : Nat) (e : Entry) : Scope :=
  if s.containsSince base e.name then
    s.alter e.name fun old => { e with exportedAs := old.exportedAs ++ e.exportedAs }
  else s.push e

/-- Variables from the oldest to the latest. -/
def oldestFirst (s : Scope) : List Entry := s.entries.reverse

/-- Bind a name: give the variable it stands for a value, or add a variable. A constant stays as
it is. -/
def bind (s : Scope) (name : String) (v : Value) : Scope :=
  match s.find? name with
  | some e => if e.isConstant then s else s.assign name v
  | none => s.push (Entry.variable_ name v)

/-- Bind names one after the other. -/
def bindAll (s : Scope) (bindings : List (String × Value)) : Scope :=
  bindings.foldl (fun s b => s.bind b.1 b.2) s

/-- All variables but those of a name. -/
def without (s : Scope) (name : String) : Scope :=
  ⟨s.entries.filter fun e => e.name ≠ name⟩

end Scope
end Script
end ScriptSession
