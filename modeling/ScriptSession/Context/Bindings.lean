import ScriptSession.Script.Value

/-!
# Host bindings

Names the host gives every script. They are kept sorted, each name once, so that two ways of
building the same bindings give the same value.
-/

namespace ScriptSession
namespace Context

/-- Names and values, sorted by name. -/
structure Bindings where
  entries : List (String × Script.Value)
deriving Repr, Inhabited

namespace Bindings

/-- No bindings. -/
def empty : Bindings := ⟨[]⟩

/-- The value of a name. -/
def get (b : Bindings) (name : String) : Option Script.Value := Script.Value.getField name b.entries

/-- Bind a name. -/
def insert (b : Bindings) (name : String) (v : Script.Value) : Bindings :=
  ⟨Script.Value.setField name v b.entries⟩

/-- Unbind a name. -/
def remove (b : Bindings) (name : String) : Bindings := ⟨b.entries.filter fun e => e.1 ≠ name⟩

/-- Bindings from a list. A later binding of a name replaces an earlier one. -/
def ofList (entries : List (String × Script.Value)) : Bindings :=
  entries.foldl (fun b e => b.insert e.1 e.2) empty

end Bindings
end Context
end ScriptSession
