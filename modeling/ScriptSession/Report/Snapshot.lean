import ScriptSession.Context.Bindings

/-!
# Environment snapshots

The names a script would see, with their values, at one moment of one context. A reporter keeps
the latest snapshot and hands every new one to its observers, in the order they signed up.
-/

namespace ScriptSession
namespace Report

/-- The bindings of a context at a moment. -/
structure Snapshot where
  generation : Nat
  bindings : Context.Bindings
deriving Repr, Inhabited

namespace Snapshot

/-- The value of a name. -/
def get (s : Snapshot) (name : String) : Option Script.Value := s.bindings.get name

/-- The names, sorted. -/
def names (s : Snapshot) : List String := s.bindings.entries.map (·.1)

/-- Name, type and value of every binding, sorted by name. -/
def rows (s : Snapshot) : List (String × String × String) :=
  s.bindings.entries.map fun (name, v) => (name, v.typeName, v.display)

end Snapshot

/-- Who observes, and what was published last. -/
structure Reporter where
  observers : List String
  latest : Option Snapshot
deriving Repr, Inhabited

namespace Reporter

/-- Nobody observes and nothing is published. -/
def empty : Reporter := ⟨[], none⟩

/-- Sign up an observer. -/
def observe (r : Reporter) (name : String) : Reporter :=
  { r with observers := r.observers ++ [name] }

/-- Keep a snapshot and hand it to every observer: the new state and who saw what. -/
def publish (r : Reporter) (s : Snapshot) : Reporter × List (String × Snapshot) :=
  ({ r with latest := some s }, r.observers.map fun name => (name, s))

/-- Forget the latest snapshot. -/
def clear (r : Reporter) : Reporter := { r with latest := none }

end Reporter
end Report
end ScriptSession
