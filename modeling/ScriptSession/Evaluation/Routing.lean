import ScriptSession.Evaluation.Slots
import ScriptSession.Report.Transcript

/-!
# Routing of output

Output that names no place goes where its thread has routed it, or to the default place. A thread
gets a guard for every routing it puts in force and gives it up to go back to the one before.
Guards are numbered in the order in which they were handed out, and giving one up twice does
nothing.
-/

namespace ScriptSession
namespace Evaluation

/-- What is in force on threads, the guards that are held, and what was written to which place. -/
structure Routing where
  slots : Slots String
  guards : List (Option (Guard String))
  places : List (String × Report.Streams)

namespace Routing

/-- Nothing routed and nothing written. -/
def empty : Routing := ⟨.empty, [], []⟩

/-- Where output goes that nobody has routed. -/
def defaultPlace : String := "default"

/-- Where the output of a thread goes. -/
def place (r : Routing) (thread : Nat) : String := (r.slots.current thread).getD defaultPlace

/-- Put a routing in force on a thread. -/
def install (r : Routing) (thread : Nat) (place : String) : Routing :=
  let (guard, slots) := r.slots.enter thread place
  { r with slots := slots, guards := r.guards ++ [some guard] }

/-- Give a guard up. -/
def giveUp (r : Routing) (guard : Nat) : Routing :=
  match (r.guards[guard]?).bind id with
  | some g => { r with slots := r.slots.leave g, guards := r.guards.set guard none }
  | none => r

/-- What was written to a place. -/
def written (r : Routing) (place : String) : Report.Streams :=
  ((r.places.find? fun p => p.1 = place).map (·.2)).getD .empty

/-- Change what was written to a place. -/
def alter (r : Routing) (place : String) (f : Report.Streams → Report.Streams) : Routing :=
  { r with places := (place, f (r.written place)) :: r.places.filter fun p => p.1 ≠ place }

/-- Write a line on a thread. -/
def out (r : Routing) (thread : Nat) (text : String) : Routing :=
  r.alter (r.place thread) (·.outLine text)

/-- Write an error line on a thread. -/
def err (r : Routing) (thread : Nat) (text : String) : Routing :=
  r.alter (r.place thread) (·.errLine text)

/-- Take what was written to a place, which is empty afterwards. -/
def take (r : Routing) (place : String) : Report.Streams × Routing :=
  (r.written place, r.alter place fun _ => .empty)

end Routing
end Evaluation
end ScriptSession
