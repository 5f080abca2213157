/-!
# Slots by thread

What is in force on each thread: the sink its output goes to, or the task it works for. A thread
that puts something in keeps what was there before and puts it back when it is done, so that
nested use leaves everything as it was and threads do not see each other.
-/

namespace ScriptSession
namespace Evaluation

/-- The entry of each thread that has one. -/
structure Slots (α : Type) where
  entries : List (Nat × α)

/-- What a thread has to put back. -/
structure Guard (α : Type) where
  thread : Nat
  previous : Option α

namespace Slots

variable {α : Type}

/-- No entries. -/
def empty : Slots α := ⟨[]⟩

/-- The entry of a thread. -/
def current (s : Slots α) (thread : Nat) : Option α :=
  (s.entries.find? fun e => e.1 = thread).map (·.2)

/-- Without the entry of a thread. -/
def remove (s : Slots α) (thread : Nat) : Slots α :=
  ⟨s.entries.filter fun e => e.1 ≠ thread⟩

/-- With an entry for a thread. -/
def put (s : Slots α) (thread : Nat) (a : α) : Slots α := ⟨(thread, a) :: (s.remove thread).entries⟩

/-- Put an entry in force on a thread. -/
def enter (s : Slots α) (thread : Nat) (a : α) : Guard α × Slots α :=
  (⟨thread, s.current thread⟩, s.put thread a)

/-- Put back what was in force before. -/
def leave (s : Slots α) (g : Guard α) : Slots α :=
  match g.previous with
  | some a => s.put g.thread a
  | none => s.remove g.thread

end Slots
end Evaluation
end ScriptSession
