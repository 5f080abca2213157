import Mathlib.Logic.Function.Basic
import ScriptSession.Evaluation.Slots

/-!
# Nested use of slots

Every thread puts entries in force and gives them up in the opposite order, and threads do so in any
order. What the guards of a thread have to put back are then the entries below, as on a stack
(`Slots.Stands`), although all threads share one map. Main statements: entering and leaving keep
this (`Slots.Stands.enter`, `Slots.Stands.leave`), and a thread whose stack is empty has left no
entry behind (`Slots.Stands.unused`).
-/

namespace ScriptSession
namespace Evaluation
namespace Slots

variable {α : Type}

/-! ## Entries of threads -/

theorem current_remove (s : Slots α) (t u : Nat) :
    (s.remove t).current u = if u = t then none else s.current u := by
  rw [current, current, remove, List.find?_filter]
  split
  · rename_i h
    subst h
    rw [Option.map_eq_none_iff, List.find?_eq_none]
    simp
  · rename_i h
    congr 2
    funext e
    by_cases he : e.1 = u <;> simp [he, h]

theorem current_put (s : Slots α) (t : Nat) (a : α) (u : Nat) :
    (s.put t a).current u = if u = t then some a else s.current u := by
  rw [current, put, List.find?_cons]
  by_cases h : u = t
  · rw [if_pos h]
    simp [h]
  · have hne : t ≠ u := Ne.symm h
    rw [if_neg h]
    simp only [hne, decide_false]
    rw [← current, current_remove, if_neg h]

theorem current_leave (s : Slots α) (g : Guard α) (u : Nat) :
    (s.leave g).current u = if u = g.thread then g.previous else s.current u := by
  rw [leave]
  split
  · rename_i a h
    rw [current_put, h]
  · rename_i h
    rw [current_remove, h]

/-- A thread with nothing in force has no entry at all. -/
theorem current_eq_none_iff (s : Slots α) (t : Nat) :
    s.current t = none ↔ ∀ e ∈ s.entries, e.1 ≠ t := by
  simp [current, List.find?_eq_none]

/-! ## Stacks -/

/-- Every guard of a thread has to put back the entry below. -/
def Chained (t : Nat) : List (Guard α × α) → Prop
  | [] => True
  | (g, _) :: rest => g = ⟨t, rest.head?.map (·.2)⟩ ∧ Chained t rest

/-- The slots show for each thread the top of its stack. -/
structure Stands (s : Slots α) (nests : Nat → List (Guard α × α)) : Prop where
  current : ∀ t, s.current t = (nests t).head?.map (·.2)
  chained : ∀ t, Chained t (nests t)

theorem stands_empty : (empty : Slots α).Stands fun _ => [] := ⟨fun _ => rfl, fun _ => trivial⟩

namespace Stands

variable {s : Slots α} {nests : Nat → List (Guard α × α)} (h : s.Stands nests)
include h

theorem enter (t : Nat) (a : α) :
    (s.enter t a).2.Stands (Function.update nests t (((s.enter t a).1, a) :: nests t)) := by
  constructor
  · intro u
    rw [Slots.enter, current_put]
    by_cases hu : u = t
    · rw [if_pos hu, hu, Function.update_self]
      rfl
    · rw [if_neg hu, Function.update_of_ne hu, h.current]
  · intro u
    by_cases hu : u = t
    · rw [hu, Function.update_self]
      exact ⟨congrArg _ (h.current t), h.chained t⟩
    · rw [Function.update_of_ne hu]
      exact h.chained u

theorem leave {t : Nat} {g : Guard α} {a : α} {rest : List (Guard α × α)}
    (hnest : nests t = (g, a) :: rest) : (s.leave g).Stands (Function.update nests t rest) := by
  have hchained : Chained t ((g, a) :: rest) := hnest ▸ h.chained t
  obtain ⟨rfl, hrest⟩ := hchained
  constructor
  · intro u
    rw [current_leave]
    by_cases hu : u = t
    · rw [if_pos hu, hu, Function.update_self]
    · rw [if_neg hu, Function.update_of_ne hu, h.current]
  · intro u
    by_cases hu : u = t
    · rw [hu, Function.update_self]
      exact hrest
    · rw [Function.update_of_ne hu]
      exact h.chained u

theorem unused {t : Nat} (hnest : nests t = []) : ∀ e ∈ s.entries, e.1 ≠ t := by
  rw [← current_eq_none_iff, h.current, hnest]
  rfl

end Stands
end Slots
end Evaluation
end ScriptSession
