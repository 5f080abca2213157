import ScriptSession.Proofs.Context.Merging
import ScriptSession.Session.Scripts

/-!
# Removing a variable

To remove a variable is to take all variables of its name out of a scope, the hidden ones and the
constants among them, and to leave the others as they are, in their order (`Scope.listing_without`).
What others have deferred is merged before. Main statement: what the removal of a name answers in a
context that nobody holds, and what it leaves behind (`removeVariable_removes`).
-/

namespace ScriptSession
namespace Script
namespace Scope

/-- The variables, the oldest first: their names, whether they are constants, and their values. -/
def listing (s : Scope) : List (String × Bool × Value) :=
  s.oldestFirst.map fun e => (e.name, e.isConstant, e.value)

theorem listing_without (s : Scope) (name : String) :
    (s.without name).listing = s.listing.filter fun row => row.1 ≠ name := by
  unfold listing oldestFirst without
  rw [List.filter_map, List.filter_reverse]
  rfl

theorem find?_without (s : Scope) (name n : String) :
    (s.without name).find? n = if n = name then none else s.find? n := by
  unfold find? without
  rw [List.find?_filter]
  split
  · rename_i h
    rw [List.find?_eq_none]
    intro e _
    simp [h]
  · rename_i h
    -- A variable of another name is not one of those that were taken out.
    congr 1
    funext e
    by_cases he : e.name = n
    · simp [he, h]
    · simp [he]

theorem get?_without (s : Scope) (name n : String) :
    (s.without name).get? n = if n = name then none else s.get? n := by
  unfold get?
  rw [find?_without]
  split <;> rfl

end Scope
end Script

namespace Report

/-- A snapshot has a row for every name that it has a value for. -/
theorem Snapshot.get_eq_none_iff {s : Snapshot} {name : String} :
    s.get name = none ↔ ∀ row ∈ s.rows, row.1 ≠ name := by
  unfold get rows Context.Bindings.get Script.Value.getField
  rw [Option.map_eq_none_iff, List.find?_eq_none, List.forall_mem_map]
  simp

end Report

namespace Session

open Concurrency (Pool)
open Context (State applyAll)
open Script (Entry Scope Value)

/-- **Removing a variable** of a context that nobody holds, whatever is pending and whatever the
scope holds. What is pending is merged first, and the answer is the value that the name shows then.
After that the name shows nothing, in a snapshot neither, all other variables are as they were, and
what is published is the scope with nothing pending. The rest of the world is not touched. -/
theorem removeVariable_removes {w : World} {i : Nat} {c : State} (hc : w.contexts[i]? = some c)
    (hfree : c.isHeld = false) (name : String) (now : Nat) (jobs : List Job) :
    let merged := applyAll c.scope c.pending
    ∃ left : Scope,
      let c' : State := { c with scope := left, published := left, pending := [] }
      Pool.drive now (removeVariable i name) w jobs =
          (w.alterContext i fun _ => c', .finished (.ok (merged.get? name)), jobs) ∧
        c'.value? name = none ∧ (∀ row ∈ c'.snapshot.rows, row.1 ≠ name) ∧
        left.listing = merged.listing.filter (fun row => row.1 ≠ name) ∧
        ∀ n, n ≠ name → c'.value? n = merged.get? n ∧ c'.snapshot.get n = merged.get? n := by
  intro merged
  have hcontext : w.context i = c := by
    unfold World.context
    rw [List.getD_eq_getElem?_getD, hc, Option.getD_some]
  have hready : isFree i w = true := by
    unfold isFree
    rw [hcontext, hfree]
    rfl
  refine ⟨merged.without name, ?_⟩
  intro c'
  -- All that is asked of the result is what the scope without the name shows.
  have hvalue : ∀ n, c'.value? n = if n = name then none else merged.get? n :=
    merged.get?_without name
  have hnone : c'.value? name = none := by rw [hvalue, if_pos rfl]
  refine ⟨?_, hnone, ?_, merged.listing_without name, fun n hn => ?_⟩
  · show Pool.drive now (.wait (isFree i) (some Context.removalWait) _) w jobs = _
    rw [Pool.drive, if_pos hready]
    show ((w.alterContext i fun _ => ((w.context i).removeFree name).2),
      Concurrency.Member.finished (Except.ok ((w.context i).removeFree name).1), jobs) = _
    rw [hcontext]
    rfl
  · apply Report.Snapshot.get_eq_none_iff.mp
    rw [Context.get_snapshot, hnone]
  · rw [Context.get_snapshot, hvalue, if_neg hn]
    exact ⟨rfl, rfl⟩

/-- A constant `x` on top of a hidden variable `x`, and values that are pending for `x` and for
another name. -/
theorem removed_among_pending :
    let c : State := { State.new 1 .empty .empty with
      scope := ⟨[Entry.variable_ "y" (.int 4), Entry.constant "x" (.int 3),
        Entry.constant "k" (.int 2), Entry.variable_ "x" (.int 1)]⟩
      pending := [Entry.variable_ "x" (.int 5), Entry.variable_ "y" (.int 6)] }
    let w : World := ((World.new ⟨.empty, [], [], []⟩).addContext c).2
    w.contexts[0]? = some c ∧ c.isHeld = false ∧ ∃ left : Scope,
      Pool.drive 0 (removeVariable 0 "x") w [] =
          (w.alterContext 0 fun _ => { c with scope := left, published := left, pending := [] },
            .finished (.ok (some (.int 3))), []) ∧
        left.listing = [("k", true, .int 2), ("y", false, .int 6)] := by
  intro c w
  obtain ⟨left, hdrive, -, -, hlisting, -⟩ := removeVariable_removes (w := w) (i := 0) (c := c) rfl
    rfl "x" 0 []
  exact ⟨rfl, rfl, left, hdrive, hlisting.trans rfl⟩

end Session
end ScriptSession
