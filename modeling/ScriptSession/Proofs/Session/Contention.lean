import ScriptSession.Proofs.Context.Changes
import ScriptSession.Session.Scripts

/-!
# Evaluations beside one another

An evaluation runs on the variables of a context, or on a copy while another one holds them, and
which of the two it is depends on how soon the variables are free. Main statement: both come to the
same result, and both leave the same visible variables behind as far as the evaluation keeps their
kind (`contendedRun_agrees_iff`).
-/

namespace ScriptSession
namespace Session

open Concurrency (Member Pool)
open Context (Bindings KeepsKind Misread bound changes applyAll)
open Script (Entry Scope Value)

namespace World

@[simp] theorem context_alterContext {w : World} {i : Nat} (hi : i < w.contexts.length)
    (f : Context.State → Context.State) : (w.alterContext i f).context i = f (w.context i) := by
  simp [context, alterContext, hi]

@[simp] theorem length_alterContext (w : World) (i : Nat) (f : Context.State → Context.State) :
    (w.alterContext i f).contexts.length = w.contexts.length := by
  simp [alterContext]

end World

variable {α : Type}

/-- An evaluation with the effect `f` on the variables runs on those of a context: what it comes to
and the world afterwards. -/
def plainRun (now i : Nat) (bindings : Bindings) (extra : List (String × Value))
    (f : Scope → α × Scope) (w : World) : Member World Job α × World :=
  let (w, m, _) := Pool.drive now (onVariables i bindings extra fun s => pure (f s)) w []
  (m, w)

/-- It runs on a copy, while the variables are held by an evaluation that changes nothing and lets
go of them afterwards. -/
def contendedRun (now i : Nat) (bindings : Bindings) (extra : List (String × Value))
    (f : Scope → α × Scope) (w : World) : Member World Job α × World :=
  let held := w.alterContext i Context.State.acquire
  let (w', m, _) := Pool.drive now (onCopy i bindings extra fun s => pure (f s)) held []
  (m, w'.alterContext i (·.release (w.context i).scope))

/-- The variables after the effect. -/
def leftBehind (i : Nat) (bindings : Bindings) (extra : List (String × Value))
    (f : Scope → α × Scope) (w : World) : Scope :=
  (f (bound (w.context i).scope bindings extra)).2

theorem plainRun_eq (now : Nat) {i : Nat} (bindings : Bindings) (extra : List (String × Value))
    (f : Scope → α × Scope) {w : World} (hi : i < w.contexts.length) (hw : (w.context i).Settled) :
    (plainRun now i bindings extra f w).1 =
        .finished (f (bound (w.context i).scope bindings extra)).1 ∧
      (plainRun now i bindings extra f w).2.context i =
        (w.context i).acquire.release (leftBehind i bindings extra f w) := by
  -- Nothing is pending in a settled context, so acquiring it leaves the variables as they are.
  have hscope : ((w.alterContext i Context.State.acquire).context i).scope =
      (w.context i).scope := by
    rw [World.context_alterContext hi]
    show applyAll (w.context i).scope (w.context i).pending = _
    rw [hw.pending, Context.applyAll_nil]
  have hrun : plainRun now i bindings extra f w =
      (.finished (f (bound ((w.alterContext i Context.State.acquire).context i).scope bindings
          extra)).1,
        (w.alterContext i Context.State.acquire).alterContext i (·.release
          (f (bound ((w.alterContext i Context.State.acquire).context i).scope bindings
            extra)).2)) := rfl
  rw [hrun, hscope]
  refine ⟨rfl, ?_⟩
  rw [World.context_alterContext (by simpa using hi), World.context_alterContext hi]
  rfl

theorem contendedRun_eq (now : Nat) {i : Nat} (bindings : Bindings) (extra : List (String × Value))
    (f : Scope → α × Scope) {w : World} (hi : i < w.contexts.length) (hw : (w.context i).Settled) :
    (contendedRun now i bindings extra f w).1 =
        .finished (f (bound (w.context i).scope bindings extra)).1 ∧
      (contendedRun now i bindings extra f w).2.context i =
        ((w.context i).acquire.defer (changes (w.context i).scope
          (leftBehind i bindings extra f w))).release (w.context i).scope := by
  -- The copy is one of what is published, which is what the variables are in a settled context.
  have hpublished : ((w.alterContext i Context.State.acquire).context i).published =
      (w.context i).scope := by
    rw [World.context_alterContext hi]
    exact hw.published
  have hrun : contendedRun now i bindings extra f w =
      (.finished (f (bound ((w.alterContext i Context.State.acquire).context i).published bindings
          extra)).1,
        ((w.alterContext i Context.State.acquire).alterContext i (·.defer (changes
          ((w.alterContext i Context.State.acquire).context i).published
          (f (bound ((w.alterContext i Context.State.acquire).context i).published bindings
            extra)).2))).alterContext i (·.release (w.context i).scope)) := rfl
  rw [hrun, hpublished]
  refine ⟨rfl, ?_⟩
  rw [World.context_alterContext (by simpa using hi),
    World.context_alterContext (by simpa using hi), World.context_alterContext hi]
  rfl

/-- An evaluation that does to variables what scripts do comes to the same result on the variables
and on a copy, and leaves a settled context behind in both cases. A name that the texts of values
do not misread has the same visible value and is as constant in both contexts if and only if the
evaluation has kept its kind. -/
theorem contendedRun_agrees_iff (now i : Nat) (bindings : Bindings)
    (extra : List (String × Value)) (f : Scope → α × Scope) (hf : ∀ s : Scope, s.Extends (f s).2)
    (w : World) (hi : i < w.contexts.length) (hw : (w.context i).Settled) :
    (∃ a, (plainRun now i bindings extra f w).1 = .finished a ∧
        (contendedRun now i bindings extra f w).1 = .finished a) ∧
      ((plainRun now i bindings extra f w).2.context i).Settled ∧
      ((contendedRun now i bindings extra f w).2.context i).Settled ∧
      ∀ n, ¬ Misread (w.context i).scope (leftBehind i bindings extra f w) n →
        (((plainRun now i bindings extra f w).2.context i).scope.shown? n =
            ((contendedRun now i bindings extra f w).2.context i).scope.shown? n ↔
          KeepsKind (w.context i).scope (leftBehind i bindings extra f w) n) := by
  obtain ⟨hplain, hplainContext⟩ := plainRun_eq now bindings extra f hi hw
  obtain ⟨hbeside, hbesideContext⟩ := contendedRun_eq now bindings extra f hi hw
  have hextends : (w.context i).scope.Extends (leftBehind i bindings extra f w) :=
    (Context.extends_bound _ bindings extra).trans (hf _)
  -- Both contexts are known now, and differ in how the changes got there.
  rw [hplainContext, hbesideContext]
  refine ⟨⟨_, hplain, hbeside⟩, Context.State.settled_release .., Context.State.settled_release ..,
    fun n hread => ?_⟩
  rw [Context.State.scope_release_acquire, Context.State.scope_release_defer, eq_comm]
  exact Context.shown?_applyAll_changes_iff hextends hread

/-- A world with one settled context and its variables. -/
def worldOf (s : Scope) : World :=
  ((World.new ⟨.empty, [], [], []⟩).addContext
    { Context.State.new 1 .empty .empty with scope := s, published := s }).2

/-- What a name shows after an evaluation on the variables and after one on a copy. -/
def shownBy (s : Scope) (f : Scope → Scope) (n : String) :
    Option (Bool × Value) × Option (Bool × Value) :=
  (((plainRun 0 0 .empty [] (fun s => ((), f s)) (worldOf s)).2.context 0).scope.shown? n,
    ((contendedRun 0 0 .empty [] (fun s => ((), f s)) (worldOf s)).2.context 0).scope.shown? n)

/-- A declaration of a variable agrees. -/
theorem contendedRun_agrees_on_declaration :
    let f : Scope → Unit × Scope := fun s => ((), s.push (Entry.variable_ "x" (.bool true)))
    (∃ a, (plainRun 0 0 .empty [] f (worldOf .empty)).1 = .finished a ∧
        (contendedRun 0 0 .empty [] f (worldOf .empty)).1 = .finished a) ∧
      shownBy .empty (fun s => (f s).2) "x" =
        (some (false, .bool true), some (false, .bool true)) := by
  intro f
  have hsettled : ((worldOf .empty).context 0).Settled := ⟨rfl, rfl, rfl⟩
  exact ⟨(contendedRun_agrees_iff 0 0 .empty [] f (fun s => s.extends_push _) (worldOf .empty)
    Nat.one_pos hsettled).1, rfl⟩

/-- Changes to hidden variables, leaving the visible one of the first place alone. -/
def alterHidden (v : Value) (s : Scope) : Scope :=
  ⟨s.entries.take 1 ++ (s.entries.drop 1).map fun e =>
    if e.isConstant then e else { e with value := v }⟩

theorem extends_alterHidden (v : Value) (s : Scope) : s.Extends (alterHidden v s) := by
  refine ⟨[], _, rfl, ?_⟩
  have hmap : ∀ entries : List Entry, List.Forall₂ Entry.Keeps entries
      (entries.map fun e => if e.isConstant then e else { e with value := v }) := by
    intro entries
    rw [List.forall₂_map_right_iff, List.forall₂_same]
    intro e _
    split
    · exact .refl e
    · rename_i h
      exact ⟨rfl, rfl, fun hconstant => absurd hconstant h⟩
  obtain ⟨_ | ⟨e, rest⟩⟩ := s
  · exact .nil
  · exact .cons (.refl e) (hmap rest)

/-- The runs disagree about a variable that is declared over a constant, about one whose hidden
namesake is changed, and about one whose new value is written like the old one. -/
theorem contendedRun_disagrees :
    let redeclare : Scope → Scope := (·.push (Entry.variable_ "k" (.bool false)))
    let hide : Scope → Scope := alterHidden (.bool false)
    let reword : Scope → Scope := (·.bind "x" (.array [.callable "a), Fn(b"]))
    (∀ s : Scope, s.Extends (redeclare s) ∧ s.Extends (hide s) ∧ s.Extends (reword s)) ∧
      shownBy ⟨[Entry.constant "k" (.bool true)]⟩ redeclare "k" =
        (some (false, .bool false), some (true, .bool true)) ∧
      shownBy ⟨[Entry.variable_ "x" (.bool true), Entry.variable_ "x" (.bool true)]⟩ hide "x" =
        (some (false, .bool true), some (false, .bool false)) ∧
      shownBy ⟨[Entry.variable_ "x" (.array [.callable "a", .callable "b"])]⟩ reword "x" =
        (some (false, .array [.callable "a), Fn(b"]),
          some (false, .array [.callable "a", .callable "b"])) :=
  ⟨fun s => ⟨s.extends_push _, extends_alterHidden _ s, s.extends_bind _ _⟩, rfl, rfl, rfl⟩

end Session
end ScriptSession
