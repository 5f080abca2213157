import ScriptSession.Proofs.Context.Merging
import ScriptSession.Proofs.Script.Binding

/-!
# What a script sees at its start

Before a script runs, the names of the host are bound in its scope and then further ones. The names
of the host are sorted and stand once (`Bindings.IsSorted`), so each of them has one value, and the
further ones count over it. Main statement: what every name shows at the start, what becomes of the
variables that were there, which ones are added, and that binding the same names once more changes
nothing (`bound_overlays`).
-/

namespace ScriptSession
namespace Script
namespace Scope

/-! ## What a name shows -/

theorem shown?_bindAll (s : Scope) (bindings : List (String × Value)) (n : String) :
    (s.bindAll bindings).shown? n =
      match s.shown? n with
      | some (true, v) => some (true, v)
      | old => ((lastGiven? bindings n).or (old.map (·.2))).map fun v => (false, v) := by
  induction bindings using List.reverseRecOn with
  | nil =>
    show s.shown? n = _
    rcases s.shown? n with _ | ⟨_ | _, v⟩ <;> rfl
  | append_singleton bindings b ih =>
    rw [bindAll_concat, Context.shown?_bind, ih, lastGiven?_concat]
    split
    · rcases s.shown? n with _ | ⟨_ | _, v⟩ <;> cases lastGiven? bindings n <;> rfl
    · rfl

/-- A constant keeps its value, and any other name shows the last one that it was given. -/
theorem get?_bindAll (s : Scope) (bindings : List (String × Value)) (n : String) :
    (s.bindAll bindings).get? n =
      if s.isConstant n then s.get? n else (lastGiven? bindings n).or (s.get? n) := by
  have hget : ∀ t : Scope, t.get? n = (t.shown? n).map (·.2) := by
    intro t
    unfold get? shown?
    rw [Option.map_map]
    rfl
  have hconstant : s.isConstant n = (s.shown? n).any (·.1) := by
    unfold isConstant shown?
    rw [Option.any_map]
  rw [hget, shown?_bindAll, hget, hconstant]
  rcases s.shown? n with _ | ⟨_ | _, v⟩ <;> cases lastGiven? bindings n <;> rfl

end Scope
end Script

namespace Context

open Artifact (newcomers)
open Script (Entry Scope Value lastGiven?)

/-! ## Bindings of the host -/

namespace Bindings

/-- The names are sorted and stand once. -/
def IsSorted (b : Bindings) : Prop := b.entries.Pairwise fun x y => x.1 < y.1

variable {b : Bindings}

theorem isSorted_empty : empty.IsSorted := .nil

theorem nodup_of_isSorted (h : b.IsSorted) : (b.entries.map (·.1)).Nodup := by
  unfold List.Nodup
  rw [List.pairwise_map]
  refine h.imp fun {x y} hlt heq => ?_
  rw [heq] at hlt
  exact String.lt_irrefl _ hlt

theorem mem_setField {name : String} {v : Value} {fields : List (String × Value)}
    {field : String × Value} (h : field ∈ Value.setField name v fields) :
    field = (name, v) ∨ field ∈ fields := by
  induction fields with
  | nil => exact .inl (List.mem_singleton.mp h)
  | cons first rest ih =>
    rw [Value.setField] at h
    split at h
    · exact (List.mem_cons.mp h).imp_right (List.mem_cons_of_mem first)
    · split at h
      · exact List.mem_cons.mp h
      · obtain rfl | h := List.mem_cons.mp h
        · exact .inr List.mem_cons_self
        · exact (ih h).imp_right (List.mem_cons_of_mem first)

theorem isSorted_insert (h : b.IsSorted) (name : String) (v : Value) :
    (b.insert name v).IsSorted := by
  obtain ⟨fields⟩ := b
  unfold IsSorted insert at *
  induction fields with
  | nil => exact List.pairwise_singleton ..
  | cons first rest ih =>
    have hsorted := List.pairwise_cons.mp h
    show List.Pairwise _ (Value.setField name v (first :: rest))
    rw [Value.setField]
    split
    · rename_i heq
      subst heq
      exact List.pairwise_cons.mpr hsorted
    · rename_i hne
      split
      · rename_i hlt
        refine List.pairwise_cons.mpr ⟨fun field hfield => ?_, h⟩
        obtain rfl | hfield := List.mem_cons.mp hfield
        · exact hlt
        · exact String.lt_trans hlt (hsorted.1 field hfield)
      · rename_i hge
        -- The name comes behind the first one, and so does all the rest.
        have hbehind : first.1 < name := by
          by_contra hnot
          exact hne (String.le_antisymm (String.not_lt.mp hnot) (String.not_lt.mp hge))
        refine List.pairwise_cons.mpr ⟨fun field hfield => ?_, ih hsorted.2⟩
        obtain rfl | hfield := mem_setField hfield
        · exact hbehind
        · exact hsorted.1 field hfield

theorem isSorted_remove (h : b.IsSorted) (name : String) : (b.remove name).IsSorted :=
  List.Pairwise.filter _ h

theorem isSorted_ofList (entries : List (String × Value)) : (ofList entries).IsSorted := by
  induction entries using List.reverseRecOn with
  | nil => exact isSorted_empty
  | append_singleton entries e ih =>
    unfold ofList at *
    rw [List.foldl_concat]
    exact isSorted_insert ih e.1 e.2

end Bindings

/-! ## Main statement -/

theorem bound_eq_bindAll (s : Scope) (host : Bindings) (extra : List (String × Value)) :
    bound s host extra = s.bindAll (host.entries ++ extra) := List.foldl_append.symm

/-- The value that a name is given at the start of a script: the last one of the further bindings,
or else the one of the host. -/
def startingValue? (host : Bindings) (extra : List (String × Value)) (name : String) :
    Option Value :=
  (lastGiven? extra name).or (host.get name)

theorem lastGiven?_start {host : Bindings} (hhost : host.IsSorted)
    (extra : List (String × Value)) (name : String) :
    lastGiven? (host.entries ++ extra) name = startingValue? host extra name := by
  rw [Script.lastGiven?_append, Script.lastGiven?_of_nodup (Bindings.nodup_of_isSorted hhost)]
  rfl

/-- **What a script sees at its start**, whatever the scope holds. A name that stands for a constant
shows that constant, and any other name the last value that it was given, or else the one it had. A
variable that was there keeps its place, its name and its kind, and its value as well if it is a
constant, if its name is given no value or if a later variable hides it. The names that are new
follow in the order in which they are bound first, each with one variable. To bind all of it once
more changes nothing. -/
theorem bound_overlays {host : Bindings} (hhost : host.IsSorted) (s : Scope)
    (extra : List (String × Value)) :
    (∀ name, (bound s host extra).get? name =
      if s.isConstant name then s.get? name
      else (startingValue? host extra name).or (s.get? name)) ∧
    (∀ i e, s.oldestFirst[i]? = some e →
      ∃ v, (bound s host extra).oldestFirst[i]? = some { e with value := v } ∧
        (e.isConstant ∨ startingValue? host extra e.name = none ∨
          (∃ later ∈ s.oldestFirst.drop (i + 1), later.name = e.name) → v = e.value)) ∧
    ((bound s host extra).oldestFirst.drop s.size).map
        (fun e => (e.name, e.isConstant, some e.value)) =
      (newcomers (·.1) (s.oldestFirst.map (·.name)) (host.entries ++ extra)).map
        (fun b => (b.1, false, startingValue? host extra b.1)) ∧
    bound (bound s host extra) host extra = bound s host extra := by
  simp only [bound_eq_bindAll, Scope.bindAll_bindAll, Scope.get?_bindAll,
    ← lastGiven?_start hhost]
  exact ⟨fun name => trivial, fun i e he => s.getElem?_bindAll _ he, s.added_by_bindAll _, trivial⟩

/-- A scope with a constant and a hidden variable, and names that are bound more than once. -/
theorem bound_over_constant_and_hidden :
    let s : Scope := ⟨[Entry.variable_ "x" (.int 2), Entry.constant "k" (.int 7),
      Entry.variable_ "x" (.int 1)]⟩
    let host := Bindings.ofList [("x", .int 3), ("k", .int 0), ("h", .int 4)]
    let extra : List (String × Value) := [("x", .int 5), ("n", .int 6), ("x", .int 8)]
    host.IsSorted ∧
      (bound s host extra).get? "k" = some (.int 7) ∧
      (bound s host extra).get? "x" = some (.int 8) ∧
      (bound s host extra).get? "h" = some (.int 4) ∧
      (∃ v, (bound s host extra).oldestFirst[0]? = some (Entry.variable_ "x" v) ∧ v = .int 1) ∧
      ((bound s host extra).oldestFirst.drop s.size).map
        (fun e => (e.name, e.isConstant, some e.value)) =
        [("h", false, some (.int 4)), ("n", false, some (.int 6))] ∧
      bound (bound s host extra) host extra = bound s host extra := by
  intro s host extra
  have hsorted : host.IsSorted := Bindings.isSorted_ofList _
  obtain ⟨hvisible, hkept, hadded, hagain⟩ := bound_overlays hsorted s extra
  obtain ⟨v, hv, hsame⟩ := hkept 0 (Entry.variable_ "x" (.int 1)) rfl
  refine ⟨hsorted, (hvisible "k").trans rfl, (hvisible "x").trans rfl, (hvisible "h").trans rfl,
    ⟨v, hv, hsame (.inr (.inr ?_))⟩, hadded.trans rfl, hagain⟩
  exact ⟨Entry.variable_ "x" (.int 2), .tail _ (.head _), rfl⟩

end Context
end ScriptSession
