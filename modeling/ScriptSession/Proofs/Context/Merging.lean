import ScriptSession.Context.State
import ScriptSession.Proofs.Script.Scopes

/-!
# Merging changes

What a name shows after changes are merged. A change settles its own name and no other one: a
constant stays, a variable takes the value of the change, and a name that stood for nothing becomes
what the change says. So after a merge a name that the changes speak of shows the last value they
give it, unless it stands for a constant (`shown?_applyAll_latest`).
-/

namespace ScriptSession
namespace Context

open Script (Entry Scope Value)

/-- What a change makes of what its name shows. -/
def settle (e : Entry) : Option (Bool × Value) → Bool × Value
  | some (true, v) => (true, v)
  | some (false, _) => (false, e.value)
  | none => (e.isConstant, e.value)

/-- What changes to one name make of what it shows. -/
def settleAll (es : List Entry) (x : Option (Bool × Value)) : Option (Bool × Value) :=
  es.foldl (fun x e => some (settle e x)) x

/-! ## One change -/

theorem shown?_bind (s : Scope) (name n : String) (v : Value) :
    (s.bind name v).shown? n =
      if name = n then some (settle (Entry.variable_ name v) (s.shown? n)) else s.shown? n := by
  rw [Scope.bind]
  by_cases hn : name = n
  · subst hn
    rw [if_pos rfl]
    cases h : s.find? name with
    | none =>
      rw [Scope.shown?_push, Scope.shown?, h]
      exact if_pos rfl
    | some e =>
      cases he : e.isConstant with
      | true => simp only [he, if_true, Scope.shown?, h, Option.map_some, settle]
      | false =>
        -- The latest one is assigned to, and it is the one that the name shows.
        have hshown : s.shown? name = some (false, e.value) := by
          rw [Scope.shown?, h, Option.map_some, he]
        simp only [he, Bool.false_eq_true, if_false]
        rw [Scope.shown?_assign, if_pos rfl, hshown]
        rfl
  · rw [if_neg hn]
    split
    · split
      · rfl
      · rw [Scope.shown?_assign, if_neg hn]
    · rw [Scope.shown?_push]
      exact if_neg hn

theorem shown?_apply (s : Scope) (e : Entry) (n : String) :
    (apply s e).shown? n = if e.name = n then some (settle e (s.shown? n)) else s.shown? n := by
  rw [apply]
  split
  · rename_i h
    rw [Bool.and_eq_true, Bool.not_eq_true', Scope.contains, Option.isSome_eq_false_iff,
      Option.isNone_iff_eq_none] at h
    rw [Scope.shown?_push]
    show (if e.name = n then some (true, e.value) else s.shown? n) = _
    split
    · rename_i hn
      rw [Scope.shown?, ← hn, h.2, ← h.1]
      rfl
    · rfl
  · rename_i h
    rw [shown?_bind]
    split
    · rename_i hn
      rw [Bool.and_eq_true, Bool.not_eq_true', not_and, Bool.not_eq_false] at h
      -- A change that is bound is one of a variable, or its name stands for something.
      cases hfind : s.find? n with
      | none =>
        have hconstant : e.isConstant = false := by
          rw [← Bool.not_eq_true]
          intro he
          have hcontains : s.contains e.name = true := h he
          rw [Scope.contains, hn, hfind] at hcontains
          cases hcontains
        simp only [Scope.shown?, hfind, Option.map_none, settle, hconstant, Entry.variable_]
      | some old =>
        cases hold : old.isConstant <;>
          simp only [Scope.shown?, hfind, Option.map_some, settle, hold, Entry.variable_]
    · rfl

/-! ## All changes -/

@[simp] theorem applyAll_nil (s : Scope) : applyAll s [] = s := rfl

@[simp] theorem applyAll_cons (s : Scope) (e : Entry) (es : List Entry) :
    applyAll s (e :: es) = applyAll (apply s e) es := rfl

theorem applyAll_append (s : Scope) (es fs : List Entry) :
    applyAll s (es ++ fs) = applyAll (applyAll s es) fs := List.foldl_append

/-- What a name shows after a merge depends on the changes to it alone. -/
theorem shown?_applyAll (s : Scope) (es : List Entry) (n : String) :
    (applyAll s es).shown? n = settleAll (es.filter fun e => e.name = n) (s.shown? n) := by
  induction es generalizing s with
  | nil => rfl
  | cons e rest ih =>
    rw [applyAll_cons, ih, shown?_apply]
    by_cases h : e.name = n
    · rw [if_pos h, List.filter_cons_of_pos (by simpa using h)]
      rfl
    · rw [if_neg h, List.filter_cons_of_neg (by simpa using h)]

/-- After a merge a name shows the latest value that the changes give it, unless it stands for a
constant. -/
theorem shown?_applyAll_latest (s : Scope) {es earlier later : List Entry} {latest : Entry}
    (hes : es = earlier ++ latest :: later) (hlater : ∀ e ∈ later, e.name ≠ latest.name) :
    ∃ isConstant v, (applyAll s es).shown? latest.name = some (isConstant, v) ∧
      (isConstant = false → v = latest.value) := by
  have hnone : later.filter (fun e => e.name = latest.name) = [] := by
    simpa [List.filter_eq_nil_iff] using hlater
  rw [hes, applyAll_append, applyAll_cons, shown?_applyAll, hnone, shown?_apply, if_pos rfl]
  refine ⟨_, _, rfl, ?_⟩
  generalize (applyAll s earlier).shown? latest.name = x
  match x with
  | some (true, v) => exact nofun
  | some (false, v) => exact fun _ => rfl
  | none => exact fun _ => rfl

/-- Binding the host's names and further ones does to variables no more than scripts do. -/
theorem extends_bound (s : Scope) (bindings : Bindings) (extra : List (String × Value)) :
    s.Extends (bound s bindings extra) :=
  (s.extends_bindAll bindings.entries).trans (Scope.extends_bindAll _ extra)

/-! ## Settled contexts -/

/-- Nobody holds the variables, they are published and nothing is pending. -/
structure State.Settled (c : State) : Prop where
  isHeld : c.isHeld = false
  published : c.published = c.scope
  pending : c.pending = []

namespace State

theorem settled_new (generation : Nat) (loading : LoadingScope) (bindings : Bindings) :
    (new generation loading bindings).Settled := ⟨rfl, rfl, rfl⟩

theorem settled_release (c : State) (s : Scope) : (c.release s).Settled := ⟨rfl, rfl, rfl⟩

/-- The holder leaves behind what it puts back. -/
theorem scope_release_acquire (c : State) (s : Scope) : (c.acquire.release s).scope = s := rfl

/-- What is deferred meanwhile is merged into it. -/
theorem scope_release_defer (c : State) (es : List Entry) (s : Scope) :
    ((c.acquire.defer es).release s).scope = applyAll s es := rfl

end State

/-! ## Snapshots -/

theorem getField_setField (name n : String) (v : Value) (fields : List (String × Value)) :
    Value.getField n (Value.setField name v fields) =
      if name = n then some v else Value.getField n fields := by
  induction fields with
  | nil => by_cases h : name = n <;> simp [Value.setField, Value.getField, h]
  | cons field rest ih =>
    obtain ⟨other, w⟩ := field
    rw [Value.setField]
    split
    · rename_i h
      subst h
      by_cases hn : name = n <;> simp [Value.getField, hn]
    · split
      · by_cases hn : name = n <;> simp [Value.getField, hn]
      · rename_i hne _
        rw [Value.getField, Value.getField, List.find?_cons, List.find?_cons] at *
        by_cases hother : other = n
        · subst hother
          simp [hne]
        · simpa [hother, Value.getField] using ih

/-- The bindings of a list of variables give every name the value of its latest variable. -/
theorem get_ofList (entries : List Entry) (n : String) :
    (Bindings.ofList ((entries.reverse).map fun e => (e.name, e.value))).get n =
      (entries.find? fun e => e.name = n).map (·.value) := by
  induction entries with
  | nil => rfl
  | cons e rest ih =>
    rw [Bindings.ofList, List.reverse_cons, List.map_append, List.foldl_append] at *
    show Value.getField n (Value.setField e.name e.value _) = _
    rw [getField_setField, List.find?_cons]
    by_cases h : e.name = n
    · simp [h]
    · rw [if_neg h]
      simpa only [h, decide_false, Bindings.get] using ih

/-- A snapshot shows what is published. -/
theorem get_snapshot (c : State) (n : String) : c.snapshot.get n = c.value? n :=
  get_ofList c.published.entries n

end Context
end ScriptSession
