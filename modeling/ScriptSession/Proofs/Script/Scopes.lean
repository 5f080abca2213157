import Mathlib.Data.List.Forall2
import ScriptSession.Script.Scope

/-!
# Scopes by name

What a name stands for after a variable is added or changed. The other names stand for what they
stood for before.

A script changes the values of variables and declares further ones, and leaves constants alone;
binding names does no more than that (`Scope.Extends`).
-/

namespace ScriptSession
namespace Script

/-- What may become of a variable: a constant keeps its value. -/
structure Entry.Keeps (old new : Entry) : Prop where
  name : new.name = old.name
  isConstant : new.isConstant = old.isConstant
  value : old.isConstant → new.value = old.value

theorem Entry.Keeps.refl (e : Entry) : e.Keeps e := ⟨rfl, rfl, fun _ => rfl⟩

theorem Entry.Keeps.trans {a b c : Entry} (h : a.Keeps b) (h' : b.Keeps c) : a.Keeps c := by
  refine ⟨h'.name.trans h.name, h'.isConstant.trans h.isConstant, fun ha => ?_⟩
  rw [h'.value (by rwa [h.isConstant]), h.value ha]

namespace Scope

/-- What a name shows: whether it stands for a constant, and its value. -/
def shown? (s : Scope) (name : String) : Option (Bool × Value) :=
  (s.find? name).map fun e => (e.isConstant, e.value)

theorem name_of_find? {s : Scope} {name : String} {e : Entry} (h : s.find? name = some e) :
    e.name = name := by
  simpa [find?] using List.find?_some h

@[simp] theorem find?_push (s : Scope) (e : Entry) (n : String) :
    (s.push e).find? n = if e.name = n then some e else s.find? n := by
  by_cases h : e.name = n <;> simp [find?, push, h]

/-- Only the latest entry of a name is changed. -/
theorem find?_alterIn (name n : String) {f : Entry → Entry} (hf : ∀ e, (f e).name = e.name)
    (entries : List Entry) :
    (alterIn name f entries).find? (fun e => e.name = n) =
      if name = n then (entries.find? fun e => e.name = n).map f
      else entries.find? fun e => e.name = n := by
  induction entries with
  | nil => simp [alterIn]
  | cons e rest ih =>
    rw [alterIn]
    by_cases he : e.name = name
    · rw [if_pos he, List.find?_cons, List.find?_cons, hf]
      by_cases hn : name = n
      · simp [he, hn]
      · simp [he, hn]
    · rw [if_neg he, List.find?_cons, List.find?_cons, ih]
      by_cases hn : name = n
      · subst hn
        simp [he]
      · simp [hn]

@[simp] theorem find?_assign (s : Scope) (name n : String) (v : Value) :
    (s.assign name v).find? n =
      if name = n then (s.find? n).map fun e => { e with value := v } else s.find? n :=
  find?_alterIn name n (f := fun e => { e with value := v }) (fun _ => rfl) s.entries

theorem shown?_push (s : Scope) (e : Entry) (n : String) :
    (s.push e).shown? n = if e.name = n then some (e.isConstant, e.value) else s.shown? n := by
  rw [shown?, find?_push]
  split <;> rfl

theorem shown?_assign (s : Scope) (name n : String) (v : Value) :
    (s.assign name v).shown? n =
      if name = n then (s.shown? n).map fun x => (x.1, v) else s.shown? n := by
  rw [shown?, find?_assign]
  split
  · rw [shown?, Option.map_map, Option.map_map]
    rfl
  · rfl

/-! ## Extending a scope -/

/-- The variables of `old` are still there in `new`, as what may become of them, below others that
have been declared since. -/
def Extends (old new : Scope) : Prop :=
  ∃ declared kept, new.entries = declared ++ kept ∧ List.Forall₂ Entry.Keeps old.entries kept

theorem keeps_trans {as bs cs : List Entry} (h : List.Forall₂ Entry.Keeps as bs)
    (h' : List.Forall₂ Entry.Keeps bs cs) : List.Forall₂ Entry.Keeps as cs := by
  induction h generalizing cs with
  | nil => exact h'
  | cons hab _ ih =>
    cases h' with
    | cons hbc hrest => exact .cons (hab.trans hbc) (ih hrest)

theorem Extends.refl (s : Scope) : s.Extends s :=
  ⟨[], s.entries, rfl, List.forall₂_same.mpr fun e _ => .refl e⟩

theorem Extends.trans {s t u : Scope} (h : s.Extends t) (h' : t.Extends u) : s.Extends u := by
  obtain ⟨declared, kept, ht, hkept⟩ := h
  obtain ⟨declared', kept', hu, hkept'⟩ := h'
  rw [ht] at hkept'
  -- The variables declared first are above the place at which the kept ones begin.
  have hsplit : kept'.take declared.length ++ kept'.drop declared.length = kept' :=
    List.take_append_drop ..
  have hbelow : List.Forall₂ Entry.Keeps kept (kept'.drop declared.length) := by
    simpa using List.forall₂_drop declared.length hkept'
  refine ⟨declared' ++ kept'.take declared.length, kept'.drop declared.length, ?_,
    keeps_trans hkept hbelow⟩
  rw [List.append_assoc, hsplit, hu]

theorem extends_push (s : Scope) (e : Entry) : s.Extends (s.push e) :=
  ⟨[e], s.entries, rfl, List.forall₂_same.mpr fun e _ => .refl e⟩

/-- Giving a variable another value extends the scope. -/
theorem extends_assign {s : Scope} {name : String} (v : Value)
    (h : ∀ e, s.find? name = some e → e.isConstant = false) : s.Extends (s.assign name v) := by
  refine ⟨[], _, rfl, ?_⟩
  obtain ⟨entries⟩ := s
  induction entries with
  | nil => exact .nil
  | cons e rest ih =>
    show List.Forall₂ _ _ (alterIn _ _ _)
    rw [alterIn]
    split
    · rename_i he
      have hvariable : e.isConstant = false := h e (by simp [find?, he])
      refine .cons ⟨rfl, rfl, fun hconstant => ?_⟩ (List.forall₂_same.mpr fun e _ => .refl e)
      rw [hvariable] at hconstant
      cases hconstant
    · rename_i he
      refine .cons (.refl e) (ih fun e' he' => h e' ?_)
      simpa [find?, he] using he'

theorem extends_bind (s : Scope) (name : String) (v : Value) : s.Extends (s.bind name v) := by
  rw [bind]
  split
  · rename_i e he
    split
    · exact .refl s
    · rename_i hconstant
      refine extends_assign v fun e' he' => ?_
      rw [he] at he'
      cases he'
      exact Bool.eq_false_iff.mpr hconstant
  · exact extends_push s _

theorem extends_bindAll (s : Scope) (bindings : List (String × Value)) :
    s.Extends (s.bindAll bindings) := by
  induction bindings generalizing s with
  | nil => exact .refl s
  | cons b rest ih => exact (extends_bind s b.1 b.2).trans (ih _)

end Scope
end Script
end ScriptSession
