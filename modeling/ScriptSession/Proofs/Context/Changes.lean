import ScriptSession.Proofs.Context.Merging

/-!
# What a copy gives back

An evaluation on a copy gives back the variables that are new or are written differently than
before, and these are merged into variables that have stayed as they were. Main statement: a name
shows afterwards what it would show after the evaluation itself exactly when the evaluation has kept
its kind, provided that the difference between the texts does not misread it
(`shown?_applyAll_changes_iff`).
-/

namespace ScriptSession
namespace Context

open Script (Entry Scope Value)

/-! ## Differences -/

/-- Two variables of one place have the same name and are written the same. -/
def LooksLike (e old : Entry) : Prop := (e.name, e.value.debug) = (old.name, old.value.debug)

instance (e old : Entry) : Decidable (LooksLike e old) :=
  inferInstanceAs (Decidable (_ = _))

/-- The variables that are new or look different, place by place. -/
def differences : List Entry → List Entry → List Entry
  | _, [] => []
  | [], new => new
  | o :: old, e :: new => if LooksLike e o then differences old new else e :: differences old new

@[simp] theorem differences_nil (new : List Entry) : differences [] new = new := by
  cases new <;> rfl

theorem differences_append {old new : List Entry} (h : old.length = new.length)
    (old' new' : List Entry) :
    differences (old ++ old') (new ++ new') = differences old new ++ differences old' new' := by
  induction old generalizing new with
  | nil =>
    rw [List.eq_nil_of_length_eq_zero h.symm]
    simp
  | cons o old ih =>
    cases new with
    | nil => cases h
    | cons e new =>
      have ih : differences (old ++ old') (new ++ new') =
          differences old new ++ differences old' new' := ih (by simpa using h)
      simp only [List.cons_append, differences, ih]
      split <;> rfl

/-- Looking up the old variables by their places goes through both lists in step. -/
theorem filter_zipIdx_eq (old new : List Entry) (k : Nat) :
    ((new.zipIdx k).filter fun (e, i) =>
        (old.map fun e => (e.name, e.value.debug))[i]? ≠ some (e.name, e.value.debug)).map (·.1) =
      differences (old.drop k) new := by
  -- On the new variables: the places count up from `k`, and the old ones before it are dropped.
  induction new generalizing k with
  | nil => cases old.drop k <;> rfl
  | cons e new ih =>
    rw [List.zipIdx_cons, List.filter_cons]
    cases hdrop : old.drop k with
    | nil =>
      have hnone : old[k]? = none := by simpa using hdrop
      have hrest : differences (old.drop (k + 1)) new = new := by
        rw [← List.drop_drop, hdrop, List.drop_nil, differences_nil]
      rw [if_pos (by simp [hnone]), List.map_cons, ih, hrest]
      rfl
    | cons o rest =>
      have hsome : old[k]? = some o := by
        rw [← List.head?_drop, hdrop, List.head?_cons]
      have hrest : old.drop (k + 1) = rest := by
        rw [← List.drop_drop, hdrop, List.drop_one, List.tail_cons]
      rw [differences, ← hrest, ← ih]
      by_cases h : LooksLike e o
      · have hsame : (o.name, o.value.debug) = (e.name, e.value.debug) := h.symm
        rw [if_pos h, if_neg (by simpa [hsome] using hsame)]
      · have hother : (o.name, o.value.debug) ≠ (e.name, e.value.debug) := Ne.symm h
        rw [if_neg h, if_pos (by simpa [hsome, -not_and, not_and_or] using hother), List.map_cons]

theorem changes_eq_differences (before after : Scope) :
    changes before after = differences before.oldestFirst after.oldestFirst :=
  filter_zipIdx_eq before.oldestFirst after.oldestFirst 0

/-! ## The variables of one name -/

/-- The variables of a name among others, the oldest first. -/
def named (n : String) (entries : List Entry) : List Entry :=
  entries.reverse.filter fun e => e.name = n

theorem named_append (n : String) (declared kept : List Entry) :
    named n (declared ++ kept) = named n kept ++ named n declared := by
  rw [named, List.reverse_append, List.filter_append, named, named]

theorem find?_eq_getLast? (s : Scope) (n : String) : s.find? n = (named n s.entries).getLast? := by
  rw [Scope.find?, named, List.filter_reverse, List.getLast?_reverse, List.head?_filter]

theorem keeps_named (n : String) {old new : List Entry} (h : List.Forall₂ Entry.Keeps old new) :
    List.Forall₂ Entry.Keeps (named n old) (named n new) := by
  refine List.rel_filter (fun e e' hkeeps => ?_) (List.rel_reverse h)
  show decide (e.name = n) = true ↔ decide (e'.name = n) = true
  rw [hkeeps.name]

/-- The differences of one name are those among its variables. -/
theorem filter_differences (n : String) {old new : List Entry}
    (h : List.Forall₂ Entry.Keeps old new) :
    (differences old new).filter (fun e => e.name = n) =
      differences (old.filter fun e => e.name = n) (new.filter fun e => e.name = n) := by
  induction h with
  | nil => rfl
  | @cons o e old new hkeeps _ ih =>
    by_cases hn : o.name = n
    · have hn' : e.name = n := hkeeps.name.trans hn
      rw [List.filter_cons_of_pos (by simpa using hn), List.filter_cons_of_pos (by simpa using hn'),
        differences, differences]
      split
      · exact ih
      · rw [List.filter_cons_of_pos (by simpa using hn'), ih]
    · have hn' : e.name ≠ n := fun h => hn (hkeeps.name.symm.trans h)
      rw [List.filter_cons_of_neg (by simpa using hn), List.filter_cons_of_neg (by simpa using hn'),
        differences]
      split
      · exact ih
      · rw [List.filter_cons_of_neg (by simpa using hn'), ih]

/-- A constant outlives all changes to its name, and a variable takes the last value. -/
theorem settleAll_some (es : List Entry) (isConstant : Bool) (v : Value) :
    settleAll es (some (isConstant, v)) =
      some (isConstant, if isConstant then v else (es.getLast?.map (·.value)).getD v) := by
  induction es generalizing v with
  | nil => cases isConstant <;> rfl
  | cons e rest ih =>
    show settleAll rest (some (settle e (some (isConstant, v)))) = _
    cases isConstant with
    | true => exact ih v
    | false =>
      refine (ih e.value).trans ?_
      cases hrest : rest.getLast? <;> simp [List.getLast?_cons, hrest]

/-! ## Main statement -/

/-- The visible variable of a name is an old one that is written as before, although its value is
another one or a hidden variable of the name is written differently. -/
def Misread (before after : Scope) (n : String) : Prop :=
  ∃ old new, before.find? n = some old ∧ after.find? n = some new ∧
    after.containsSince before.size n = false ∧ old.isConstant = false ∧
    new.value.debug = old.value.debug ∧
    (new.value ≠ old.value ∨ ∃ e ∈ changes before (after.truncate before.size), e.name = n)

/-- The variable that a name stands for at last is as constant as the one that it stood for at
first, and a constant has its value. A name that stood for nothing stood first for the oldest
variable that was declared. -/
def KeepsKind (before after : Scope) (n : String) : Prop :=
  ∀ first last, (before.find? n).or (after.oldestFirst.find? fun e => e.name = n) = some first →
    after.find? n = some last →
    last.isConstant = first.isConstant ∧ (first.isConstant → last.value = first.value)

/-- What was declared since and what is left of the old variables, read off the scope. -/
theorem truncate_of_entries {before after : Scope} {declared kept : List Entry}
    (h : after.entries = declared ++ kept) (hlength : before.entries.length = kept.length) :
    after.truncate before.size = ⟨kept⟩ ∧
      ∀ n, after.containsSince before.size n = declared.any fun e => e.name = n := by
  have hsize : after.size - before.size = declared.length := by
    rw [Scope.size, Scope.size, h, List.length_append, hlength]
    omega
  refine ⟨?_, fun n => ?_⟩
  · rw [Scope.truncate, hsize, h, List.drop_left]
  · rw [Scope.containsSince, hsize, h, List.take_left]

/-- The last difference between old variables, the last of which is not misread. -/
theorem getLast?_differences {old new : List Entry} {o k : Entry}
    (hlength : old.length = new.length)
    (hread : LooksLike k o → k.value = o.value ∧ differences (old ++ [o]) (new ++ [k]) = []) :
    ((differences (old ++ [o]) (new ++ [k])).getLast?.map (·.value)).getD o.value = k.value := by
  by_cases h : LooksLike k o
  · obtain ⟨hvalue, hnone⟩ := hread h
    rw [hnone, hvalue]
    rfl
  · rw [differences_append hlength, differences, if_neg h, List.getLast?_append]
    rfl

/-- Changes to one name: the first of its variables decides whether it is a constant, and a constant
keeps that value and a variable has the last one. -/
theorem settleAll_differences {old kept declared : List Entry} {first last : Entry}
    (hlength : old.length = kept.length)
    (hfirst : old.getLast?.or (kept ++ declared).head? = some first)
    (hlast : (kept ++ declared).getLast? = some last)
    (hread : declared = [] → first.isConstant = false → LooksLike last first →
      last.value = first.value ∧ differences old kept = []) :
    settleAll (differences old kept ++ declared)
        (old.getLast?.map fun e => (e.isConstant, e.value)) =
      some (first.isConstant, if first.isConstant then first.value else last.value) := by
  rcases old.eq_nil_or_concat' with rfl | ⟨old, o, rfl⟩
  · -- The name stood for nothing, so its first variable is one that was declared.
    obtain rfl : kept = [] := List.eq_nil_of_length_eq_zero hlength.symm
    cases declared with
    | nil => cases hlast
    | cons f rest =>
      obtain rfl : f = first := by simpa using hfirst
      have hvalue : (rest.getLast?.map (·.value)).getD f.value = last.value := by
        rw [List.nil_append, List.getLast?_cons, Option.some.injEq] at hlast
        rw [← hlast]
        cases rest.getLast? <;> rfl
      show settleAll rest (some (f.isConstant, f.value)) = _
      rw [settleAll_some, hvalue]
  · obtain rfl : o = first := by simpa using hfirst
    rw [List.getLast?_concat, Option.map_some, settleAll_some]
    cases hconstant : o.isConstant with
    | true => rfl
    | false =>
      simp only [Bool.false_eq_true, if_false]
      -- The last variable is an old one, or one that was declared and comes with the changes.
      rcases declared.eq_nil_or_concat' with rfl | ⟨declared, l, rfl⟩
      · rcases kept.eq_nil_or_concat' with rfl | ⟨kept, k, rfl⟩
        · simp at hlength
        · obtain rfl : k = last := by simpa using hlast
          rw [List.append_nil, getLast?_differences (by simpa using hlength) (hread rfl hconstant)]
      · obtain rfl : l = last := by simpa [← List.append_assoc] using hlast
        rw [← List.append_assoc, List.getLast?_concat]
        rfl

/-- The variables of a name in a scope that extends another one: those that are left of the old
ones, and those that were declared since. -/
structure Parts (before after : Scope) (n : String) (kept declared : List Entry) : Prop where
  keeps : List.Forall₂ Entry.Keeps (named n before.entries) kept
  named_after : named n after.entries = kept ++ declared
  all : (changes before after).filter (fun e => e.name = n) =
    differences (named n before.entries) kept ++ declared
  old : (changes before (after.truncate before.size)).filter (fun e => e.name = n) =
    differences (named n before.entries) kept
  since : declared = [] → after.containsSince before.size n = false

theorem exists_parts {before after : Scope} (h : before.Extends after) (n : String) :
    ∃ kept declared, Parts before after n kept declared := by
  obtain ⟨declared, kept, hafter, hkept⟩ := h
  have hlength : before.entries.length = kept.length := hkept.length_eq
  obtain ⟨htruncate, hsince⟩ := truncate_of_entries hafter hlength
  have hold : (changes before ⟨kept⟩).filter (fun e => e.name = n) =
      differences (named n before.entries) (named n kept) := by
    rw [changes_eq_differences]
    exact filter_differences n (List.rel_reverse hkept)
  refine ⟨named n kept, named n declared, keeps_named n hkept, ?_, ?_, ?_, fun hnone => ?_⟩
  · rw [hafter, named_append]
  · rw [← hold, changes_eq_differences, changes_eq_differences, Scope.oldestFirst,
      Scope.oldestFirst, Scope.oldestFirst, hafter, List.reverse_append,
      ← List.append_nil before.entries.reverse, differences_append (by simpa using hlength),
      differences_nil, List.append_nil, List.filter_append]
    rfl
  · rw [htruncate, hold]
  · rw [hsince, List.any_eq_false]
    simpa [named, List.filter_eq_nil_iff] using hnone

/-- A variable that is old and looks as before has kept its value, and so have the hidden ones. -/
theorem Parts.eq_of_looksLike {before after : Scope} {n : String} {kept : List Entry}
    (h : Parts before after n kept []) (hread : ¬ Misread before after n) {old new : Entry}
    (hold : before.find? n = some old) (hnew : after.find? n = some new)
    (hconstant : old.isConstant = false) (hlooks : LooksLike new old) :
    new.value = old.value ∧ differences (named n before.entries) kept = [] := by
  by_contra hnot
  refine hread ⟨old, new, hold, hnew, h.since rfl, hconstant, (Prod.mk.inj hlooks).2, ?_⟩
  by_cases hvalue : new.value = old.value
  · have hsome : differences (named n before.entries) kept ≠ [] := fun hnil => hnot ⟨hvalue, hnil⟩
    rw [← h.old] at hsome
    obtain ⟨e, he⟩ := List.exists_mem_of_ne_nil _ hsome
    rw [List.mem_filter, decide_eq_true_eq] at he
    exact .inr ⟨e, he⟩
  · exact .inl hvalue

/-- What a name shows after the changes are merged. -/
theorem shown?_applyAll_changes {before after : Scope} (h : before.Extends after) {n : String}
    (hread : ¬ Misread before after n) {first last : Entry}
    (hfirst : (before.find? n).or (after.oldestFirst.find? fun e => e.name = n) = some first)
    (hlast : after.find? n = some last) :
    (applyAll before (changes before after)).shown? n =
      some (first.isConstant, if first.isConstant then first.value else last.value) := by
  obtain ⟨kept, declared, hparts⟩ := exists_parts h n
  have hvisible : (kept ++ declared).getLast? = some last := by
    rw [← hparts.named_after, ← find?_eq_getLast?, hlast]
  rw [shown?_applyAll, hparts.all, Scope.shown?, find?_eq_getLast?]
  refine settleAll_differences hparts.keeps.length_eq ?_ hvisible ?_
  · rw [← find?_eq_getLast?, ← hparts.named_after, named, List.head?_filter]
    exact hfirst
  · rintro rfl hconstant hlooks
    -- Nothing was declared, so the name stood for a variable that is visible still.
    have hold : before.find? n = some first := by
      cases hnone : before.find? n with
      | some o => rwa [hnone] at hfirst
      | none =>
        have hkept : kept = [] := by
          rw [find?_eq_getLast?, List.getLast?_eq_none_iff] at hnone
          rw [← List.forall₂_nil_left_iff (R := Entry.Keeps), ← hnone]
          exact hparts.keeps
        rw [hkept] at hvisible
        cases hvisible
    exact hparts.eq_of_looksLike hread hold hlast hconstant hlooks

/-- A name that stands for nothing in the end has never stood for anything. -/
theorem shown?_applyAll_changes_of_none {before after : Scope} (h : before.Extends after)
    {n : String} (hlast : after.find? n = none) :
    (applyAll before (changes before after)).shown? n = none := by
  obtain ⟨kept, declared, hparts⟩ := exists_parts h n
  rw [find?_eq_getLast?, List.getLast?_eq_none_iff, hparts.named_after,
    List.append_eq_nil_iff] at hlast
  obtain ⟨rfl, rfl⟩ := hlast
  have hbefore : named n before.entries = [] := (List.forall₂_nil_right_iff.mp hparts.keeps)
  rw [shown?_applyAll, hparts.all, Scope.shown?, find?_eq_getLast?, hbefore]
  rfl

/-- Merging the changes shows a name as it is after the evaluation if and only if the evaluation has
kept its kind. -/
theorem shown?_applyAll_changes_iff {before after : Scope} (h : before.Extends after) {n : String}
    (hread : ¬ Misread before after n) :
    (applyAll before (changes before after)).shown? n = after.shown? n ↔
      KeepsKind before after n := by
  cases hlast : after.find? n with
  | none =>
    rw [shown?_applyAll_changes_of_none h hlast, Scope.shown?, hlast]
    refine ⟨fun _ first last _ hlast' => ?_, fun _ => rfl⟩
    rw [hlast] at hlast'
    cases hlast'
  | some last =>
    cases hfirst : (before.find? n).or (after.oldestFirst.find? fun e => e.name = n) with
    | none =>
      -- A name that stands for something in the end has stood for something first.
      rw [Option.or_eq_none_iff, Scope.oldestFirst, List.find?_eq_none] at hfirst
      have hmem : last ∈ after.entries := List.mem_of_find?_eq_some hlast
      exact absurd (Scope.name_of_find? hlast) (by simpa using hfirst.2 last (by simpa using hmem))
    | some first =>
      rw [shown?_applyAll_changes h hread hfirst hlast, Scope.shown?, hlast, Option.map_some,
        Option.some.injEq, Prod.mk.injEq]
      constructor
      · rintro ⟨hconstant, hvalue⟩ first' last' hfirst' hlast'
        rw [hfirst] at hfirst'
        rw [hlast] at hlast'
        cases hfirst'
        cases hlast'
        refine ⟨hconstant.symm, fun hc => ?_⟩
        rw [if_pos hc] at hvalue
        exact hvalue.symm
      · intro hkind
        obtain ⟨hconstant, hvalue⟩ := hkind first last hfirst hlast
        refine ⟨hconstant.symm, ?_⟩
        split
        · rename_i hc
          exact (hvalue hc).symm
        · rfl

end Context
end ScriptSession
