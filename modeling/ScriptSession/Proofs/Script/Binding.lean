import ScriptSession.Proofs.Artifact.Layering
import ScriptSession.Proofs.Script.Visible

/-!
# Binding names

Names are bound in a scope one after the other. A name that is bound again takes the later value,
and a constant of the scope takes none. All of it together gives the visible variable of every bound
name its last value and appends the names that are new, each of them once
(`Scope.oldestFirst_bindAll`). So to bind the same names once more changes nothing
(`Scope.bindAll_bindAll`).
-/

namespace ScriptSession
namespace Script

open Artifact (newcomers mem_map_newcomers newcomers_concat nodup_map_newcomers)

/-! ## The last value of a name -/

/-- The last value that bindings give a name. -/
def lastGiven? (bindings : List (String × Value)) (name : String) : Option Value :=
  (bindings.reverse.find? fun b => b.1 = name).map (·.2)

theorem lastGiven?_concat (bindings : List (String × Value)) (b : String × Value) (n : String) :
    lastGiven? (bindings ++ [b]) n = if b.1 = n then some b.2 else lastGiven? bindings n := by
  unfold lastGiven?
  rw [List.reverse_append, List.reverse_singleton, List.singleton_append, List.find?_cons]
  by_cases h : b.1 = n
  · simp [h]
  · simp [h]

theorem lastGiven?_append (bindings more : List (String × Value)) (n : String) :
    lastGiven? (bindings ++ more) n = (lastGiven? more n).or (lastGiven? bindings n) := by
  unfold lastGiven?
  rw [List.reverse_append, List.find?_append, Option.map_or]

theorem lastGiven?_eq_none_iff {bindings : List (String × Value)} {n : String} :
    lastGiven? bindings n = none ↔ n ∉ bindings.map (·.1) := by
  unfold lastGiven?
  rw [Option.map_eq_none_iff, List.find?_eq_none]
  simp
  grind

/-- Among names that stand once there is no later value. -/
theorem lastGiven?_of_nodup {bindings : List (String × Value)} (h : (bindings.map (·.1)).Nodup)
    (n : String) : lastGiven? bindings n = Value.getField n bindings := by
  induction bindings with
  | nil => rfl
  | cons b rest ih =>
    rw [List.map_cons, List.nodup_cons] at h
    rw [← List.singleton_append, lastGiven?_append, ih h.2]
    unfold Value.getField
    rw [List.singleton_append, List.find?_cons]
    by_cases hb : b.1 = n
    · -- The name stands in front, so it does not stand behind.
      have hnone : rest.find? (fun b => b.1 = n) = none := by
        rw [List.find?_eq_none]
        intro b' hb' heq
        apply h.1
        rw [hb, ← of_decide_eq_true heq]
        exact List.mem_map_of_mem hb'
      simp [hnone, hb, lastGiven?]
    · simp [hb, lastGiven?]

namespace Entry

/-- A variable after names were bound in front of it. A constant is as it was. -/
def rebound (bindings : List (String × Value)) (e : Entry) : Entry :=
  if e.isConstant then e else { e with value := (lastGiven? bindings e.name).getD e.value }

variable (bindings : List (String × Value)) (e : Entry)

@[simp] theorem name_rebound : (e.rebound bindings).name = e.name := by
  unfold rebound
  split <;> rfl

@[simp] theorem isConstant_rebound : (e.rebound bindings).isConstant = e.isConstant := by
  unfold rebound
  split <;> rfl

theorem rebound_of_none (h : lastGiven? bindings e.name = none) : e.rebound bindings = e := by
  unfold rebound
  rw [h]
  split <;> rfl

/-- A binding does not change the variables of other names. -/
theorem rebound_of_ne {e : Entry} {b : String × Value} (h : b.1 ≠ e.name) :
    e.rebound [b] = e := by
  apply rebound_of_none
  exact (lastGiven?_concat [] b e.name).trans (if_neg h)

theorem rebound_concat (b : String × Value) :
    e.rebound (bindings ++ [b]) = (e.rebound bindings).rebound [b] := by
  unfold rebound
  by_cases hconstant : e.isConstant
  · simp [hconstant]
  · have hone : lastGiven? [b] e.name = if b.1 = e.name then some b.2 else none :=
      lastGiven?_concat [] b e.name
    simp only [hconstant, Bool.false_eq_true, if_false, lastGiven?_concat, hone]
    split <;> rfl

theorem rebound_rebound : (e.rebound bindings).rebound bindings = e.rebound bindings := by
  unfold rebound
  by_cases hconstant : e.isConstant
  · simp [hconstant]
  · simp only [hconstant, Bool.false_eq_true, if_false]
    cases lastGiven? bindings e.name <;> rfl

end Entry

namespace Scope

/-! ## One binding -/

/-- The visible variable of the name takes the value, or there is a new one. -/
theorem oldestFirst_bind (s : Scope) (b : String × Value) :
    (s.bind b.1 b.2).oldestFirst =
      if b.1 ∈ s.oldestFirst.map (·.name) then mapVisible (Entry.rebound [b]) s.oldestFirst
      else s.oldestFirst ++ [Entry.variable_ b.1 b.2] := by
  unfold bind
  cases hfind : s.find? b.1 with
  | none =>
    rw [if_neg (find?_eq_none_iff.mp hfind)]
    exact List.reverse_cons ..
  | some old =>
    have hmem : b.1 ∈ s.oldestFirst.map (·.name) := by
      by_contra hnone
      rw [find?_eq_none_iff.mpr hnone] at hfind
      cases hfind
    have hone : ∀ n, lastGiven? [b] n = if b.1 = n then some b.2 else none :=
      lastGiven?_concat [] b
    have haltered : mapVisible (Entry.rebound [b]) s.oldestFirst =
        (alterIn b.1 (Entry.rebound [b]) s.entries).reverse := by
      rw [reverse_alterIn]
      apply mapVisible_congr
      intro e _
      split
      · rfl
      · rename_i hne
        exact Entry.rebound_of_ne (Ne.symm hne)
    have hname : old.name = b.1 := name_of_find? hfind
    rw [if_pos hmem, haltered]
    cases hconstant : old.isConstant with
    | true =>
      -- The visible variable is a constant, and binding leaves it alone.
      have hsame : alterIn b.1 (Entry.rebound [b]) s.entries = s.entries := by
        rw [alterIn_congr (g := fun e => e), alterIn_self]
        intro e he
        obtain rfl : old = e := Option.some.inj (hfind.symm.trans he)
        unfold Entry.rebound
        rw [if_pos hconstant]
      simp only [hconstant, if_true, hsame]
      rfl
    | false =>
      simp only [hconstant, Bool.false_eq_true, if_false]
      show (alterIn b.1 _ s.entries).reverse = _
      congr 1
      apply alterIn_congr
      intro e he
      obtain rfl : old = e := Option.some.inj (hfind.symm.trans he)
      unfold Entry.rebound
      rw [hconstant, if_neg Bool.false_ne_true, hone, if_pos hname.symm]
      rfl

theorem bindAll_concat (s : Scope) (bindings : List (String × Value)) (b : String × Value) :
    s.bindAll (bindings ++ [b]) = (s.bindAll bindings).bind b.1 b.2 := List.foldl_concat ..

/-! ## All bindings -/

/-- What is added for bindings to variables of some names: one variable for each of the new names,
in the order in which they are bound first. -/
def added (taken : List String) (bindings : List (String × Value)) : List Entry :=
  (newcomers (·.1) taken bindings).map fun b => (Entry.variable_ b.1 b.2).rebound bindings

section

variable (taken : List String) (bindings : List (String × Value))

theorem names_added :
    (added taken bindings).map (·.name) = (newcomers (·.1) taken bindings).map (·.1) := by
  unfold added
  rw [List.map_map]
  apply List.map_congr_left
  intro b _
  exact Entry.name_rebound ..

theorem mem_names_added (n : String) :
    n ∈ (added taken bindings).map (·.name) ↔ n ∉ taken ∧ n ∈ bindings.map (·.1) := by
  rw [names_added]
  exact mem_map_newcomers n

variable {taken bindings}

/-- A name that is there already gets a later value. -/
theorem added_concat_of_mem {b : String × Value} (h : b.1 ∈ taken ∨ b.1 ∈ bindings.map (·.1)) :
    added taken (bindings ++ [b]) = (added taken bindings).map (Entry.rebound [b]) := by
  have hold : ¬ (b.1 ∉ taken ∧ b.1 ∉ bindings.map (·.1)) := by
    rw [not_and_or, not_not, not_not]
    exact h
  unfold added
  rw [newcomers_concat, if_neg hold, List.append_nil, List.map_map]
  apply List.map_congr_left
  intro b' _
  exact Entry.rebound_concat ..

/-- A name that is new comes to the end. -/
theorem added_concat_of_new {b : String × Value} (htaken : b.1 ∉ taken)
    (hbindings : b.1 ∉ bindings.map (·.1)) :
    added taken (bindings ++ [b]) = added taken bindings ++ [Entry.variable_ b.1 b.2] := by
  unfold added
  rw [newcomers_concat, if_pos ⟨htaken, hbindings⟩, List.map_append]
  congr 1
  · apply List.map_congr_left
    intro b' hb'
    rw [Entry.rebound_concat]
    apply Entry.rebound_of_ne
    rw [Entry.name_rebound]
    rintro heq
    have hmem : b'.1 ∈ (newcomers (·.1) taken bindings).map (·.1) := List.mem_map_of_mem hb'
    apply hbindings
    rw [heq]
    exact ((mem_map_newcomers _).mp hmem).2
  · simp [Entry.rebound, Entry.variable_, lastGiven?_concat]

end

/-- The variables that were added have names of their own, so all of them are visible. -/
theorem mapVisible_append_added (f : Entry → Entry) (entries : List Entry)
    (bindings : List (String × Value)) :
    mapVisible f (mapVisible (Entry.rebound bindings) entries ++
        added (entries.map (·.name)) bindings) =
      mapVisible (fun e => f (e.rebound bindings)) entries ++
        (added (entries.map (·.name)) bindings).map f := by
  have hnodup : ((added (entries.map (·.name)) bindings).map (·.name)).Nodup := by
    rw [names_added]
    exact nodup_map_newcomers (·.1) _ bindings
  rw [mapVisible_append, mapVisible_mapVisible (Entry.name_rebound bindings),
    mapVisible_of_nodup hnodup]
  intro e he
  rw [names_mapVisible (Entry.name_rebound bindings)]
  exact ((mem_names_added _ bindings e.name).mp (List.mem_map_of_mem he)).1

/-- The bindings give the variables that are visible their last values and add the new names. -/
theorem oldestFirst_bindAll (s : Scope) (bindings : List (String × Value)) :
    (s.bindAll bindings).oldestFirst = mapVisible (Entry.rebound bindings) s.oldestFirst ++
      added (s.oldestFirst.map (·.name)) bindings := by
  -- Along the bindings: one more changes what is visible so far, or comes to the end.
  induction bindings using List.reverseRecOn with
  | nil =>
    have hsame : mapVisible (Entry.rebound []) s.oldestFirst = s.oldestFirst :=
      mapVisible_of_eq fun e _ => Entry.rebound_of_none [] e rfl
    rw [hsame]
    exact (List.append_nil _).symm
  | append_singleton bindings b ih =>
    have hmem : b.1 ∈ (s.bindAll bindings).oldestFirst.map (·.name) ↔
        b.1 ∈ s.oldestFirst.map (·.name) ∨ b.1 ∈ bindings.map (·.1) := by
      rw [ih, List.map_append, List.mem_append, names_mapVisible (Entry.name_rebound bindings),
        mem_names_added]
      tauto
    rw [bindAll_concat, oldestFirst_bind]
    split
    · rename_i hthere
      rw [ih, mapVisible_append_added, added_concat_of_mem (hmem.mp hthere)]
      congr 1
      apply mapVisible_congr
      intro e _
      exact (Entry.rebound_concat bindings e b).symm
    · rename_i hnew
      rw [hmem, not_or] at hnew
      rw [ih, added_concat_of_new hnew.1 hnew.2, List.append_assoc]
      congr 1
      apply mapVisible_congr
      intro e he
      rw [Entry.rebound_concat, Entry.rebound_of_ne]
      rw [Entry.name_rebound]
      intro heq
      apply hnew.1
      rw [heq]
      exact List.mem_map_of_mem he

/-- Binding the same names once more changes nothing. -/
theorem bindAll_bindAll (s : Scope) (bindings : List (String × Value)) :
    (s.bindAll bindings).bindAll bindings = s.bindAll bindings := by
  apply eq_of_oldestFirst
  -- No name is new, and every variable has its last value already.
  have hnone : added ((s.bindAll bindings).oldestFirst.map (·.name)) bindings = [] := by
    rw [← List.map_eq_nil_iff (f := (·.name)), List.eq_nil_iff_forall_not_mem]
    intro n hn
    rw [mem_names_added, oldestFirst_bindAll, List.map_append, List.mem_append, not_or,
      mem_names_added, names_mapVisible (Entry.name_rebound bindings)] at hn
    exact hn.1.2 ⟨hn.1.1, hn.2⟩
  have hadded : (added (s.oldestFirst.map (·.name)) bindings).map (Entry.rebound bindings) =
      added (s.oldestFirst.map (·.name)) bindings := by
    unfold added
    rw [List.map_map]
    apply List.map_congr_left
    intro b _
    exact Entry.rebound_rebound ..
  rw [oldestFirst_bindAll (s.bindAll bindings), hnone, List.append_nil, oldestFirst_bindAll,
    mapVisible_append_added, hadded]
  congr 1
  apply mapVisible_congr
  intro e _
  exact Entry.rebound_rebound ..

/-- A variable keeps all but its value, and that as well if it is a constant, if it is hidden, or if
its name is given no value. -/
theorem getElem?_bindAll (s : Scope) (bindings : List (String × Value)) {i : Nat} {e : Entry}
    (he : s.oldestFirst[i]? = some e) :
    ∃ v, (s.bindAll bindings).oldestFirst[i]? = some { e with value := v } ∧
      (e.isConstant ∨ lastGiven? bindings e.name = none ∨
        (∃ later ∈ s.oldestFirst.drop (i + 1), later.name = e.name) → v = e.value) := by
  have hlt : i < (mapVisible (Entry.rebound bindings) s.oldestFirst).length := by
    rw [length_mapVisible]
    exact (List.getElem?_eq_some_iff.mp he).1
  rw [oldestFirst_bindAll, List.getElem?_append_left hlt, getElem?_mapVisible, he, Option.map_some]
  split
  · exact ⟨e.value, rfl, fun _ => rfl⟩
  · rename_i hvisible
    unfold Entry.rebound
    by_cases hconstant : e.isConstant
    · rw [if_pos hconstant]
      exact ⟨e.value, rfl, fun _ => rfl⟩
    · rw [if_neg hconstant]
      refine ⟨_, rfl, ?_⟩
      rintro (h | hnone | h)
      · exact absurd h hconstant
      · rw [hnone, Option.getD_none]
      · exact absurd (List.mem_map.mpr h) hvisible

/-- The variables that are new can change, and each has the last value that its name was given. -/
theorem added_by_bindAll (s : Scope) (bindings : List (String × Value)) :
    ((s.bindAll bindings).oldestFirst.drop s.size).map
        (fun e => (e.name, e.isConstant, some e.value)) =
      (newcomers (·.1) (s.oldestFirst.map (·.name)) bindings).map
        (fun b => (b.1, false, lastGiven? bindings b.1)) := by
  have hsize : s.size = (mapVisible (Entry.rebound bindings) s.oldestFirst).length := by
    rw [length_mapVisible, oldestFirst, List.length_reverse, size]
  rw [oldestFirst_bindAll, hsize, List.drop_left]
  unfold added
  rw [List.map_map]
  apply List.map_congr_left
  intro b hb
  have hgiven : b.1 ∈ bindings.map (·.1) :=
    ((mem_map_newcomers b.1).mp (List.mem_map_of_mem hb)).2
  cases hlast : lastGiven? bindings b.1 with
  | none => exact absurd hgiven (lastGiven?_eq_none_iff.mp hlast)
  | some v => simp [Entry.rebound, Entry.variable_, hlast]

end Scope
end Script
end ScriptSession
