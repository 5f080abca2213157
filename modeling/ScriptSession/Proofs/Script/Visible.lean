import ScriptSession.Proofs.Script.Scopes

/-!
# Visible variables

A scope holds the variables of a name on top of each other, and only the latest of them is visible.
Here they are read the oldest first, so a variable is visible if no later one has its name
(`mapVisible`). To change the latest variable of a name is to change the visible one, at its place
(`reverse_alterIn`).
-/

namespace ScriptSession
namespace Script
namespace Scope

/-- Change those of some variables, the oldest first, that no later one of their name hides. -/
def mapVisible (f : Entry → Entry) : List Entry → List Entry
  | [] => []
  | e :: later => (if e.name ∈ later.map (·.name) then e else f e) :: mapVisible f later

section

variable {f g : Entry → Entry} {entries later : List Entry}

theorem getElem?_mapVisible (f : Entry → Entry) (entries : List Entry) (i : Nat) :
    (mapVisible f entries)[i]? = entries[i]?.map fun e =>
      if e.name ∈ (entries.drop (i + 1)).map (·.name) then e else f e := by
  induction entries generalizing i with
  | nil => rfl
  | cons e later ih =>
    cases i with
    | zero => rfl
    | succ i => exact ih i

theorem length_mapVisible (f : Entry → Entry) (entries : List Entry) :
    (mapVisible f entries).length = entries.length := by
  induction entries with
  | nil => rfl
  | cons e later ih => exact congrArg Nat.succ ih

theorem names_mapVisible (hf : ∀ e, (f e).name = e.name) :
    (mapVisible f entries).map (·.name) = entries.map (·.name) := by
  induction entries with
  | nil => rfl
  | cons e later ih =>
    rw [mapVisible, List.map_cons, ih, List.map_cons]
    split
    · rfl
    · rw [hf]

theorem mapVisible_congr (h : ∀ e ∈ entries, f e = g e) :
    mapVisible f entries = mapVisible g entries := by
  induction entries with
  | nil => rfl
  | cons e later ih =>
    rw [mapVisible, mapVisible, h e List.mem_cons_self,
      ih fun e' he' => h e' (List.mem_cons_of_mem e he')]

theorem mapVisible_of_eq (h : ∀ e ∈ entries, f e = e) : mapVisible f entries = entries := by
  induction entries with
  | nil => rfl
  | cons e later ih =>
    rw [mapVisible, h e List.mem_cons_self, ite_self,
      ih fun e' he' => h e' (List.mem_cons_of_mem e he')]

theorem mapVisible_mapVisible (hg : ∀ e, (g e).name = e.name) :
    mapVisible f (mapVisible g entries) = mapVisible (fun e => f (g e)) entries := by
  induction entries with
  | nil => rfl
  | cons e later ih =>
    rw [mapVisible, mapVisible, mapVisible, names_mapVisible hg, ih]
    by_cases h : e.name ∈ later.map (·.name)
    · simp [h]
    · simp [h, hg]

/-- Variables hide none that have other names. -/
theorem mapVisible_append (h : ∀ e ∈ later, e.name ∉ entries.map (·.name)) :
    mapVisible f (entries ++ later) = mapVisible f entries ++ mapVisible f later := by
  induction entries with
  | nil => rfl
  | cons e rest ih =>
    have hlater : e.name ∉ later.map (·.name) := by
      intro hmem
      obtain ⟨e', he', hname⟩ := List.mem_map.mp hmem
      apply h e' he'
      rw [hname]
      exact List.mem_cons_self
    have hrest : mapVisible f (rest ++ later) = mapVisible f rest ++ mapVisible f later :=
      ih fun e' he' hmem => h e' he' (List.mem_cons_of_mem _ hmem)
    rw [List.cons_append, mapVisible, mapVisible, hrest, List.cons_append]
    simp only [List.map_append, List.mem_append, or_iff_left hlater]

theorem mapVisible_of_nodup (h : (entries.map (·.name)).Nodup) :
    mapVisible f entries = entries.map f := by
  induction entries with
  | nil => rfl
  | cons e later ih =>
    rw [List.map_cons, List.nodup_cons] at h
    rw [mapVisible, if_neg h.1, ih h.2, List.map_cons]

/-- One more variable hides those of its name. -/
theorem mapVisible_concat (f : Entry → Entry) (entries : List Entry) (e : Entry) :
    mapVisible f (entries ++ [e]) =
      mapVisible (fun x => if x.name = e.name then x else f x) entries ++ [f e] := by
  induction entries with
  | nil => rfl
  | cons x rest ih =>
    rw [List.cons_append, mapVisible, mapVisible, ih, List.cons_append]
    simp only [List.map_append, List.mem_append, List.map_cons, List.map_nil, List.mem_singleton]
    by_cases h : x.name ∈ rest.map (·.name)
    · simp [h]
    · simp [h]

end

/-- To change the latest variable of a name is to change the visible one. -/
theorem reverse_alterIn (name : String) (f : Entry → Entry) (entries : List Entry) :
    (alterIn name f entries).reverse =
      mapVisible (fun e => if e.name = name then f e else e) entries.reverse := by
  induction entries with
  | nil => rfl
  | cons e rest ih =>
    rw [alterIn, List.reverse_cons, mapVisible_concat]
    by_cases he : e.name = name
    · -- The latest variable is the one that is changed, and the older ones of its name stay.
      rw [if_pos he, if_pos he, List.reverse_cons, mapVisible_of_eq]
      intro x _
      by_cases hx : x.name = name
      · simp [he, hx]
      · simp [hx]
    · rw [if_neg he, if_neg he, List.reverse_cons, ih]
      congr 1
      apply mapVisible_congr
      intro x _
      by_cases hx : x.name = name
      · have hne : x.name ≠ e.name := fun h => he (h ▸ hx)
        simp [hx, Ne.symm he]
      · simp [hx]

/-! ## The latest variable of a name -/

/-- What becomes of the variable that a name stands for is all that matters. -/
theorem alterIn_congr {name : String} {f g : Entry → Entry} {entries : List Entry}
    (h : ∀ e, entries.find? (fun e => e.name = name) = some e → f e = g e) :
    alterIn name f entries = alterIn name g entries := by
  induction entries with
  | nil => rfl
  | cons e rest ih =>
    rw [alterIn, alterIn]
    split
    · rename_i he
      rw [h e (by simp [he])]
    · rename_i he
      rw [ih fun e' he' => h e' (by simpa [he] using he')]

theorem alterIn_self (name : String) (entries : List Entry) :
    alterIn name (fun e => e) entries = entries := by
  induction entries with
  | nil => rfl
  | cons e rest ih => rw [alterIn, ih, ite_self]

theorem find?_eq_none_iff {s : Scope} {n : String} :
    s.find? n = none ↔ n ∉ s.oldestFirst.map (·.name) := by
  unfold find? oldestFirst
  simp

theorem eq_of_oldestFirst {s t : Scope} (h : s.oldestFirst = t.oldestFirst) : s = t := by
  obtain ⟨entries⟩ := s
  obtain ⟨entries'⟩ := t
  exact congrArg Scope.mk (List.reverse_injective h)

end Scope
end Script
end ScriptSession
