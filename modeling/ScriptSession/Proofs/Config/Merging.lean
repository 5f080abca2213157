import Mathlib.Data.List.Nodup
import ScriptSession.Config.Layers

/-!
# Merging layers

What the merged tree holds at a path of names, from what each layer says of that path. A layer says
something where it holds a value that is no empty table, and it hides what was there where it holds
something else than a table on the way. Main statement: the node of the merged tree is what the
words of the layers come to one after the other (`node_overlaid`, `node_onTop`), so that the last
word counts unless it is a table, which is merged (`node_layers`).
-/

namespace ScriptSession

/-- What a tree holds at a path of names. What is not there is an empty table. -/
def Toml.Value.node : List String → Toml.Value → Toml.Value
  | [], v => v
  | name :: path, v => node path ((v.field? name).getD (.table []))

namespace Config

open Toml (Value)

/-! ## Words -/

/-- What a tree says of a path: a value, or that what was there counts no more, since something
else than a table is in the way. -/
inductive Word where
  | gives (v : Value)
  | hides

/-- What a tree says of a path, from the first word to the last one. -/
def words : List String → Value → List Word
  | [], .table [] => []
  | [], v => [.gives v]
  | name :: path, .table fields => fields.flatMap fun f => if f.1 = name then words path f.2 else []
  | _ :: _, _ => [.hides]

/-- A node after a word. -/
def Word.onto : Value → Word → Value
  | old, .gives v => overlaid old v
  | _, .hides => .table []

/-- What a layer says of a path. -/
def spoken (path : List String) (layer : List (String × Value)) : List Word :=
  layer.flatMap fun e => words path (atPath (keyPath e.1) e.2)

/-- The last word of the highest layer that says anything of a path. The highest layer is the first
one here. -/
def heard (path : List String) (layers : List (List (String × Value))) : Option Word :=
  layers.findSome? fun layer => (spoken path layer).getLast?

/-! ## One value over another one -/

/-- The value of a field; an empty table when there is none. -/
def entryOf (name : String) (fields : List (String × Value)) : Value :=
  ((fields.find? fun f => f.1 = name).map (·.2)).getD (.table [])

variable {name other : String} {path : List String} {old v : Value}
  {fields : List (String × Value)} {layer : List (String × Value)}

@[simp] theorem node_empty (path : List String) : Value.node path (.table []) = .table [] := by
  induction path with
  | nil => rfl
  | cons name path ih => exact ih

theorem node_cons (name : String) (path : List String) (v : Value) :
    v.node (name :: path) = (entryOf name (entriesOf v)).node path := by
  cases v <;> rfl

theorem overlaid_table (old : Value) (hne : fields ≠ []) :
    overlaid old (.table fields) = .table (mergeFields (entriesOf old) fields) := by
  cases fields with
  | nil => exact absurd rfl hne
  | cons f fields => rfl

theorem find?_setEntry_self (name : String) (v : Value) (fields : List (String × Value)) :
    ((setEntry name v fields).find? fun f => f.1 = name) = some (name, v) := by
  induction fields with
  | nil => simp [setEntry]
  | cons f fields ih =>
    rw [setEntry]
    by_cases hf : f.1 = name
    · simp [hf]
    · simp [hf, ih]

theorem find?_setEntry_of_ne (v : Value) (fields : List (String × Value)) (hne : other ≠ name) :
    ((setEntry other v fields).find? fun f => f.1 = name) = fields.find? fun f => f.1 = name := by
  induction fields with
  | nil => simp [setEntry, hne]
  | cons f fields ih =>
    rw [setEntry]
    by_cases hf : f.1 = other
    · rw [if_pos hf, List.find?_cons_of_neg (by simpa using hne),
        List.find?_cons_of_neg (by simpa [hf] using hne)]
    · rw [if_neg hf, List.find?_cons, List.find?_cons, ih]

@[simp] theorem entryOf_setEntry_self (name : String) (v : Value) (fields : List (String × Value)) :
    entryOf name (setEntry name v fields) = v := by
  rw [entryOf, find?_setEntry_self]
  rfl

theorem entryOf_setEntry_of_ne (v : Value) (fields : List (String × Value)) (hne : other ≠ name) :
    entryOf name (setEntry other v fields) = entryOf name fields := by
  rw [entryOf, find?_setEntry_of_ne v fields hne, entryOf]

theorem mergeFields_cons (old : List (String × Value)) (f : String × Value)
    (fields : List (String × Value)) :
    mergeFields old (f :: fields) =
      mergeFields (setEntry f.1 (overlaid (entryOf f.1 old) f.2) old) fields := rfl

/-- A node below a field of merged fields, from what nodes below the field come to. -/
theorem node_entryOf_mergeFields (old fields : List (String × Value))
    (h : ∀ old v : Value,
      (overlaid old v).node path = (words path v).foldl Word.onto (old.node path)) :
    (entryOf name (mergeFields old fields)).node path =
      (fields.flatMap fun f => if f.1 = name then words path f.2 else []).foldl Word.onto
        ((entryOf name old).node path) := by
  induction fields generalizing old with
  | nil => rfl
  | cons f fields ih =>
    rw [mergeFields_cons, ih, List.flatMap_cons, List.foldl_append]
    by_cases hf : f.1 = name
    · rw [if_pos hf, hf, entryOf_setEntry_self, h]
    · rw [if_neg hf, entryOf_setEntry_of_ne _ _ hf]
      rfl

/-- A node of a value over another one: the words of the one over the node of the other one. -/
theorem node_overlaid (path : List String) (old v : Value) :
    (overlaid old v).node path = (words path v).foldl Word.onto (old.node path) := by
  induction path generalizing old v with
  | nil =>
    match v with
    | .table [] => rfl
    | .table (_ :: _) | .text _ | .int _ | .float _ | .bool _ | .datetime _ | .array _ => rfl
  | cons name path ih =>
    cases v with
    | table fields =>
      cases fields with
      | nil => rfl
      | cons f fields =>
        rw [overlaid_table old (List.cons_ne_nil f fields), node_cons, node_cons]
        exact node_entryOf_mergeFields _ _ ih
    | _ => exact node_empty path

/-! ## Layers over one another -/

theorem node_onTop (path : List String) (below : Value) (layer : List (String × Value)) :
    (onTop below layer).node path = (spoken path layer).foldl Word.onto (below.node path) := by
  induction layer generalizing below with
  | nil => rfl
  | cons e layer ih =>
    have hcons : onTop below (e :: layer) =
        onTop (overlaid below (atPath (keyPath e.1) e.2)) layer := rfl
    have hspoken : spoken path (e :: layer) =
        words path (atPath (keyPath e.1) e.2) ++ spoken path layer := List.flatMap_cons
    rw [hcons, ih, hspoken, List.foldl_append, node_overlaid]

theorem node_foldl_onTop (path : List String) (below : Value)
    (layers : List (List (String × Value))) :
    (layers.foldl onTop below).node path =
      (layers.flatMap (spoken path)).foldl Word.onto (below.node path) := by
  induction layers generalizing below with
  | nil => rfl
  | cons layer layers ih =>
    rw [List.foldl_cons, ih, node_onTop, List.flatMap_cons, List.foldl_append]

/-- The last word of layers, the highest one last, is the one that is heard. -/
theorem getLast?_flatMap_spoken (path : List String) (layers : List (List (String × Value))) :
    (layers.flatMap (spoken path)).getLast? = heard path layers.reverse := by
  induction layers with
  | nil => rfl
  | cons layer layers ih =>
    rw [List.flatMap_cons, List.getLast?_append, ih, heard, heard, List.reverse_cons,
      List.findSome?_append, List.findSome?_singleton]

/-- What the last word leaves: nothing where it hides or there is none, and a value over whatever
the other words left where it says one. -/
def Leaves (node : Value) : Option Word → Prop
  | some (.gives v) => ∃ old, node = overlaid old v
  | some .hides | none => node = .table []

/-- The node that layers leave, the highest one first. -/
theorem node_layers (path : List String) (layers : List (List (String × Value))) :
    Leaves ((layers.reverse.foldl onTop (.table [])).node path) (heard path layers) := by
  have hheard := getLast?_flatMap_spoken path layers.reverse
  rw [List.reverse_reverse] at hheard
  rw [node_foldl_onTop, node_empty, ← hheard]
  rcases List.eq_nil_or_concat (layers.reverse.flatMap (spoken path)) with hnil | ⟨front, w, hlast⟩
  · rw [hnil]
    rfl
  · rw [hlast, List.concat_eq_append, List.getLast?_concat, List.foldl_append]
    cases w with
    | gives v => exact ⟨_, rfl⟩
    | hides => rfl

/-- An empty table is no word. -/
theorem not_gives_empty (path : List String) (v : Value) : .gives (.table []) ∉ words path v := by
  induction path generalizing v with
  | nil =>
    match v with
    | .table [] => exact List.not_mem_nil
    | .table (_ :: _) | .text _ | .int _ | .float _ | .bool _ | .datetime _ | .array _ =>
      simp [words]
  | cons name path ih =>
    cases v with
    | table fields =>
      rw [words, List.mem_flatMap]
      rintro ⟨f, -, hf⟩
      split at hf
      · exact ih f.2 hf
      · cases hf
    | _ => simp [words]

theorem not_heard_empty (path : List String) (layers : List (List (String × Value))) :
    heard path layers ≠ some (.gives (.table [])) := by
  intro h
  obtain ⟨layer, -, hlast⟩ := List.exists_of_findSome?_eq_some h
  obtain ⟨e, -, hmem⟩ := List.mem_flatMap.mp (List.mem_of_getLast? hlast)
  exact not_gives_empty _ _ hmem

/-! ## Names -/

/-- A value that, if it is a table, has every name once. -/
def HasNamesOnce (v : Value) : Prop := ∀ fields, v = .table fields → (fields.map (·.1)).Nodup

theorem hasNamesOnce_empty : HasNamesOnce (.table []) := by
  rintro fields ⟨⟩
  exact List.nodup_nil

theorem map_fst_setEntry (name : String) (v : Value) (fields : List (String × Value)) :
    (setEntry name v fields).map (·.1) =
      if name ∈ fields.map (·.1) then fields.map (·.1) else fields.map (·.1) ++ [name] := by
  induction fields with
  | nil => rfl
  | cons f fields ih =>
    rw [setEntry]
    by_cases hf : f.1 = name
    · simp [hf]
    · have hne : ¬ name = f.1 := fun heq => hf heq.symm
      rw [if_neg hf, List.map_cons, ih]
      by_cases hmem : name ∈ fields.map (·.1) <;> simp [hne, hmem]

theorem nodup_setEntry (name : String) (v : Value) (h : (fields.map (·.1)).Nodup) :
    ((setEntry name v fields).map (·.1)).Nodup := by
  rw [map_fst_setEntry]
  split
  · exact h
  · next hnew =>
    exact List.Nodup.append h (List.nodup_singleton _) (List.disjoint_singleton.mpr hnew)

theorem nodup_mergeFields (fields : List (String × Value)) {old : List (String × Value)}
    (h : (old.map (·.1)).Nodup) : ((mergeFields old fields).map (·.1)).Nodup := by
  induction fields generalizing old with
  | nil => exact h
  | cons f fields ih =>
    rw [mergeFields_cons]
    exact ih (nodup_setEntry f.1 _ h)

theorem hasNamesOnce_overlaid (v : Value) (h : HasNamesOnce old) :
    HasNamesOnce (overlaid old v) := by
  have hold : ((entriesOf old).map (·.1)).Nodup := by
    cases old with
    | table fields => exact h fields rfl
    | _ => exact List.nodup_nil
  cases v with
  | table fields =>
    cases fields with
    | nil => exact h
    | cons f fields =>
      rw [overlaid_table old (List.cons_ne_nil f fields)]
      rintro merged ⟨⟩
      exact nodup_mergeFields _ hold
  | _ => exact nofun

/-- Tables that layers leave have every name once. -/
theorem hasNamesOnce_node (path : List String) (layers : List (List (String × Value))) :
    HasNamesOnce ((layers.foldl onTop (.table [])).node path) := by
  rw [node_foldl_onTop, node_empty]
  refine List.foldlRecOn _ Word.onto hasNamesOnce_empty fun node hnode w _ => ?_
  cases w with
  | gives v => exact hasNamesOnce_overlaid v hnode
  | hides => exact hasNamesOnce_empty

end Config
end ScriptSession
