import Mathlib.Data.List.Perm.Subperm
import Mathlib.Data.List.Nodup
import ScriptSession.Files.Tree

/-!
# Entries of file trees

What the changes of a tree do to its files. Directories are only added where nothing was
(`Grows`), and a staging file has a place of its own (`get?_stagingPlace`), so that a tree without
it is the one from before.
-/

namespace ScriptSession
namespace Files
namespace Tree

/-! ## Places without an entry -/

/-- The files of a tree with what they hold. -/
def files (t : Tree) : List (Place × ByteArray) :=
  t.entries.filterMap fun e =>
    match e.2 with
    | .file content => some (e.1, content)
    | .directory => none

theorem filesBelow_eq (t : Tree) (place : Place) :
    t.filesBelow place =
      (t.files.filter fun f => place.isPrefixOf f.1).map fun f => (f.1, f.2.size) := by
  rw [filesBelow, files]
  induction t.entries with
  | nil => rfl
  | cons e entries ih =>
    obtain ⟨q, entry⟩ := e
    cases entry with
    | directory => simp only [List.filterMap_cons, ih]
    | file content =>
      by_cases hq : place.isPrefixOf q
      · simp only [List.filterMap_cons, hq, if_true, ih, List.filter_cons, List.map_cons]
      · simp only [List.filterMap_cons, hq, Bool.false_eq_true, if_false, ih, List.filter_cons]

theorem get?_eq_none_iff {t : Tree} {place : Place} :
    t.get? place = none ↔ place ≠ [] ∧ ∀ e ∈ t.entries, e.1 ≠ place := by
  rw [get?]
  split
  · rename_i h
    simp [h]
  · rename_i h
    simp [h]

theorem mem_entries_of_get? {t : Tree} {place : Place} {entry : Entry} (hne : place ≠ [])
    (h : t.get? place = some entry) : (place, entry) ∈ t.entries := by
  rw [get?, if_neg hne, Option.map_eq_some_iff] at h
  obtain ⟨⟨q, e⟩, hfind, rfl⟩ := h
  have hq : q = place := by simpa using List.find?_some hfind
  exact hq ▸ List.mem_of_find?_eq_some hfind

theorem erase_of_none {t : Tree} {place : Place} (h : t.get? place = none) :
    t.erase place = t := by
  have hkeeps : ∀ e ∈ t.entries, decide (e.1 ≠ place) = true := fun e he =>
    decide_eq_true ((get?_eq_none_iff.mp h).2 e he)
  rw [erase, List.filter_eq_self.mpr hkeeps]

theorem entries_put_of_none {t : Tree} {place : Place} (entry : Entry)
    (h : t.get? place = none) : (t.put place entry).entries = t.entries ++ [(place, entry)] := by
  rw [put, erase_of_none h]

/-- What is put where nothing was can be taken away without a trace. -/
theorem erase_put {t : Tree} {place : Place} (entry : Entry) (h : t.get? place = none) :
    (t.put place entry).erase place = t := by
  have hkept := erase_of_none h
  have hentries := entries_put_of_none entry h
  rw [erase] at hkept ⊢
  rw [hentries, List.filter_append]
  simpa using hkept

theorem get?_erase_of_ne (t : Tree) {p q : Place} (h : q ≠ p) :
    (t.erase p).get? q = t.get? q := by
  rw [get?, get?, erase, find?_filter_ne _ _ _ h]

theorem get?_erase_self (t : Tree) {p : Place} (h : p ≠ []) : (t.erase p).get? p = none := by
  rw [get?_eq_none_iff]
  refine ⟨h, fun e he => ?_⟩
  rw [erase, List.mem_filter, decide_eq_true_eq] at he
  exact he.2

/-! ## Files -/

theorem mem_files_of_get? {t : Tree} {place : Place} {content : ByteArray}
    (h : t.get? place = some (.file content)) : (place, content) ∈ t.files := by
  have hne : place ≠ [] := by
    rintro rfl
    rw [get?_root] at h
    cases h
  rw [files, List.mem_filterMap]
  exact ⟨(place, .file content), mem_entries_of_get? hne h, rfl⟩

theorem files_put_file {t : Tree} {place : Place} (content : ByteArray)
    (h : t.get? place = none) :
    (t.put place (.file content)).files = t.files ++ [(place, content)] := by
  rw [files, entries_put_of_none _ h, List.filterMap_append]
  rfl

theorem files_put_directory {t : Tree} {place : Place} (h : t.get? place = none) :
    (t.put place .directory).files = t.files := by
  rw [files, entries_put_of_none _ h, List.filterMap_append]
  exact List.append_nil _

theorem files_erase (t : Tree) (place : Place) :
    (t.erase place).files = t.files.filter fun f => f.1 ≠ place := by
  rw [files, erase, files]
  induction t.entries with
  | nil => rfl
  | cons e entries ih =>
    obtain ⟨q, entry⟩ := e
    by_cases hq : q = place
    · cases entry <;> simpa [hq] using ih
    · cases entry <;> simpa [hq] using ih

/-- A file that is put where no directory was is no directory, and every directory stays one. -/
theorem get?_put_file_eq_directory {t : Tree} {place q : Place} (content : ByteArray)
    (h : t.get? place ≠ some .directory) :
    (t.put place (.file content)).get? q = some .directory ↔ t.get? q = some .directory := by
  by_cases hq : q = place
  · subst hq
    have hne : q ≠ [] := by
      rintro rfl
      exact h t.get?_root
    rw [get?_put_self _ _ _ hne]
    exact iff_of_false nofun h
  · rw [get?_put_of_ne _ _ _ _ hq]

/-! ## Growing -/

/-- Directories were added where nothing was. -/
structure Grows (t t' : Tree) : Prop where
  get? : ∀ q, t'.get? q = t.get? q ∨ (t.get? q = none ∧ t'.get? q = some .directory)
  files : t'.files = t.files

namespace Grows

variable {t t' t'' : Tree}

theorem refl (t : Tree) : Grows t t := ⟨fun _ => .inl rfl, rfl⟩

theorem trans (h : Grows t t') (h' : Grows t' t'') : Grows t t'' := by
  refine ⟨fun q => ?_, h'.files.trans h.files⟩
  obtain heq | ⟨hnone, hdir⟩ := h.get? q <;> obtain heq' | ⟨hnone', hdir'⟩ := h'.get? q
  · exact .inl (heq'.trans heq)
  · exact .inr ⟨heq ▸ hnone', hdir'⟩
  · exact .inr ⟨hnone, heq' ▸ hdir⟩
  · rw [hdir] at hnone'
    cases hnone'

theorem put {place : Place} (h : t.get? place = none) : Grows t (t.put place .directory) := by
  refine ⟨fun q => ?_, files_put_directory h⟩
  by_cases hq : q = place
  · subst hq
    exact .inr ⟨h, get?_put_self t q .directory (get?_eq_none_iff.mp h).1⟩
  · exact .inl (get?_put_of_ne t place q .directory hq)

/-- What was there is there. -/
theorem keeps (h : Grows t t') {place : Place} {entry : Entry} (hget : t.get? place = some entry) :
    t'.get? place = some entry := by
  obtain heq | ⟨hnone, -⟩ := h.get? place
  · rw [heq, hget]
  · rw [hget] at hnone
    cases hnone

end Grows
end Tree

/-! ## Staging -/

theorem stagingName_injective : Function.Injective stagingName := by
  intro m n h
  simp only [stagingName, ← String.toList_inj, String.toList_append, List.append_cancel_left_eq,
    Nat.toString_eq_repr, Nat.toList_repr] at h
  rw [← Nat.ofDigitChars_ten_toDigits (n := m), h, Nat.ofDigitChars_ten_toDigits]

/-- Nothing is at the place of a staging file: a tree has fewer entries than there are names to
choose from. -/
theorem get?_stagingPlace (t : Tree) (directory : Place) :
    t.get? (stagingPlace t directory) = none := by
  have hplace : Function.Injective fun n => directory ++ [stagingName n] := by
    intro m n h
    simpa [stagingName_injective.eq_iff] using h
  obtain ⟨n, hn⟩ : ∃ n, (List.range (t.entries.length + 1)).find?
      (fun n => (t.get? (directory ++ [stagingName n])).isNone) = some n := by
    rw [← Option.isSome_iff_exists, List.find?_isSome]
    by_contra hall
    push Not at hall
    -- Otherwise every one of the places would have an entry.
    have hsub : (List.range (t.entries.length + 1)).map (fun n => directory ++ [stagingName n]) ⊆
        t.entries.map (·.1) := by
      intro place hmem
      obtain ⟨n, hn, rfl⟩ := List.mem_map.mp hmem
      obtain ⟨entry, hentry⟩ := Option.ne_none_iff_exists'.mp
        (by simpa using hall n hn : t.get? (directory ++ [stagingName n]) ≠ none)
      exact List.mem_map_of_mem (f := (·.1)) (Tree.mem_entries_of_get? (by simp) hentry)
    have hnodup := List.nodup_range (n := t.entries.length + 1) |>.map hplace
    have hlength := (hnodup.subperm hsub).length_le
    simp only [List.length_map, List.length_range] at hlength
    omega
  have hfree := List.find?_some hn
  rw [stagingPlace, hn]
  simpa using hfree

end Files
end ScriptSession
