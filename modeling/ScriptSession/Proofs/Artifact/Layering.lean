import Mathlib.Data.List.Duplicate
import ScriptSession.Proofs.Artifact.Resolving

/-!
# Manifests on top of each other

A manifest file on top of a manifest: what the file declares comes first, and of the manifest what
is new follows in its order. The additions are described without the list that grows while they
are made: an item is new if its key stands neither in the file nor earlier in the manifest
(`newcomers`). Main statement: what a merged manifest consists of, which repository it has for an
id, when it is valid, and that a second merge with the same file changes nothing
(`mergedWith_layers`).
-/

namespace ScriptSession
namespace Artifact

section Newcomers

variable {α κ : Type} [DecidableEq κ] {key : α → κ} {taken : List κ} {kept more : List α}

/-- The items of a list whose keys stand neither among the taken ones nor earlier in the list. -/
def newcomers (key : α → κ) (taken : List κ) (more : List α) : List α :=
  (more.zipIdx.filter fun x => key x.1 ∉ taken ∧ key x.1 ∉ (more.take x.2).map key).map Prod.fst

/-- One more item is new if its key is neither taken nor that of an item before it. -/
theorem newcomers_concat (key : α → κ) (taken : List κ) (more : List α) (x : α) :
    newcomers key taken (more ++ [x]) = newcomers key taken more ++
      if key x ∉ taken ∧ key x ∉ more.map key then [x] else [] := by
  unfold newcomers
  rw [List.zipIdx_append, List.filter_append, List.map_append]
  congr 1
  · -- The items before the last one have the same items before them.
    congr 1
    apply List.filter_congr
    rintro ⟨y, i⟩ hy
    have hi : i < more.length := by
      have := List.snd_lt_add_of_mem_zipIdx hy
      omega
    rw [List.take_append_of_le_length (by omega)]
  · rw [Nat.zero_add, List.zipIdx_singleton, List.filter_singleton]
    simp only [List.take_left', Bool.cond_decide]
    split
    · rfl
    · rfl

/-- Of every key that is not taken there is one item. -/
theorem mem_map_newcomers (k : κ) :
    k ∈ (newcomers key taken more).map key ↔ k ∉ taken ∧ k ∈ more.map key := by
  induction more using List.reverseRecOn with
  | nil => simp [newcomers]
  | append_singleton more x ih =>
    rw [newcomers_concat, List.map_append, List.mem_append, ih, List.map_append, List.mem_append]
    split
    · rename_i hnew
      simp only [List.map_cons, List.map_nil, List.mem_singleton]
      constructor
      · rintro (h | rfl)
        · exact ⟨h.1, .inl h.2⟩
        · exact ⟨hnew.1, .inr rfl⟩
      · rintro ⟨hfree, h | h⟩
        · exact .inl ⟨hfree, h⟩
        · exact .inr h
    · -- An item that is left out has the key of one that is taken or of one before it.
      rename_i hold
      simp only [List.map_cons, List.map_nil, List.mem_singleton, List.not_mem_nil, or_false]
      refine and_congr_right fun hfree => (or_iff_left_of_imp ?_).symm
      rintro rfl
      by_contra hfirst
      exact hold ⟨hfree, hfirst⟩

theorem nodup_map_newcomers (key : α → κ) (taken : List κ) (more : List α) :
    ((newcomers key taken more).map key).Nodup := by
  induction more using List.reverseRecOn with
  | nil => exact List.nodup_nil
  | append_singleton more x ih =>
    rw [newcomers_concat]
    split
    · rename_i hnew
      rw [List.map_append, List.map_singleton, List.nodup_append]
      refine ⟨ih, List.nodup_singleton _, ?_⟩
      intro k hk l hl
      rw [List.mem_singleton.mp hl]
      rintro rfl
      exact hnew.2 ((mem_map_newcomers _).mp hk).2
    · rwa [List.append_nil]

/-- Items that all are new are those of the list. -/
theorem newcomers_eq_self (hnodup : (more.map key).Nodup) (hfree : ∀ x ∈ more, key x ∉ taken) :
    newcomers key taken more = more := by
  induction more using List.reverseRecOn with
  | nil => rfl
  | append_singleton more x ih =>
    rw [List.map_append, List.map_singleton, List.nodup_append] at hnodup
    rw [newcomers_concat, ih hnodup.1 fun y hy => hfree y (List.mem_append_left _ hy), if_pos]
    refine ⟨hfree x (List.mem_append_right _ (List.mem_singleton_self x)), ?_⟩
    intro hmem
    exact hnodup.2.2 _ hmem _ (List.mem_singleton_self _) rfl

/-- The first item of a key that is not taken is new. -/
theorem find?_newcomers {k : κ} (hfree : k ∉ taken) :
    (newcomers key taken more).find? (fun x => key x = k) = more.find? fun x => key x = k := by
  induction more using List.reverseRecOn with
  | nil => rfl
  | append_singleton more x ih =>
    rw [newcomers_concat, List.find?_append, ih, List.find?_append]
    cases hfirst : more.find? fun x => key x = k with
    | some y => rfl
    | none =>
      -- So far there is no item of the key, and the next one is new if it has it.
      simp only [Option.none_or]
      by_cases hx : key x = k
      · have hnew : k ∉ more.map key := by
          intro hmem
          obtain ⟨y, hy, hkey⟩ := List.mem_map.mp hmem
          exact absurd hkey (by simpa using List.find?_eq_none.mp hfirst y hy)
        rw [if_pos (hx ▸ ⟨hfree, hnew⟩)]
      · split
        · rfl
        · simp [hx]

theorem find?_append_newcomers (kept more : List α) (k : κ) :
    (kept ++ newcomers key (kept.map key) more).find? (fun x => key x = k) =
      (kept.find? fun x => key x = k).or (more.find? fun x => key x = k) := by
  rw [List.find?_append]
  cases hkept : kept.find? fun x => key x = k with
  | some x => rfl
  | none =>
    have hfree : k ∉ kept.map key := by
      intro hmem
      obtain ⟨x, hx, hkey⟩ := List.mem_map.mp hmem
      exact absurd hkey (by simpa using List.find?_eq_none.mp hkept x hx)
    rw [Option.none_or, Option.none_or, find?_newcomers hfree]

/-! ### One item after the other -/

/-- A list that takes in an item, unless it has one of its key. -/
def takeIn (key : α → κ) (acc : List α) (x : α) : List α :=
  if key x ∈ acc.map key then acc else acc ++ [x]

/-- What a list has after it was offered others: itself, and then what is new in these. -/
theorem foldl_takeIn (key : α → κ) (kept more : List α) :
    more.foldl (takeIn key) kept = kept ++ newcomers key (kept.map key) more := by
  induction more using List.reverseRecOn with
  | nil => exact (List.append_nil _).symm
  | append_singleton more x ih =>
    rw [List.foldl_append, List.foldl_cons, List.foldl_nil, ih, newcomers_concat, takeIn]
    have hthere : key x ∈ (kept ++ newcomers key (kept.map key) more).map key ↔
        ¬ (key x ∉ kept.map key ∧ key x ∉ more.map key) := by
      rw [List.map_append, List.mem_append, mem_map_newcomers]
      tauto
    by_cases hnew : key x ∉ kept.map key ∧ key x ∉ more.map key
    · rw [if_neg (fun h => hthere.mp h hnew), if_pos hnew, List.append_assoc]
    · rw [if_pos (hthere.mpr hnew), if_neg hnew, List.append_nil]

theorem foldl_takeIn_of_mem (h : ∀ x ∈ more, key x ∈ kept.map key) :
    more.foldl (takeIn key) kept = kept := by
  induction more with
  | nil => rfl
  | cons x more ih =>
    rw [List.foldl_cons, takeIn, if_pos (h x List.mem_cons_self)]
    exact ih fun y hy => h y (List.mem_cons_of_mem x hy)

/-- A list that has taken in all of another one is what it makes of itself as well. -/
theorem foldl_takeIn_again (key : α → κ) (kept more : List α) :
    (more.foldl (takeIn key) kept).foldl (takeIn key) kept = more.foldl (takeIn key) kept := by
  -- The first list takes in nothing of itself, and then the newcomers are new once more.
  rw [foldl_takeIn key kept more, List.foldl_append,
    foldl_takeIn_of_mem fun x hx => List.mem_map_of_mem hx, foldl_takeIn, newcomers_eq_self]
  · exact nodup_map_newcomers key _ more
  · intro x hx
    exact ((mem_map_newcomers _).mp (List.mem_map_of_mem hx)).1

/-- No newcomer makes a key stand twice. -/
theorem nodup_append_newcomers :
    ((kept ++ newcomers key (kept.map key) more).map key).Nodup ↔ (kept.map key).Nodup := by
  rw [List.map_append, List.nodup_append]
  refine ⟨fun h => h.1, fun h => ⟨h, nodup_map_newcomers key _ more, ?_⟩⟩
  rintro k hkept l hnew rfl
  exact ((mem_map_newcomers k).mp hnew).1 hkept

theorem duplicate_append_newcomers {k : κ} :
    ((kept ++ newcomers key (kept.map key) more).map key).Duplicate k ↔
      (kept.map key).Duplicate k := by
  rw [List.map_append, List.duplicate_iff_two_le_count, List.duplicate_iff_two_le_count,
    List.count_append]
  -- Of a key that stands in the first list there is no newcomer, and of any other at most one.
  have hone := List.nodup_iff_count_le_one.mp (nodup_map_newcomers key (kept.map key) more) k
  by_cases hk : k ∈ kept.map key
  · have hnone : ((newcomers key (kept.map key) more).map key).count k = 0 :=
      List.count_eq_zero.mpr fun h => ((mem_map_newcomers k).mp h).1 hk
    omega
  · have hnone : (kept.map key).count k = 0 := List.count_eq_zero.mpr hk
    omega

end Newcomers

namespace Manifest

/-! ## What is added -/

theorem addRepositories_eq_foldl (kept more : List Repository) :
    addRepositories kept more = more.foldl (takeIn (·.id)) kept := by
  unfold addRepositories
  congr 1
  funext acc r
  unfold takeIn
  apply if_congr _ rfl rfl
  simp [List.any_eq_true]

theorem addDependencies_eq_foldl (kept more : List Coordinate) :
    addDependencies kept more = more.foldl (takeIn id) kept := by
  unfold addDependencies
  congr 1
  funext acc c
  unfold takeIn
  apply if_congr _ rfl rfl
  simp

variable (m : Manifest) (file : ManifestFile)

theorem repositories_mergedWith :
    (m.mergedWith file).repositories = file.repositories ++
      newcomers (·.id) (file.repositories.map (·.id)) m.repositories := by
  show addRepositories file.repositories m.repositories = _
  rw [addRepositories_eq_foldl, foldl_takeIn]

theorem dependencies_mergedWith :
    (m.mergedWith file).dependencies =
      file.dependencies ++ newcomers id file.dependencies m.dependencies := by
  show addDependencies file.dependencies m.dependencies = _
  rw [addDependencies_eq_foldl, foldl_takeIn, List.map_id]

theorem mergedWith_mergedWith : (m.mergedWith file).mergedWith file = m.mergedWith file := by
  unfold mergedWith
  simp only [addRepositories_eq_foldl, addDependencies_eq_foldl, foldl_takeIn_again]

/-! ## The ids -/

theorem nodup_ids_mergedWith :
    (m.mergedWith file).ids.Nodup ↔ (file.repositories.map (·.id)).Nodup := by
  rw [ids, repositories_mergedWith]
  exact nodup_append_newcomers

theorem duplicate_ids_mergedWith {id : String} :
    (m.mergedWith file).ids.Duplicate id ↔ (file.repositories.map (·.id)).Duplicate id := by
  rw [ids, repositories_mergedWith]
  exact duplicate_append_newcomers

theorem validate_mergedWith_eq_ok_iff :
    (m.mergedWith file).validate = .ok () ↔ (file.repositories.map (·.id)).Nodup := by
  rw [← nodup_ids_mergedWith m file]
  refine ⟨?_, validate_of_nodup⟩
  intro hvalid
  by_contra hrepeated
  obtain ⟨id, -, hrefused⟩ := validate_of_not_nodup hrepeated
  rw [hrefused] at hvalid
  cases hvalid

/-- **A manifest under a manifest file**: what the file declares, and then what is new in the
manifest, repositories by their ids and dependencies as they are. So the repository of an id is the
first one of the file that has it, or else the first one of the manifest; the merged manifest is
valid as long as the file repeats no id, and what it is refused with is an id that the file
repeats; and to merge the file once more changes nothing. -/
theorem mergedWith_layers :
    (m.mergedWith file).repositories = file.repositories ++
        newcomers (·.id) (file.repositories.map (·.id)) m.repositories ∧
      (m.mergedWith file).dependencies =
        file.dependencies ++ newcomers id file.dependencies m.dependencies ∧
      (m.mergedWith file).manifestFile = m.manifestFile ∧
      (∀ id, (m.mergedWith file).repositories.find? (·.id = id) =
        (file.repositories.find? (·.id = id)).or (m.repositories.find? (·.id = id))) ∧
      ((m.mergedWith file).validate = .ok () ↔ (file.repositories.map (·.id)).Nodup) ∧
      (¬ (file.repositories.map (·.id)).Nodup → ∃ id,
        (file.repositories.map (·.id)).Duplicate id ∧
          (m.mergedWith file).validate = .error (.duplicateRepository id)) ∧
      (m.mergedWith file).mergedWith file = m.mergedWith file := by
  refine ⟨repositories_mergedWith m file, dependencies_mergedWith m file, rfl, ?_,
    validate_mergedWith_eq_ok_iff m file, ?_, mergedWith_mergedWith m file⟩
  · intro id
    rw [repositories_mergedWith]
    exact find?_append_newcomers file.repositories m.repositories id
  · intro hrepeated
    rw [← nodup_ids_mergedWith m file] at hrepeated
    obtain ⟨id, hduplicate, hrefused⟩ := validate_of_not_nodup hrepeated
    exact ⟨id, (duplicate_ids_mergedWith m file).mp hduplicate, hrefused⟩

end Manifest

end Artifact
end ScriptSession
