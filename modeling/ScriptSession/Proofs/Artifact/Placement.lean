import ScriptSession.Artifact.Coordinate
import ScriptSession.Proofs.Files.Places
import ScriptSession.Proofs.Text.Pieces

/-!
# Where coordinates lie

A coordinate lies behind a directory by a list of names (`Coordinate.names`): the parts of its
group, the artifact, the version and the file. The segments of a parsed coordinate make all of them
names of files, so that joining, walking and addressing agree on them, and the list gives the
coordinate back (`names_injective`).
-/

namespace ScriptSession
namespace Artifact
namespace Coordinate

open Files (IsFileName)
open ScriptSession.Path (IsName)

variable {s : String} {c c' : Coordinate}

/-! ## Segments -/

/-- Text of the characters that a part may hold is a file name. -/
theorem isFileName_of_part {part : List Char} (hne : part ≠ []) (h : part.all isPartChar = true) :
    IsFileName (String.ofList part) := by
  have hnot : ∀ d, isPartChar d = false → d ∉ part := fun d hd hmem => by
    rw [List.all_eq_true.mp h d hmem] at hd
    cases hd
  refine ⟨⟨?_, ?_, ?_, ?_⟩, ?_⟩
  · rw [String.toList_ofList]
    exact hnot '/' (by decide)
  · rwa [Ne, String.ofList_eq_empty_iff]
  · intro heq
    have hmem : '.' ∈ (String.ofList part).toList := by simp [heq]
    rw [String.toList_ofList] at hmem
    exact hnot '.' (by decide) hmem
  · intro heq
    have hmem : '.' ∈ (String.ofList part).toList := by simp [heq]
    rw [String.toList_ofList] at hmem
    exact hnot '.' (by decide) hmem
  · rw [String.toList_ofList]
    exact hnot '\x00' (by decide)

theorem isFileName_of_mem_splitOn (h : isSegment s = true) {part : String}
    (hpart : part ∈ Text.splitOn '.' s) : IsFileName part := by
  obtain ⟨piece, hpiece, rfl⟩ := List.mem_map.mp hpart
  have hpiece := List.all_eq_true.mp h piece hpiece
  rw [Bool.and_eq_true, Bool.not_eq_true', List.isEmpty_eq_false_iff] at hpiece
  exact isFileName_of_part hpiece.1 hpiece.2

/-- The characters of a segment. -/
theorem of_mem_segment (h : isSegment s = true) {d : Char} (hd : d ∈ s.toList) :
    d = '.' ∨ isPartChar d = true := by
  by_cases hdot : d = '.'
  · exact .inl hdot
  · obtain ⟨piece, hpiece, hmem⟩ := Text.mem_piece_of_mem hd hdot
    have hpiece := List.all_eq_true.mp h piece hpiece
    rw [Bool.and_eq_true] at hpiece
    exact .inr (List.all_eq_true.mp hpiece.2 d hmem)

theorem not_mem_segment (h : isSegment s = true) {d : Char} (hdot : d ≠ '.')
    (hd : isPartChar d = false) : d ∉ s.toList := by
  intro hmem
  obtain heq | hpart := of_mem_segment h hmem
  · exact hdot heq
  · rw [hpart] at hd
    cases hd

theorem isFileName_of_isSegment (h : isSegment s = true) : IsFileName s := by
  refine ⟨⟨not_mem_segment h (by decide) (by decide), ?_, ?_, ?_⟩,
    not_mem_segment h (by decide) (by decide)⟩
  all_goals
    rintro rfl
    revert h
    decide

/-! ## Names -/

/-- Coordinates whose segments are ones that parsing accepts. -/
structure IsValid (c : Coordinate) : Prop where
  group : isSegment c.group = true
  artifact : isSegment c.artifact = true
  version : isSegment c.version = true

theorem isValid_of_parse? (h : parse? s = some c) : c.IsValid := by
  rw [parse?] at h
  split at h
  · split at h
    · rename_i hsegments
      cases h
      rw [Bool.and_eq_true, Bool.and_eq_true] at hsegments
      exact ⟨hsegments.1.1, hsegments.1.2, hsegments.2⟩
    · cases h
  · cases h

/-- The names of the directories on the way to the version. -/
def above (c : Coordinate) : List String := Text.splitOn '.' c.group ++ [c.artifact]

/-- The names that lead to the file of a coordinate. -/
def names (c : Coordinate) : List String := c.above ++ [c.version, c.fileName]

theorem names_eq (c : Coordinate) : c.names = c.above ++ [c.version] ++ [c.fileName] := by
  simp [names]

theorem names_ne_nil (c : Coordinate) : c.names ≠ [] := by simp [names]

namespace IsValid

theorem isFileName_fileName (h : c.IsValid) : IsFileName c.fileName := by
  have hlist : c.fileName.toList =
      c.artifact.toList ++ '-' :: (c.version.toList ++ ['.', 'r', 'h', 'a', 'i']) := by
    simp [fileName, moduleExtension, String.toList_append]
  have hnot : ∀ d, d ≠ '.' → isPartChar d = false → d ∉ c.fileName.toList := by
    intro d hdot hd hmem
    have hletters : d ∉ ['.', 'r', 'h', 'a', 'i'] := by
      intro hmem
      simp only [List.mem_cons, List.not_mem_nil, or_false] at hmem
      rcases hmem with rfl | rfl | rfl | rfl | rfl
      · exact hdot rfl
      all_goals exact absurd hd (by decide)
    rw [hlist, List.mem_append, List.mem_cons, List.mem_append] at hmem
    rcases hmem with hmem | rfl | hmem | hmem
    · exact not_mem_segment h.artifact hdot hd hmem
    · exact absurd hd (by decide)
    · exact not_mem_segment h.version hdot hd hmem
    · exact hletters hmem
  -- The dash tells the name from the empty one and from the steps.
  have hdash : '-' ∈ c.fileName.toList := by simp [hlist]
  refine ⟨⟨hnot '/' (by decide) (by decide), ?_, ?_, ?_⟩, hnot '\x00' (by decide) (by decide)⟩
  all_goals
    intro heq
    rw [heq] at hdash
    revert hdash
    decide

theorem isFileName_of_mem_above (h : c.IsValid) {n : String} (hn : n ∈ c.above) :
    IsFileName n := by
  rw [above, List.mem_append, List.mem_singleton] at hn
  obtain hpart | rfl := hn
  · exact isFileName_of_mem_splitOn h.group hpart
  · exact isFileName_of_isSegment h.artifact

theorem isFileName_of_mem (h : c.IsValid) {n : String} (hn : n ∈ c.names) : IsFileName n := by
  rw [names, List.mem_append] at hn
  simp only [List.mem_cons, List.not_mem_nil, or_false] at hn
  rcases hn with habove | rfl | rfl
  · exact h.isFileName_of_mem_above habove
  · exact isFileName_of_isSegment h.version
  · exact h.isFileName_fileName

theorem isName_of_mem (h : c.IsValid) {n : String} (hn : n ∈ c.names) : IsName n :=
  (h.isFileName_of_mem hn).toIsName

/-- The names of the directories that a coordinate lies in. -/
theorem isFileName_of_mem_directory (h : c.IsValid) {n : String}
    (hn : n ∈ c.above ++ [c.version]) : IsFileName n :=
  h.isFileName_of_mem (by rw [names_eq]; exact List.mem_append_left _ hn)

end IsValid

/-- The names of a coordinate tell it from every other one. -/
theorem names_injective : Function.Injective names := by
  intro c c' h
  obtain ⟨hgroup, htail⟩ : Text.splitOn '.' c.group = Text.splitOn '.' c'.group ∧
      [c.artifact, c.version, c.fileName] = [c'.artifact, c'.version, c'.fileName] := by
    refine List.append_inj' ?_ rfl
    simpa [names, above] using h
  simp only [List.cons.injEq] at htail
  obtain ⟨group, artifact, version⟩ := c
  obtain ⟨group', artifact', version'⟩ := c'
  rw [mk.injEq]
  exact ⟨Text.splitOn_injective '.' hgroup, htail.1, htail.2.1⟩

/-! ## Paths and addresses -/

theorem directory_eq (c : Coordinate) :
    c.directory = (Path.mk "").joinAll (c.above ++ [c.version]) := by
  rw [directory, above, List.append_assoc]
  rfl

theorem relativePath_eq (c : Coordinate) : c.relativePath = (Path.mk "").joinAll c.names := by
  rw [relativePath, directory_eq, names_eq, Path.joinAll_concat _ (c.above ++ [c.version])]

theorem urlPath_eq (c : Coordinate) : c.urlPath = "/".intercalate c.names := by
  have hgroup : Text.splitOn '.' c.group ≠ [] := by
    rw [Text.splitOn, Ne, List.map_eq_nil_iff]
    exact Text.splitChars_ne_nil '.' _
  rw [urlPath, names, above, List.append_assoc,
    String.intercalate_append_of_ne_nil hgroup (by simp)]
  simp [String.append_assoc]

namespace IsValid

/-- What is joined to a directory is the names, one after the other. -/
theorem join_relativePath (h : c.IsValid) (root : Path) :
    root.join c.relativePath.text = root.joinAll c.names := by
  rw [relativePath_eq]
  exact Path.join_joinAll root c.names_ne_nil fun n hn => h.isName_of_mem hn

theorem components_relativePath (h : c.IsValid) :
    c.relativePath.components = c.names.map .normal := by
  rw [relativePath_eq, Path.components_joinAll _ fun n hn => h.isName_of_mem hn]
  rfl

theorem components_join (h : c.IsValid) (root : Path) :
    (root.join c.relativePath.text).components =
      root.components ++ c.relativePath.components := by
  rw [h.join_relativePath, h.components_relativePath,
    Path.components_joinAll _ fun n hn => h.isName_of_mem hn]

/-- Coordinates that lie at one place are one. -/
theorem eq_of_same (h : c.IsValid) (h' : c'.IsValid)
    (hsame : c.relativePath.same c'.relativePath = true) : c = c' := by
  rw [Path.same, beq_iff_eq, h.components_relativePath, h'.components_relativePath,
    List.map_inj_right fun _ _ heq => (Path.Component.normal.inj heq)] at hsame
  exact names_injective hsame

theorem placeOf_join (h : c.IsValid) (cwd : Files.Place) (root : Path) :
    Files.placeOf cwd (root.join c.relativePath.text) = Files.placeOf cwd root ++ c.names := by
  rw [h.join_relativePath, Files.placeOf_joinAll cwd root fun n hn => h.isName_of_mem hn]

end IsValid

end Coordinate
end Artifact
end ScriptSession
