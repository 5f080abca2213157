import ScriptSession.Artifact.Manifest
import ScriptSession.Proofs.Artifact.Placement
import ScriptSession.Proofs.Json.RoundTrip

/-!
# The grammar of coordinates

Which texts are coordinates, said without splitting: three segments with colons between them, each
of one or more parts with dots between them, and a part is some letters, digits, underscores and
hyphens. Main statement: these are the texts that reading accepts, blanks around them aside, and
writing undoes reading; the coordinates that are read back from what is written are those made of
segments (`reads_exactly_written`).
-/

namespace ScriptSession
namespace Artifact
namespace Coordinate

open Text (isBlank joinChars joinChars_cons splitChars splitChars_append splitChars_joinChars
  splitChars_of_not_mem trimChars)

variable {s : String} {c : Coordinate}

/-! ## The grammar -/

/-- A letter or digit of the basic alphabet, an underscore or a hyphen. -/
def IsPlain (d : Char) : Prop :=
  'A' ≤ d ∧ d ≤ 'Z' ∨ 'a' ≤ d ∧ d ≤ 'z' ∨ '0' ≤ d ∧ d ≤ '9' ∨ d = '_' ∨ d = '-'

/-- A part of a segment. -/
def IsPart (part : String) : Prop := part ≠ "" ∧ ∀ d ∈ part.toList, IsPlain d

/-- One or more parts with dots between them. -/
def IsDotted (s : String) : Prop :=
  ∃ parts : List String, parts ≠ [] ∧ (∀ part ∈ parts, IsPart part) ∧ s = ".".intercalate parts

/-- Three segments with colons between them. -/
def IsText (t : String) : Prop :=
  ∃ group artifact version, IsDotted group ∧ IsDotted artifact ∧ IsDotted version ∧
    t = group ++ ":" ++ artifact ++ ":" ++ version

/-- Coordinates that are made of segments. -/
structure IsSegmented (c : Coordinate) : Prop where
  group : IsDotted c.group
  artifact : IsDotted c.artifact
  version : IsDotted c.version

theorem isText_iff {t : String} : IsText t ↔ ∃ c : Coordinate, c.IsSegmented ∧ t = c.text := by
  constructor
  · rintro ⟨g, a, v, hg, ha, hv, rfl⟩
    exact ⟨⟨g, a, v⟩, ⟨hg, ha, hv⟩, rfl⟩
  · rintro ⟨c, h, rfl⟩
    exact ⟨c.group, c.artifact, c.version, h.group, h.artifact, h.version, rfl⟩

/-! ## Segments -/

theorem isPlain_iff (d : Char) : isPartChar d = true ↔ IsPlain d := by
  have hclasses : isPartChar d = (decide (d.val ≥ 'A'.val ∧ d.val ≤ 'Z'.val) ||
      (decide (d.val ≥ 'a'.val) && decide (d.val ≤ 'z'.val)) ||
      (decide (d.val ≥ '0'.val) && decide (d.val ≤ '9'.val)) || d == '-' || d == '_') := rfl
  unfold IsPlain
  rw [hclasses]
  simp only [Bool.or_eq_true, Bool.and_eq_true, decide_eq_true_eq, beq_iff_eq, Char.le_def,
    ge_iff_le]
  tauto

theorem isPart_iff (part : List Char) :
    (!part.isEmpty && part.all isPartChar) = true ↔ IsPart (String.ofList part) := by
  unfold IsPart
  rw [Bool.and_eq_true, Bool.not_eq_true', List.isEmpty_eq_false_iff, List.all_eq_true,
    Ne, Ne, String.ofList_eq_empty_iff, String.toList_ofList]
  exact and_congr_right fun _ => forall₂_congr fun d _ => isPlain_iff d

/-- Parts hold no dots, so they come back from the segment that they are joined to. -/
theorem not_mem_of_isPart {part : String} (h : IsPart part) : '.' ∉ part.toList := by
  intro hmem
  have hdot := h.2 '.' hmem
  revert hdot
  rw [← isPlain_iff]
  decide

theorem toList_intercalate (parts : List String) :
    (".".intercalate parts).toList = joinChars '.' (parts.map String.toList) := by
  induction parts with
  | nil => rfl
  | cons part rest ih =>
    cases rest with
    | nil => rw [String.intercalate_singleton]; rfl
    | cons next rest =>
      rw [String.intercalate_cons_cons, String.toList_append, String.toList_append, ih,
        List.append_assoc]
      exact (joinChars_cons part.toList (List.cons_ne_nil _ _)).symm

/-- The segments that reading accepts are those of the grammar. -/
theorem isSegment_iff : isSegment s = true ↔ IsDotted s := by
  unfold isSegment
  rw [List.all_eq_true]
  constructor
  · intro hall
    refine ⟨(splitChars '.' s.toList).map String.ofList, ?_, ?_, ?_⟩
    · rw [Ne, List.map_eq_nil_iff]
      exact Text.splitChars_ne_nil '.' _
    · intro part hpart
      obtain ⟨piece, hpiece, rfl⟩ := List.mem_map.mp hpart
      exact (isPart_iff piece).mp (hall piece hpiece)
    · have hpieces : ((splitChars '.' s.toList).map String.ofList).map String.toList =
          splitChars '.' s.toList := by simp
      rw [← String.toList_inj, toList_intercalate, hpieces, Text.joinChars_splitChars]
  · -- No part holds the point, so the pieces of the text are the parts again.
    rintro ⟨parts, hne, hparts, rfl⟩ piece hpiece
    rw [toList_intercalate, splitChars_joinChars (by simpa using hne)] at hpiece
    · obtain ⟨part, hpart, rfl⟩ := List.mem_map.mp hpiece
      rw [isPart_iff, String.ofList_toList]
      exact hparts part hpart
    · intro piece hpiece
      obtain ⟨part, hpart, rfl⟩ := List.mem_map.mp hpiece
      exact not_mem_of_isPart (hparts part hpart)

/-- Parsing accepts the coordinates of the grammar and no others. -/
theorem isSegmented_iff : c.IsSegmented ↔ c.IsValid := by
  constructor
  · intro h
    exact ⟨isSegment_iff.mpr h.group, isSegment_iff.mpr h.artifact, isSegment_iff.mpr h.version⟩
  · intro h
    exact ⟨isSegment_iff.mp h.group, isSegment_iff.mp h.artifact, isSegment_iff.mp h.version⟩

/-! ## Reading what is written -/

theorem toList_text (c : Coordinate) :
    c.text.toList = c.group.toList ++ ':' :: (c.artifact.toList ++ ':' :: c.version.toList) := by
  simp [text, String.toList_append]

/-- The text of a coordinate made of segments falls into these. -/
theorem splitOn_text (h : c.IsValid) :
    Text.splitOn ':' c.text = [c.group, c.artifact, c.version] := by
  have hcolon : ∀ {segment : String}, isSegment segment = true →
      splitChars ':' segment.toList = [segment.toList] := fun hsegment =>
    splitChars_of_not_mem (not_mem_segment hsegment (by decide) (by decide))
  rw [Text.splitOn, toList_text, splitChars_append, splitChars_append, hcolon h.group,
    hcolon h.artifact, hcolon h.version]
  simp

/-- The visible characters of the basic alphabet are not blank. -/
theorem isBlank_of_visible {d : Char} (h : 33 ≤ d.val.toNat ∧ d.val.toNat ≤ 126) :
    isBlank d = false := by
  unfold isBlank
  simp only [Bool.or_eq_false_iff, Bool.and_eq_false_iff, decide_eq_false_iff_not,
    beq_eq_false_iff_ne]
  omega

theorem isBlank_of_isPlain {d : Char} (h : IsPlain d) : isBlank d = false := by
  unfold IsPlain at h
  simp only [Char.le_def, UInt32.le_iff_toNat_le] at h
  apply isBlank_of_visible
  rcases h with h | h | h | rfl | rfl
  · change 65 ≤ _ ∧ _ ≤ 90 at h
    omega
  · change 97 ≤ _ ∧ _ ≤ 122 at h
    omega
  · change 48 ≤ _ ∧ _ ≤ 57 at h
    omega
  · decide
  · decide

/-- Nothing in the text of a coordinate made of segments is blank. -/
theorem isBlank_of_mem_text (h : c.IsValid) {d : Char} (hd : d ∈ c.text.toList) :
    isBlank d = false := by
  have hsegment : ∀ {segment : String}, isSegment segment = true → d ∈ segment.toList →
      isBlank d = false := by
    intro segment hsegment hmem
    rcases of_mem_segment hsegment hmem with rfl | hpart
    · decide
    · exact isBlank_of_isPlain ((isPlain_iff d).mp hpart)
  rw [toList_text] at hd
  simp only [List.mem_append, List.mem_cons] at hd
  rcases hd with hd | rfl | hd | rfl | hd
  · exact hsegment h.group hd
  · decide
  · exact hsegment h.artifact hd
  · decide
  · exact hsegment h.version hd

theorem trim_of_not_blank (h : ∀ d ∈ s.toList, isBlank d = false) : Text.trim s = s := by
  have hkept : ∀ {cs : List Char}, (∀ d ∈ cs, isBlank d = false) → cs.dropWhile isBlank = cs := by
    intro cs hcs
    cases cs with
    | nil => rfl
    | cons d cs => rw [List.dropWhile_cons_of_neg (by simp [hcs d List.mem_cons_self])]
  rw [Text.trim, trimChars, hkept h, hkept fun d hd => h d (List.mem_reverse.mp hd),
    List.reverse_reverse, String.ofList_toList]

/-! ## Reading -/

/-- What is read is a coordinate made of segments whose text is the trimmed one. -/
theorem parse?_eq_some_iff : parse? s = some c ↔ c.IsValid ∧ Text.trim s = c.text := by
  constructor
  · intro h
    refine ⟨isValid_of_parse? h, ?_⟩
    rw [parse?] at h
    split at h
    · rename_i g a v hsplit
      split at h
      · cases h
        -- The pieces of a text give it back when they are joined.
        have hpieces : splitChars ':' (Text.trim s).toList = [g.toList, a.toList, v.toList] := by
          rw [Text.splitOn] at hsplit
          have hchars := congrArg (List.map String.toList) hsplit
          simpa using hchars
        rw [← String.toList_inj, toList_text, ← Text.joinChars_splitChars ':' (Text.trim s).toList,
          hpieces]
        rfl
      · cases h
    · cases h
  · rintro ⟨hvalid, htrim⟩
    rw [parse?, htrim, splitOn_text hvalid]
    simp [hvalid.group, hvalid.artifact, hvalid.version]

theorem parse_eq_ok_iff : parse s = .ok c ↔ c.IsSegmented ∧ Text.trim s = c.text := by
  rw [isSegmented_iff, ← parse?_eq_some_iff, parse]
  cases parse? s with
  | none => simp
  | some c' => simp

theorem parse_eq_error (h : ∀ c, parse s ≠ .ok c) : parse s = .error (.invalidCoordinate s) := by
  unfold parse at h ⊢
  cases hread : parse? s with
  | none => rfl
  | some c =>
    rw [hread] at h
    exact absurd rfl (h c)

theorem parse_text (h : c.IsSegmented) : parse c.text = .ok c := by
  rw [parse_eq_ok_iff]
  refine ⟨h, trim_of_not_blank fun d hd => ?_⟩
  exact isBlank_of_mem_text (isSegmented_iff.mp h) hd

theorem parse?_text (h : c.IsSegmented) : parse? c.text = some c :=
  parse?_eq_some_iff.mpr ⟨isSegmented_iff.mp h, (parse_eq_ok_iff.mp (parse_text h)).2⟩

/-- A text is one literal, on one line as well as over several. -/
theorem compress_toJson (c : Coordinate) : c.toJson.compress = c.toJson.pretty := by
  unfold toJson Json.Value.ofString Json.Value.compress Json.Value.pretty
  rw [Json.compact, Json.spread]

/-- A coordinate made of segments is read back from the document that is written for it. -/
theorem ofJson?_of_compress (h : c.IsSegmented) :
    (Json.parse c.toJson.compress).bind ofJson? = some c := by
  have hplain : c.toJson.IsPlain := by
    unfold toJson Json.Value.ofString
    simp only [Json.Value.IsPlain, Option.isSome_some]
  rw [compress_toJson, Json.parse_pretty hplain, Option.bind_some, ofJson?, toJson,
    Json.Value.ofString, Json.Value.string?, Option.bind_some, parse?_text h]

theorem coordinate?_text (h : c.IsSegmented) :
    ManifestFile.coordinate? (.text c.text) = some c := by
  rw [ManifestFile.coordinate?, ManifestFile.text?, Option.bind_some, parse?_text h]

/-- **Reading accepts the grammar** and nothing else, blanks around a text aside: what is read has
the trimmed text and is read from it again, and any other text is the one that the failure names.
The coordinates made of segments are those that are read back from their texts, and they are read
back from documents as well. -/
theorem reads_exactly_written :
    (∀ s, ((∃ c, parse s = .ok c) ↔ IsText (Text.trim s)) ∧
      (∀ c, parse s = .ok c → c.text = Text.trim s ∧ parse c.text = .ok c) ∧
      (¬ IsText (Text.trim s) → parse s = .error (.invalidCoordinate s))) ∧
    ∀ c : Coordinate, (parse c.text = .ok c ↔ c.IsSegmented) ∧
      (c.IsSegmented → (Json.parse c.toJson.compress).bind ofJson? = some c ∧
        ManifestFile.coordinate? (.text c.text) = some c) := by
  have haccepts : ∀ s, (∃ c, parse s = .ok c) ↔ IsText (Text.trim s) := by
    intro s
    rw [isText_iff]
    exact exists_congr fun c => parse_eq_ok_iff
  constructor
  · intro s
    refine ⟨haccepts s, ?_, ?_⟩
    · intro c hread
      obtain ⟨hsegmented, htrim⟩ := parse_eq_ok_iff.mp hread
      exact ⟨htrim.symm, parse_text hsegmented⟩
    · intro hnot
      apply parse_eq_error
      intro c hread
      exact hnot ((haccepts s).mp ⟨c, hread⟩)
  · intro c
    refine ⟨⟨fun hread => (parse_eq_ok_iff.mp hread).1, parse_text⟩, ?_⟩
    intro hsegmented
    exact ⟨ofJson?_of_compress hsegmented, coordinate?_text hsegmented⟩

/-- Blanks around a coordinate do not count, and dots in a row make none. -/
example : parse "\torg.slf4j:slf4j-api:1.7.36 " = .ok ⟨"org.slf4j", "slf4j-api", "1.7.36"⟩ ∧
    parse "..:b:1" = .error (.invalidCoordinate "..:b:1") := by decide +kernel

end Coordinate
end Artifact
end ScriptSession
