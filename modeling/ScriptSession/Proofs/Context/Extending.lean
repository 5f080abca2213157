import ScriptSession.Proofs.Context.Containment
import ScriptSession.Proofs.Files.Spellings

/-!
# Scopes that are extended

A scope takes in only the locations that it does not have yet, and two locations are the same even
if their paths are spelled in different ways. Of two directories one is as good as the other, since
a name follows either path (`moduleFile_of_same`). The path of an artifact is looked up as it is
spelled: one that ends in a separator leads to no file, and keeps the same artifact out that does.
Main statement: an extended scope asks, after its own locations, those among the others that are not
kept out in this way, and to extend it once more changes nothing (`extend_fills_gaps`).
-/

namespace ScriptSession
namespace Artifact
namespace CodeLocation

theorem same_refl (l : CodeLocation) : l.same l = true := by
  cases l with
  | directory p => exact p.same_refl
  | artifact c p => simp [same, p.same_refl]

theorem same_trans {l l' l'' : CodeLocation} (h : l.same l' = true) (h' : l'.same l'' = true) :
    l.same l'' = true := by
  cases l with
  | directory p =>
    cases l' with
    | artifact c' p' => cases h
    | directory p' =>
      cases l'' with
      | artifact c'' p'' => cases h'
      | directory p'' => exact Path.same_trans h h'
  | artifact c p =>
    cases l' with
    | directory p' => cases h
    | artifact c' p' =>
      cases l'' with
      | directory p'' => cases h'
      | artifact c'' p'' =>
        simp only [same, Bool.and_eq_true, decide_eq_true_eq] at h h' ⊢
        exact ⟨h.1.trans h'.1, Path.same_trans h.2 h'.2⟩

/-- Whether a location may provide anything, whatever the files: an artifact does not if its path
ends in a separator or in a step to the place itself. -/
def mayAnswer : CodeLocation → Bool
  | .directory _ => true
  | .artifact _ path => path.endsInStep

end CodeLocation
end Artifact

namespace Context
namespace LoadingScope

open Artifact (CodeLocation)
open ScriptSession.Path (IsName components_withFileName endsInName_withFileName endsInStep_join
  fileName?_eq_some_iff)

variable {host : Host} {name : String} {s : LoadingScope} {l : CodeLocation}

/-! ## Single locations -/

theorem isName_moduleName (p : Path) :
    IsName (p.fileName?.getD "" ++ "." ++ Artifact.moduleExtension) := by
  cases hfile : p.fileName? with
  | none => exact isName_dot_extension
  | some last =>
    apply isName_append_extension
    apply Path.isName_of_mem_components (p := p)
    exact List.mem_of_getLast? (fileName?_eq_some_iff.mp hfile)

/-- However the path of a directory is spelled, the file of a module below it is the same, and it is
spelled with the same end. -/
theorem moduleFile_of_same {dir dir' : Path} (hsame : dir.same dir' = true)
    (hname : isContained name = true) :
    (moduleFile dir name).same (moduleFile dir' name) = true ∧
      (moduleFile dir name).endsInStep = (moduleFile dir' name).endsInStep := by
  have hrelative := isAbsolute_of_isContained hname
  have hjoin := Path.same_join hsame hrelative
  have hcomponents : (dir.join name).components = (dir'.join name).components := by
    rwa [Path.same, beq_iff_eq] at hjoin
  have hfile : (dir.join name).fileName? = (dir'.join name).fileName? := by
    rw [Path.fileName?, Path.fileName?, hcomponents]
  have hextension : (dir.join name).extension? = (dir'.join name).extension? := by
    rw [Path.extension?, Path.extension?, hfile]
  -- A name with the extension is the end of the file's path, and any other name is replaced.
  by_cases hext : (dir'.join name).extension? = some Artifact.moduleExtension
  · rw [moduleFile, moduleFile, if_pos (hextension.trans hext), if_pos hext]
    refine ⟨hjoin, ?_⟩
    rw [endsInStep_join dir hrelative, endsInStep_join dir' hrelative]
  · have hnew := isName_moduleName (dir'.join name)
    rw [moduleFile, moduleFile, if_neg (hextension ▸ hext), if_neg hext, hfile]
    constructor
    · rw [Path.same, beq_iff_eq, components_withFileName _ hnew, components_withFileName _ hnew,
        hfile, hcomponents]
    · rw [(endsInName_withFileName _ hnew).endsInStep, (endsInName_withFileName _ hnew).endsInStep]

theorem findIn_directory_eq_none_iff {dir : Path} : findIn host name (.directory dir) = none ↔
    (isContained name = true → host.isFile (moduleFile dir name) = false) := by
  rw [findIn, ite_eq_right_iff, Bool.and_eq_true]
  simp

theorem findIn_artifact_eq_none_iff {c : Artifact.Coordinate} {path : Path} :
    findIn host name (.artifact c path) = none ↔
      (c.artifact = name ∨ c.text = name → host.isFile path = false) := by
  rw [findIn, ite_eq_right_iff]
  simp

theorem findIn_of_not_mayAnswer (h : l.mayAnswer = false) : findIn host name l = none := by
  cases l with
  | directory dir => cases h
  | artifact c path =>
    rw [findIn_artifact_eq_none_iff]
    intro _
    by_contra hfile
    rw [Bool.not_eq_false] at hfile
    have hstep := Files.endsInStep_of_isFile hfile
    rw [CodeLocation.mayAnswer, hstep] at h
    cases h

/-- A location that may answer and has no such module: the same location has none either. -/
theorem findIn_of_same {first : CodeLocation} (hsame : first.same l = true)
    (hmay : first.mayAnswer = true) (hnone : findIn host name first = none) :
    findIn host name l = none := by
  cases first with
  | directory dir =>
    cases l with
    | artifact c path => cases hsame
    | directory dir' =>
      rw [findIn_directory_eq_none_iff] at hnone ⊢
      intro hname
      obtain ⟨hfile, hend⟩ := moduleFile_of_same hsame hname
      rw [← hnone hname]
      exact (Files.isFile_congr hfile hend).symm
  | artifact c path =>
    cases l with
    | directory dir' => cases hsame
    | artifact c' path' =>
      rw [CodeLocation.same, Bool.and_eq_true, decide_eq_true_eq] at hsame
      obtain ⟨rfl, hpath⟩ := hsame
      rw [findIn_artifact_eq_none_iff] at hnone ⊢
      intro hname
      by_contra hfile
      rw [Bool.not_eq_false] at hfile
      -- The other spelling leads to a file, so both paths end in a step of their own.
      have hstep : path.endsInStep = path'.endsInStep := by
        rw [Files.endsInStep_of_isFile hfile]
        exact hmay
      have hfirst : host.isFile path = true := (Files.isFile_congr hpath hstep).trans hfile
      rw [hnone hname] at hfirst
      cases hfirst

/-! ## Extending -/

theorem extend_concat (s : LoadingScope) (ls : List CodeLocation) (l : CodeLocation) :
    s.extend (ls ++ [l]) = (s.extend ls).push l := by
  rw [extend, List.foldl_append]
  rfl

theorem any_same_iff {ls : List CodeLocation} :
    ls.any (·.same l) = true ↔ (ls.find? (·.same l)).isSome = true := by
  rw [List.find?_isSome, List.any_eq_true]

/-- Of the locations that are the same, an extended scope has the first one. -/
theorem find?_extend (s : LoadingScope) (ls : List CodeLocation) (l : CodeLocation) :
    (s.extend ls).locations.find? (·.same l) = (s.locations ++ ls).find? (·.same l) := by
  induction ls using List.reverseRecOn with
  | nil => exact congrArg _ (List.append_nil _).symm
  | append_singleton ls x ih =>
    rw [extend_concat, push, ← List.append_assoc, List.find?_append, ← ih]
    split
    · rename_i hthere
      cases hx : x.same l with
      | false => simp [hx]
      | true =>
        -- What is the same as the new location is the same as the one that is looked for.
        obtain ⟨y, hy, hyx⟩ := List.any_eq_true.mp hthere
        have hfound : ((s.extend ls).locations.find? (·.same l)).isSome = true :=
          List.find?_isSome.mpr ⟨y, hy, CodeLocation.same_trans hyx hx⟩
        rw [Option.or_of_isSome hfound]
    · rw [List.find?_append]

theorem extend_of_there {ls : List CodeLocation}
    (h : ∀ l ∈ ls, s.locations.any (·.same l) = true) : s.extend ls = s := by
  induction ls with
  | nil => rfl
  | cons l rest ih =>
    have hpush : s.push l = s := if_pos (h l List.mem_cons_self)
    rw [extend, List.foldl_cons, hpush]
    exact ih fun l' hl' => h l' (List.mem_cons_of_mem l hl')

theorem extend_extend (s : LoadingScope) (ls : List CodeLocation) :
    (s.extend ls).extend ls = s.extend ls := by
  apply extend_of_there
  intro l hl
  rw [any_same_iff, find?_extend, List.find?_isSome]
  exact ⟨l, List.mem_append_right _ hl, l.same_refl⟩

/-! ## What an extended scope finds -/

/-- Whether a location counts among others: the first one of these that is the same may answer. -/
def counts (ls : List CodeLocation) (l : CodeLocation) : Bool :=
  (ls.find? (·.same l)).all CodeLocation.mayAnswer

/-- Locations behind a location do not change whether it counts. -/
theorem counts_append {ls : List CodeLocation} (h : l ∈ ls) (more : List CodeLocation) :
    counts (ls ++ more) l = counts ls l := by
  have hfound : (ls.find? (·.same l)).isSome = true := List.find?_isSome.mpr ⟨l, h, l.same_refl⟩
  rw [counts, counts, List.find?_append, Option.or_of_isSome hfound]

theorem findModule_append (front back : List CodeLocation) :
    findModule ⟨front ++ back⟩ host name =
      (findModule ⟨front⟩ host name).or (back.findSome? (findIn host name)) := by
  unfold findModule
  rw [List.findSome?_append]

/-- A location that counts and is there already has been asked there. -/
theorem findIn_of_there {ls : List CodeLocation} {x : CodeLocation}
    (hthere : (s.extend ls).locations.any (·.same x) = true)
    (hcounts : counts (s.locations ++ (ls ++ [x])) x = true)
    (hnone : (s.extend ls).findModule host name = none) : findIn host name x = none := by
  rw [any_same_iff, Option.isSome_iff_exists] at hthere
  obtain ⟨first, hfirst⟩ := hthere
  have hmay : first.mayAnswer = true := by
    have hkept : (s.locations ++ ls).find? (·.same x) = some first := by
      rw [← find?_extend, hfirst]
    rw [counts, ← List.append_assoc, List.find?_append, hkept] at hcounts
    exact hcounts
  have hasked : findIn host name first = none :=
    List.findSome?_eq_none_iff.mp hnone first (List.mem_of_find?_eq_some hfirst)
  have hsame : first.same x = true := by
    simpa using List.find?_some hfirst
  exact findIn_of_same hsame hmay hasked

/-- A new location is the first one that is the same as itself. -/
theorem counts_of_new {ls : List CodeLocation} {x : CodeLocation}
    (hnew : ¬ (s.extend ls).locations.any (·.same x) = true) :
    counts (s.locations ++ (ls ++ [x])) x = x.mayAnswer := by
  have hnone : (s.locations ++ ls).find? (·.same x) = none := by
    rw [← find?_extend, ← Option.not_isSome_iff_eq_none, ← any_same_iff]
    exact hnew
  have hfirst : (s.locations ++ (ls ++ [x])).find? (·.same x) = some x := by
    rw [← List.append_assoc, List.find?_append, hnone, Option.none_or]
    simp [x.same_refl]
  rw [counts, hfirst]
  rfl

theorem findModule_extend (s : LoadingScope) (ls : List CodeLocation) (host : Host)
    (name : String) :
    (s.extend ls).findModule host name = (s.findModule host name).or
      ((ls.filter (counts (s.locations ++ ls))).findSome? (findIn host name)) := by
  -- From the end, since locations further behind do not change which of these count.
  induction ls using List.reverseRecOn with
  | nil => exact (Option.or_none).symm
  | append_singleton ls x ih =>
    have hbefore : ls.filter (counts (s.locations ++ (ls ++ [x]))) =
        ls.filter (counts (s.locations ++ ls)) := by
      apply List.filter_congr
      intro l hl
      rw [← List.append_assoc, counts_append (List.mem_append_right _ hl)]
    rw [List.filter_append, List.findSome?_append, hbefore, ← Option.or_assoc, ← ih,
      extend_concat, push]
    split
    · rename_i hthere
      cases hcounts : counts (s.locations ++ (ls ++ [x])) x with
      | false => simp [hcounts]
      | true =>
        cases hfind : (s.extend ls).findModule host name with
        | some path => rfl
        | none => simp [hcounts, findIn_of_there hthere hcounts hfind]
    · rename_i hnew
      have hcounts : counts (s.locations ++ (ls ++ [x])) x = x.mayAnswer := counts_of_new hnew
      rw [findModule_append]
      cases hmay : x.mayAnswer with
      | true => rw [List.filter_singleton, hcounts, hmay, cond_true]
      | false =>
        rw [List.filter_singleton, hcounts, hmay, cond_false, List.findSome?_cons,
          findIn_of_not_mayAnswer hmay]

/-- **An extended scope finds what the scope finds**, and otherwise what the first of the other
locations has, in their order, among those that count. As long as all of them count, it finds what a
scope finds that leaves none of them out. To extend it by the same locations once more changes
nothing. -/
theorem extend_fills_gaps (s : LoadingScope) (ls : List CodeLocation) :
    (∀ host name, (s.extend ls).findModule host name = (s.findModule host name).or
      ((ls.filter (counts (s.locations ++ ls))).findSome? (findIn host name))) ∧
    (∀ host name, (∀ l ∈ ls, counts (s.locations ++ ls) l = true) →
      (s.extend ls).findModule host name = findModule ⟨s.locations ++ ls⟩ host name) ∧
    (s.extend ls).extend ls = s.extend ls := by
  refine ⟨findModule_extend s ls, ?_, extend_extend s ls⟩
  intro host name hall
  rw [findModule_extend, List.filter_eq_self.mpr hall, findModule_append]

/-- An artifact with a separator at the end of its path keeps out the same one without it, and the
file that the latter leads to is not found. -/
theorem extend_leaves_gap :
    let host : Host := ⟨⟨[(["lib"], .directory), (["lib", "a.rhai"], .file .empty)]⟩, [], [], []⟩
    let ls : List CodeLocation :=
      [.artifact ⟨"g", "a", "1"⟩ ⟨"lib/a.rhai/"⟩, .artifact ⟨"g", "a", "1"⟩ ⟨"lib/a.rhai"⟩]
    empty.findModule host "a" = none ∧ ls.findSome? (findIn host "a") = some ⟨"lib/a.rhai"⟩ ∧
      (empty.extend ls).findModule host "a" = none := by
  decide

end LoadingScope
end Context
end ScriptSession
