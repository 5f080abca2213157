import ScriptSession.Context.Loading
import ScriptSession.Proofs.Path.Components

/-!
# Where modules are found

A module that a directory provides is to lie below that directory. The name of a module is checked
by itself, and its file is made of the joined path, whose last name may be one of the directory if
the module's name has none of its own. Main statement: the file is below the directory exactly if
the name of the module has a component that is a name (`LoadingScope.found_below_iff`).
-/

namespace ScriptSession
namespace Context
namespace LoadingScope

open ScriptSession.Path (Component IsName components_eq_parent components_join components_join_name
  components_withFileName fileName?_eq_some_iff splitName splitName_append walk)

/-- The path is that of the directory, then names and steps to the place itself, then the name of a
module file. -/
def Below (dir path : Path) : Prop :=
  ∃ steps name, path.components = dir.components ++ steps ++ [.normal name] ∧
    (∀ c ∈ steps, c = .current ∨ ∃ n, c = .normal n) ∧
    (splitName name).2 = some Artifact.moduleExtension

/-- The first location that has a module. -/
def provider? (s : LoadingScope) (host : Host) (name : String) : Option Artifact.CodeLocation :=
  s.locations.find? fun l => (findIn host name l).isSome

/-- A module is found where the first location that has it says. -/
theorem findModule_eq (s : LoadingScope) (host : Host) (name : String) :
    s.findModule host name = (s.provider? host name).bind (findIn host name) := by
  rw [findModule, provider?]
  induction s.locations with
  | nil => rfl
  | cons l rest ih =>
    rw [List.findSome?_cons, List.find?_cons]
    cases hfound : findIn host name l with
    | none =>
      rw [Option.isSome_none]
      exact ih
    | some path =>
      rw [Option.isSome_some, Option.bind_some, hfound]

/-! ## Names that stay below -/

theorem isContained_iff {name : String} : isContained name = true ↔
    name ≠ "" ∧ ∀ c ∈ (Path.mk name).components, c = .current ∨ ∃ n, c = .normal n := by
  rw [isContained, Bool.and_eq_true, Bool.not_eq_true', String.isEmpty_eq_false_iff,
    List.all_eq_true]
  refine and_congr_right fun _ => forall₂_congr fun c _ => ?_
  cases c <;> simp

theorem isAbsolute_of_isContained {name : String} (h : isContained name = true) :
    (Path.mk name).isAbsolute = false := by
  rw [← Bool.not_eq_true]
  intro habsolute
  obtain hcurrent | ⟨n, hn⟩ :=
    (isContained_iff.mp h).2 _ (Path.root_mem_of_isAbsolute habsolute)
  · cases hcurrent
  · cases hn

/-- A contained name is names behind a separator, with at most a step to the place itself before
them. -/
theorem walk_of_isContained {name : String} (h : isContained name = true) :
    (∀ c ∈ walk name.toList, ∃ n, c = .normal n) ∧
      ∃ lead, (lead = [] ∨ lead = [.current]) ∧
        (Path.mk name).components = lead ++ walk name.toList := by
  have hlead : ∃ lead, (lead = [] ∨ lead = [.current]) ∧
      (Path.mk name).components = lead ++ walk name.toList := by
    obtain heq | ⟨heq, -⟩ := Path.components_of_relative (isAbsolute_of_isContained h)
    · exact ⟨[], .inl rfl, heq⟩
    · exact ⟨[.current], .inr rfl, heq⟩
  refine ⟨fun c hc => ?_, hlead⟩
  obtain ⟨lead, -, hcomponents⟩ := hlead
  have hmem : c ∈ (Path.mk name).components := by
    rw [hcomponents]
    exact List.mem_append_right lead hc
  obtain rfl | hnormal := (isContained_iff.mp h).2 c hmem
  · obtain hparent | ⟨n, hn, -⟩ := Path.of_mem_walk hc
    · cases hparent
    · cases hn
  · exact hnormal

/-- A contained name that is joined to a directory appends its names, with at most a step to the
place itself before them. -/
theorem components_join_of_isContained (dir : Path) {name : String}
    (h : isContained name = true) :
    ∃ lead, (lead = [] ∨ lead = [.current] ∧ dir.components = []) ∧
      (dir.join name).components = dir.components ++ lead ++ walk name.toList := by
  rw [components_join dir (isAbsolute_of_isContained h)]
  split
  · rename_i hempty
    obtain ⟨text⟩ := dir
    obtain rfl : text = "" := hempty
    obtain ⟨-, lead, hlead, hcomponents⟩ := walk_of_isContained h
    exact ⟨lead, hlead.imp_right fun hcurrent => ⟨hcurrent, rfl⟩, hcomponents⟩
  · exact ⟨[], .inl rfl, by rw [List.append_nil]⟩

/-- Whether a contained name has a component that is a name shows behind a separator. -/
theorem exists_normal_iff {name : String} (h : isContained name = true) :
    (∃ n, .normal n ∈ (Path.mk name).components) ↔ walk name.toList ≠ [] := by
  obtain ⟨hwalk, lead, hlead, hcomponents⟩ := walk_of_isContained h
  rw [hcomponents]
  constructor
  · rintro ⟨n, hn⟩ hnil
    rw [hnil, List.append_nil] at hn
    obtain rfl | rfl := hlead <;> simp at hn
  · intro hne
    obtain ⟨n, hn⟩ := hwalk _ (List.getLast_mem hne)
    exact ⟨n, hn ▸ List.mem_append_right lead (List.getLast_mem hne)⟩

/-! ## Files of modules -/

theorem isName_append_extension {stem : String} (h : IsName stem) :
    IsName (stem ++ "." ++ Artifact.moduleExtension) := by
  have hlist : (stem ++ "." ++ Artifact.moduleExtension).toList =
      stem.toList ++ ['.', 'r', 'h', 'a', 'i'] := by
    rw [String.toList_append, String.toList_append, List.append_assoc]
    rfl
  have hlength : 5 ≤ (stem ++ "." ++ Artifact.moduleExtension).toList.length := by
    rw [hlist, List.length_append]
    exact Nat.le_add_left 5 _
  refine ⟨?_, ?_, ?_, ?_⟩
  · rw [hlist, List.mem_append, not_or]
    exact ⟨h.single, by decide⟩
  all_goals
    intro heq
    rw [heq] at hlength
    exact absurd hlength (by decide)

theorem isName_dot_extension : IsName ("" ++ "." ++ Artifact.moduleExtension) := by
  constructor <;> decide

/-- The file of a module whose joined path ends in a name. -/
theorem components_moduleFile {dir : Path} {name last : String} {front : List Component}
    (h : (dir.join name).components = front ++ [.normal last]) :
    ∃ file, (moduleFile dir name).components = front ++ [.normal file] ∧
      (splitName file).2 = some Artifact.moduleExtension := by
  have hfile : (dir.join name).fileName? = some last := by
    rw [fileName?_eq_some_iff, h, List.getLast?_concat]
  have hname : IsName last := Path.isName_of_mem_components (by
    rw [h]
    exact List.mem_append_right front (List.mem_singleton_self _))
  rw [moduleFile]
  split
  · rename_i hext
    rw [Path.extension?, hfile, Option.bind_some] at hext
    exact ⟨last, h, hext⟩
  · refine ⟨last ++ "." ++ Artifact.moduleExtension, ?_, ?_⟩
    · rw [hfile, Option.getD_some, components_withFileName _ (isName_append_extension hname), hfile,
        h, List.dropLast_concat]
      rfl
    · rw [splitName_append hname.ne_empty (by decide)]

/-- The file of a module whose joined path does not end in a name is called by the extension
alone. -/
theorem components_moduleFile_of_none {dir : Path} {name : String}
    (h : (dir.join name).fileName? = none) :
    (moduleFile dir name).components =
      (dir.join name).components ++ [.normal ("" ++ "." ++ Artifact.moduleExtension)] := by
  rw [moduleFile, if_neg (by rw [Path.extension?, h]; exact nofun), h, Option.getD_none,
    components_withFileName _ isName_dot_extension, h]
  rfl

/-- The file of a contained module is below its directory if the module's name has a name. -/
theorem below_moduleFile {dir : Path} {name : String} (h : isContained name = true)
    (hne : walk name.toList ≠ []) : Below dir (moduleFile dir name) := by
  obtain ⟨hwalk, -⟩ := walk_of_isContained h
  obtain ⟨lead, hlead, hjoin⟩ := components_join_of_isContained dir h
  obtain ⟨last, hlast⟩ := hwalk _ (List.getLast_mem hne)
  rw [← List.dropLast_concat_getLast hne, hlast, ← List.append_assoc] at hjoin
  obtain ⟨file, hcomponents, hext⟩ := components_moduleFile hjoin
  rw [List.append_assoc dir.components] at hcomponents
  refine ⟨lead ++ (walk name.toList).dropLast, file, hcomponents, fun c hc => ?_, hext⟩
  obtain hc | hc := List.mem_append.mp hc
  · obtain rfl | ⟨rfl, -⟩ := hlead
    · cases hc
    · exact .inl (List.mem_singleton.mp hc)
  · exact .inr (hwalk c (List.dropLast_subset _ hc))

/-- It is not if the module's name has none: the file takes the place of the directory, or is called
by the extension alone, which is no extension. -/
theorem not_below_moduleFile {dir : Path} {name : String} (h : isContained name = true)
    (hnil : walk name.toList = []) : ¬ Below dir (moduleFile dir name) := by
  rintro ⟨steps, file, hbelow, -, hext⟩
  obtain ⟨lead, hlead, hjoin⟩ := components_join_of_isContained dir h
  rw [hnil, List.append_nil] at hjoin
  cases hfile : (dir.join name).fileName? with
  | none =>
    rw [components_moduleFile_of_none hfile] at hbelow
    have hlast : file = "" ++ "." ++ Artifact.moduleExtension := by
      have heq := congrArg List.getLast? hbelow
      rw [List.getLast?_concat, List.getLast?_concat] at heq
      cases heq
      rfl
    rw [hlast] at hext
    revert hext
    decide
  | some last =>
    -- The last name is the directory's own, so the file has as many components as the directory.
    obtain ⟨q, -, hparent⟩ := components_eq_parent hfile
    obtain ⟨file', hcomponents, -⟩ := components_moduleFile hparent
    have hdir : (dir.join name).components = dir.components := by
      obtain rfl | ⟨rfl, hempty⟩ := hlead
      · rw [hjoin, List.append_nil]
      · rw [hjoin, hempty, List.nil_append] at hparent
        have hlast : .normal last ∈ [Component.current] := by
          rw [hparent]
          exact List.mem_append_right q.components (List.mem_singleton_self _)
        cases List.mem_singleton.mp hlast
    have hlength : (moduleFile dir name).components.length = dir.components.length := by
      rw [hcomponents, ← hdir, hparent, List.length_append, List.length_append]
      rfl
    rw [hbelow, List.length_append, List.length_append, List.length_singleton] at hlength
    omega

/-! ## Main statement -/

/-- A module that a directory provides is found below the directory exactly if its name has a
component that is a name. -/
theorem found_below_iff (s : LoadingScope) (host : Host) (name : String) (dir path : Path)
    (hdir : s.provider? host name = some (.directory dir))
    (hpath : s.findModule host name = some path) :
    Below dir path ↔ ∃ n, .normal n ∈ (Path.mk name).components := by
  rw [findModule_eq, hdir, Option.bind_some, findIn] at hpath
  split at hpath
  · rename_i hfound
    rw [Bool.and_eq_true] at hfound
    obtain rfl := Option.some.inj hpath
    rw [exists_normal_iff hfound.1]
    constructor
    · intro hbelow hnil
      exact not_below_moduleFile hfound.1 hnil hbelow
    · exact below_moduleFile hfound.1
  · cases hpath

/-- A host with a directory of modules, one of them in a further directory, and a file beside the
directory that is called like it. -/
def hostWithSibling : Host :=
  ⟨⟨[(["w"], .directory), (["w", "mods"], .directory), (["w", "mods", "text"], .directory),
    (["w", "mods", "text", "pad.rhai"], .file .empty), (["w", "mods.rhai"], .file .empty)]⟩,
    ["w"], [], []⟩

/-- A name with steps to the place itself and a doubled separator stays below the directory. -/
theorem found_below_directory :
    let s : LoadingScope := ⟨[.directory ⟨"mods"⟩]⟩
    (s.provider? hostWithSibling "./text//./pad" = some (.directory ⟨"mods"⟩) ∧
      s.findModule hostWithSibling "./text//./pad" = some ⟨"mods/./text/pad.rhai"⟩) ∧
      Below ⟨"mods"⟩ ⟨"mods/./text/pad.rhai"⟩ := by
  intro s
  have hdir : s.provider? hostWithSibling "./text//./pad" = some (.directory ⟨"mods"⟩) := by decide
  have hpath : s.findModule hostWithSibling "./text//./pad" = some ⟨"mods/./text/pad.rhai"⟩ := by
    decide
  exact ⟨⟨hdir, hpath⟩, (found_below_iff s hostWithSibling "./text//./pad" _ _ hdir hpath).mpr
    ⟨"pad", by decide⟩⟩

/-- The name of the place itself is found beside the directory, and not below it. -/
theorem found_beside_directory :
    let s : LoadingScope := ⟨[.directory ⟨"mods"⟩]⟩
    s.provider? hostWithSibling "." = some (.directory ⟨"mods"⟩) ∧
      s.findModule hostWithSibling "." = some ⟨"mods.rhai"⟩ ∧ ¬ Below ⟨"mods"⟩ ⟨"mods.rhai"⟩ := by
  refine ⟨by decide, by decide, ?_⟩
  rintro ⟨steps, name, hcomponents, -⟩
  have hlength := congrArg List.length hcomponents
  rw [List.length_append, List.length_append] at hlength
  change 1 = 1 + steps.length + 1 at hlength
  omega

end LoadingScope
end Context
end ScriptSession
