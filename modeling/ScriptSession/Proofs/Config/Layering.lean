import ScriptSession.Proofs.Artifact.Storing
import ScriptSession.Proofs.Config.Merging

/-!
# Settings from layers

Every setting that is loaded has the value of the highest layer that sets it, and its default where
no layer does (`settings_layered`). A layer may also give something else than a table where settings
are grouped, and then the layers below it are not asked any more: a setting that no layer above sets
again has its default, whatever they say of it. A group that is left as an array is read by the
order of its names (`highest_not_taken`).
-/

namespace ScriptSession
namespace Config

open Toml (Value)

/-! ## Reading what was merged -/

/-- What a reader makes of merged values: nothing of an empty table, and of anything else what it
makes of the value that was merged last. -/
structure ReadsLast {α : Type} (read : Value → Option α) : Prop where
  empty : read (.table []) = none
  last : ∀ (old v : Value) (a : α), v ≠ .table [] → read (overlaid old v) = some a →
    read (overlaid (.table []) v) = some a

variable {α : Type} {read : Value → Option α} {default a : α} {old v : Value} {name : String}
  {fields : List (String × Value)}

theorem ReadsLast.of_scalar (h : ∀ fields, read (.table fields) = none) : ReadsLast read where
  empty := h []
  last old v a hne hread := by
    cases v with
    | table fields =>
      rw [overlaid_table old fun hnil => hne (congrArg Value.table hnil), h] at hread
      cases hread
    | _ => exact hread

/-- The names of merged fields. -/
theorem mem_map_fst_mergeFields {old : List (String × Value)} :
    name ∈ (mergeFields old fields).map (·.1) ↔
      name ∈ old.map (·.1) ∨ name ∈ fields.map (·.1) := by
  induction fields generalizing old with
  | nil => exact (or_iff_left List.not_mem_nil).symm
  | cons f fields ih =>
    have hset : name ∈ (setEntry f.1 (overlaid (entryOf f.1 old) f.2) old).map (·.1) ↔
        name ∈ old.map (·.1) ∨ name = f.1 := by
      rw [map_fst_setEntry]
      split
      next hmem => exact (or_iff_left_of_imp fun heq => heq ▸ hmem).symm
      next => rw [List.mem_append, List.mem_singleton]
    rw [mergeFields_cons, ih, hset, List.map_cons, List.mem_cons, or_assoc]

/-- What is merged from something is no empty table. -/
theorem overlaid_ne_empty (old : Value) (hne : v ≠ .table []) : overlaid old v ≠ .table [] := by
  cases v with
  | table fields =>
    cases fields with
    | nil => exact absurd rfl hne
    | cons f fields =>
      rw [overlaid_table old (List.cons_ne_nil f fields)]
      intro heq
      have hmem : f.1 ∈ (mergeFields (entriesOf old) (f :: fields)).map (·.1) :=
        mem_map_fst_mergeFields.mpr (.inr (List.mem_cons_self ..))
      rw [Value.table.inj heq] at hmem
      cases hmem
  | _ => exact hne

/-- A list of one item several times, in which nothing is twice. -/
theorem eq_singleton_of_nodup {names : List String} (hnodup : names.Nodup) (hne : names ≠ [])
    (h : ∀ n ∈ names, n = name) : names = [name] := by
  cases names with
  | nil => exact absurd rfl hne
  | cons n rest =>
    obtain rfl := h n List.mem_cons_self
    have hrest : rest = [] := List.eq_nil_iff_forall_not_mem.mpr fun m hm =>
      (List.nodup_cons.mp hnodup).1 (h m (List.mem_cons_of_mem n hm) ▸ hm)
    rw [hrest]

/-- A strategy in the form of a table is the one name of that table, so that every layer that was
merged has that name. -/
theorem readsLast_looseResolver? : ReadsLast looseResolver? where
  empty := rfl
  last old v a hne hread := by
    cases v with
    | table fields =>
      have hnil : fields ≠ [] := fun hnil => hne (congrArg Value.table hnil)
      rw [overlaid_table old hnil] at hread
      rw [overlaid_table _ hnil]
      obtain ⟨n, x, hmerged⟩ : ∃ n x, mergeFields (entriesOf old) fields = [(n, x)] := by
        match mergeFields (entriesOf old) fields, hread with
        | [(n, x)], _ => exact ⟨n, x, rfl⟩
      -- Merging drops no name, so the last layer has that one name and no other.
      have hnames : ∀ m ∈ fields.map (·.1), m = n := by
        intro m hm
        have hmem := mem_map_fst_mergeFields.mpr (.inr hm : m ∈ (entriesOf old).map (·.1) ∨ _)
        rw [hmerged] at hmem
        exact List.mem_singleton.mp hmem
      have halone : (mergeFields [] fields).map (·.1) = [n] := by
        refine eq_singleton_of_nodup (nodup_mergeFields fields List.nodup_nil) ?_ fun m hm =>
          hnames m ((mem_map_fst_mergeFields.mp hm).resolve_left List.not_mem_nil)
        obtain ⟨m, hm⟩ := List.exists_mem_of_ne_nil _ (mt List.map_eq_nil_iff.mp hnil)
        exact List.ne_nil_of_mem (mem_map_fst_mergeFields.mpr (.inr hm))
      obtain ⟨⟨_, y⟩, hsingle, rfl⟩ := List.map_eq_singleton_iff.mp halone
      rw [hmerged] at hread
      rw [show entriesOf (.table []) = [] from rfl, hsingle]
      exact hread
    | _ => exact hread

/-! ## Single settings -/

/-- A setting of a group: its name, how it is read and what it is when nothing sets it. -/
structure Field (R : Type) where
  {Carrier : Type}
  name : String
  read : Value → Option Carrier
  default : Carrier
  value : R → Carrier
  readsLast : ReadsLast read

/-- A setting that no table can be read as. -/
def Field.plain {R Carrier : Type} (name : String) (read : Value → Option Carrier)
    (default : Carrier) (value : R → Carrier)
    (h : ∀ fields, read (.table fields) = none := by exact fun _ => rfl) : Field R :=
  ⟨name, read, default, value, .of_scalar h⟩

/-- The settings of a session. -/
def sessionFields : List (Field SessionSettings) := [
  .plain "use_manifest_resolution" looseBool? false (·.usesManifest),
  ⟨"resolver", looseResolver?, .manifestFile, (·.resolver), readsLast_looseResolver?⟩,
  .plain "include_local_build_output" looseBool? true (·.includesBuildOutput),
  .plain "build_output_dirs" (loose.list? looseText?) defaultBuildOutputDirs (·.buildOutputDirs),
  .plain "install_dir" loose.path? none (·.installDir),
  .plain "project_dir" loose.path? none (·.projectDir),
  .plain "module_dirs" (loose.list? fun v => (looseText? v).map Path.mk) [] (·.moduleDirs),
  .plain "repositories" (loose.list? looseRepository?) [] (·.repositories),
  .plain "dependencies" (loose.list? fun v => (looseText? v).bind Artifact.Coordinate.parse?) []
    (·.dependencies),
  .plain "autorun_global" looseBool? true (·.autorunGlobal),
  .plain "autorun_project" looseBool? true (·.autorunProject),
  .plain "cache_dir" loose.path? none (·.cacheDir),
  .plain "watch_manifest" looseBool? false (·.watchesManifest)]

/-- The settings of the log, but for the levels of modules. -/
def loggingFields (host : Host) : List (Field LoggingSettings) := [
  .plain "level" looseText? "warn" (·.level),
  .plain "format" looseText? "text" (·.format),
  .plain "output" looseText? "stderr" (·.output),
  .plain "file" (fun v => (looseText? v).map Path.mk) (defaultLogFile host) (·.file),
  .plain "color" looseBool? true (·.color)]

/-- A setting in the tree of all settings, with what is read for it where there is an array in the
place of its group. -/
structure Leaf where
  {Carrier : Type}
  group : String
  below : List String
  read : Value → Option Carrier
  default : Carrier
  value : Settings → Carrier
  listed : List Value → Option Carrier
  readsLast : ReadsLast read

/-- The path of a setting. -/
def Leaf.path (l : Leaf) : List String := l.group :: l.below

/-- The leaf of a setting of a group with some names. -/
def Field.leaf {R : Type} (group : String) (names : List String) (part : Settings → R)
    (f : Field R) : Leaf where
  group := group
  below := [f.name]
  read := f.read
  default := f.default
  value s := f.value (part s)
  listed items := Decoder.setting f.read f.default f.name (names.zip items)
  readsLast := f.readsLast

/-- The level of a module. -/
def levelOf (name : String) (levels : List (String × String)) : Option String :=
  (levels.find? fun l => l.1 = name).map (·.2)

/-- The leaf of the level of a module; a module without one has none. -/
def levelLeaf (name : String) : Leaf where
  group := "logging"
  below := ["modules", name]
  read v := (looseText? v).map some
  default := none
  value s := levelOf name s.logging.modules
  listed items :=
    (Decoder.setting loose.levels? [] "modules" (Decoder.loggingNames.zip items)).map (levelOf name)
  readsLast := .of_scalar fun _ => rfl

/-- All settings, but for the levels of modules. -/
def leaves (host : Host) : List Leaf :=
  sessionFields.map (Field.leaf "session" Decoder.sessionNames (·.session)) ++
    (loggingFields host).map (Field.leaf "logging" Decoder.loggingNames (·.logging))

/-- How a setting comes out of layers, the highest one first. -/
inductive Leaf.Follows (l : Leaf) (layers : List (List (String × Value))) (s : Settings) :
    Prop where
  /-- No layer says anything of it. -/
  | unset (h : heard l.path layers = none) (hvalue : l.value s = l.default)
  /-- The highest layer that says anything of it gives the value, as it does alone. -/
  | set {v : Value} (h : heard l.path layers = some (.gives v))
    (hvalue : l.read (overlaid (.table []) v) = some (l.value s))
  /-- A layer has something else than a table where the setting would be, and none above it sets the
  setting. -/
  | hidden (h : heard l.path layers = some .hides)
      (hgroup : ∀ items, heard [l.group] layers ≠ some (.gives (.array items)))
      (hvalue : l.value s = l.default)
  /-- The group is an array in the highest layer that says anything of it, and the setting is the
  item at the position of its name. -/
  | listed {items : List Value} (h : heard [l.group] layers = some (.gives (.array items)))
    (hvalue : l.listed items = some (l.value s))

/-- Settings that come out of layers. -/
structure Layered (host : Host) (layers : List (List (String × Value))) (s : Settings) : Prop where
  leaves : ∀ l ∈ leaves host, l.Follows layers s
  levels : ∀ name, (levelLeaf name).Follows layers s

variable {layers : List (List (String × Value))} {host : Host} {s : Settings}

/-! ## Reading groups -/

/-- What layers come to, the highest one first. -/
def merged (layers : List (List (String × Value))) : Value :=
  layers.reverse.foldl onTop (.table [])

/-- What a setting is, from what the tree holds at its path, where its group is no array. -/
theorem Leaf.follows (l : Leaf) (hgroup : ∀ items, (merged layers).node [l.group] ≠ .array items)
    (hunset : (merged layers).node l.path = .table [] → l.value s = l.default)
    (hset : (merged layers).node l.path ≠ .table [] →
      l.read ((merged layers).node l.path) = some (l.value s)) :
    l.Follows layers s := by
  have hleaves := node_layers l.path layers
  rw [← merged] at hleaves
  cases hheard : heard l.path layers with
  | none =>
    rw [hheard] at hleaves
    exact .unset hheard (hunset hleaves)
  | some w =>
    rw [hheard] at hleaves
    cases w with
    | hides =>
      refine .hidden hheard (fun items hitems => ?_) (hunset hleaves)
      have harray := node_layers [l.group] layers
      rw [hitems] at harray
      obtain ⟨old, harray⟩ := harray
      exact hgroup items harray
    | gives v =>
      -- What the node holds is the last value laid over others, and it is read as that value is.
      obtain ⟨old, hnode⟩ := hleaves
      have hne : v ≠ .table [] := by
        rintro rfl
        exact not_heard_empty _ _ hheard
      rw [hnode] at hset
      exact .set hheard (l.readsLast.last old v _ hne (hset (overlaid_ne_empty old hne)))

/-- A setting that was read from fields is its default or was read from the value of its name. -/
theorem of_setting (hempty : ∀ b, read (.table []) = some b → b = default)
    (h : Decoder.setting read default name fields = some a) :
    (entryOf name fields = .table [] → a = default) ∧
      (entryOf name fields ≠ .table [] → read (entryOf name fields) = some a) := by
  rw [Decoder.setting] at h
  cases hfind : fields.find? fun f => f.1 = name with
  | none =>
    have hentry : entryOf name fields = .table [] := by rw [entryOf, hfind]; rfl
    rw [hfind] at h
    exact ⟨fun _ => (Option.some.inj h).symm, fun hne => absurd hentry hne⟩
  | some f =>
    have hentry : entryOf name fields = f.2 := by rw [entryOf, hfind]; rfl
    rw [hfind] at h
    rw [hentry]
    exact ⟨fun hf => hempty a (hf ▸ h), fun _ => h⟩

/-- A group that was read is what is read from its node. -/
theorem read_of_setting (hempty : read (.table []) = some default)
    (h : Decoder.setting read default name fields = some a) :
    read (entryOf name fields) = some a := by
  obtain ⟨hunset, hset⟩ := of_setting (fun b hb => Option.some.inj (hb.symm.trans hempty)) h
  by_cases hentry : entryOf name fields = .table []
  · rw [hentry, hempty, hunset hentry]
  · exact hset hentry

/-- What a reader of sessions read: fields, and every setting from them. -/
theorem session?_eq_some {v : Value} {r : SessionSettings} (h : loose.session? v = some r) :
    ∃ fs, looseFields? Decoder.sessionNames v = some fs ∧
      ∀ f ∈ sessionFields, Decoder.setting f.read f.default f.name fs = some (f.value r) := by
  unfold Decoder.session? at h
  obtain ⟨fs, hfs, h⟩ := Option.bind_eq_some_iff.mp h
  obtain ⟨_, h1, h⟩ := Option.bind_eq_some_iff.mp h
  obtain ⟨_, h2, h⟩ := Option.bind_eq_some_iff.mp h
  obtain ⟨_, h3, h⟩ := Option.bind_eq_some_iff.mp h
  obtain ⟨_, h4, h⟩ := Option.bind_eq_some_iff.mp h
  obtain ⟨_, h5, h⟩ := Option.bind_eq_some_iff.mp h
  obtain ⟨_, h6, h⟩ := Option.bind_eq_some_iff.mp h
  obtain ⟨_, h7, h⟩ := Option.bind_eq_some_iff.mp h
  obtain ⟨_, h8, h⟩ := Option.bind_eq_some_iff.mp h
  obtain ⟨_, h9, h⟩ := Option.bind_eq_some_iff.mp h
  obtain ⟨_, h10, h⟩ := Option.bind_eq_some_iff.mp h
  obtain ⟨_, h11, h⟩ := Option.bind_eq_some_iff.mp h
  obtain ⟨_, h12, h⟩ := Option.bind_eq_some_iff.mp h
  obtain ⟨_, h13, h⟩ := Option.bind_eq_some_iff.mp h
  cases h
  refine ⟨fs, hfs, ?_⟩
  simp only [sessionFields, List.forall_mem_cons, Field.plain]
  exact ⟨h1, h2, h3, h4, h5, h6, h7, h8, h9, h10, h11, h12, h13, nofun⟩

theorem logging?_eq_some {v : Value} {r : LoggingSettings} (h : loose.logging? host v = some r) :
    ∃ fs, looseFields? Decoder.loggingNames v = some fs ∧
      (∀ f ∈ loggingFields host, Decoder.setting f.read f.default f.name fs = some (f.value r)) ∧
      Decoder.setting loose.levels? [] "modules" fs = some r.modules := by
  unfold Decoder.logging? at h
  obtain ⟨fs, hfs, h⟩ := Option.bind_eq_some_iff.mp h
  obtain ⟨_, h1, h⟩ := Option.bind_eq_some_iff.mp h
  obtain ⟨_, h2, h⟩ := Option.bind_eq_some_iff.mp h
  obtain ⟨_, h3, h⟩ := Option.bind_eq_some_iff.mp h
  obtain ⟨_, h4, h⟩ := Option.bind_eq_some_iff.mp h
  obtain ⟨_, h5, h⟩ := Option.bind_eq_some_iff.mp h
  obtain ⟨_, h6, h⟩ := Option.bind_eq_some_iff.mp h
  cases h
  refine ⟨fs, hfs, ?_, h6⟩
  simp only [loggingFields, List.forall_mem_cons, Field.plain]
  exact ⟨h1, h2, h3, h4, h5, nofun⟩

/-- A node that is an array is the last one that was given. -/
theorem heard_of_node_array {path : List String} {items : List Value}
    (h : (merged layers).node path = .array items) :
    heard path layers = some (.gives (.array items)) := by
  have hleaves := node_layers path layers
  rw [← merged, h] at hleaves
  cases hheard : heard path layers with
  | none =>
    rw [hheard] at hleaves
    cases hleaves
  | some w =>
    rw [hheard] at hleaves
    cases w with
    | hides => cases hleaves
    | gives v =>
      obtain ⟨old, hold⟩ := hleaves
      cases v with
      | table fields =>
        -- Fields that are laid over anything make a table.
        cases fields with
        | nil => exact absurd hheard (not_heard_empty path layers)
        | cons f fields =>
          rw [overlaid_table old (List.cons_ne_nil f fields)] at hold
          cases hold
      | _ =>
        rw [hold]
        rfl

theorem node_pair (group name : String) (v : Value) :
    v.node [group, name] = entryOf name (entriesOf (v.node [group])) := by
  rw [node_cons, node_cons, node_cons]
  rfl

theorem entriesOf_of_looseFields? {names : List String} {v : Value}
    (h : looseFields? names v = some fields) :
    v = .table fields ∨ ∃ items, v = .array items ∧ fields = names.zip items := by
  cases v with
  | table fs => exact .inl (congrArg Value.table (Option.some.inj h))
  | array items =>
    rw [looseFields?] at h
    split at h
    · cases h
    · exact .inr ⟨items, rfl, (Option.some.inj h).symm⟩
  | _ => cases h

/-- A setting of a group that was read from layers. -/
theorem Field.follows {R : Type} {group : String} {names : List String} {part : Settings → R}
    (f : Field R) (hfields : looseFields? names ((merged layers).node [group]) = some fields)
    (h : Decoder.setting f.read f.default f.name fields = some (f.value (part s))) :
    (f.leaf group names part).Follows layers s := by
  obtain htable | ⟨items, harray, rfl⟩ := entriesOf_of_looseFields? hfields
  · have hnode : (merged layers).node [group, f.name] = entryOf f.name fields := by
      rw [node_pair, htable]
      rfl
    have hempty : ∀ b, f.read (.table []) = some b → b = f.default := by
      intro b hb
      rw [f.readsLast.empty] at hb
      cases hb
    obtain ⟨hunset, hset⟩ := of_setting hempty h
    rw [← hnode] at hunset hset
    have hgroup : ∀ items, (merged layers).node [group] ≠ .array items := fun items h => by
      rw [htable] at h
      cases h
    exact Leaf.follows _ hgroup hunset hset
  · exact .listed (heard_of_node_array harray) h

/-! ## Levels of modules -/

/-- Where every module is named once, its level is the one that stands beside its name. -/
theorem levelOf_eq_some_iff {levels : List (String × String)} (h : (levels.map (·.1)).Nodup)
    {level : String} : levelOf name levels = some level ↔ (name, level) ∈ levels := by
  induction levels with
  | nil => simp [levelOf]
  | cons l levels ih =>
    obtain ⟨hnew, hrest⟩ := List.nodup_cons.mp h
    by_cases hl : l.1 = name
    · have hfound : levelOf name (l :: levels) = some l.2 := by simp [levelOf, hl]
      have hother : (name, level) ∉ levels := fun hmem =>
        hnew (List.mem_map.mpr ⟨_, hmem, hl.symm⟩)
      rw [hfound, List.mem_cons, or_iff_left hother, Option.some.injEq, Prod.ext_iff]
      exact ⟨fun heq => ⟨hl.symm, heq.symm⟩, fun heq => heq.2.symm⟩
    · have hskipped : levelOf name (l :: levels) = levelOf name levels := by simp [levelOf, hl]
      have hne : (name, level) ≠ l := fun heq => hl (congrArg Prod.fst heq).symm
      rw [hskipped, ih hrest, List.mem_cons, or_iff_right hne]

/-- The order of the modules does not matter. -/
theorem levelOf_mergeSort {levels : List (String × String)} (h : (levels.map (·.1)).Nodup)
    (le : String × String → String × String → Bool) :
    levelOf name (levels.mergeSort le) = levelOf name levels := by
  have hperm : (levels.mergeSort le).Perm levels := List.mergeSort_perm levels le
  have hsorted : ((levels.mergeSort le).map (·.1)).Nodup := (hperm.map _).nodup_iff.mpr h
  refine Option.ext fun level => ?_
  rw [levelOf_eq_some_iff hsorted, levelOf_eq_some_iff h, hperm.mem_iff]

/-- Levels that were read from fields name the fields, and each of them is the text of its field. -/
theorem levels_of_mapM (name : String) {levels : List (String × String)}
    (h : (fields.mapM fun f => do some (f.1, ← looseText? f.2)) = some levels) :
    levels.map (·.1) = fields.map (·.1) ∧
      levelOf name levels = looseText? (entryOf name fields) ∧
      (entryOf name fields ≠ .table [] → (levelOf name levels).isSome) := by
  induction fields generalizing levels with
  | nil =>
    cases h
    exact ⟨rfl, rfl, fun hne => absurd rfl hne⟩
  | cons f fields ih =>
    rw [List.mapM_cons] at h
    simp only [Option.bind_eq_bind, Option.bind_eq_some_iff, Option.pure_def] at h
    obtain ⟨_, ⟨level, hlevel, hl⟩, rest, hrest, hlevels⟩ := h
    cases hl
    cases hlevels
    obtain ⟨hnames, htext, hsome⟩ := ih hrest
    refine ⟨by rw [List.map_cons, List.map_cons, hnames], ?_⟩
    by_cases hf : f.1 = name
    · have hfound : levelOf name ((f.1, level) :: rest) = some level := by simp [levelOf, hf]
      have hentry : entryOf name (f :: fields) = f.2 := by simp [entryOf, hf]
      rw [hfound, hentry, hlevel]
      exact ⟨rfl, fun _ => rfl⟩
    · have hskipped : levelOf name ((f.1, level) :: rest) = levelOf name rest := by
        simp [levelOf, hf]
      have hentry : entryOf name (f :: fields) = entryOf name fields := by simp [entryOf, hf]
      rw [hskipped, hentry]
      exact ⟨htext, hsome⟩

/-- The level of a module in levels that were read from a table. -/
theorem levelOf_of_levels? (name : String) {v : Value} {levels : List (String × String)}
    (hnames : HasNamesOnce v) (h : loose.levels? v = some levels) :
    levelOf name levels = looseText? (entryOf name (entriesOf v)) ∧
      (entryOf name (entriesOf v) ≠ .table [] → (levelOf name levels).isSome) := by
  cases v with
  | table fields =>
    unfold Decoder.levels? at h
    simp only [Option.bind_eq_bind, Option.bind_eq_some_iff] at h
    obtain ⟨fs, hfs, unsorted, hunsorted, hsorted⟩ := h
    cases hfs
    cases hsorted
    obtain ⟨hsame, htext, hsome⟩ := levels_of_mapM name hunsorted
    have hnodup : (unsorted.map (·.1)).Nodup := hsame ▸ hnames fields rfl
    rw [levelOf_mergeSort hnodup]
    exact ⟨htext, hsome⟩
  | _ => cases h

/-- The level of a module when the log's settings were read from layers. -/
theorem follows_levelLeaf
    (hfields : looseFields? Decoder.loggingNames ((merged layers).node ["logging"]) = some fields)
    (h : Decoder.setting loose.levels? [] "modules" fields = some s.logging.modules) :
    (levelLeaf name).Follows layers s := by
  obtain htable | ⟨items, harray, rfl⟩ := entriesOf_of_looseFields? hfields
  · have hmodules : (merged layers).node ["logging", "modules"] = entryOf "modules" fields := by
      rw [node_pair, htable]
      rfl
    have hempty : loose.levels? (.table []) = some [] := by
      simp [Decoder.levels?, loose, looseFields?]
    have hread : loose.levels? (entryOf "modules" fields) = some s.logging.modules :=
      read_of_setting hempty h
    have hnode : (merged layers).node ["logging", "modules", name] =
        entryOf name (entriesOf (entryOf "modules" fields)) := by
      rw [← hmodules, node_cons, node_pair, node_cons "logging" ["modules"]]
    obtain ⟨hlevel, hsome⟩ := levelOf_of_levels? name
      (hmodules ▸ hasNamesOnce_node ["logging", "modules"] layers.reverse) hread
    rw [← hnode] at hlevel hsome
    have hgroup : ∀ items, (merged layers).node ["logging"] ≠ .array items := fun items h => by
      rw [htable] at h
      cases h
    refine Leaf.follows (levelLeaf name) hgroup (fun hempty => ?_) fun hne => ?_
    · exact hlevel.trans (congrArg looseText? hempty)
    · obtain ⟨level, hlevelOf⟩ := Option.isSome_iff_exists.mp (hsome hne)
      show (looseText? _).map some = some (levelOf name s.logging.modules)
      rw [hlevelOf] at hlevel ⊢
      exact congrArg (Option.map some) hlevel.symm
  · exact .listed (heard_of_node_array harray) (congrArg (Option.map (levelOf name)) h)

/-! ## Loading -/

theorem keyPath_ne_nil (key : String) : keyPath key ≠ [] := by
  rw [keyPath]
  split
  · rw [Ne, List.map_eq_nil_iff]
    exact List.splitOn_ne_nil _ _
  · exact List.cons_ne_nil _ _

/-- A layer over a table is a table, as every key is below the root. -/
theorem exists_table_onTop (layer : List (String × Value)) (fields : List (String × Value)) :
    ∃ fs, onTop (.table fields) layer = .table fs := by
  induction layer generalizing fields with
  | nil => exact ⟨fields, rfl⟩
  | cons e layer ih =>
    obtain ⟨name, path, hpath⟩ := List.exists_cons_of_ne_nil (keyPath_ne_nil e.1)
    have hcons : onTop (.table fields) (e :: layer) =
        onTop (overlaid (.table fields) (atPath (keyPath e.1) e.2)) layer := rfl
    rw [hcons, hpath]
    exact ih _

theorem exists_table_merged (layers : List (List (String × Value))) :
    ∃ fs, merged layers = .table fs := by
  refine List.foldlRecOn (motive := fun below => ∃ fs, below = .table fs) _ onTop ⟨[], rfl⟩ ?_
  rintro _ ⟨fields, rfl⟩ layer -
  exact exists_table_onTop layer fields

/-- Settings that were read from layers come out of them. -/
theorem layered_of_settings? (h : loose.settings? host (merged layers) = some s) :
    Layered host layers s := by
  obtain ⟨root, hroot⟩ := exists_table_merged layers
  unfold Decoder.settings? at h
  simp only [Option.bind_eq_bind, Option.bind_eq_some_iff] at h
  obtain ⟨fs, hfs, session, hsession, logging, hlogging, hs⟩ := h
  cases hs
  rw [hroot] at hfs
  obtain rfl : root = fs := Option.some.inj hfs
  have hgroup : ∀ group, (merged layers).node [group] = entryOf group root := fun group => by
    rw [hroot, node_cons]
    rfl
  obtain ⟨fields, hfields, hset⟩ := session?_eq_some (read_of_setting rfl hsession)
  obtain ⟨fields', hfields', hset', hlevels⟩ := logging?_eq_some (read_of_setting rfl hlogging)
  rw [← hgroup] at hfields hfields'
  refine ⟨?_, fun name => follows_levelLeaf hfields' hlevels⟩
  simp only [leaves, List.forall_mem_append, List.forall_mem_map]
  exact ⟨fun f hf => f.follows hfields (hset f hf), fun f hf => f.follows hfields' (hset' f hf)⟩

/-- The other name that the file of a layer may have. -/
def extended (path : Path) : Path := ⟨path.text ++ ".toml"⟩

/-- The file of a layer: the one of that name, or the one of the extended name if there is none. -/
theorem layerFile?_eq_some_iff {path p : Path} :
    layerFile? host path = some p ↔
      host.isFile p = true ∧ (p = path ∨ p = extended path ∧ host.isFile path = false) := by
  unfold layerFile?
  dsimp only
  rw [← extended]
  split
  · rename_i hpath
    constructor
    · rintro ⟨⟩
      exact ⟨hpath, .inl rfl⟩
    · rintro ⟨-, rfl | ⟨-, hno⟩⟩
      · rfl
      · rw [hpath] at hno
        cases hno
  · rename_i hpath
    rw [Bool.not_eq_true] at hpath
    rw [Option.ite_none_right_eq_some]
    constructor
    · rintro ⟨hother, ⟨⟩⟩
      exact ⟨hother, .inr ⟨rfl, hpath⟩⟩
    · rintro ⟨hp, rfl | ⟨rfl, -⟩⟩
      · rw [hpath] at hp
        cases hp
      · exact ⟨hp, rfl⟩

theorem exists_layerFile {path : Path} (h : requiredLayer? host path = some fields) :
    ∃ p, layerFile? host path = some p := by
  cases hp : layerFile? host path with
  | some p => exact ⟨p, rfl⟩
  | none =>
    unfold requiredLayer? layerText? at h
    rw [hp] at h
    cases h

/-- The layer of a file is up to the file. -/
theorem requiredLayer?_congr {host' : Host} {path p : Path} (hp : layerFile? host path = some p)
    (hread : host'.read p = host.read p) (hother : p ≠ path → host'.isFile path = false) :
    requiredLayer? host' path = requiredLayer? host path := by
  have hp' : layerFile? host' path = some p := by
    obtain ⟨hfile, hname⟩ := layerFile?_eq_some_iff.mp hp
    refine layerFile?_eq_some_iff.mpr ⟨?_, ?_⟩
    · rw [Host.isFile_iff_read, hread]
      exact Host.isFile_iff_read.mp hfile
    · by_cases hpath : p = path
      · exact .inl hpath
      · exact .inr ⟨(hname.resolve_left hpath).1, hother hpath⟩
  unfold requiredLayer? layerText?
  simp only [hp, hp', Option.bind_eq_bind, Option.bind_some, hread]

/-! ## The place of the log -/

/-- The settings with the log kept at a place. -/
def Settings.withLogFile (s : Settings) (file : Path) : Settings :=
  { s with logging := { s.logging with file } }

/-- The place of the log on another host: the same one, or the default there as it was here. -/
def SameOrDefault (host host' : Host) (file file' : Path) : Prop :=
  file' = file ∨ file = defaultLogFile host ∧ file' = defaultLogFile host'

/-- With another default a setting is what it was, or the default as before. -/
theorem exists_setting (default' : α) (h : Decoder.setting read default name fields = some a) :
    ∃ b, Decoder.setting read default' name fields = some b ∧
      (b = a ∨ a = default ∧ b = default') := by
  rw [Decoder.setting] at h ⊢
  split at h
  · exact ⟨a, h, .inl rfl⟩
  · exact ⟨default', rfl, .inr ⟨(Option.some.inj h).symm, rfl⟩⟩

theorem exists_logging? {r : LoggingSettings} {v : Value} (host' : Host)
    (h : loose.logging? host v = some r) :
    ∃ file, loose.logging? host' v = some { r with file } ∧
      SameOrDefault host host' r.file file := by
  unfold Decoder.logging? at h ⊢
  obtain ⟨fs, hfs, h⟩ := Option.bind_eq_some_iff.mp h
  obtain ⟨level, hlevel, h⟩ := Option.bind_eq_some_iff.mp h
  obtain ⟨format, hformat, h⟩ := Option.bind_eq_some_iff.mp h
  obtain ⟨output, houtput, h⟩ := Option.bind_eq_some_iff.mp h
  obtain ⟨file, hfile, h⟩ := Option.bind_eq_some_iff.mp h
  obtain ⟨color, hcolor, h⟩ := Option.bind_eq_some_iff.mp h
  obtain ⟨modules, hmodules, h⟩ := Option.bind_eq_some_iff.mp h
  cases h
  obtain ⟨file', hfile', hsame⟩ :=
    exists_setting (LoggingSettings.default host').file hfile
  refine ⟨file', ?_, hsame⟩
  -- Only the place of the log is read with a default that depends on the host.
  simp only [Option.bind_eq_bind, Option.bind_eq_some_iff]
  exact ⟨fs, hfs, level, hlevel, format, hformat, output, houtput, file', hfile', color, hcolor,
    modules, hmodules, rfl⟩

theorem exists_settings? {v : Value} (host' : Host) (h : loose.settings? host v = some s) :
    ∃ file, loose.settings? host' v = some (s.withLogFile file) ∧
      SameOrDefault host host' s.logging.file file := by
  unfold Decoder.settings? at h ⊢
  simp only [Option.bind_eq_bind, Option.bind_eq_some_iff] at h ⊢
  obtain ⟨fs, hfs, session, hsession, logging, hlogging, hs⟩ := h
  cases hs
  obtain ⟨file, hlogging', hsame⟩ : ∃ file, Decoder.setting (loose.logging? host') (.default host')
      "logging" fs = some { logging with file } ∧ SameOrDefault host host' logging.file file := by
    rw [Decoder.setting] at hlogging ⊢
    split at hlogging
    · exact exists_logging? host' hlogging
    · cases hlogging
      exact ⟨defaultLogFile host', rfl, .inr ⟨rfl, rfl⟩⟩
  exact ⟨file, ⟨fs, hfs, session, hsession, _, hlogging', rfl⟩, hsame⟩

/-! ## Main statement -/

/-- What is loaded for a workspace has every setting from the highest layer that sets it: variables
first, then the file for the environment, the file of the workspace and the file of the user, and
the defaults last. What is loaded from a file has them from that file and the defaults. Nothing else
on the host counts, but for the place where the log is kept when the file does not say. -/
theorem settings_layered (host : Host) (s : Settings) :
    (∀ workspace, load? host workspace = some s →
      ∃ user shared own, globalLayer? host = some user ∧
        layerIfThere? host ((workspace.join "config").join "config.toml") = some shared ∧
        layerIfThere? host ((workspace.join "config").join (environmentName host ++ ".toml")) =
          some own ∧
        Layered host [variableLayer host, own, shared, user, builtIn] s) ∧
      ∀ path, loadFile? host path = some s → ∃ p file,
        (p = path ∨ p = extended path ∧ host.isFile path = false) ∧
        requiredLayer? host path = some file ∧ Layered host [file, builtIn] s ∧
        ∀ host' : Host, host'.read p = host.read p → (p ≠ path → host'.isFile path = false) →
          ∃ place, loadFile? host' path = some (s.withLogFile place) ∧
            Layered host' [file, builtIn] (s.withLogFile place) ∧
            SameOrDefault host host' s.logging.file place := by
  refine ⟨fun workspace h => ?_, fun path h => ?_⟩
  · unfold load? layers? at h
    simp only [Option.bind_eq_bind, Option.bind_eq_some_iff] at h
    obtain ⟨layers, ⟨user, huser, shared, hshared, own, hown, hlayers⟩, hsettings⟩ := h
    cases hlayers
    exact ⟨user, shared, own, huser, hshared, hown, layered_of_settings? hsettings⟩
  · unfold loadFile? at h
    simp only [Option.bind_eq_bind, Option.bind_eq_some_iff] at h
    obtain ⟨file, hfile, hsettings⟩ := h
    obtain ⟨p, hp⟩ := exists_layerFile hfile
    refine ⟨p, file, (layerFile?_eq_some_iff.mp hp).2, hfile, layered_of_settings? hsettings,
      fun host' hread hother => ?_⟩
    obtain ⟨place, hsettings', hplace⟩ := exists_settings? host' hsettings
    refine ⟨place, ?_, layered_of_settings? hsettings', hplace⟩
    unfold loadFile?
    rw [requiredLayer?_congr hp hread hother, hfile]
    exact hsettings'

/-- A host with a file of the user, one of the workspace and one for the environment. -/
def hostWith (user shared own : String) : Host :=
  ⟨⟨[(["w"], .directory), (["w", "xdg"], .directory), (["w", "xdg", "rivet"], .directory),
    (["w", "xdg", "rivet", "config.toml"], .file user.toUTF8),
    (["w", "ws"], .directory), (["w", "ws", "config"], .directory),
    (["w", "ws", "config", "config.toml"], .file shared.toUTF8),
    (["w", "ws", "config", "development.toml"], .file own.toUTF8)]⟩,
    ["w"], [("XDG_CONFIG_HOME", "xdg")], []⟩

/-- The file of the user is under that of the workspace, and this one stands alone when it is loaded
alone, wherever the data of the user lies. -/
theorem layered_with_three_files :
    let host := hostWith "[session]\nautorun_project = false\nwatch_manifest = true\n"
      "[session]\nwatch_manifest = false\n" "[logging.modules]\nrivet = \"debug\"\n"
    let elsewhere := host.setVariable "XDG_DATA_HOME" (some "/data")
    ∃ s s', (load? host ⟨"ws"⟩ = some s ∧ loadFile? host ⟨"ws/config/config.toml"⟩ = some s') ∧
      s.session.autorunProject = false ∧ s.session.watchesManifest = false ∧
      s.logging.modules = [("rivet", "debug")] ∧ s'.session.autorunProject = true ∧
      (∃ user shared own, Layered host [variableLayer host, own, shared, user, builtIn] s) ∧
      ∃ file place, Layered host [file, builtIn] s' ∧
        loadFile? elsewhere ⟨"ws/config/config.toml"⟩ = some (s'.withLogFile place) ∧
        Layered elsewhere [file, builtIn] (s'.withLogFile place) := by
  intro host elsewhere
  have hload : (load? host ⟨"ws"⟩).map (fun s => (s.session.autorunProject,
      s.session.watchesManifest, s.logging.modules)) =
      some (false, false, [("rivet", "debug")]) := by decide +kernel
  have hloadFile : (loadFile? host ⟨"ws/config/config.toml"⟩).map (·.session.autorunProject) =
      some true := by decide +kernel
  obtain ⟨s, hs, hvalues⟩ := Option.map_eq_some_iff.mp hload
  obtain ⟨s', hs', hvalue⟩ := Option.map_eq_some_iff.mp hloadFile
  obtain ⟨user, shared, own, -, -, -, hlayered⟩ := (settings_layered host s).1 _ hs
  obtain ⟨p, file, hp, -, hlayered', helsewhere⟩ := (settings_layered host s').2 _ hs'
  have hfile : host.isFile ⟨"ws/config/config.toml"⟩ = true := by decide +kernel
  obtain rfl : p = ⟨"ws/config/config.toml"⟩ := hp.resolve_right fun h => by
    rw [hfile] at h
    cases h.2
  obtain ⟨place, hplace, hlayered'', -⟩ := helsewhere elsewhere rfl fun hne => absurd rfl hne
  simp only [Prod.mk.injEq] at hvalues
  exact ⟨s, s', ⟨hs, hs'⟩, hvalues.1, hvalues.2.1, hvalues.2.2, hvalue,
    ⟨user, shared, own, hlayered⟩, file, place, hlayered', hplace, hlayered''⟩

/-- The value that a word gives. -/
def Word.value? : Word → Option Value
  | .gives v => some v
  | .hides => none

/-- The last value of the highest layer that gives one, whatever stands above it. -/
def given? (path : List String) (layers : List (List (String × Value))) : Option Value :=
  layers.findSome? fun layer => (spoken path layer).reverse.findSome? Word.value?

/-- What one would expect of a setting: the value of the highest layer that gives one. -/
def Leaf.TakesHighest (l : Leaf) (layers : List (List (String × Value))) (s : Settings) : Prop :=
  match given? l.path layers with
  | some v => l.read v = some (l.value s)
  | none => l.value s = l.default

/-- A leaf that is a truth value of the session. -/
def sessionLeaf (name : String) (default : Bool) (value : SessionSettings → Bool) : Leaf :=
  (Field.plain name looseBool? default value).leaf "session" Decoder.sessionNames (·.session)

/-- A setting is not what the highest layer gives that gives something for it. -/
theorem not_takesHighest {name : String} {default : Bool} {value : SessionSettings → Bool}
    {layers : List (List (String × Value))} {s : Settings} {b : Bool}
    (hgiven : (given? ["session", name] layers).map looseBool? = some (some b))
    (hs : value s.session = !b) : ¬ (sessionLeaf name default value).TakesHighest layers s := by
  intro htakes
  obtain ⟨v, hv, hread⟩ := Option.map_eq_some_iff.mp hgiven
  change match given? ["session", name] layers with
    | some v => looseBool? v = some (value s.session)
    | none => value s.session = default at htakes
  rw [hv] at htakes
  change looseBool? v = some (value s.session) at htakes
  rw [hread, hs] at htakes
  cases b <;> cases htakes

/-- A workspace where a setting is not what the highest layer gives that gives something for it. -/
theorem exists_not_takesHighest {host : Host} {workspace : Path} (name : String) (default : Bool)
    (value : SessionSettings → Bool) (b : Bool)
    (hleaf : sessionLeaf name default value ∈ leaves host)
    (hgiven : (layers? host workspace).map (fun layers =>
      (given? ["session", name] layers.reverse).map looseBool?) = some (some (some b)))
    (hload : (load? host workspace).map (fun s => value s.session) = some (!b)) :
    ∃ layers s, layers? host workspace = some layers ∧ load? host workspace = some s ∧
      ∃ l ∈ leaves host, l.path = ["session", name] ∧ ¬ l.TakesHighest layers.reverse s := by
  obtain ⟨layers, hlayers, hb⟩ := Option.map_eq_some_iff.mp hgiven
  obtain ⟨s, hs, hvalue⟩ := Option.map_eq_some_iff.mp hload
  exact ⟨layers, s, hlayers, hs, sessionLeaf name default value, hleaf, rfl,
    not_takesHighest hb hvalue⟩

/-- A number in the place of a group takes away what the file of the user sets, even though the file
for the environment makes the group a table again; an array in its place sets what comes first among
the names. The place of the log is up to the environment when a file is loaded that does not say,
and where a file is missing the one of the extended name is loaded. -/
theorem highest_not_taken :
    let number := hostWith "[session]\nautorun_project = false\n" "session = 5\n"
      "[session]\nwatch_manifest = true\n"
    let array := hostWith "" "session = [true]\n" ""
    let elsewhere := array.setVariable "XDG_DATA_HOME" (some "/data")
    (∃ layers s, layers? number ⟨"ws"⟩ = some layers ∧ load? number ⟨"ws"⟩ = some s ∧
      ∃ l ∈ leaves number, l.path = ["session", "autorun_project"] ∧
        ¬ l.TakesHighest layers.reverse s) ∧
      (∃ layers s, layers? array ⟨"ws"⟩ = some layers ∧ load? array ⟨"ws"⟩ = some s ∧
        ∃ l ∈ leaves array, l.path = ["session", "use_manifest_resolution"] ∧
          ¬ l.TakesHighest layers.reverse s) ∧
      (loadFile? array ⟨"ws/config/config.toml"⟩).map (·.logging.file.text) =
        some "/root/.local/share/rivet/rivet.log" ∧
      (loadFile? elsewhere ⟨"ws/config/config.toml"⟩).map (·.logging.file.text) =
        some "/data/rivet/rivet.log" ∧
      array.isFile ⟨"ws/config/config"⟩ = false ∧
        (loadFile? array ⟨"ws/config/config"⟩).isSome = true := by
  intro number array elsewhere
  refine ⟨?number, ?array, by decide +kernel, by decide +kernel, by decide +kernel,
    by decide +kernel⟩
  case number =>
    exact exists_not_takesHighest "autorun_project" true (·.autorunProject) false
      (by simp [leaves, sessionFields, sessionLeaf]) (by decide +kernel) (by decide +kernel)
  case array =>
    exact exists_not_takesHighest "use_manifest_resolution" false (·.usesManifest) false
      (by simp [leaves, sessionFields, sessionLeaf]) (by decide +kernel) (by decide +kernel)

end Config
end ScriptSession
