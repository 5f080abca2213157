import ScriptSession.Config.Settings
import ScriptSession.Proofs.Artifact.Refusing
import ScriptSession.Proofs.Text.Pieces

/-!
# Checking settings

What a check of settings says, against what is wrong with them. What can be wrong is listed without
the check (`Flaw`, `Reports`): a text that is blank is one of which trimming leaves nothing, and an
id is taken if an earlier repository has it. The check reports every flaw once and nothing else, in
the order of the fields (`found`).

Settings that pass the check repeat no id of a repository. So a manifest with these repositories is
valid, it stays valid below any manifest file that is valid itself, and a resolution that is refused
because of an id has found it twice in the file. Main statement: `violations_spec`.
-/

namespace ScriptSession
namespace Config

open Artifact (Coordinate Fetcher Manifest ManifestFile Repository Strategy asking visit)
open Text (isBlankText trim trim_eq_empty_iff)

/-! ## Flaws -/

/-- Something that is wrong with settings: a field, and the item of its list. -/
inductive Flaw where
  | blankDirectory (i : Nat)
  | blankId (i : Nat)
  | repeatedId (i : Nat)
  | blankAddress (i : Nat)
  | unknownFormat

/-- Where a flaw is: in which field, in which item, and in which field of the item. -/
def Flaw.position : Flaw → List Nat
  | .blankDirectory i => [0, i]
  | .blankId i | .repeatedId i => [1, i, 0]
  | .blankAddress i => [1, i, 1]
  | .unknownFormat => [2]

/-- A flaw of settings, and how it is reported. A repository without an id is named by its address,
and no blank id counts as a repeated one. -/
inductive Reports (s : Settings) : Flaw → Violation → Prop
  | blankDirectory {i : Nat} {dir : String} (hdir : s.session.buildOutputDirs[i]? = some dir)
      (hblank : trim dir = "") :
      Reports s (.blankDirectory i) (.session "build output directory names cannot be empty")
  | blankId {i : Nat} {r : Repository} (hr : s.session.repositories[i]? = some r)
      (hblank : trim r.id = "") :
      Reports s (.blankId i) (.repository r.address "repository id cannot be empty")
  | repeatedId {i : Nat} {r : Repository} (hr : s.session.repositories[i]? = some r)
      (hid : trim r.id ≠ "")
      (htaken : ∃ earlier ∈ s.session.repositories.take i, earlier.id = r.id) :
      Reports s (.repeatedId i) (.repository r.id "duplicate repository id")
  | blankAddress {i : Nat} {r : Repository} (hr : s.session.repositories[i]? = some r)
      (hblank : trim r.address = "") :
      Reports s (.blankAddress i) (.repository r.id "repository address cannot be empty")
  | unknownFormat (hjson : s.logging.format ≠ "json") (htext : s.logging.format ≠ "text") :
      Reports s .unknownFormat (.logging ("invalid format '" ++ s.logging.format ++ "'"))

/-! ## What one check says -/

variable {s : Settings} {dir format : String} {r : Repository} {seen : List String} {v : Violation}

theorem mem_checkBuildOutput :
    v ∈ checkBuildOutput [dir] ↔
      trim dir = "" ∧ v = .session "build output directory names cannot be empty" := by
  rw [checkBuildOutput, trim_eq_empty_iff]
  cases hblank : isBlankText dir <;> simp [hblank]

theorem mem_checkId :
    v ∈ checkId seen r ↔
      trim r.id = "" ∧ v = .repository r.address "repository id cannot be empty" ∨
        trim r.id ≠ "" ∧ r.id ∈ seen ∧ v = .repository r.id "duplicate repository id" := by
  rw [checkId, Ne, trim_eq_empty_iff]
  cases hblank : isBlankText r.id
  · by_cases hseen : r.id ∈ seen <;> simp [hseen]
  · simp

theorem mem_checkAddress :
    v ∈ checkAddress r ↔
      trim r.address = "" ∧ v = .repository r.id "repository address cannot be empty" := by
  rw [checkAddress, trim_eq_empty_iff]
  cases hblank : isBlankText r.address <;> simp

theorem mem_checkFormat :
    v ∈ checkFormat format ↔ (format ≠ "json" ∧ format ≠ "text") ∧
      v = .logging ("invalid format '" ++ format ++ "'") := by
  rw [checkFormat, ← not_or]
  split
  · rename_i h
    simp [h]
  · rename_i h
    simp [h]

/-- The order of the ids before a repository, and how often each of them occurs, make no
difference. -/
theorem checkId_congr {seen' : List String} (h : ∀ id, id ∈ seen ↔ id ∈ seen') :
    checkId seen r = checkId seen' r := by
  rw [checkId, checkId]
  congr 2
  simp [h]

/-! ## What is found -/

/-- What is found at a repository, given all repositories. -/
def foundAt (repositories : List Repository) (x : Repository × Nat) : List (Flaw × Violation) :=
  ((checkId ((repositories.take x.2).map (·.id)) x.1).map
      ((if isBlankText x.1.id then .blankId x.2 else .repeatedId x.2), ·)) ++
    (checkAddress x.1).map (.blankAddress x.2, ·)

/-- The flaws of settings that the check finds, each with its report. -/
def found (s : Settings) : List (Flaw × Violation) :=
  (s.session.buildOutputDirs.zipIdx.flatMap fun x =>
      (checkBuildOutput [x.1]).map (.blankDirectory x.2, ·)) ++
    s.session.repositories.zipIdx.flatMap (foundAt s.session.repositories) ++
    (checkFormat s.logging.format).map (.unknownFormat, ·)

theorem checkBuildOutput_eq_flatMap (dirs : List String) :
    checkBuildOutput dirs = dirs.zipIdx.flatMap fun x => checkBuildOutput [x.1] := by
  have heach : checkBuildOutput dirs = dirs.flatMap fun dir => checkBuildOutput [dir] := by
    induction dirs with
    | nil => rfl
    | cons dir rest ih =>
      rw [List.flatMap_cons, ← ih, checkBuildOutput, checkBuildOutput, checkBuildOutput,
        ← List.map_append, ← List.filter_append, List.singleton_append]
  rw [heach]
  conv_lhs => rw [← List.zipIdx_map_fst 0 dirs, List.flatMap_map]

/-- The check goes along the repositories with the ids that it has seen; what it says of one of them
depends on the repositories before it. -/
theorem checkRepositories_eq_flatMap (front rest : List Repository)
    (hseen : ∀ id, id ∈ seen ↔ id ∈ front.map (·.id)) :
    checkRepositories seen rest = (rest.zipIdx front.length).flatMap fun x =>
      checkId (((front ++ rest).take x.2).map (·.id)) x.1 ++ checkAddress x.1 := by
  -- Along the repositories: those that were looked at move to the front.
  induction rest generalizing seen front with
  | nil => rfl
  | cons r rest ih =>
    have hnext : ∀ id, id ∈ r.id :: seen ↔ id ∈ (front ++ [r]).map (·.id) := by
      intro id
      rw [List.mem_cons, hseen, List.map_append, List.mem_append, List.map_singleton,
        List.mem_singleton, or_comm]
    rw [checkRepositories, ih _ hnext, List.zipIdx_cons, List.flatMap_cons, List.take_left',
      checkId_congr hseen, List.length_append, List.length_singleton, List.append_assoc front,
      List.singleton_append]
    rfl

theorem violations_eq_map (s : Settings) : s.violations = (found s).map Prod.snd := by
  have hsnd (flaw : Flaw) (vs : List Violation) : (vs.map (flaw, ·)).map Prod.snd = vs := by
    rw [List.map_map]
    exact List.map_id vs
  rw [Settings.violations, SessionSettings.violations, found, List.map_append, List.map_append,
    List.map_flatMap, List.map_flatMap, hsnd, checkBuildOutput_eq_flatMap,
    @checkRepositories_eq_flatMap [] [] s.session.repositories fun id => Iff.rfl]
  congr 2
  · congr 1
    funext x
    rw [hsnd]
  · congr 1
    funext x
    rw [foundAt, List.map_append, hsnd, hsnd]
    rfl

/-! ## No more and no less -/

theorem mem_map_pair {flaw flaw' : Flaw} {vs : List Violation} :
    (flaw, v) ∈ vs.map (flaw', ·) ↔ flaw = flaw' ∧ v ∈ vs := by
  rw [List.mem_map]
  constructor
  · rintro ⟨v', hv, heq⟩
    obtain ⟨rfl, rfl⟩ := Prod.mk.inj heq
    exact ⟨rfl, hv⟩
  · rintro ⟨rfl, hv⟩
    exact ⟨v, hv, rfl⟩

/-- What is found at the repository of a number are its flaws. -/
theorem reports_of_mem_foundAt {i : Nat} {flaw : Flaw} (hr : s.session.repositories[i]? = some r)
    (h : (flaw, v) ∈ foundAt s.session.repositories (r, i)) : Reports s flaw v := by
  rw [foundAt, List.mem_append, mem_map_pair, mem_map_pair, mem_checkId, mem_checkAddress] at h
  obtain ⟨rfl, ⟨hblank, rfl⟩ | ⟨hid, htaken, rfl⟩⟩ | ⟨rfl, hblank, rfl⟩ := h
  · rw [if_pos ((trim_eq_empty_iff _).mp hblank)]
    exact .blankId hr hblank
  · rw [if_neg fun hblank => hid ((trim_eq_empty_iff _).mpr hblank)]
    exact .repeatedId hr hid (List.mem_map.mp htaken)
  · exact .blankAddress hr hblank

/-- What the check finds are flaws. -/
theorem reports_of_mem_found {flaw : Flaw} (h : (flaw, v) ∈ found s) : Reports s flaw v := by
  rw [found, List.mem_append, List.mem_append, List.mem_flatMap, List.mem_flatMap] at h
  obtain (⟨⟨dir, i⟩, hdir, hv⟩ | ⟨⟨r, i⟩, hr, hv⟩) | hv := h
  · rw [mem_map_pair, mem_checkBuildOutput] at hv
    obtain ⟨rfl, hblank, rfl⟩ := hv
    exact .blankDirectory (List.mem_zipIdx_iff_getElem?.mp hdir) hblank
  · exact reports_of_mem_foundAt (List.mem_zipIdx_iff_getElem?.mp hr) hv
  · rw [mem_map_pair, mem_checkFormat] at hv
    obtain ⟨rfl, ⟨hjson, htext⟩, rfl⟩ := hv
    exact .unknownFormat hjson htext

theorem mem_found_of_repository {i : Nat} {x : Flaw × Violation}
    (hr : s.session.repositories[i]? = some r) (h : x ∈ foundAt s.session.repositories (r, i)) :
    x ∈ found s := by
  refine List.mem_append_left _ (List.mem_append_right _ ?_)
  exact List.mem_flatMap.mpr ⟨(r, i), List.mem_zipIdx_iff_getElem?.mpr hr, h⟩

/-- The check finds all flaws. -/
theorem Reports.mem_found {flaw : Flaw} (h : Reports s flaw v) : (flaw, v) ∈ found s := by
  cases h with
  | @blankDirectory i dir hdir hblank =>
    refine List.mem_append_left _ (List.mem_append_left _ (List.mem_flatMap.mpr
      ⟨(dir, i), List.mem_zipIdx_iff_getElem?.mpr hdir, ?_⟩))
    exact mem_map_pair.mpr ⟨rfl, mem_checkBuildOutput.mpr ⟨hblank, rfl⟩⟩
  | blankId hr hblank =>
    refine mem_found_of_repository hr (List.mem_append_left _ (mem_map_pair.mpr ⟨?_, ?_⟩))
    · rw [if_pos ((trim_eq_empty_iff _).mp hblank)]
    · exact mem_checkId.mpr (.inl ⟨hblank, rfl⟩)
  | repeatedId hr hid htaken =>
    refine mem_found_of_repository hr (List.mem_append_left _ (mem_map_pair.mpr ⟨?_, ?_⟩))
    · rw [if_neg fun hblank => hid ((trim_eq_empty_iff _).mpr hblank)]
    · exact mem_checkId.mpr (.inr ⟨hid, List.mem_map.mpr htaken, rfl⟩)
  | blankAddress hr hblank =>
    refine mem_found_of_repository hr (List.mem_append_right _ (mem_map_pair.mpr ⟨rfl, ?_⟩))
    exact mem_checkAddress.mpr ⟨hblank, rfl⟩
  | unknownFormat hjson htext =>
    refine List.mem_append_right _ (mem_map_pair.mpr ⟨rfl, ?_⟩)
    exact mem_checkFormat.mpr ⟨⟨hjson, htext⟩, rfl⟩

/-! ## The order -/

/-- What is found in the items of a list is in order, if it is so at each of them and what is found
at an earlier item is before what is found at a later one. -/
theorem pairwise_zipIdx_flatMap {α : Type} {items : List α}
    {g : α × Nat → List (Flaw × Violation)}
    (hitem : ∀ x, (g x).Pairwise fun a b => a.1.position < b.1.position)
    (hitems : ∀ x y, x.2 < y.2 → ∀ a ∈ g x, ∀ b ∈ g y, a.1.position < b.1.position) :
    (items.zipIdx.flatMap g).Pairwise fun a b => a.1.position < b.1.position := by
  have hnumbers : items.zipIdx.Pairwise fun x y => x.2 < y.2 := by
    rw [← List.pairwise_map (f := Prod.snd), List.zipIdx_map_snd]
    exact List.pairwise_lt_range'
  exact List.pairwise_flatMap.mpr ⟨fun x _ => hitem x, hnumbers.imp (hitems _ _)⟩

theorem position_checkBuildOutput {x : String × Nat} {a : Flaw × Violation}
    (h : a ∈ (checkBuildOutput [x.1]).map (.blankDirectory x.2, ·)) :
    a.1.position = [0, x.2] := by
  obtain ⟨v, -, rfl⟩ := List.mem_map.mp h
  rfl

theorem position_foundAt {repositories : List Repository} {x : Repository × Nat}
    {a : Flaw × Violation} (h : a ∈ foundAt repositories x) :
    a.1.position = [1, x.2, 0] ∨ a.1.position = [1, x.2, 1] := by
  obtain h | h := List.mem_append.mp h
  · obtain ⟨v, -, rfl⟩ := List.mem_map.mp h
    left
    dsimp only
    split <;> rfl
  · obtain ⟨v, -, rfl⟩ := List.mem_map.mp h
    exact .inr rfl

theorem position_checkFormat {a : Flaw × Violation}
    (h : a ∈ (checkFormat format).map (.unknownFormat, ·)) : a.1.position = [2] := by
  obtain ⟨v, -, rfl⟩ := List.mem_map.mp h
  rfl

/-- At one repository, the id is looked at before the address, and each of them once. -/
theorem pairwise_foundAt (repositories : List Repository) (x : Repository × Nat) :
    (foundAt repositories x).Pairwise fun a b => a.1.position < b.1.position := by
  rw [foundAt, List.pairwise_append]
  refine ⟨?_, ?_, ?_⟩
  · rw [checkId]
    split
    · exact List.pairwise_singleton _ _
    · split
      · exact List.pairwise_singleton _ _
      · exact .nil
  · rw [checkAddress]
    split
    · exact List.pairwise_singleton _ _
    · exact .nil
  · intro a ha b hb
    obtain ⟨v, -, rfl⟩ := List.mem_map.mp ha
    obtain ⟨v', -, rfl⟩ := List.mem_map.mp hb
    dsimp only
    split <;> exact .cons (.cons (.rel Nat.zero_lt_one))

/-- The check goes through the fields in order, and through each list from its beginning. -/
theorem pairwise_found (s : Settings) :
    (found s).Pairwise fun a b => a.1.position < b.1.position := by
  rw [found, List.pairwise_append, List.pairwise_append]
  -- Each of the three parts is in order, and so are the parts among themselves.
  refine ⟨⟨pairwise_zipIdx_flatMap ?_ ?_, pairwise_zipIdx_flatMap (pairwise_foundAt _) ?_, ?_⟩, ?_,
    ?_⟩
  · intro x
    rw [checkBuildOutput, List.filter_singleton]
    cases isBlankText x.1
    · exact .nil
    · exact List.pairwise_singleton _ _
  · intro x y hxy a ha b hb
    rw [position_checkBuildOutput ha, position_checkBuildOutput hb]
    exact .cons (.rel hxy)
  · intro x y hxy a ha b hb
    obtain ha | ha := position_foundAt ha <;> obtain hb | hb := position_foundAt hb <;>
      rw [ha, hb] <;>
      exact .cons (.rel hxy)
  · intro a ha b hb
    obtain ⟨x, -, ha⟩ := List.mem_flatMap.mp ha
    obtain ⟨y, -, hb⟩ := List.mem_flatMap.mp hb
    rw [position_checkBuildOutput ha]
    obtain hb | hb := position_foundAt hb <;> rw [hb] <;> exact .rel Nat.zero_lt_one
  · rw [checkFormat]
    split
    · exact .nil
    · exact List.pairwise_singleton _ _
  · -- The format comes after both lists.
    intro a ha b hb
    rw [position_checkFormat hb]
    obtain ha | ha := List.mem_append.mp ha <;> obtain ⟨x, -, ha⟩ := List.mem_flatMap.mp ha
    · rw [position_checkBuildOutput ha]
      exact .rel Nat.zero_lt_two
    · obtain ha | ha := position_foundAt ha <;> rw [ha] <;> exact .rel Nat.one_lt_two

/-! ## Settings that pass -/

theorem violations_eq_nil_iff : s.violations = [] ↔ ∀ flaw v, ¬ Reports s flaw v := by
  rw [violations_eq_map, List.map_eq_nil_iff, List.eq_nil_iff_forall_not_mem]
  constructor
  · intro h flaw v hreports
    exact h (flaw, v) hreports.mem_found
  · rintro h ⟨flaw, v⟩ hfound
    exact h flaw v (reports_of_mem_found hfound)

/-- Settings without a flaw repeat no id: of two equal ids the later one is reported. -/
theorem nodup_ids (h : ∀ flaw v, ¬ Reports s flaw v) :
    (s.session.repositories.map (·.id)).Nodup := by
  rw [List.Nodup, List.pairwise_map, List.pairwise_iff_getElem]
  intro i j hi hj hij heq
  have hlater := List.getElem?_eq_getElem hj
  -- The later id is reported for being blank, or else for being taken.
  by_cases hblank : trim (s.session.repositories[j]).id = ""
  · exact h _ _ (.blankId hlater hblank)
  · have hearlier : s.session.repositories[i] ∈ s.session.repositories.take j :=
      List.mem_take_iff_getElem.mpr ⟨i, by omega, rfl⟩
    exact h _ _ (.repeatedId hlater hblank ⟨_, hearlier, heq⟩)

/-- **Checking settings.** The violations are the reports of the flaws that there are, one for each
flaw and in the order of the fields; there are none if and only if nothing is wrong. Without
violations a manifest with these repositories is valid, with any dependencies and any manifest file,
and so is what becomes of it below a manifest file that repeats no id. So if a resolution is refused
because of an id, the manifest file repeats the id, or a repository said so. -/
theorem violations_spec (s : Settings) :
    (∃ flaws : List (Flaw × Violation), (∀ flaw v, (flaw, v) ∈ flaws ↔ Reports s flaw v) ∧
      flaws.Pairwise (fun a b => a.1.position < b.1.position) ∧
      s.violations = flaws.map Prod.snd) ∧
    (s.violations = [] ↔ ∀ flaw v, ¬ Reports s flaw v) ∧
    (s.violations = [] → ∀ (dependencies : List Coordinate) (manifestFile : Option Path),
      let m : Manifest := ⟨s.session.repositories, dependencies, manifestFile⟩
      m.validate = .ok () ∧
      (∀ file : ManifestFile, (file.repositories.map (·.id)).Nodup →
        (m.mergedWith file).validate = .ok ()) ∧
      ∀ (strategy : Strategy) (f : Fetcher) (cache : Artifact.Cache) (host : Host) (id : String),
        let v := visit (strategy.resolve (asking f) cache m) host []
        v.result = .error (.duplicateRepository id) →
          (strategy = .manifestFile ∧ ∃ path file, manifestFile = some path ∧
            ManifestFile.load host path = .ok file ∧
            (file.repositories.map (·.id)).Duplicate id) ∨
          ∃ a ∈ v.asked, a.answer = .error (.duplicateRepository id)) := by
  refine ⟨⟨found s, fun flaw v => ⟨reports_of_mem_found, Reports.mem_found⟩, pairwise_found s,
    violations_eq_map s⟩, violations_eq_nil_iff, ?_⟩
  intro hnone dependencies manifestFile m
  have hnodup : m.ids.Nodup := nodup_ids (violations_eq_nil_iff.mp hnone)
  refine ⟨Manifest.validate_of_nodup hnodup,
    fun file => (Manifest.validate_mergedWith_eq_ok_iff m file).mpr, ?_⟩
  intro strategy f cache host id v hrefused
  obtain ⟨-, hduplicate⟩ | hfile | hanswer := Strategy.duplicate_of_resolve hrefused
  · exact absurd hnodup hduplicate.not_nodup
  · exact .inl hfile
  · exact .inr hanswer

/-- Ids that differ in blanks are different ids: settings with both pass the check, and a manifest
with both is valid, also below a file that has one of them. -/
theorem padded_id_passes :
    let rs : List Repository := [⟨"a", "default", "x"⟩, ⟨" a", "default", "x"⟩]
    let s : Settings := ⟨{ SessionSettings.default with repositories := rs },
      LoggingSettings.default (Host.empty [])⟩
    let m : Manifest := ⟨rs, [], none⟩
    s.violations = [] ∧ m.validate = .ok () ∧
      (m.mergedWith ⟨[⟨" a", "default", "y"⟩], []⟩).validate = .ok () := by
  intro rs s m
  have hnone : s.violations = [] := by decide +kernel
  obtain ⟨hvalid, hmerged, -⟩ := (violations_spec s).2.2 hnone [] none
  exact ⟨hnone, hvalid, hmerged _ (by decide)⟩

/-- Everything that can be wrong, in order. The second repository repeats the id of the first one,
and the last one has neither an id nor an address. -/
example :
    let s : Settings := ⟨{ SessionSettings.default with
      buildOutputDirs := ["", "build", "\t"]
      repositories := [⟨"a", "default", "x"⟩, ⟨"a", "default", ""⟩, ⟨" ", "default", " "⟩] },
      { LoggingSettings.default (Host.empty []) with format := "xml" }⟩
    s.violations.map (·.text) = [
      "Session: build output directory names cannot be empty",
      "Session: build output directory names cannot be empty",
      "Repository 'a': duplicate repository id",
      "Repository 'a': repository address cannot be empty",
      "Repository ' ': repository id cannot be empty",
      "Repository ' ': repository address cannot be empty",
      "Logging: invalid format 'xml'"] := by
  decide +kernel

end Config
end ScriptSession
