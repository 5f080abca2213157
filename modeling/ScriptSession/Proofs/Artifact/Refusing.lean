import ScriptSession.Proofs.Artifact.Consulting
import ScriptSession.Proofs.Artifact.Layering

/-!
# Refused resolutions

Where the failure of a resolution comes from. A coordinate fails with what a repository answered, or
because its artifact could not be cached, or because nobody has it; nothing else is said about a
single coordinate (`error_of_resolveCoordinate`). So a resolution that fails because of an id that
is declared twice has found it twice in the manifest that it resolves, and under the strategy that
reads a manifest file that is in the file alone (`Strategy.duplicate_of_resolve`).
-/

namespace ScriptSession
namespace Artifact

variable {f : Fetcher} {cache : Cache} {repositories : List Repository} {c : Coordinate}
  {cs : List Coordinate} {host : Host} {asked : List Fetch} {e : Failure} {id : String}

/-! ## Coordinates -/

/-- What the resolution of a coordinate says itself: that the artifact could not be cached, or that
no repository has it. -/
def IsAbout (repositories : List Repository) (c : Coordinate) (e : Failure) : Prop :=
  (∃ cause, e = .cache c cause) ∨ e = .notFound c (repositories.map (·.id))

theorem not_isAbout_duplicateRepository : ¬ IsAbout repositories c (.duplicateRepository id) := by
  rintro (⟨cause, h⟩ | h) <;> cases h

theorem error_of_resolveCoordinate
    (h : (visit (resolveCoordinate (asking f) cache repositories c) host asked).result = .error e) :
    IsAbout repositories c e ∨
      ∃ a ∈ (visit (resolveCoordinate (asking f) cache repositories c) host asked).asked,
        a.answer = .error e := by
  have hconsults := consults f cache repositories c host asked
  generalize questions f host c asked.length repositories = all at hconsults
  generalize visit (resolveCoordinate (asking f) cache repositories c) host asked = v
    at h hconsults ⊢
  cases hlookup : cache.lookup host c with
  | some path =>
    obtain ⟨-, rfl⟩ := hconsults.cached path hlookup
    cases h
  | none =>
    by_cases hnone : ∀ q ∈ all, q.bytes? = none
    · by_cases hlacked : ∀ q ∈ all, q.answer = .ok none
      · obtain rfl := hconsults.lacked hlookup hlacked
        cases h
        exact .inl (.inr rfl)
      · push Not at hlacked
        obtain ⟨q, hq, hanswer⟩ := hlacked
        obtain ⟨front, last, rest, e', rfl, hlast, -, rfl⟩ :=
          hconsults.failed hlookup hnone q hq hanswer
        cases h
        exact .inr ⟨last, by simp, hlast⟩
    · push Not at hnone
      obtain ⟨q, hq, hbytes⟩ := hnone
      obtain ⟨front, first, rest, bytes, -, -, -, rfl⟩ := hconsults.wins hlookup q hq hbytes
      -- Somebody had the bytes, so it is the cache that failed.
      obtain ⟨cause, heq⟩ | ⟨heq, -⟩ | ⟨heq, -⟩ := cache.store_outcome c bytes host <;>
        rw [heq] at h <;> cases h
      exact .inl (.inl ⟨cause, rfl⟩)

theorem error_of_resolveAll
    (h : (visit (resolveAll (asking f) cache repositories cs) host asked).result = .error e) :
    (∃ c ∈ cs, IsAbout repositories c e) ∨
      ∃ a ∈ (visit (resolveAll (asking f) cache repositories cs) host asked).asked,
        a.answer = .error e := by
  obtain ⟨front, c, rest, rfl, middle, askedFront, -, hlast⟩ := resolveAll_error _ _ _ _ _ _ h
  obtain habout | hanswer := error_of_resolveCoordinate (congrArg Visit.result hlast)
  · exact .inl ⟨c, List.mem_append_right _ List.mem_cons_self, habout⟩
  · rw [hlast] at hanswer
    exact .inr hanswer

/-! ## Manifests -/

/-- An id is found twice in the manifest, unless a repository says so. -/
theorem duplicate_of_resolveManifest {m : Manifest}
    (h : (visit (resolveManifest (asking f) cache m) host []).result =
      .error (.duplicateRepository id)) :
    m.ids.Duplicate id ∨ ∃ a ∈ (visit (resolveManifest (asking f) cache m) host []).asked,
      a.answer = .error (.duplicateRepository id) := by
  by_cases hnodup : m.ids.Nodup
  · rw [resolveManifest, Manifest.validate_of_nodup hnodup] at h ⊢
    obtain ⟨c, -, habout⟩ | hanswer := error_of_resolveAll h
    · exact absurd habout not_isAbout_duplicateRepository
    · exact .inr hanswer
  · obtain ⟨id', hduplicate, hvisit⟩ := (resolves f cache m host).refused hnodup
    rw [hvisit] at h
    cases h
    exact .inl hduplicate

theorem ManifestFile.load_ne_duplicateRepository (host : Host) (path : Path) (id : String) :
    ManifestFile.load host path ≠ .error (.duplicateRepository id) := by
  rw [load]
  split
  · nofun
  · split <;> nofun

/-- Under the strategy that reads the manifest file, the file is resolved with the manifest below
it, and nothing without a file. -/
theorem visit_resolve_manifestFile (f : Fetcher) (cache : Cache) (m : Manifest) (host : Host) :
    visit (Strategy.manifestFile.resolve (asking f) cache m) host [] =
      match m.manifestFile with
      | none => ⟨.ok [], host, []⟩
      | some path =>
        if host.pathExists path then
          match ManifestFile.load host path with
          | .error e => ⟨.error e, host, []⟩
          | .ok file => visit (resolveManifest (asking f) cache (m.mergedWith file)) host []
        else ⟨.ok [], host, []⟩ := by
  rw [Strategy.resolve]
  cases m.manifestFile with
  | none => rfl
  | some path =>
    dsimp only
    rw [visit_bind, visit_get]
    dsimp only
    cases host.pathExists path with
    | false => rfl
    | true => cases ManifestFile.load host path <;> rfl

/-- An id is found twice in the manifest that a strategy resolves: in that of the configuration, or
in the manifest file, whatever the configuration adds to it. -/
theorem Strategy.duplicate_of_resolve {strategy : Strategy} {m : Manifest}
    (h : (visit (strategy.resolve (asking f) cache m) host []).result =
      .error (.duplicateRepository id)) :
    (strategy = .repositoryList ∧ m.ids.Duplicate id) ∨
    (strategy = .manifestFile ∧ ∃ path file, m.manifestFile = some path ∧
      ManifestFile.load host path = .ok file ∧ (file.repositories.map (·.id)).Duplicate id) ∨
    ∃ a ∈ (visit (strategy.resolve (asking f) cache m) host []).asked,
      a.answer = .error (.duplicateRepository id) := by
  cases strategy with
  | repositoryList =>
    obtain hduplicate | hanswer := duplicate_of_resolveManifest h
    · exact .inl ⟨rfl, hduplicate⟩
    · exact .inr (.inr hanswer)
  | manifestFile =>
    rw [visit_resolve_manifestFile] at h ⊢
    split at h
    · cases h
    · rename_i path hfile
      split at h
      · rename_i hexists
        rw [if_pos hexists]
        split at h
        · -- A file that cannot be loaded is refused for another reason.
          rename_i e hload
          cases h
          exact absurd hload (ManifestFile.load_ne_duplicateRepository host path id)
        · rename_i file hload
          obtain hduplicate | hanswer := duplicate_of_resolveManifest h
          · exact .inr (.inl ⟨rfl, path, file, hfile, hload,
              (Manifest.duplicate_ids_mergedWith m file).mp hduplicate⟩)
          · exact .inr (.inr hanswer)
      · cases h

end Artifact
end ScriptSession
