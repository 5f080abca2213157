import Mathlib.Data.List.Duplicate
import ScriptSession.Artifact.Resolution
import ScriptSession.Proofs.Artifact.Storing

/-!
# Resolving manifests

What resolving comes to when repositories may answer anything: the answer to a question depends on
the repository, the coordinate, the host and the questions that were asked before. Every question is
written down with its answer, so a resolution is a result, a host and a list of questions
(`Visit`).

Resolving a coordinate asks about that coordinate only and takes nothing away; when it succeeds, the
artifact is found from then on (`Settles`). Main statement: the resolution of a manifest is ordered,
stops at the first dependency that cannot be resolved, gets no artifact twice, keeps what is cached,
and asks nobody when it is done again (`resolves`).
-/

namespace ScriptSession
namespace Artifact

/-! ## Asking -/

/-- A question to a repository, and its answer. -/
structure Fetch where
  repository : Repository
  coordinate : Coordinate
  answer : FetchAnswer

/-- How repositories answer, by the number of questions that were asked before. -/
abbrev Fetcher := Nat → Host → Repository → Coordinate → FetchAnswer

/-- A computation with a host at hand that asks repositories. -/
abbrev Asking := StateT Host (StateM (List Fetch))

/-- The bytes that a repository has. -/
def Fetch.bytes? (a : Fetch) : Option ByteArray := a.answer.toOption.join

/-- A question that gets the artifact of a coordinate. -/
def Fetch.delivers (c : Coordinate) (a : Fetch) : Bool := a.coordinate = c && a.bytes?.isSome

/-- Ask a repository, and write the question down. -/
def asking (f : Fetcher) (r : Repository) (c : Coordinate) : Asking FetchAnswer := do
  let asked ← getThe (List Fetch)
  let answer := f asked.length (← getThe Host) r c
  set (asked ++ [Fetch.mk r c answer])
  return answer

/-- What a computation comes to: its result, the host, and all questions so far. -/
structure Visit (α : Type) where
  result : α
  host : Host
  asked : List Fetch

/-- Run a computation on a host, when some questions were asked before. -/
def visit {α : Type} (x : Asking α) (host : Host) (asked : List Fetch) : Visit α :=
  let ran := (x.run host).run asked
  ⟨ran.1.1, ran.1.2, ran.2⟩

section

variable {α β : Type} (host : Host) (asked : List Fetch)

theorem visit_bind (x : Asking α) (g : α → Asking β) :
    visit (x >>= g) host asked =
      visit (g (visit x host asked).result) (visit x host asked).host (visit x host asked).asked :=
  rfl

theorem visit_pure (a : α) : visit (pure a) host asked = ⟨a, host, asked⟩ := rfl

theorem visit_get : visit (getThe Host) host asked = ⟨host, host, asked⟩ := rfl

theorem visit_set (host' : Host) : visit (set host') host asked = ⟨⟨⟩, host', asked⟩ := rfl

theorem visit_asking (f : Fetcher) (r : Repository) (c : Coordinate) :
    visit (asking f r c) host asked =
      ⟨f asked.length host r c, host, asked ++ [⟨r, c, f asked.length host r c⟩]⟩ := rfl

end

/-! ## One coordinate -/

variable {cache : Cache} {repositories : List Repository} {c : Coordinate} {host : Host}
  {asked : List Fetch} {f : Fetcher}

/-- Asking in order changes nothing, and at most the last question gets the artifact. -/
theorem askInOrder_spec (f : Fetcher) (c : Coordinate) (repositories : List Repository)
    (last : Option Failure) (host : Host) (asked : List Fetch) :
    (visit (askInOrder (asking f) c repositories last) host asked).host = host ∧
      ∃ new, (visit (askInOrder (asking f) c repositories last) host asked).asked = asked ++ new ∧
        (∀ a ∈ new, a.coordinate = c) ∧ new.countP (·.delivers c) ≤ 1 := by
  induction repositories generalizing last asked with
  | nil => exact ⟨rfl, [], (List.append_nil _).symm, nofun, Nat.zero_le 1⟩
  | cons r rest ih =>
    rw [askInOrder, visit_bind, visit_asking]
    -- A question that gets nothing is put in front of those that follow.
    have hnext : ∀ answer last', (Fetch.mk r c answer).bytes? = none →
        (visit (askInOrder (asking f) c rest last') host (asked ++ [⟨r, c, answer⟩])).host = host ∧
          ∃ new, (visit (askInOrder (asking f) c rest last') host
              (asked ++ [⟨r, c, answer⟩])).asked = asked ++ new ∧
            (∀ a ∈ new, a.coordinate = c) ∧ new.countP (·.delivers c) ≤ 1 := by
      intro answer last' hnothing
      obtain ⟨hhost, new, hnew, hall, hcount⟩ := ih last' (asked ++ [⟨r, c, answer⟩])
      refine ⟨hhost, ⟨r, c, answer⟩ :: new, ?_, ?_, ?_⟩
      · rw [hnew, List.append_assoc, List.singleton_append]
      · exact fun a ha => (List.mem_cons.mp ha).elim (fun heq => heq ▸ rfl) (hall a)
      · rwa [List.countP_cons_of_neg (by simp [Fetch.delivers, hnothing])]
    cases hanswer : f asked.length host r c with
    | error e => exact hnext _ _ rfl
    | ok answer =>
      cases answer with
      | none => exact hnext _ _ rfl
      | some bytes =>
        refine ⟨rfl, [⟨r, c, .ok (some bytes)⟩], rfl, ?_, List.countP_le_length⟩
        exact fun a ha => List.mem_singleton.mp ha ▸ rfl

/-- What resolving a coordinate comes to: the cached file, or what the repositories have. -/
theorem visit_resolveCoordinate (f : Fetcher) (cache : Cache) (repositories : List Repository)
    (c : Coordinate) (host : Host) (asked : List Fetch) :
    visit (resolveCoordinate (asking f) cache repositories c) host asked =
      match cache.lookup host c with
      | some path => ⟨.ok path, host, asked⟩
      | none =>
        let answered := visit (askInOrder (asking f) c repositories none) host asked
        match answered.result with
        | .ok bytes =>
          ⟨(cache.store c bytes host).1, (cache.store c bytes host).2, answered.asked⟩
        | .error (some e) => ⟨.error e, host, answered.asked⟩
        | .error none =>
          ⟨.error (.notFound c (repositories.map (·.id))), host, answered.asked⟩ := by
  rw [resolveCoordinate, visit_bind, visit_get]
  cases cache.lookup host c with
  | some path => rfl
  | none =>
    have hhost := (askInOrder_spec f c repositories none host asked).1
    dsimp only
    rw [visit_bind, hhost]
    cases (visit (askInOrder (asking f) c repositories none) host asked).result with
    | ok bytes =>
      dsimp only
      rw [visit_bind, visit_get, visit_bind, visit_set, visit_pure]
    | error e => cases e <;> rfl

/-- A coordinate is resolved: only it was asked about, nothing was taken away, and if there is a
result, it is the artifact, which is found from then on. -/
structure Settles (cache : Cache) (c : Coordinate) (host : Host) (asked : List Fetch)
    (v : Visit (Except Failure Path)) : Prop where
  keeps : host.Keeps v.host
  asks : ∃ new, v.asked = asked ++ new ∧ (∀ a ∈ new, a.coordinate = c) ∧
    new.countP (·.delivers c) ≤ 1
  cached : host.isFile (cache.pathFor c) = true → v = ⟨.ok (cache.pathFor c), host, asked⟩
  found : ∀ path, v.result = .ok path →
    path = cache.pathFor c ∧ v.host.isFile (cache.pathFor c) = true

theorem settles (f : Fetcher) (cache : Cache) (repositories : List Repository) (c : Coordinate)
    (host : Host) (asked : List Fetch) :
    Settles cache c host asked
      (visit (resolveCoordinate (asking f) cache repositories c) host asked) := by
  obtain ⟨-, hasked⟩ := askInOrder_spec f c repositories none host asked
  rw [visit_resolveCoordinate]
  cases hfile : host.isFile (cache.pathFor c) with
  | true =>
    have hlookup : cache.lookup host c = some (cache.pathFor c) := if_pos hfile
    rw [hlookup]
    refine ⟨.refl _, ⟨[], (List.append_nil _).symm, nofun, Nat.zero_le 1⟩, fun _ => rfl, ?_⟩
    rintro path ⟨⟩
    exact ⟨rfl, hfile⟩
  | false =>
    have hmiss : ¬ host.isFile (cache.pathFor c) = true := by
      rw [hfile]
      decide
    have hlookup : cache.lookup host c = none := if_neg hmiss
    rw [hlookup]
    dsimp only
    split
    · -- The only change to the host is that of a store.
      rename_i bytes _
      have hkeeps := cache.keeps_store c bytes host
      rcases hstore : cache.store c bytes host with ⟨result, stored⟩
      rw [hstore] at hkeeps
      refine ⟨hkeeps, hasked, fun h => absurd h hmiss, ?_⟩
      rintro path rfl
      exact Cache.isFile_of_store_eq_ok hstore
    · exact ⟨.refl _, hasked, fun h => absurd h hmiss, nofun⟩
    · exact ⟨.refl _, hasked, fun h => absurd h hmiss, nofun⟩

/-! ## Coordinates in order -/

/-- The location of a coordinate in a cache. -/
def Cache.location (cache : Cache) (c : Coordinate) : CodeLocation := .artifact c (cache.pathFor c)

theorem visit_resolveAll_cons (f : Fetcher) (cache : Cache) (repositories : List Repository)
    (c : Coordinate) (rest : List Coordinate) (host : Host) (asked : List Fetch) :
    visit (resolveAll (asking f) cache repositories (c :: rest)) host asked =
      let first := visit (resolveCoordinate (asking f) cache repositories c) host asked
      let others := visit (resolveAll (asking f) cache repositories rest) first.host first.asked
      match first.result with
      | .error e => ⟨.error e, first.host, first.asked⟩
      | .ok path => ⟨others.result.map (.artifact c path :: ·), others.host, others.asked⟩ := by
  rw [resolveAll, visit_bind]
  dsimp only
  cases (visit (resolveCoordinate (asking f) cache repositories c) host asked).result with
  | error e => rfl
  | ok path =>
    dsimp only
    rw [visit_bind]
    cases (visit (resolveAll (asking f) cache repositories rest) _ _).result <;> rfl

/-- How often an artifact may be got: once, unless it is cached. -/
def Cache.due (cache : Cache) (host : Host) (c : Coordinate) : Nat :=
  if host.isFile (cache.pathFor c) then 0 else 1

theorem Cache.due_of_isFile (h : host.isFile (cache.pathFor c) = true) : cache.due host c = 0 :=
  if_pos h

theorem Cache.due_le_one (cache : Cache) (host : Host) (c : Coordinate) :
    cache.due host c ≤ 1 := by
  rw [due]
  split <;> decide

theorem Cache.due_le_of_keeps {host' : Host} (h : host.Keeps host') (c : Coordinate) :
    cache.due host' c ≤ cache.due host c := by
  cases hfile : host.isFile (cache.pathFor c) with
  | true =>
    rw [Cache.due_of_isFile (h.isFile hfile)]
    exact Nat.zero_le _
  | false => simpa [Cache.due, hfile] using cache.due_le_one host' c

/-- Coordinates are resolved: only they were asked about, none was got twice and none that was
cached, nothing was taken away, and if there is a result, it is their artifacts in order. -/
structure SettlesAll (cache : Cache) (cs : List Coordinate) (host : Host) (asked : List Fetch)
    (v : Visit (Except Failure (List CodeLocation))) : Prop where
  keeps : host.Keeps v.host
  asks : ∃ new, v.asked = asked ++ new ∧ (∀ a ∈ new, a.coordinate ∈ cs) ∧
    ∀ c, new.countP (·.delivers c) ≤ cache.due host c
  found : ∀ locations, v.result = .ok locations → locations = cs.map cache.location ∧
    ∀ c ∈ cs, v.host.isFile (cache.pathFor c) = true

theorem countP_delivers_of_ne {new : List Fetch} {d : Coordinate}
    (hall : ∀ a ∈ new, a.coordinate = c) (hne : d ≠ c) : new.countP (·.delivers d) = 0 := by
  refine List.countP_eq_zero.mpr fun a ha => ?_
  simp [Fetch.delivers, hall a ha, Ne.symm hne]

/-- A coordinate is got as often as it may be. -/
theorem Settles.exists_new {v : Visit (Except Failure Path)} (h : Settles cache c host asked v) :
    ∃ new, v.asked = asked ++ new ∧ (∀ a ∈ new, a.coordinate = c) ∧
      ∀ d, new.countP (·.delivers d) ≤ cache.due host d := by
  obtain ⟨new, hnew, hall, hcount⟩ := h.asks
  refine ⟨new, hnew, hall, fun d => ?_⟩
  by_cases hd : d = c
  · subst hd
    cases hfile : host.isFile (cache.pathFor d) with
    | false => simpa [Cache.due, hfile] using hcount
    | true =>
      rw [h.cached hfile, List.self_eq_append_right] at hnew
      rw [hnew]
      exact Nat.zero_le _
  · rw [countP_delivers_of_ne hall hd]
    exact Nat.zero_le _

/-- A coordinate is resolved, and then others after it. -/
theorem Settles.cons {rest : List Coordinate} {middle : Host} {askedFirst : List Fetch}
    {others : Visit (Except Failure (List CodeLocation))}
    (hfirst : Settles cache c host asked ⟨.ok (cache.pathFor c), middle, askedFirst⟩)
    (hothers : SettlesAll cache rest middle askedFirst others) :
    SettlesAll cache (c :: rest) host asked
      ⟨others.result.map (cache.location c :: ·), others.host, others.asked⟩ := by
  obtain ⟨new, hnew, hall, hcount⟩ := hfirst.exists_new
  obtain ⟨more, hmore, hmem, hmoreCount⟩ := hothers.asks
  have hfile : middle.isFile (cache.pathFor c) = true := (hfirst.found _ rfl).2
  refine ⟨hfirst.keeps.trans hothers.keeps,
    ⟨new ++ more, ?_, fun a ha => ?_, fun d => ?_⟩, fun locations hlocations => ?_⟩
  · rw [← List.append_assoc, ← hnew]
    exact hmore
  · obtain h | h := List.mem_append.mp ha
    · rw [hall a h]
      exact List.mem_cons_self
    · exact List.mem_cons_of_mem c (hmem a h)
  · rw [List.countP_append]
    by_cases hd : d = c
    · -- What was got first is cached for the others.
      subst hd
      have hnone := hmoreCount d
      rw [Cache.due_of_isFile hfile] at hnone
      have hfew := hcount d
      omega
    · have hnone := countP_delivers_of_ne hall hd
      have hfew := Nat.le_trans (hmoreCount d) (Cache.due_le_of_keeps hfirst.keeps d)
      omega
  · obtain ⟨result, last, askedLast⟩ := others
    cases result with
    | error e => cases hlocations
    | ok found =>
      obtain ⟨rfl, hfound⟩ := hothers.found found rfl
      cases hlocations
      refine ⟨rfl, fun d hd => ?_⟩
      obtain rfl | hd := List.mem_cons.mp hd
      · exact hothers.keeps.isFile hfile
      · exact hfound d hd

theorem settlesAll (f : Fetcher) (cache : Cache) (repositories : List Repository)
    (cs : List Coordinate) (host : Host) (asked : List Fetch) :
    SettlesAll cache cs host asked
      (visit (resolveAll (asking f) cache repositories cs) host asked) := by
  induction cs generalizing host asked with
  | nil =>
    refine ⟨.refl _, ⟨[], (List.append_nil _).symm, nofun, fun c => Nat.zero_le _⟩, ?_⟩
    rintro locations ⟨⟩
    exact ⟨rfl, nofun⟩
  | cons c rest ih =>
    have hfirst := settles f cache repositories c host asked
    rw [visit_resolveAll_cons]
    generalize visit (resolveCoordinate (asking f) cache repositories c) host asked = first
      at hfirst ⊢
    obtain ⟨result, middle, askedFirst⟩ := first
    cases result with
    | ok path =>
      obtain ⟨rfl, -⟩ := hfirst.found path rfl
      exact hfirst.cons (ih middle askedFirst)
    | error e =>
      obtain ⟨new, hnew, hall, hcount⟩ := hfirst.exists_new
      refine ⟨hfirst.keeps, ⟨new, hnew, fun a ha => ?_, hcount⟩, nofun⟩
      rw [hall a ha]
      exact List.mem_cons_self

/-- Where all artifacts are cached, nobody is asked. -/
theorem visit_resolveAll_of_cached (f : Fetcher) (repositories : List Repository)
    (asked : List Fetch) {cs : List Coordinate}
    (h : ∀ c ∈ cs, host.isFile (cache.pathFor c) = true) :
    visit (resolveAll (asking f) cache repositories cs) host asked =
      ⟨.ok (cs.map cache.location), host, asked⟩ := by
  induction cs with
  | nil => rfl
  | cons c rest ih =>
    have hfirst := (settles f cache repositories c host asked).cached (h c List.mem_cons_self)
    rw [visit_resolveAll_cons, hfirst]
    dsimp only
    rw [ih fun d hd => h d (List.mem_cons_of_mem c hd)]
    rfl

/-- The coordinates in front of the first one that cannot be resolved are resolved, and with it the
resolution is over. -/
theorem resolveAll_error (f : Fetcher) (cache : Cache) (repositories : List Repository)
    (cs : List Coordinate) (host : Host) (asked : List Fetch) {e : Failure}
    (h : (visit (resolveAll (asking f) cache repositories cs) host asked).result = .error e) :
    ∃ front c rest, cs = front ++ c :: rest ∧
      ∃ middle askedFront,
        visit (resolveAll (asking f) cache repositories front) host asked =
          ⟨.ok (front.map cache.location), middle, askedFront⟩ ∧
        visit (resolveCoordinate (asking f) cache repositories c) middle askedFront =
          ⟨.error e, (visit (resolveAll (asking f) cache repositories cs) host asked).host,
            (visit (resolveAll (asking f) cache repositories cs) host asked).asked⟩ := by
  induction cs generalizing host asked with
  | nil => cases h
  | cons c rest ih =>
    have hfirst := settles f cache repositories c host asked
    rw [visit_resolveAll_cons] at h ⊢
    rcases hvisit : visit (resolveCoordinate (asking f) cache repositories c) host asked with
      ⟨result, middle, askedFirst⟩
    rw [hvisit] at h hfirst
    cases result with
    -- The first coordinate is the one that cannot be resolved, or it is in front of that one.
    | error e' =>
      cases h
      exact ⟨[], c, rest, rfl, host, asked, rfl, hvisit⟩
    | ok path =>
      obtain ⟨rfl, -⟩ := hfirst.found path rfl
      dsimp only at h ⊢
      cases hothers : (visit (resolveAll (asking f) cache repositories rest)
          middle askedFirst).result with
      | ok found =>
        rw [hothers] at h
        cases h
      | error e' =>
        rw [hothers] at h
        cases h
        obtain ⟨front, d, back, rfl, last, askedFront, hfront, hlast⟩ :=
          ih middle askedFirst hothers
        refine ⟨c :: front, d, back, rfl, last, askedFront, ?_, hlast⟩
        rw [visit_resolveAll_cons, hvisit]
        dsimp only
        rw [hfront]
        rfl

/-- Up to a coordinate, it and those in front of it were asked about. -/
theorem exists_asked (f : Fetcher) (cache : Cache) (repositories : List Repository)
    {front : List Coordinate} {front' : Visit (Except Failure (List CodeLocation))}
    {last : Visit (Except Failure Path)}
    (hfront : visit (resolveAll (asking f) cache repositories front) host asked = front')
    (hlast : visit (resolveCoordinate (asking f) cache repositories c) front'.host front'.asked =
      last) :
    ∃ new, last.asked = asked ++ new ∧ ∀ a ∈ new, a.coordinate ∈ front ++ [c] := by
  subst hfront hlast
  obtain ⟨newFront, hnewFront, hmem, -⟩ := (settlesAll f cache repositories front host asked).asks
  obtain ⟨newLast, hnewLast, hall, -⟩ := (settles f cache repositories c _ _).asks
  refine ⟨newFront ++ newLast, ?_, fun a ha => ?_⟩
  · rw [← List.append_assoc, ← hnewFront]
    exact hnewLast
  · obtain h | h := List.mem_append.mp ha
    · exact List.mem_append_left _ (hmem a h)
    · exact List.mem_append_right _ (List.mem_singleton.mpr (hall a h))

/-- What the first coordinates leave is kept by those that follow. -/
theorem keeps_resolveAll (f : Fetcher) (cache : Cache) (repositories : List Repository)
    (front back : List Coordinate) (host : Host) (asked : List Fetch) :
    (visit (resolveAll (asking f) cache repositories front) host asked).host.Keeps
      (visit (resolveAll (asking f) cache repositories (front ++ back)) host asked).host := by
  induction front generalizing host asked with
  | nil => exact (settlesAll f cache repositories back host asked).keeps
  | cons c rest ih =>
    rw [List.cons_append, visit_resolveAll_cons, visit_resolveAll_cons]
    generalize visit (resolveCoordinate (asking f) cache repositories c) host asked = first
    obtain ⟨result, middle, askedFirst⟩ := first
    cases result with
    | error e => exact .refl _
    | ok path => exact ih middle askedFirst

/-! ## Manifests -/

namespace Manifest

/-- The ids of the repositories of a manifest. -/
def ids (m : Manifest) : List String := m.repositories.map (·.id)

theorem firstDuplicate_eq_none_iff {seen : List String} {rs : List Repository} :
    firstDuplicate seen rs = none ↔
      (∀ r ∈ rs, r.id ∉ seen) ∧ (rs.map (·.id)).Nodup := by
  induction rs generalizing seen with
  | nil => simp [firstDuplicate]
  | cons r rest ih =>
    rw [firstDuplicate]
    split
    · rename_i hseen
      refine iff_of_false nofun fun h => h.1 r List.mem_cons_self ?_
      simpa using hseen
    · rename_i hseen
      rw [ih]
      simp only [List.contains_eq_mem, decide_eq_true_eq] at hseen
      simp only [List.mem_cons, not_or, forall_eq_or_imp, List.map_cons, List.nodup_cons,
        List.mem_map, not_exists, not_and]
      -- That the others are unlike the first one is said of each of them, and of the first one.
      constructor
      · rintro ⟨hnew, hnodup⟩
        exact ⟨⟨hseen, fun a ha => (hnew a ha).2⟩, fun a ha => (hnew a ha).1, hnodup⟩
      · rintro ⟨⟨-, hold⟩, hne, hnodup⟩
        exact ⟨fun a ha => ⟨hne a ha, hold a ha⟩, hnodup⟩

theorem mem_of_firstDuplicate {seen : List String} {rs : List Repository} {id : String}
    (h : firstDuplicate seen rs = some id) :
    id ∈ rs.map (·.id) ∧ (id ∈ seen ∨ (rs.map (·.id)).Duplicate id) := by
  induction rs generalizing seen with
  | nil => cases h
  | cons r rest ih =>
    rw [firstDuplicate] at h
    split at h
    · rename_i hseen
      cases h
      exact ⟨List.mem_cons_self, .inl (by simpa using hseen)⟩
    · obtain ⟨hmem, hseen | hduplicate⟩ := ih h
      · refine ⟨List.mem_cons_of_mem _ hmem, ?_⟩
        obtain rfl | hseen := List.mem_cons.mp hseen
        · exact .inr (.cons_mem hmem)
        · exact .inl hseen
      · exact ⟨List.mem_cons_of_mem _ hmem, .inr hduplicate.cons_duplicate⟩

theorem validate_of_nodup {m : Manifest} (h : m.ids.Nodup) : m.validate = .ok () := by
  rw [validate, firstDuplicate_eq_none_iff.mpr ⟨fun _ _ => List.not_mem_nil, h⟩]

theorem validate_of_not_nodup {m : Manifest} (h : ¬ m.ids.Nodup) :
    ∃ id, m.ids.Duplicate id ∧ m.validate = .error (.duplicateRepository id) := by
  rw [validate]
  cases hfirst : firstDuplicate [] m.repositories with
  | none => exact absurd (firstDuplicate_eq_none_iff.mp hfirst).2 h
  | some id =>
    obtain ⟨-, hnone | hduplicate⟩ := mem_of_firstDuplicate hfirst
    · cases hnone
    · exact ⟨id, hduplicate, rfl⟩

end Manifest

/-- What the resolution of a manifest on a host comes to. What it has come to after some of the
dependencies is what a resolution of these alone comes to. A later resolution may ask in another way
and at other repositories, and whatever happened in between, it took nothing away. -/
structure Resolves (f : Fetcher) (cache : Cache) (m : Manifest) (host : Host)
    (v : Visit (Except Failure (List CodeLocation))) : Prop where
  refused : ¬ m.ids.Nodup →
    ∃ id, m.ids.Duplicate id ∧ v = ⟨.error (.duplicateRepository id), host, []⟩
  ordered : ∀ locations, v.result = .ok locations →
    locations = m.dependencies.map fun c => .artifact c (cache.pathFor c)
  once : ∀ c, v.asked.countP (·.delivers c) ≤ 1
  again : ∀ locations, v.result = .ok locations →
    ∀ (g : Fetcher) (m' : Manifest) (host' : Host), m'.dependencies = m.dependencies →
      m'.ids.Nodup → v.host.Keeps host' →
      visit (resolveManifest (asking g) cache m') host' [] = ⟨.ok locations, host', []⟩
  failed : m.ids.Nodup → ∀ e, v.result = .error e →
    ∃ front c rest, m.dependencies = front ++ c :: rest ∧
      (∀ a ∈ v.asked, a.coordinate ∈ front ++ [c]) ∧
      ∃ middle asked,
        visit (resolveAll (asking f) cache m.repositories front) host [] =
          ⟨.ok (front.map cache.location), middle, asked⟩ ∧
        visit (resolveCoordinate (asking f) cache m.repositories c) middle asked =
          ⟨.error e, v.host, v.asked⟩
  keeps : host.Keeps v.host
  kept : m.ids.Nodup → ∀ front back, m.dependencies = front ++ back →
    let middle := (visit (resolveAll (asking f) cache m.repositories front) host []).host
    ∀ c, cache.lookup middle c = some (cache.pathFor c) →
      cache.lookup v.host c = some (cache.pathFor c) ∧
        v.host.read (cache.pathFor c) = middle.read (cache.pathFor c)

/-- However repositories answer, the resolution of a manifest is in order, all of it or the first
error, and not repeated as long as nothing is taken away. -/
theorem resolves (f : Fetcher) (cache : Cache) (m : Manifest) (host : Host) :
    Resolves f cache m host (visit (resolveManifest (asking f) cache m) host []) := by
  by_cases hnodup : m.ids.Nodup
  · have hresolve : visit (resolveManifest (asking f) cache m) host [] =
        visit (resolveAll (asking f) cache m.repositories m.dependencies) host [] := by
      rw [resolveManifest, Manifest.validate_of_nodup hnodup]
    rw [hresolve]
    have hsettles := settlesAll f cache m.repositories m.dependencies host []
    obtain ⟨new, hnew, -, hcount⟩ := hsettles.asks
    refine ⟨fun h => absurd hnodup h, fun locations h => (hsettles.found locations h).1,
      fun c => ?_, fun locations h g m' host' hsame hnodup' hkeeps => ?_,
      fun _ e h => ?_, hsettles.keeps, fun _ front back hsplit => ?_⟩
    · rw [hnew]
      exact Nat.le_trans (hcount c) (cache.due_le_one host c)
    · obtain ⟨rfl, hfound⟩ := hsettles.found locations h
      rw [resolveManifest, Manifest.validate_of_nodup hnodup', hsame]
      exact visit_resolveAll_of_cached g m'.repositories [] fun c hc => hkeeps.isFile (hfound c hc)
    · obtain ⟨front, c, rest, hsplit, middle, asked, hfront, hlast⟩ :=
        resolveAll_error _ _ _ _ _ _ h
      obtain ⟨new, hasked, hmem⟩ := exists_asked f cache m.repositories hfront hlast
      rw [List.nil_append] at hasked
      exact ⟨front, c, rest, hsplit, hasked ▸ hmem, middle, asked, hfront, hlast⟩
    · intro middle c hlookup
      have hkeeps := keeps_resolveAll f cache m.repositories front back host []
      rw [← hsplit] at hkeeps
      exact Cache.lookup_of_keeps hkeeps hlookup
  · obtain ⟨id, hduplicate, hvalidate⟩ := Manifest.validate_of_not_nodup hnodup
    have hresolve : visit (resolveManifest (asking f) cache m) host [] =
        ⟨.error (.duplicateRepository id), host, []⟩ := by
      rw [resolveManifest, hvalidate]
      rfl
    rw [hresolve]
    exact ⟨fun _ => ⟨id, hduplicate, rfl⟩, nofun, fun c => Nat.zero_le 1, nofun,
      fun h => absurd h hnodup, .refl _, fun h => absurd h hnodup⟩

/-- A dependency that is declared twice is fetched once. -/
example :
    let c : Coordinate := ⟨"a", "b", "1"⟩
    let d : Coordinate := ⟨"a", "b", "2"⟩
    let m : Manifest := ⟨[⟨"r", "default", "x"⟩], [c, d, c], none⟩
    let has : Fetcher := fun _ _ _ _ => .ok (some ⟨#[1]⟩)
    (visit (resolveManifest (asking has) ⟨⟨"cache"⟩⟩ m) (Host.empty ["w"]) []).asked.map
      (·.coordinate) = [c, d] := by
  decide +kernel

end Artifact
end ScriptSession
