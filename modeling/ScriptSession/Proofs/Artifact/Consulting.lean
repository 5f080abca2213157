import ScriptSession.Proofs.Artifact.Resolving

/-!
# Consulting repositories

Which repositories are asked for one artifact, and which of their answers counts. Asking changes
nothing on the host, so the questions that would be put to all repositories are known before the
first of them is asked (`questions`). The ones that are put are these up to the first that gets the
artifact.

Main statement: a cached artifact is used without a question; else the first repository that has
the artifact wins, whatever those before it answered; and when none has it, the last failure is
reported, or that nobody has the artifact (`consults`).
-/

namespace ScriptSession
namespace Artifact

/-! ## Questions -/

/-- The questions about a coordinate to repositories in order, when `n` were asked before. -/
def questions (f : Fetcher) (host : Host) (c : Coordinate) (n : Nat)
    (repositories : List Repository) : List Fetch :=
  repositories.mapIdx fun i r => ⟨r, c, f (n + i) host r c⟩

/-- Why a repository could not be asked. -/
def Fetch.failure? (q : Fetch) : Option Failure :=
  match q.answer with
  | .error e => some e
  | .ok _ => none

/-- The failure of the last repository that could not be asked. -/
def lastFailure (qs : List Fetch) : Option Failure := (qs.filterMap Fetch.failure?).getLast?

section

variable {f : Fetcher} {host : Host} {c : Coordinate} {n : Nat} {r : Repository}
  {repositories : List Repository} {q : Fetch} {qs : List Fetch}

theorem questions_cons : questions f host c n (r :: repositories) =
    ⟨r, c, f n host r c⟩ :: questions f host c (n + 1) repositories := by
  simp [questions, List.mapIdx_cons, Nat.add_assoc, Nat.add_comm 1]

theorem map_repository_questions :
    (questions f host c n repositories).map (·.repository) = repositories := by
  induction repositories generalizing n with
  | nil => rfl
  | cons r rest ih => rw [questions_cons, List.map_cons, ih]

theorem Fetch.answer_eq_error {e : Failure} (h : q.failure? = some e) : q.answer = .error e := by
  rw [failure?] at h
  split at h
  · rename_i heq
    cases h
    exact heq
  · cases h

/-- A repository that has nothing, and could be asked, says that it does not have the artifact. -/
theorem Fetch.answer_eq_none (hbytes : q.bytes? = none) (hfailure : q.failure? = none) :
    q.answer = .ok none := by
  obtain ⟨r, c, answer⟩ := q
  match answer with
  | .ok none => rfl
  | .ok (some bytes) => cases hbytes
  | .error e => cases hfailure

theorem lastFailure_cons : lastFailure (q :: qs) = (lastFailure qs).or q.failure? := by
  rw [lastFailure, lastFailure, List.filterMap_cons]
  cases q.failure? with
  | none => exact (Option.or_none).symm
  | some e =>
    rw [List.getLast?_cons]
    cases (qs.filterMap Fetch.failure?).getLast? <;> rfl

theorem lastFailure_eq_none (h : lastFailure qs = none) (hq : q ∈ qs) : q.failure? = none := by
  rw [lastFailure, List.getLast?_eq_none_iff] at h
  exact List.forall_none_of_filterMap_eq_nil h q hq

/-- The last failure is that of a repository after which all others could be asked. -/
theorem exists_of_lastFailure {e : Failure} (h : lastFailure qs = some e) :
    ∃ front q rest, qs = front ++ q :: rest ∧ q.answer = .error e ∧
      ∀ a ∈ rest, a.failure? = none := by
  induction qs with
  | nil => cases h
  | cons a rest ih =>
    rw [lastFailure_cons] at h
    cases hrest : lastFailure rest with
    | some e' =>
      rw [hrest] at h
      cases h
      obtain ⟨front, q, back, rfl, hanswer, hback⟩ := ih hrest
      exact ⟨a :: front, q, back, rfl, hanswer, hback⟩
    | none =>
      rw [hrest, Option.none_or] at h
      exact ⟨[], a, rest, rfl, Fetch.answer_eq_error h, fun b hb => lastFailure_eq_none hrest hb⟩

end

/-! ## Asking in order -/

section

variable {f : Fetcher} {host : Host} {c : Coordinate} {repositories : List Repository}
  {asked : List Fetch}

/-- Asking one repository more: its bytes end the search, its failure is the last one so far. -/
theorem visit_askInOrder_cons (f : Fetcher) (c : Coordinate) (r : Repository)
    (rest : List Repository) (last : Option Failure) (host : Host) (asked : List Fetch) :
    visit (askInOrder (asking f) c (r :: rest) last) host asked =
      let q : Fetch := ⟨r, c, f asked.length host r c⟩
      match q.bytes? with
      | some bytes => ⟨.ok bytes, host, asked ++ [q]⟩
      | none => visit (askInOrder (asking f) c rest (q.failure?.or last)) host (asked ++ [q]) := by
  rw [askInOrder, visit_bind, visit_asking]
  cases f asked.length host r c with
  | error e => rfl
  | ok found => cases found <;> rfl

/-- The first repository that has the bytes ends the search. -/
theorem visit_askInOrder_of_first {front rest : List Fetch} {q : Fetch} {bytes : ByteArray}
    (last : Option Failure)
    (hall : questions f host c asked.length repositories = front ++ q :: rest)
    (hfront : ∀ a ∈ front, a.bytes? = none) (hq : q.bytes? = some bytes) :
    visit (askInOrder (asking f) c repositories last) host asked =
      ⟨.ok bytes, host, asked ++ (front ++ [q])⟩ := by
  induction repositories generalizing last asked front with
  | nil => cases front <;> cases hall
  | cons r others ih =>
    rw [visit_askInOrder_cons]
    rw [questions_cons] at hall
    cases front with
    -- The one that has the bytes is asked next, or one in front of it that has none.
    | nil =>
      obtain ⟨hfirst, -⟩ := List.cons.inj hall
      dsimp only
      rw [hfirst, hq, List.nil_append]
    | cons a front =>
      obtain ⟨hfirst, hothers⟩ := List.cons.inj hall
      dsimp only
      rw [hfirst, hfront a List.mem_cons_self]
      dsimp only
      rw [ih _ (by rwa [List.length_append]) fun b hb => hfront b (List.mem_cons_of_mem a hb),
        List.append_assoc]
      rfl

/-- When no repository has the bytes, all of them are asked. -/
theorem visit_askInOrder_of_none (last : Option Failure)
    (h : ∀ q ∈ questions f host c asked.length repositories, q.bytes? = none) :
    visit (askInOrder (asking f) c repositories last) host asked =
      ⟨.error ((lastFailure (questions f host c asked.length repositories)).or last), host,
        asked ++ questions f host c asked.length repositories⟩ := by
  induction repositories generalizing last asked with
  | nil => exact congrArg (Visit.mk _ host) (List.append_nil asked).symm
  | cons r others ih =>
    rw [visit_askInOrder_cons, questions_cons, lastFailure_cons]
    rw [questions_cons] at h
    obtain ⟨hfirst, hothers⟩ := List.forall_mem_cons.mp h
    dsimp only
    rw [hfirst]
    dsimp only
    have hlength (q : Fetch) : (asked ++ [q]).length = asked.length + 1 := List.length_append
    rw [ih _ (by rwa [hlength]), hlength, Option.or_assoc, List.append_assoc]
    rfl

end

/-! ## One coordinate -/

section

variable {f : Fetcher} {cache : Cache} {repositories : List Repository} {c : Coordinate}
  {host : Host} {asked : List Fetch}

/-- If some repository has the artifact, one is the first to have it. -/
theorem exists_first {all : List Fetch} {q : Fetch} (hq : q ∈ all) (hbytes : q.bytes? ≠ none) :
    ∃ front first rest bytes, all = front ++ first :: rest ∧ (∀ a ∈ front, a.bytes? = none) ∧
      first.bytes? = some bytes := by
  have hfound : (all.find? (·.bytes?.isSome)).isSome = true :=
    List.find?_isSome.mpr ⟨q, hq, Option.isSome_iff_ne_none.mpr hbytes⟩
  obtain ⟨first, hfirst⟩ := Option.isSome_iff_exists.mp hfound
  obtain ⟨hsome, front, rest, hall, hfront⟩ := List.find?_eq_some_iff_append.mp hfirst
  obtain ⟨bytes, hbytes⟩ := Option.isSome_iff_exists.mp hsome
  exact ⟨front, first, rest, bytes, hall, fun a ha => by simpa using hfront a ha, hbytes⟩

theorem visit_resolveCoordinate_of_first {front rest : List Fetch} {first : Fetch}
    {bytes : ByteArray} (hmiss : cache.lookup host c = none)
    (hall : questions f host c asked.length repositories = front ++ first :: rest)
    (hfront : ∀ a ∈ front, a.bytes? = none) (hfirst : first.bytes? = some bytes) :
    visit (resolveCoordinate (asking f) cache repositories c) host asked =
      ⟨(cache.store c bytes host).1, (cache.store c bytes host).2,
        asked ++ (front ++ [first])⟩ := by
  rw [visit_resolveCoordinate, hmiss]
  dsimp only
  rw [visit_askInOrder_of_first none hall hfront hfirst]

theorem visit_resolveCoordinate_of_none (hmiss : cache.lookup host c = none)
    (hnone : ∀ q ∈ questions f host c asked.length repositories, q.bytes? = none) :
    visit (resolveCoordinate (asking f) cache repositories c) host asked =
      ⟨.error ((lastFailure (questions f host c asked.length repositories)).getD
          (.notFound c (repositories.map (·.id)))),
        host, asked ++ questions f host c asked.length repositories⟩ := by
  rw [visit_resolveCoordinate, hmiss]
  dsimp only
  rw [visit_askInOrder_of_none none hnone, Option.or_none]
  cases lastFailure (questions f host c asked.length repositories) <;> rfl

theorem Cache.eq_pathFor_of_lookup {path : Path} (h : cache.lookup host c = some path) :
    path = cache.pathFor c := by
  rw [lookup] at h
  split at h
  · exact (Option.some.inj h).symm
  · cases h

/-- A store fails for reasons of its own. -/
theorem Cache.store_ne_notFound (cache : Cache) (c : Coordinate) (bytes : ByteArray) (host : Host)
    (ids : List String) : (cache.store c bytes host).1 ≠ .error (.notFound c ids) := by
  obtain ⟨e, heq⟩ | ⟨heq, -⟩ | ⟨heq, -⟩ := cache.store_outcome c bytes host <;> rw [heq] <;> nofun

/-- A repository of either kind that cannot be asked is named, with the artifact that it was asked
for. -/
theorem eq_fetch_of_fetch {r : Repository} {e : Failure} (h : fetch host r c = .error e) :
    ∃ message, e = .fetch c r.id message := by
  rw [fetch] at h
  split at h
  · rw [fetchLocal] at h
    split at h
    · cases h
    · split at h <;> cases h
      exact ⟨_, rfl⟩
  · -- A request fails, its body does not arrive, or its status is neither success nor absence.
    rw [fetchRemote] at h
    split at h
    · cases h
      exact ⟨_, rfl⟩
    · split_ifs at h
      · split at h <;> cases h
        exact ⟨_, rfl⟩
      · cases h
        exact ⟨_, rfl⟩

/-- That nobody has an artifact is what only a resolution says. -/
theorem fetch_ne_notFound (host : Host) (r : Repository) (c d : Coordinate) (ids : List String) :
    fetch host r c ≠ .error (.notFound d ids) := by
  intro h
  obtain ⟨_, hfetch⟩ := eq_fetch_of_fetch h
  cases hfetch

end

/-- How a coordinate is resolved on a host, when `all` are the questions that could be put. The
first repository that has the artifact is the last one that is asked; a failure is reported when it
is the last one and nobody has the artifact. That nobody has it is only what a resolution says, and
no repository (`fetch_ne_notFound`). -/
structure Consults (cache : Cache) (repositories : List Repository) (c : Coordinate) (host : Host)
    (asked all : List Fetch) (v : Visit (Except Failure Path)) : Prop where
  everybody : all.map (·.repository) = repositories
  inOrder : ∃ new, v.asked = asked ++ new ∧ new <+: all
  cached : ∀ path, cache.lookup host c = some path →
    path = cache.pathFor c ∧ v = ⟨.ok (cache.pathFor c), host, asked⟩
  wins : cache.lookup host c = none → ∀ q ∈ all, q.bytes? ≠ none →
    ∃ front first rest bytes, all = front ++ first :: rest ∧ (∀ a ∈ front, a.bytes? = none) ∧
      first.bytes? = some bytes ∧
      v = ⟨(cache.store c bytes host).1, (cache.store c bytes host).2, asked ++ (front ++ [first])⟩
  failed : cache.lookup host c = none → (∀ q ∈ all, q.bytes? = none) →
    ∀ q ∈ all, q.answer ≠ .ok none →
    ∃ front last rest e, all = front ++ last :: rest ∧ last.answer = .error e ∧
      (∀ a ∈ rest, a.answer = .ok none) ∧ v = ⟨.error e, host, asked ++ all⟩
  lacked : cache.lookup host c = none → (∀ q ∈ all, q.answer = .ok none) →
    v = ⟨.error (.notFound c (repositories.map (·.id))), host, asked ++ all⟩
  notFound_iff : (∀ q ∈ all, q.answer ≠ .error (.notFound c (repositories.map (·.id)))) →
    (v.result = .error (.notFound c (repositories.map (·.id))) ↔
      cache.lookup host c = none ∧ ∀ q ∈ all, q.answer = .ok none)

namespace Consults

variable {cache : Cache} {repositories : List Repository} {c : Coordinate} {host : Host}
  {asked all : List Fetch}

theorem of_cached (hall : all.map (·.repository) = repositories) {path : Path}
    (hlookup : cache.lookup host c = some path) :
    Consults cache repositories c host asked all ⟨.ok path, host, asked⟩ := by
  obtain rfl : path = cache.pathFor c := Cache.eq_pathFor_of_lookup hlookup
  have hhit : cache.lookup host c ≠ none := hlookup ▸ nofun
  exact ⟨hall, ⟨[], (List.append_nil _).symm, List.nil_prefix⟩,
    fun path h => ⟨Cache.eq_pathFor_of_lookup h, rfl⟩, fun h => absurd h hhit,
    fun h => absurd h hhit, fun h => absurd h hhit, fun _ => iff_of_false nofun fun h => hhit h.1⟩

theorem of_first {front rest : List Fetch} {first : Fetch} {bytes : ByteArray}
    (hall : all.map (·.repository) = repositories) (hmiss : cache.lookup host c = none)
    (hsplit : all = front ++ first :: rest) (hfront : ∀ a ∈ front, a.bytes? = none)
    (hfirst : first.bytes? = some bytes) :
    Consults cache repositories c host asked all
      ⟨(cache.store c bytes host).1, (cache.store c bytes host).2,
        asked ++ (front ++ [first])⟩ := by
  have hmem : first ∈ all := hsplit ▸ List.mem_append_right _ List.mem_cons_self
  have hnone : ¬ ∀ q ∈ all, q.bytes? = none := fun h =>
    nomatch (h first hmem).symm.trans hfirst
  have hlacked : ¬ ∀ q ∈ all, q.answer = .ok none := fun h =>
    hnone fun q hq => by rw [Fetch.bytes?, h q hq]; rfl
  have hhit (path : Path) : cache.lookup host c ≠ some path := hmiss ▸ nofun
  have hprefix : front ++ [first] <+: all := ⟨rest, by rw [hsplit, List.append_assoc]; rfl⟩
  have hstore := cache.store_ne_notFound c bytes host (repositories.map (·.id))
  refine ⟨hall, ⟨_, rfl, hprefix⟩, fun path h => absurd h (hhit path),
    fun _ _ _ _ => ⟨front, first, rest, bytes, hsplit, hfront, hfirst, rfl⟩,
    fun _ h => absurd h hnone, fun _ h => absurd h hlacked,
    fun _ => ?_⟩
  dsimp only
  exact iff_of_false hstore fun h => hlacked h.2

theorem of_none (hall : all.map (·.repository) = repositories)
    (hmiss : cache.lookup host c = none) (hnone : ∀ q ∈ all, q.bytes? = none) :
    Consults cache repositories c host asked all
      ⟨.error ((lastFailure all).getD (.notFound c (repositories.map (·.id)))), host,
        asked ++ all⟩ := by
  have hhit (path : Path) : cache.lookup host c ≠ some path := hmiss ▸ nofun
  cases hlast : lastFailure all with
  | none =>
    have hlacked (q : Fetch) (hq : q ∈ all) : q.answer = .ok none :=
      Fetch.answer_eq_none (hnone q hq) (lastFailure_eq_none hlast hq)
    exact ⟨hall, ⟨all, rfl, List.prefix_rfl⟩, fun path h => absurd h (hhit path),
      fun _ q hq hbytes => absurd (hnone q hq) hbytes,
      fun _ _ q hq hanswer => absurd (hlacked q hq) hanswer, fun _ _ => rfl,
      fun _ => iff_of_true rfl ⟨hmiss, hlacked⟩⟩
  | some e =>
    -- The last one that failed is followed by such that only lack the coordinate.
    obtain ⟨front, last, rest, hsplit, hanswer, hrest⟩ := exists_of_lastFailure hlast
    have hmem : last ∈ all := hsplit ▸ List.mem_append_right _ List.mem_cons_self
    have hlacked : ¬ ∀ q ∈ all, q.answer = .ok none := by
      intro h
      rw [h last hmem] at hanswer
      cases hanswer
    have hothers (a : Fetch) (ha : a ∈ rest) : a.answer = .ok none :=
      Fetch.answer_eq_none (hnone a (hsplit ▸ List.mem_append_right _ (.tail _ ha))) (hrest a ha)
    refine ⟨hall, ⟨all, rfl, List.prefix_rfl⟩, fun path h => absurd h (hhit path),
      fun _ q hq hbytes => absurd (hnone q hq) hbytes,
      fun _ _ _ _ _ => ⟨front, last, rest, e, hsplit, hanswer, hothers, rfl⟩,
      fun _ h => absurd h hlacked, fun hraised => iff_of_false ?_ fun h => hlacked h.2⟩
    rintro ⟨⟩
    exact hraised last hmem hanswer

end Consults

/-- However repositories answer, the first that has the artifact wins, and when none has it, the
last failure is reported, or that none has it. -/
theorem consults (f : Fetcher) (cache : Cache) (repositories : List Repository) (c : Coordinate)
    (host : Host) (asked : List Fetch) :
    Consults cache repositories c host asked (questions f host c asked.length repositories)
      (visit (resolveCoordinate (asking f) cache repositories c) host asked) := by
  cases hlookup : cache.lookup host c with
  | some path =>
    rw [visit_resolveCoordinate, hlookup]
    exact .of_cached map_repository_questions hlookup
  | none =>
    by_cases hnone : ∀ q ∈ questions f host c asked.length repositories, q.bytes? = none
    · rw [visit_resolveCoordinate_of_none hlookup hnone]
      exact .of_none map_repository_questions hlookup hnone
    · push Not at hnone
      obtain ⟨q, hq, hbytes⟩ := hnone
      obtain ⟨front, first, rest, bytes, hsplit, hfront, hfirst⟩ := exists_first hq hbytes
      rw [visit_resolveCoordinate_of_first hlookup hsplit hfront hfirst]
      exact .of_first map_repository_questions hlookup hsplit hfront hfirst

/-- A repository that cannot be asked does not keep the next one from winning. -/
example :
    let c : Coordinate := ⟨"a", "b", "1"⟩
    let has : Fetcher := fun _ _ r c =>
      if r.id = "down" then .error (.fetch c r.id "Connection error") else
      if r.id = "full" then .ok (some ⟨#[1]⟩) else .ok none
    let v := visit (resolveCoordinate (asking has) ⟨⟨"cache"⟩⟩
      [⟨"empty", "default", "x"⟩, ⟨"down", "default", "y"⟩, ⟨"full", "default", "z"⟩,
        ⟨"late", "default", "w"⟩] c) (Host.empty ["w"]) []
    v.asked.map (·.repository.id) = ["empty", "down", "full"] ∧
      v.result = .ok ⟨"cache/a/b/1/b-1.rhai"⟩ := by
  decide +kernel

end Artifact
end ScriptSession
