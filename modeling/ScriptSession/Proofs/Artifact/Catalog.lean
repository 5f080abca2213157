import ScriptSession.Proofs.Artifact.Recovery

/-!
# The kept list as a list

A user keeps a list of repositories by asking for it, adding to it, removing from it and going back
to the defaults. Each request reads the file anew, may repair it and may write it as a whole, so
that a missing file, a text that is no list and an emptied list are three different states of the
host behind what is to be one list. Main statement: requests are answered as a plain list without
two entries of one id answers them, and what fails to change the list leaves the host alone unless
the file had to be repaired (`serves_list`).
-/

namespace ScriptSession
namespace Artifact
namespace Store

/-! ## Requests -/

/-- What a user asks for. -/
inductive Request where
  | load
  | add (r : Repository)
  | remove (id : String)
  | reset

/-- What a user is told. -/
inductive Reply where
  | listed (rs : List Repository)
  | removed (found : Bool)
deriving DecidableEq

/-- A request is worked on. -/
def perform (store : Store) : Request → FileOperation Reply
  | .load => return .listed (← store.load)
  | .add r => return .listed (← store.add r)
  | .remove id => return .removed (← store.remove id)
  | .reset => return .listed (← store.reset)

/-- The answer to a request, and the host after it. -/
def serve (store : Store) (q : Request) (host : Host) : Except Session.Failure Reply × Host :=
  (store.perform q).run.run host

/-- Requests are answered one after the other, those behind a failure as well. -/
def serveAll (store : Store) : List Request → Host → List (Except Session.Failure Reply) × Host
  | [], host => ([], host)
  | q :: qs, host =>
    ((store.serve q host).1 :: (store.serveAll qs (store.serve q host).2).1,
      (store.serveAll qs (store.serve q host).2).2)

/-! ## The list -/

/-- The ids of a list. -/
def ids (rs : List Repository) : List String := rs.map (·.id)

/-- What a list answers to a request, and the list after it. -/
def Request.onList (defaults : List Repository) :
    Request → List Repository → Except Session.Failure Reply × List Repository
  | .load, rs => (.ok (.listed rs), rs)
  | .add r, rs =>
    if r.id ∈ ids rs then (.error (.resolution (.duplicateRepository r.id)), rs)
    else (.ok (.listed (rs ++ [r])), rs ++ [r])
  | .remove id, rs => (.ok (.removed (decide (id ∈ ids rs))), rs.eraseP fun r => r.id = id)
  | .reset, _ => (.ok (.listed defaults), defaults)

/-- What a list answers to requests one after the other. -/
def onListAll (defaults : List Repository) :
    List Request → List Repository → List (Except Session.Failure Reply) × List Repository
  | [], rs => ([], rs)
  | q :: qs, rs =>
    ((q.onList defaults rs).1 :: (onListAll defaults qs (q.onList defaults rs).2).1,
      (onListAll defaults qs (q.onList defaults rs).2).2)

/-- The requests that a list does not change for: those that only ask, additions of an id that it
has and removals of one that it has not. -/
def Request.Idles (rs : List Repository) : Request → Prop
  | .load => True
  | .add r => r.id ∈ ids rs
  | .remove id => id ∉ ids rs
  | .reset => False

variable {defaults rs : List Repository}

theorem nodup_defaults (host : Host) : (ids (Repository.defaults host)).Nodup := by
  have hids : ids (Repository.defaults host) = ["local", "central"] := rfl
  rw [hids]
  decide

theorem nodup_concat {r : Repository} (h : (ids rs).Nodup) (hnew : r.id ∉ ids rs) :
    (ids (rs ++ [r])).Nodup := by
  rw [ids, List.map_append]
  refine h.append (List.nodup_singleton _) ?_
  rw [List.map_singleton, List.disjoint_singleton]
  exact hnew

theorem nodup_eraseP (p : Repository → Bool) (h : (ids rs).Nodup) : (ids (rs.eraseP p)).Nodup :=
  h.sublist (List.eraseP_sublist.map _)

/-- Without two entries of one id, to keep the others is to take one entry out. -/
theorem filter_eq_eraseP {id : String} (h : (ids rs).Nodup) :
    (rs.filter fun r => r.id ≠ id) = rs.eraseP fun r => r.id = id := by
  induction rs with
  | nil => rfl
  | cons r rs ih =>
    obtain ⟨hhead, htail⟩ := List.nodup_cons.mp h
    by_cases hr : r.id = id
    · subst hr
      rw [List.filter_cons_of_neg (by simp), List.eraseP_cons_of_pos (by simp)]
      refine List.filter_eq_self.mpr fun r' hr' => ?_
      have hne : r'.id ≠ r.id := fun heq =>
        hhead (List.mem_map.mpr ⟨r', hr', heq⟩)
      simpa using hne
    · rw [List.filter_cons_of_pos (by simpa using hr),
        List.eraseP_cons_of_neg (by simpa using hr), ih htail]

/-- Something is taken out exactly if the id is there. -/
theorem length_filter_eq_iff (rs : List Repository) (id : String) :
    (rs.filter fun r => r.id ≠ id).length = rs.length ↔ id ∉ ids rs := by
  rw [List.length_filter_eq_length_iff, ids, List.mem_map]
  simp

/-! ## Writing -/

/-- Any list can be written. -/
def IsWritable (store : Store) (host : Host) : Prop :=
  ∀ rs, ((store.save rs).run.run host).1 = .ok ()

variable {store : Store} {host saved : Host}

theorem IsWritable.save (h : store.IsWritable host) (rs : List Repository) :
    ∃ saved, (store.save rs).run.run host = (.ok (), saved) :=
  ⟨_, Prod.ext (h rs) rfl⟩

theorem environment_prepared (store : Store) (host : Host) :
    (store.prepared host).2.environment = host.environment := by
  unfold prepared
  cases store.path.parent? <;> rfl

/-- Saving touches files only. -/
theorem environment_of_save (h : (store.save rs).run.run host = (.ok (), saved)) :
    saved.environment = host.environment := by
  obtain ⟨made, files, hprepared, -, rfl⟩ := save_eq_ok h
  have hmade := store.environment_prepared host
  rw [hprepared] at hmade
  exact hmade

/-- The directory of the file is there to stay. -/
theorem prepared_again {made : Host} {files : Files.Tree} (h : store.prepared host = (none, made))
    (hkept : ∀ q, made.files.get? q = some .directory → files.get? q = some .directory) :
    store.prepared (made.withFiles files) = (none, made.withFiles files) := by
  unfold prepared at h ⊢
  cases hparent : store.path.parent? with
  | none => rfl
  | some dir =>
    rw [hparent] at h
    dsimp only at h ⊢
    unfold Host.makeDirectories at h ⊢
    rcases hmake : Files.makeDirectories host.files host.cwd dir with ⟨failure, t⟩
    rw [hmake] at h
    cases h
    have hagain := Files.makeDirectories_again hmake hkept
    simp only [Host.withFiles, hagain]

/-- Where one list was saved any other can be. -/
theorem isWritable_of_save (h : (store.save rs).run.run host = (.ok (), saved)) :
    store.IsWritable saved := by
  obtain ⟨made, files, hprepared, hwrite, rfl⟩ := save_eq_ok h
  intro rs'
  have hagain := prepared_again hprepared fun q => Files.isDirectory_of_write hwrite
  have hwritten : (made.withFiles files).write store.path (Repository.listText rs').toUTF8 = _ :=
    congrArg (Except.map _) (Files.write_again _ hwrite)
  rw [save_run, hagain]
  simp only [hwritten]
  rfl

/-! ## What the file stands for -/

/-- The list that the file stands for. -/
inductive StandsFor (store : Store) (host : Host) : List Repository → Prop where
  /-- There is no file. -/
  | missing (h : host.pathExists store.path = false) :
    StandsFor store host (Repository.defaults host)
  /-- There is a text that is no list. -/
  | malformed {content : ByteArray} (hread : host.read store.path = .ok content)
    (htext : IsText content) (hlist : Repository.listOfBytes? content = none) :
    StandsFor store host (Repository.defaults host)
  /-- There is a list without two entries of one id. -/
  | wellFormed {content : ByteArray} {rs : List Repository}
    (hread : host.read store.path = .ok content)
    (hlist : Repository.listOfBytes? content = some rs) (hnodup : (ids rs).Nodup) :
    StandsFor store host rs

/-- The file needs no repair: there is none, or it holds a list. -/
def IsSound (store : Store) (host : Host) : Prop :=
  host.pathExists store.path = false ∨
    ∃ content rs, host.read store.path = .ok content ∧
      Repository.listOfBytes? content = some rs

theorem StandsFor.nodup (h : store.StandsFor host rs) : (ids rs).Nodup := by
  cases h with
  | missing h => exact nodup_defaults host
  | malformed hread htext hlist => exact nodup_defaults host
  | wellFormed hread hlist hnodup => exact hnodup

/-- A list that was saved is what the file stands for. -/
theorem standsFor_of_save (h : (store.save rs).run.run host = (.ok (), saved))
    (hnodup : (ids rs).Nodup) : store.StandsFor saved rs :=
  .wellFormed (read_of_save h) (Repository.listOfBytes?_listText rs) hnodup

theorem pathExists_of_read {content : ByteArray} (h : host.read store.path = .ok content) :
    host.pathExists store.path = true := by
  obtain ⟨hlocate, hfile⟩ := Files.read_eq_ok.mp h
  exact Files.pathExists_of_isFile (Files.isFile_iff.mpr ⟨hlocate, _, hfile⟩)

theorem load_run_of_missing (h : host.pathExists store.path = false) :
    store.load.run.run host = (.ok (Repository.defaults host), host) := by
  have hget : (getThe Host : FileOperation Host).run.run host = (.ok host, host) := rfl
  unfold load
  rw [FileOperation.run_bind, hget]
  simp only [h, Bool.not_false, if_true]
  rfl

/-! ## One request -/

/-- A host on which the file stands for a list and can be written, whose user is always the same. -/
structure Holds (store : Store) (defaults : List Repository) (host : Host)
    (rs : List Repository) : Prop where
  standsFor : store.StandsFor host rs
  isWritable : store.IsWritable host
  defaults : Repository.defaults host = defaults

theorem defaults_of_save (h : (store.save rs).run.run host = (.ok (), saved)) :
    Repository.defaults saved = Repository.defaults host := by
  unfold Repository.defaults Host.home Host.environmentText? Host.environmentValue?
  rw [environment_of_save h]

namespace Holds

theorem save (h : store.Holds defaults host rs) {rs' : List Repository} (hnodup : (ids rs').Nodup)
    (hsave : (store.save rs').run.run host = (.ok (), saved)) : store.Holds defaults saved rs' where
  standsFor := standsFor_of_save hsave hnodup
  isWritable := isWritable_of_save hsave
  defaults := (defaults_of_save hsave).trans h.defaults

/-- Loading answers the list, and saves it where the file had to be repaired. -/
theorem load (h : store.Holds defaults host rs) :
    ∃ host', store.load.run.run host = (.ok rs, host') ∧ store.Holds defaults host' rs ∧
      (store.IsSound host → host' = host) ∧
      (host' = host ∨ host'.read store.path = .ok (Repository.listText rs).toUTF8) := by
  cases h.standsFor with
  | missing hmissing => exact ⟨host, load_run_of_missing hmissing, h, fun _ => rfl, .inl rfl⟩
  | malformed hread htext hlist =>
    obtain ⟨saved, hsave⟩ := h.isWritable.save (Repository.defaults host)
    refine ⟨saved, load_run_of_no_list hread htext hlist hsave, h.save (nodup_defaults host) hsave,
      ?_, .inr (read_of_save hsave)⟩
    rintro (hmissing | ⟨content', rs', hread', hlist'⟩)
    · rw [pathExists_of_read hread] at hmissing
      cases hmissing
    · rw [hread] at hread'
      cases hread'
      rw [hlist] at hlist'
      cases hlist'
  | wellFormed hread hlist hnodup =>
    exact ⟨host, load_run_of_list hread hlist, h, fun _ => rfl, .inl rfl⟩

end Holds

theorem serve_load : store.serve .load host =
    match store.load.run.run host with
    | (.ok rs, host') => (.ok (.listed rs), host')
    | (.error e, host') => (.error e, host') := by
  unfold serve perform
  rw [FileOperation.run_bind]
  rcases store.load.run.run host with ⟨result, host'⟩
  cases result <;> rfl

theorem serve_reset : store.serve .reset host =
    match (store.save (Repository.defaults host)).run.run host with
    | (.ok (), host') => (.ok (.listed (Repository.defaults host)), host')
    | (.error e, host') => (.error e, host') := by
  have hget : (getThe Host : FileOperation Host).run.run host = (.ok host, host) := rfl
  unfold serve perform reset
  rw [FileOperation.run_bind, FileOperation.run_bind, hget]
  dsimp only
  rw [FileOperation.run_bind]
  rcases (store.save (Repository.defaults host)).run.run host with ⟨result, host'⟩
  cases result <;> rfl

theorem serve_add {host' : Host} (hload : store.load.run.run host = (.ok rs, host'))
    (r : Repository) : store.serve (.add r) host =
      if r.id ∈ ids rs then (.error (.resolution (.duplicateRepository r.id)), host')
      else
        match (store.save (rs ++ [r])).run.run host' with
        | (.ok (), saved) => (.ok (.listed (rs ++ [r])), saved)
        | (.error e, saved) => (.error e, saved) := by
  have hany : (rs.any fun r' => r'.id == r.id) = true ↔ r.id ∈ ids rs := by
    simp [ids]
  unfold serve perform add
  rw [FileOperation.run_bind, FileOperation.run_bind, hload]
  dsimp only
  by_cases hmem : r.id ∈ ids rs
  · rw [if_pos hmem, if_pos (hany.mpr hmem)]
    rfl
  · rw [if_neg hmem, if_neg (mt hany.mp hmem), FileOperation.run_bind]
    rcases (store.save (rs ++ [r])).run.run host' with ⟨result, saved⟩
    cases result <;> rfl

theorem serve_remove {host' : Host} (hload : store.load.run.run host = (.ok rs, host'))
    (hnodup : (ids rs).Nodup) (id : String) : store.serve (.remove id) host =
      if id ∈ ids rs then
        match (store.save (rs.eraseP fun r => r.id = id)).run.run host' with
        | (.ok (), saved) => (.ok (.removed true), saved)
        | (.error e, saved) => (.error e, saved)
      else (.ok (.removed false), host') := by
  unfold serve perform remove
  rw [FileOperation.run_bind, FileOperation.run_bind, hload]
  dsimp only
  by_cases hmem : id ∈ ids rs
  · rw [if_pos hmem, if_neg (fun hlength => (length_filter_eq_iff rs id).mp hlength hmem),
      filter_eq_eraseP hnodup, FileOperation.run_bind]
    rcases (store.save (rs.eraseP fun r => r.id = id)).run.run host' with ⟨result, saved⟩
    cases result <;> rfl
  · rw [if_neg hmem, if_pos ((length_filter_eq_iff rs id).mpr hmem)]
    rfl

/-- What is expected of one request: the answer of the list, and then the list that it leaves. A
request that the list does not change for changes nothing, unless the file has to be repaired; and a
file that is written is the kept form of the list. -/
structure Serves (store : Store) (defaults : List Repository) (host : Host) (rs : List Repository)
    (q : Request) : Prop where
  answer : (store.serve q host).1 = (q.onList defaults rs).1
  holds : store.Holds defaults (store.serve q host).2 (q.onList defaults rs).2
  idle : store.IsSound host → q.Idles rs → (store.serve q host).2 = host
  written : (store.serve q host).2 = host ∨ (store.serve q host).2.read store.path =
    .ok (Repository.listText (q.onList defaults rs).2).toUTF8

/-- A request that leaves the list, after the file has been repaired where it had to be. -/
theorem Serves.of_kept {q : Request} {reply : Except Session.Failure Reply} {host' : Host}
    (hserve : store.serve q host = (reply, host')) (hlist : q.onList defaults rs = (reply, rs))
    (hholds : store.Holds defaults host' rs) (hsound : store.IsSound host → host' = host)
    (hwritten : host' = host ∨ host'.read store.path = .ok (Repository.listText rs).toUTF8) :
    store.Serves defaults host rs q := by
  constructor <;> simp only [hserve, hlist]
  · exact hholds
  · exact fun hs _ => hsound hs
  · exact hwritten

/-- A request that leaves another list, which has been saved. -/
theorem Serves.of_saved {q : Request} {reply : Except Session.Failure Reply}
    {rs' : List Repository} {loaded : Host} (hserve : store.serve q host = (reply, saved))
    (hlist : q.onList defaults rs = (reply, rs')) (hholds : store.Holds defaults loaded rs)
    (hsave : (store.save rs').run.run loaded = (.ok (), saved)) (hnodup : (ids rs').Nodup)
    (hidle : ¬ q.Idles rs) : store.Serves defaults host rs q := by
  constructor <;> simp only [hserve, hlist]
  · exact hholds.save hnodup hsave
  · exact fun _ h => absurd h hidle
  · exact .inr (read_of_save hsave)

theorem Holds.serves (h : store.Holds defaults host rs) (q : Request) :
    store.Serves defaults host rs q := by
  -- Every request but the last one loads first, which may repair the file, and goes on from there.
  obtain ⟨host', hload, hholds, hsound, hwritten⟩ := h.load
  have hnodup := h.standsFor.nodup
  cases q with
  | load => exact .of_kept (by rw [serve_load, hload]) rfl hholds hsound hwritten
  | add r =>
    by_cases hmem : r.id ∈ ids rs
    · exact .of_kept (by rw [serve_add hload, if_pos hmem]) (if_pos hmem) hholds hsound hwritten
    · obtain ⟨saved, hsave⟩ := hholds.isWritable.save (rs ++ [r])
      exact .of_saved (by rw [serve_add hload, if_neg hmem, hsave]) (if_neg hmem) hholds hsave
        (nodup_concat hnodup hmem) hmem
  | remove id =>
    by_cases hmem : id ∈ ids rs
    · obtain ⟨saved, hsave⟩ := hholds.isWritable.save (rs.eraseP fun r => r.id = id)
      refine .of_saved (by rw [serve_remove hload hnodup, if_pos hmem, hsave]) ?_ hholds hsave
        (nodup_eraseP _ hnodup) (not_not_intro hmem)
      rw [Request.onList, decide_eq_true hmem]
    · have hsame : (rs.eraseP fun r => r.id = id) = rs := by
        refine List.eraseP_of_forall_not fun r hr => ?_
        have hne : r.id ≠ id := fun heq => hmem (List.mem_map.mpr ⟨r, hr, heq⟩)
        simpa using hne
      refine .of_kept (by rw [serve_remove hload hnodup, if_neg hmem]) ?_ hholds hsound hwritten
      rw [Request.onList, decide_eq_false hmem, hsame]
  | reset =>
    obtain ⟨saved, hsave⟩ := h.isWritable.save (Repository.defaults host)
    have hserve : store.serve .reset host = (.ok (.listed defaults), saved) := by
      rw [serve_reset, hsave, h.defaults]
    rw [h.defaults] at hsave
    exact .of_saved hserve rfl h hsave (h.defaults ▸ nodup_defaults host) fun hidle => hidle

/-! ## Main statement -/

/-- Answers keep up with the list along any requests. -/
theorem Holds.serveAll (h : store.Holds defaults host rs) (qs : List Request) :
    (store.serveAll qs host).1 = (onListAll defaults qs rs).1 ∧
      store.Holds defaults (store.serveAll qs host).2 (onListAll defaults qs rs).2 := by
  induction qs generalizing host rs with
  | nil => exact ⟨rfl, h⟩
  | cons q qs ih =>
    have hserves := h.serves q
    obtain ⟨hanswers, hholds⟩ := ih hserves.holds
    rw [Store.serveAll, onListAll]
    exact ⟨by rw [hserves.answer, hanswers], hholds⟩

/-- Where the file is missing, holds a text that is no list or holds a list without two entries of
one id, and can be written, requests are answered as the list answers them that the file stands for.
The file always stands for the list, and the list never has two entries of one id; and from wherever
the requests lead to, one more is answered and leaves its mark on the host as `Serves` says. -/
theorem serves_list (store : Store) (host : Host) (rs : List Repository)
    (hstands : store.StandsFor host rs) (hwritable : store.IsWritable host) (qs : List Request) :
    let listed := onListAll (Repository.defaults host) qs rs
    let served := store.serveAll qs host
    served.1 = listed.1 ∧ store.StandsFor served.2 listed.2 ∧ (ids listed.2).Nodup ∧
      ∀ q, store.Serves (Repository.defaults host) served.2 listed.2 q := by
  intro listed served
  obtain ⟨hanswers, hholds⟩ := Holds.serveAll ⟨hstands, hwritable, rfl⟩ qs
  exact ⟨hanswers, hholds.standsFor, hholds.standsFor.nodup, hholds.serves⟩

/-- A text that ends in the middle of a list stands for the defaults: a repository is added to them
once and removed once. -/
theorem served_from_truncated :
    let store : Store := ⟨⟨"conf/repositories.json"⟩⟩
    let host := hostWith "[\x7b\"id\": \"team\"".toUTF8
    let team : Repository := ⟨"team", "default", "https://repo.team.example/"⟩
    (store.StandsFor host (Repository.defaults host) ∧ store.IsWritable host) ∧
      (store.serveAll [.add team, .add team, .remove "team", .remove "team", .load] host).1 =
        [.ok (.listed (Repository.defaults host ++ [team])),
          .error (.resolution (.duplicateRepository "team")), .ok (.removed true),
          .ok (.removed false), .ok (.listed (Repository.defaults host))] := by
  intro store host team
  have hread : host.read store.path = .ok "[\x7b\"id\": \"team\"".toUTF8 := by decide +kernel
  have hstands : store.StandsFor host (Repository.defaults host) :=
    .malformed hread ⟨_, rfl⟩ (by decide +kernel)
  have hwritable : store.IsWritable host := save_hostWith _
  have hanswers := (serves_list store host _ hstands hwritable
    [.add team, .add team, .remove "team", .remove "team", .load]).1
  exact ⟨⟨hstands, hwritable⟩, hanswers.trans rfl⟩

end Store
end Artifact
end ScriptSession
