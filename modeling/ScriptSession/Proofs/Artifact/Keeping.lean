import ScriptSession.Artifact.Store
import ScriptSession.Proofs.Files.Changes
import ScriptSession.Proofs.Json.RoundTrip

/-!
# Keeping lists of repositories

The kept form of a list of repositories is read back as the list, whatever texts the repositories
are made of. So is a file that the list was saved to. Main statement: `kept_list`. Whether a list
can be saved is for the files to say and not for the list.
-/

namespace ScriptSession
namespace Artifact

/-! ## The kept form -/

namespace Repository

theorem isPlain_toJson (r : Repository) : r.toJson.IsPlain := by
  simp [toJson, Json.Value.record, Json.Value.ofString, Json.Value.IsPlain, Json.FieldsArePlain]

theorem arePlain_map_toJson (rs : List Repository) : Json.ArePlain (rs.map toJson) := by
  induction rs with
  | nil => exact trivial
  | cons r rs ih => exact ⟨isPlain_toJson r, ih⟩

/-- A repository is read back from its JSON. -/
theorem ofJson?_toJson (r : Repository) : ofJson? r.toJson = some r := rfl

theorem mapM_ofJson? (rs : List Repository) : (rs.map toJson).mapM ofJson? = some rs := by
  induction rs with
  | nil => rfl
  | cons r rs ih => rw [List.map_cons, List.mapM_cons, ofJson?_toJson, ih]; rfl

/-- A list is read back from its kept form. -/
theorem parseList?_listText (rs : List Repository) : parseList? (listText rs) = some rs := by
  have hparse : Json.parse (listText rs) = some (.array (rs.map toJson)) :=
    Json.parse_pretty (arePlain_map_toJson rs)
  rw [parseList?, hparse]
  exact mapM_ofJson? rs

end Repository

/-! ## The file -/

theorem fromUTF8?_toUTF8 (s : String) : String.fromUTF8? s.toUTF8 = some s := by
  unfold String.fromUTF8?
  rw [String.toUTF8_eq_toByteArray, dif_pos s.isValidUTF8]
  rfl

/-- One operation on files after another one, which may have failed. -/
theorem FileOperation.run_bind {α β : Type} (x : FileOperation α) (f : α → FileOperation β)
    (host : Host) :
    (x >>= f).run.run host =
      match x.run.run host with
      | (.ok a, host) => (f a).run.run host
      | (.error e, host) => (.error e, host) := by
  show (x >>= f) host = match x host with
    | (.ok a, host) => f a host
    | (.error e, host) => (.error e, host)
  simp only [bind, ExceptT.bind, ExceptT.mk, StateT.bind, ExceptT.bindCont]
  rcases x host with ⟨result, host⟩
  cases result <;> rfl

namespace Store

theorem makeDirectories_run (dir : Path) (host : Host) :
    (makeDirectories dir).run.run host =
      match host.makeDirectories dir with
      | (some e, host) => (.error (.io e), host)
      | (none, host) => (.ok (), host) := by
  have hget : (getThe Host : FileOperation Host).run.run host = (.ok host, host) := rfl
  unfold makeDirectories
  rw [FileOperation.run_bind, hget]
  dsimp only
  rcases host.makeDirectories dir with ⟨failure, made⟩
  cases failure <;> rfl

theorem write_run (path : Path) (content : ByteArray) (host : Host) :
    (write path content).run.run host =
      match host.write path content with
      | .ok host => (.ok (), host)
      | .error e => (.error (.io e), host) := by
  have hget : (getThe Host : FileOperation Host).run.run host = (.ok host, host) := rfl
  unfold write
  rw [FileOperation.run_bind, hget]
  dsimp only
  cases host.write path content <;> rfl

/-- The host with the directory made that the file of a list lies in, or what kept it from being
made. -/
def prepared (store : Store) (host : Host) : Option Files.Failure × Host :=
  match store.path.parent? with
  | some dir => host.makeDirectories dir
  | none => (none, host)

/-- What saving comes to. -/
theorem save_run (store : Store) (rs : List Repository) (host : Host) :
    (store.save rs).run.run host =
      match store.prepared host with
      | (some e, host) => (.error (.io e), host)
      | (none, host) =>
        match host.write store.path (Repository.listText rs).toUTF8 with
        | .ok host => (.ok (), host)
        | .error e => (.error (.io e), host) := by
  unfold save prepared
  cases store.path.parent? with
  | none => exact write_run _ _ host
  | some dir =>
    dsimp only
    rw [FileOperation.run_bind, makeDirectories_run]
    rcases host.makeDirectories dir with ⟨failure, made⟩
    cases failure with
    | some e => rfl
    | none => exact write_run _ _ made

/-- What loading comes to where there is a file. -/
theorem load_run_of_read {store : Store} {content : ByteArray} {host : Host}
    (h : host.read store.path = .ok content) :
    store.load.run.run host =
      match String.fromUTF8? content with
      | none => (.error (.io .notText), host)
      | some text =>
        match Repository.parseList? text with
        | some rs => (.ok rs, host)
        | none =>
          match (store.save (Repository.defaults host)).run.run host with
          | (.ok (), restored) => (.ok (Repository.defaults host), restored)
          | (.error e, restored) => (.error e, restored) := by
  have hget : (getThe Host : FileOperation Host).run.run host = (.ok host, host) := rfl
  -- Loading looks whether something is there before it reads, and what can be read is there.
  have hexists : host.pathExists store.path = true := by
    obtain ⟨hlocate, hfile⟩ := Files.read_eq_ok.mp h
    exact Files.pathExists_of_isFile (Files.isFile_iff.mpr ⟨hlocate, _, hfile⟩)
  have htext : host.readText store.path =
      match String.fromUTF8? content with
      | none => .error .notText
      | some text => .ok text := by
    change Files.readText host.files host.cwd store.path = _
    change Files.read host.files host.cwd store.path = _ at h
    rw [Files.readText, h]
    cases hdecoded : String.fromUTF8? content <;>
      simp only [bind, Except.bind, pure, Except.pure, hdecoded]
  unfold load
  rw [FileOperation.run_bind, hget]
  simp only [hexists, htext, Bool.not_true, Bool.false_eq_true, if_false]
  cases String.fromUTF8? content with
  | none => rfl
  | some text =>
    dsimp only
    cases Repository.parseList? text with
    | some rs => rfl
    | none =>
      dsimp only
      rw [FileOperation.run_bind]
      rcases (store.save (Repository.defaults host)).run.run host with ⟨result, restored⟩
      cases result <;> rfl

/-- Where a kept list lies it is loaded, and nothing changes. -/
theorem load_run {store : Store} {rs : List Repository} {host : Host}
    (h : host.read store.path = .ok (Repository.listText rs).toUTF8) :
    store.load.run.run host = (.ok rs, host) := by
  rw [load_run_of_read h, fromUTF8?_toUTF8]
  simp only [Repository.parseList?_listText]

/-- Whether a list can be saved does not depend on it. -/
theorem save_result (store : Store) (rs rs' : List Repository) (host : Host) :
    ((store.save rs').run.run host).1 = ((store.save rs).run.run host).1 := by
  rw [save_run, save_run]
  rcases store.prepared host with ⟨failure, made⟩
  cases failure with
  | some e => rfl
  | none =>
    dsimp only
    unfold Host.write Files.write
    cases Files.locate made.files made.cwd store.path with
    | error e => rfl
    | ok place =>
      simp only [bind, Except.bind]
      cases Files.obstacle? made.files place <;> rfl

/-- What a list was saved by: the directory was made, and then the file was written. -/
theorem save_eq_ok {store : Store} {rs : List Repository} {host saved : Host}
    (h : (store.save rs).run.run host = (.ok (), saved)) :
    ∃ made files, store.prepared host = (none, made) ∧
      Files.write made.files made.cwd store.path (Repository.listText rs).toUTF8 = .ok files ∧
      saved = made.withFiles files := by
  rw [save_run] at h
  rcases hprepared : store.prepared host with ⟨failure, made⟩
  rw [hprepared] at h
  cases failure with
  | some e => cases h
  | none =>
    unfold Host.write at h
    dsimp only at h
    cases hwrite : Files.write made.files made.cwd store.path
        (Repository.listText rs).toUTF8 with
    | error e =>
      rw [hwrite] at h
      cases h
    | ok files =>
      rw [hwrite] at h
      cases h
      exact ⟨made, files, rfl, hwrite, rfl⟩

/-- Where a list was saved lies its kept form. -/
theorem read_of_save {store : Store} {rs : List Repository} {host saved : Host}
    (h : (store.save rs).run.run host = (.ok (), saved)) :
    saved.read store.path = .ok (Repository.listText rs).toUTF8 := by
  obtain ⟨made, files, -, hwrite, rfl⟩ := save_eq_ok h
  exact Files.read_of_write hwrite

/-- What was saved is loaded. -/
theorem save_load_run (store : Store) (rs : List Repository) (host : Host) :
    (store.save rs >>= fun _ => store.load).run.run host =
      match (store.save rs).run.run host with
      | (.ok (), host) => (.ok rs, host)
      | (.error e, host) => (.error e, host) := by
  rw [FileOperation.run_bind]
  rcases hsave : (store.save rs).run.run host with ⟨result, saved⟩
  cases result with
  | error e => rfl
  | ok _ => exact load_run (read_of_save hsave)

end Store

/-- A list is read back from its kept form, and loaded from where it was saved. -/
theorem kept_list (rs : List Repository) :
    Repository.parseList? (Repository.listText rs) = some rs ∧
      ∀ (store : Store) (host : Host),
        (∀ rs', ((store.save rs').run.run host).1 = ((store.save rs).run.run host).1) ∧
        (store.save rs >>= fun _ => store.load).run.run host =
          match (store.save rs).run.run host with
          | (.ok (), host) => (.ok rs, host)
          | (.error e, host) => (.error e, host) :=
  ⟨Repository.parseList?_listText rs, fun store host =>
    ⟨fun rs' => store.save_result rs rs' host, store.save_load_run rs host⟩⟩

end Artifact
end ScriptSession
