import ScriptSession.Proofs.Artifact.Keeping

/-!
# Recovering the kept list

A file that is there may hold any bytes: somebody may have edited it, or the program may have been
stopped while it wrote. Loading is meant to make do with all of them, the defaults taking the place
of what is no list. Main statement: it does exactly if the bytes are those of some text
(`recovers_iff`). Text is decoded before it is parsed, and bytes that cannot be decoded are a
failure of reading, which nothing recovers from.
-/

namespace ScriptSession
namespace Artifact

/-! ## Bytes -/

/-- Bytes that are the encoding of a text. -/
def IsText (content : ByteArray) : Prop := ∃ text : String, text.toUTF8 = content

/-- The list of repositories that bytes hold. -/
def Repository.listOfBytes? (content : ByteArray) : Option (List Repository) :=
  (String.fromUTF8? content).bind parseList?

theorem fromUTF8?_eq_none_iff {content : ByteArray} :
    String.fromUTF8? content = none ↔ ¬ IsText content := by
  constructor
  · rintro hnone ⟨text, rfl⟩
    rw [fromUTF8?_toUTF8] at hnone
    cases hnone
  · intro hnot
    unfold String.fromUTF8?
    refine dif_neg fun hvalid => hnot ⟨String.fromUTF8 content hvalid, ?_⟩
    rw [String.toUTF8_eq_toByteArray]
    rfl

theorem Repository.listOfBytes?_listText (rs : List Repository) :
    listOfBytes? (listText rs).toUTF8 = some rs := by
  rw [listOfBytes?, fromUTF8?_toUTF8]
  exact parseList?_listText rs

namespace Store

/-! ## Loading -/

/-- What is expected of loading where a file holds some bytes: the list in them, or else the
defaults, and then a file is left that the defaults are read from as they are. -/
structure Recovers (store : Store) (host : Host) (content : ByteArray) : Prop where
  stored : ∀ rs, Repository.listOfBytes? content = some rs →
    store.load.run.run host = (.ok rs, host)
  restored : Repository.listOfBytes? content = none →
    ∃ (restored : Host) (kept : ByteArray),
      store.load.run.run host = (.ok (Repository.defaults host), restored) ∧
      restored.read store.path = .ok kept ∧
      Repository.listOfBytes? kept = some (Repository.defaults host) ∧
      store.load.run.run restored = (.ok (Repository.defaults host), restored)

variable {store : Store} {host : Host} {content : ByteArray}

/-- Bytes that are no text are a failure, and stay where they are. -/
theorem load_run_of_not_isText (hread : host.read store.path = .ok content)
    (htext : ¬ IsText content) : store.load.run.run host = (.error (.io .notText), host) := by
  rw [load_run_of_read hread, fromUTF8?_eq_none_iff.mpr htext]

theorem load_run_of_list {rs : List Repository} (hread : host.read store.path = .ok content)
    (hlist : Repository.listOfBytes? content = some rs) :
    store.load.run.run host = (.ok rs, host) := by
  obtain ⟨text, htext, hparse⟩ := Option.bind_eq_some_iff.mp hlist
  rw [load_run_of_read hread, htext]
  simp only [hparse]

/-- A text that is no list is replaced by the defaults. -/
theorem load_run_of_no_list {restored : Host} (hread : host.read store.path = .ok content)
    (htext : IsText content) (hlist : Repository.listOfBytes? content = none)
    (hsave : (store.save (Repository.defaults host)).run.run host = (.ok (), restored)) :
    store.load.run.run host = (.ok (Repository.defaults host), restored) := by
  obtain ⟨text, rfl⟩ := htext
  rw [Repository.listOfBytes?, fromUTF8?_toUTF8] at hlist
  have hparse : Repository.parseList? text = none := hlist
  rw [load_run_of_read hread, fromUTF8?_toUTF8]
  simp only [hparse, hsave]

/-! ## Main statement -/

/-- Where the defaults can be written, loading a file recovers exactly if the file holds text. -/
theorem recovers_iff (store : Store) (host : Host) (content : ByteArray)
    (hread : host.read store.path = .ok content)
    (hwritable : ((store.save (Repository.defaults host)).run.run host).1 = .ok ()) :
    (store.Recovers host content ↔ IsText content) ∧
      (¬ IsText content → store.load.run.run host = (.error (.io .notText), host)) := by
  refine ⟨⟨fun hrecovers => ?_, fun htext => ?_⟩, load_run_of_not_isText hread⟩
  · -- What is no text is no list either, but loading it fails before anything is restored.
    by_contra hnot
    have hlist : Repository.listOfBytes? content = none := by
      rw [Repository.listOfBytes?, fromUTF8?_eq_none_iff.mpr hnot]
      rfl
    obtain ⟨restored, -, hload, -⟩ := hrecovers.restored hlist
    rw [load_run_of_not_isText hread hnot] at hload
    cases hload
  · refine ⟨fun rs hlist => load_run_of_list hread hlist, fun hlist => ?_⟩
    rcases hsave : (store.save (Repository.defaults host)).run.run host with ⟨result, restored⟩
    rw [hsave] at hwritable
    obtain rfl : result = .ok () := hwritable
    have hkept := read_of_save hsave
    exact ⟨restored, _, load_run_of_no_list hread htext hlist hsave, hkept,
      Repository.listOfBytes?_listText _, load_run hkept⟩

/-- A host with a file for a list. -/
def hostWith (content : ByteArray) : Host :=
  ⟨⟨[(["w"], .directory), (["w", "conf"], .directory),
    (["w", "conf", "repositories.json"], .file content)]⟩, ["w"], [], []⟩

/-- Whatever the file holds, any list can be written over it. -/
theorem save_hostWith (content : ByteArray) (rs : List Repository) :
    (((⟨⟨"conf/repositories.json"⟩⟩ : Store).save rs).run.run (hostWith content)).1 = .ok () :=
  (save_result _ [] rs _).trans rfl

/-- A text that ends in the middle of a list is replaced by the defaults. -/
theorem recovers_from_truncated :
    let store : Store := ⟨⟨"conf/repositories.json"⟩⟩
    let content : ByteArray := "[\x7b\"id\": \"team\"".toUTF8
    let host := hostWith content
    (host.read store.path = .ok content ∧
      ((store.save (Repository.defaults host)).run.run host).1 = .ok ()) ∧
    Repository.listOfBytes? content = none ∧ store.Recovers host content := by
  intro store content host
  have hread : host.read store.path = .ok content := by decide +kernel
  have hwritable := save_hostWith content (Repository.defaults host)
  exact ⟨⟨hread, hwritable⟩, by decide +kernel,
    (recovers_iff store host content hread hwritable).1.mpr ⟨_, rfl⟩⟩

/-- A byte that begins no character is reported as a failure, and the defaults are not restored. -/
theorem stranded_by_stray_byte :
    let store : Store := ⟨⟨"conf/repositories.json"⟩⟩
    let host := hostWith ⟨#[0xFF]⟩
    host.read store.path = .ok ⟨#[0xFF]⟩ ∧
      ((store.save (Repository.defaults host)).run.run host).1 = .ok () ∧
      store.load.run.run host = (.error (.io .notText), host) ∧
      ¬ store.Recovers host ⟨#[0xFF]⟩ := by
  intro store host
  have hread : host.read store.path = .ok ⟨#[0xFF]⟩ := by decide +kernel
  have hnone : String.fromUTF8? ⟨#[0xFF]⟩ = none := by decide +kernel
  have hload := load_run_of_not_isText hread (fromUTF8?_eq_none_iff.mp hnone)
  refine ⟨hread, save_hostWith _ _, hload, fun hrecovers => ?_⟩
  have hlist : Repository.listOfBytes? ⟨#[0xFF]⟩ = none := by
    rw [Repository.listOfBytes?, hnone]
    rfl
  obtain ⟨restored, -, hrestored, -⟩ := hrecovers.restored hlist
  rw [hload] at hrestored
  cases hrestored

end Store
end Artifact
end ScriptSession
