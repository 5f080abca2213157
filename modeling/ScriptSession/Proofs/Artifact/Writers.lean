import Mathlib.Logic.Function.Basic
import ScriptSession.Proofs.Artifact.Storing
import ScriptSession.Proofs.Concurrency.Runs

/-!
# Concurrent stores

Stores of one coordinate, any number of them, that take their steps in any order. A store makes
directories, writes a staging file, looks whether the artifact is there, and then moves its file to
the artifact's place or removes it; done without a pause these steps are the store of the cache
(`iterate_advance`). An entry ought to be written once (`FirstWins`).

The look and the move are two steps, and the move replaces what is there. Main statement: the first
writer wins in a run exactly if no store that saw no artifact moves its file over one with other
bytes (`firstWins_iff`), so if look and move are one step (`firstWins_of_uninterrupted`). In every
run the artifact is what was moved last.
-/

namespace ScriptSession
namespace Artifact

open Concurrency (Follows runFrom runFrom_concat runFrom_keeps runFrom_keeps_of)
open Files (Place Tree isFile_iff locate placeOf read_eq_ok)

/-! ## The steps of a store -/

/-- How far a store is: it was called with bytes, its directory is made, its staging file is
written, it saw no artifact, it is about to remove its staging file, or it is over. -/
inductive Stage where
  | idle
  | called (bytes : ByteArray)
  | made (bytes : ByteArray)
  | staged (bytes : ByteArray) (place : Place)
  | clear (bytes : ByteArray) (place : Place)
  | leaving (bytes : ByteArray) (place : Place) (result : Except Failure Path)
  | done (result : Except Failure Path)

/-- The staging file of a store that has one. -/
def Stage.copy? : Stage → Option (Place × ByteArray)
  | .staged bytes place | .clear bytes place | .leaving bytes place _ => some (place, bytes)
  | .idle | .called _ | .made _ | .done _ => none

/-- What a store comes to, once that is settled. -/
def Stage.result? : Stage → Option (Except Failure Path)
  | .leaving _ _ result | .done result => some result
  | .idle | .called _ | .made _ | .staged _ _ | .clear _ _ => none

/-- The next step of a store that works in a directory on its way to a target. -/
def Stage.next (directory target : Path) (failure : Files.Failure → Failure) (host : Host) :
    Stage → Stage × Host
  | .idle => (.idle, host)
  | .called bytes =>
    match host.makeDirectories directory with
    | (some e, host) => (.done (.error (failure e)), host)
    | (none, host) => (.made bytes, host)
  | .made bytes =>
    match host.stage directory bytes with
    | .error e => (.done (.error (failure e)), host)
    | .ok (place, host) => (.staged bytes place, host)
  | .staged bytes place =>
    if host.isFile target then (.leaving bytes place (.ok target), host)
    else (.clear bytes place, host)
  | .clear bytes place =>
    match host.persist place target with
    | .error e => (.leaving bytes place (.error (failure e)), host)
    | .ok host => (.done (.ok target), host)
  | .leaving _ place result => (.done result, host.discard place)
  | .done result => (.done result, host)

/-- The next step of a store of a coordinate. -/
def Cache.advance (cache : Cache) (c : Coordinate) (host : Host) (stage : Stage) : Stage × Host :=
  stage.next (cache.shelf c) (cache.pathFor c) (.cache c) host

/-- The bytes that became the artifact with a step of a store: a store that saw no artifact and is
over has moved its file. -/
def Stage.moved? : Stage → Stage → Option ByteArray
  | .clear bytes _, .done _ => some bytes
  | _, _ => none

/-! ## Stores side by side -/

/-- A host, the stores on it, and the bytes that became the artifact, in that order. -/
structure Race where
  host : Host
  calls : Nat → Stage
  moved : List ByteArray

/-- A store is called, or one that was called takes its next step. -/
inductive Race.Event where
  | call (n : Nat) (bytes : ByteArray)
  | go (n : Nat)

namespace Race

/-- A host on which nothing is stored yet. -/
def start (host : Host) : Race := ⟨host, fun _ => .idle, []⟩

/-- The state after an event. A number stands for one store. -/
def step (cache : Cache) (c : Coordinate) (s : Race) : Event → Race
  | .call n bytes =>
    match s.calls n with
    | .idle => { s with calls := Function.update s.calls n (.called bytes) }
    | _ => s
  | .go n =>
    let next := cache.advance c s.host (s.calls n)
    { host := next.2
      calls := Function.update s.calls n next.1
      moved := s.moved ++ ((s.calls n).moved? next.1).toList }

/-- The state after events. -/
def after (cache : Cache) (c : Coordinate) (host : Host) (events : List Event) : Race :=
  runFrom (step cache c) (start host) events

end Race

/-! ## One step -/

/-- What a step of a store may be. -/
inductive Advances (cache : Cache) (c : Coordinate) (host : Host) :
    Stage → Stage → Host → Prop where
  | rests (stage : Stage) : Advances cache c host stage stage host
  | makes (bytes : ByteArray) :
      Advances cache c host (.called bytes) (.made bytes) (cache.shelved c host)
  | cannotMake (bytes : ByteArray) (e : Files.Failure) :
      Advances cache c host (.called bytes) (.done (.error (.cache c e))) (cache.shelved c host)
  | stages (bytes : ByteArray) (place : Place) (hfree : host.files.get? place = none)
      (haside : placeOf host.cwd (cache.pathFor c) ≠ place) :
      Advances cache c host (.made bytes) (.staged bytes place)
        (host.withFiles (host.files.put place (.file bytes)))
  | cannotStage (bytes : ByteArray) (e : Files.Failure) :
      Advances cache c host (.made bytes) (.done (.error (.cache c e))) host
  | finds (bytes : ByteArray) (place : Place) (hfile : host.isFile (cache.pathFor c) = true) :
      Advances cache c host (.staged bytes place)
        (.leaving bytes place (.ok (cache.pathFor c))) host
  | clears (bytes : ByteArray) (place : Place) :
      Advances cache c host (.staged bytes place) (.clear bytes place) host
  | moves (bytes : ByteArray) (place : Place) (files : Tree)
      (hrename : Files.rename host.files host.cwd place (cache.pathFor c) = .ok files) :
      Advances cache c host (.clear bytes place) (.done (.ok (cache.pathFor c)))
        (host.withFiles files)
  | cannotMove (bytes : ByteArray) (place : Place) (e : Files.Failure) :
      Advances cache c host (.clear bytes place)
        (.leaving bytes place (.error (.cache c e))) host
  | leaves (bytes : ByteArray) (place : Place) (result : Except Failure Path) :
      Advances cache c host (.leaving bytes place result) (.done result) (host.discard place)

variable {cache : Cache} {c : Coordinate} {host : Host}

theorem advances (cache : Cache) (c : Coordinate) (host : Host) (stage : Stage) :
    Advances cache c host stage (cache.advance c host stage).1 (cache.advance c host stage).2 := by
  cases stage with
  | idle => exact .rests .idle
  | done result => exact .rests (.done result)
  | leaving bytes place result =>
    simp only [Cache.advance, Stage.next]
    exact .leaves bytes place result
  | called bytes =>
    have hshelved : cache.shelved c host = (host.makeDirectories (cache.shelf c)).2 := by
      rw [Cache.shelved, Host.makeDirectories]
    rcases hmade : host.makeDirectories (cache.shelf c) with ⟨_ | e, grown⟩ <;>
      rw [hmade] at hshelved <;> simp only [Cache.advance, Stage.next, hmade, ← hshelved]
    · exact .makes bytes
    · exact .cannotMake bytes e
  | made bytes =>
    simp only [Cache.advance, Stage.next, Host.stage]
    cases hstage : Files.stage host.files host.cwd (cache.shelf c) bytes with
    | error e => exact .cannotStage bytes e
    | ok staged =>
      obtain ⟨place, files⟩ := staged
      obtain ⟨hplace, rfl⟩ := Files.stage_eq_ok hstage
      exact .stages bytes _ (hplace ▸ Files.get?_stagingPlace _ _)
        (hplace ▸ cache.placeOf_pathFor_ne_stagingPlace c _ _ _)
  | staged bytes place =>
    -- Between this look and the move others may act; the two are steps of their own.
    simp only [Cache.advance, Stage.next]
    split
    · exact .finds bytes place ‹_›
    · exact .clears bytes place
  | clear bytes place =>
    simp only [Cache.advance, Stage.next, Host.persist]
    cases hrename : Files.rename host.files host.cwd place (cache.pathFor c) with
    | error e => exact .cannotMove bytes place e
    | ok files => exact .moves bytes place files hrename

/-- A staging file lies at a place, which is not where the artifact goes. -/
def Staged (cache : Cache) (c : Coordinate) (host : Host) (place : Place) (bytes : ByteArray) :
    Prop :=
  host.files.get? place = some (.file bytes) ∧ placeOf host.cwd (cache.pathFor c) ≠ place

/-- What a step of a store does to files: its own staging file is the only one that it writes or
takes away, and the artifact stays unless it is moved. -/
structure Effect (cache : Cache) (c : Coordinate) (host : Host) (stage stage' : Stage)
    (host' : Host) : Prop where
  cwd : host'.cwd = host.cwd
  others : ∀ place bytes, Staged cache c host place bytes →
    (∀ b, stage.copy? ≠ some (place, b)) → Staged cache c host' place bytes
  copy : ∀ place bytes, stage'.copy? = some (place, bytes) → Staged cache c host' place bytes ∧
    (stage.copy? = some (place, bytes) ∨ host.files.get? place = none)
  moved : ∀ bytes, stage.moved? stage' = some bytes → host'.read (cache.pathFor c) = .ok bytes
  kept : stage.moved? stage' = none → ∀ bytes, host.read (cache.pathFor c) = .ok bytes →
    host'.read (cache.pathFor c) = .ok bytes
  result : ∀ path, stage'.result? = some (.ok path) → stage.result? = some (.ok path) ∨
    path = cache.pathFor c ∧ host'.isFile (cache.pathFor c) = true

variable {stage stage' : Stage} {host' : Host}

/-- A step that takes nothing away and moves nothing. -/
theorem Effect.of_keeps (h : host.Keeps host') (hmoved : stage.moved? stage' = none)
    (hcopy : ∀ place bytes, stage'.copy? = some (place, bytes) → Staged cache c host' place bytes ∧
      (stage.copy? = some (place, bytes) ∨ host.files.get? place = none))
    (hresult : ∀ path, stage'.result? = some (.ok path) → stage.result? = some (.ok path) ∨
      path = cache.pathFor c ∧ host.isFile (cache.pathFor c) = true) :
    Effect cache c host stage stage' host' where
  cwd := h.cwd
  others place bytes hstaged _ := ⟨h.retains _ _ hstaged.1, h.cwd.symm ▸ hstaged.2⟩
  copy := hcopy
  moved bytes hbytes := by
    rw [hmoved] at hbytes
    cases hbytes
  kept _ bytes hread := h.read hread
  result path hpath := (hresult path hpath).imp_right fun hfile => ⟨hfile.1, h.isFile hfile.2⟩

/-- What a step does, if the store's staging file is there. -/
theorem Advances.effect (h : Advances cache c host stage stage' host')
    (hown : ∀ place bytes, stage.copy? = some (place, bytes) → Staged cache c host place bytes) :
    Effect cache c host stage stage' host' := by
  have hkeeps : ∀ place bytes, stage.copy? = some (place, bytes) →
      Staged cache c host place bytes ∧
        (stage.copy? = some (place, bytes) ∨ host.files.get? place = none) :=
    fun place bytes hcopy => ⟨hown place bytes hcopy, .inl hcopy⟩
  cases h with
  | rests stage =>
    have hmoved : stage.moved? stage = none := by cases stage <;> rfl
    exact .of_keeps (.refl _) hmoved hkeeps fun path hpath => .inl hpath
  | makes bytes =>
    exact .of_keeps Cache.keeps_shelved rfl nofun nofun
  | cannotMake bytes e =>
    exact .of_keeps Cache.keeps_shelved rfl nofun nofun
  | stages bytes place hfree haside =>
    refine .of_keeps ⟨rfl, .put _ hfree⟩ rfl ?_ nofun
    rintro _ _ ⟨⟩
    have hget :=
      Tree.get?_put_self host.files place (.file bytes) (Tree.get?_eq_none_iff.mp hfree).1
    exact ⟨⟨hget, haside⟩, .inr hfree⟩
  | cannotStage bytes e => exact .of_keeps (.refl _) rfl nofun nofun
  | finds bytes place hfile =>
    refine .of_keeps (.refl _) rfl hkeeps ?_
    rintro path ⟨⟩
    exact .inr ⟨rfl, hfile⟩
  | clears bytes place => exact .of_keeps (.refl _) rfl hkeeps nofun
  | cannotMove bytes place e => exact .of_keeps (.refl _) rfl hkeeps nofun
  | leaves bytes place result =>
    -- The staging file that goes is the store's own, and it lies apart from the artifact.
    obtain ⟨hget, haside⟩ := hown place bytes rfl
    refine ⟨rfl, fun q content hq hother => ⟨?_, hq.2⟩, nofun, nofun,
      fun _ b hread => (Files.read_erase hget haside).mpr hread, fun path hpath => .inl hpath⟩
    rw [Host.discard, Host.files_withFiles, Tree.get?_erase_of_ne, hq.1]
    rintro rfl
    exact hother bytes rfl
  | moves bytes place files hrename =>
    obtain ⟨hget, haside⟩ := hown place bytes rfl
    have hread : (host.withFiles files).read (cache.pathFor c) = .ok bytes :=
      Files.read_of_rename hrename hget haside
    refine ⟨rfl, fun q content hq hother => ⟨?_, hq.2⟩, nofun, ?_, nofun, ?_⟩
    · obtain ⟨-, -, entry, -, rfl⟩ := Files.rename_eq_ok hrename
      rw [Host.files_withFiles, Tree.get?_put_of_ne _ _ _ _ (Ne.symm hq.2), Tree.get?_erase_of_ne,
        hq.1]
      rintro rfl
      exact hother bytes rfl
    · rintro _ ⟨⟩
      exact hread
    · rintro path ⟨⟩
      exact .inr ⟨rfl, Host.isFile_iff_read.mpr ⟨bytes, hread⟩⟩

/-- A store that takes its steps without a pause is the store of the cache. -/
theorem iterate_advance (cache : Cache) (c : Coordinate) (host : Host) (bytes : ByteArray) :
    (fun s : Stage × Host => cache.advance c s.2 s.1)^[5] (.called bytes, host) =
      (.done (cache.store c bytes host).1, (cache.store c bytes host).2) := by
  unfold Cache.store
  simp only [Cache.shelf_eq, Cache.advance, Function.iterate_succ, Function.iterate_zero,
    Function.comp_apply, id_eq]
  rcases hmade : host.makeDirectories (cache.shelf c) with ⟨_ | e, grown⟩
  case some => simp only [Stage.next, hmade]
  cases hstage : grown.stage (cache.shelf c) bytes with
  | error e => simp only [Stage.next, hmade, hstage]
  | ok staged =>
    obtain ⟨place, written⟩ := staged
    cases hfile : written.isFile (cache.pathFor c) with
    | true => simp [Stage.next, hmade, hstage, hfile]
    | false =>
      cases hpersist : written.persist place (cache.pathFor c) <;>
        simp [Stage.next, hmade, hstage, hfile, hpersist]

/-! ## What holds in every run -/

namespace Race

variable {s : Race}

/-- Staging files are there, away from the artifact and from each other; the artifact is the last
that was moved; and a store that succeeds leaves an artifact. -/
structure Sound (cache : Cache) (c : Coordinate) (s : Race) : Prop where
  copies : ∀ n place bytes, (s.calls n).copy? = some (place, bytes) →
    Staged cache c s.host place bytes
  apart : ∀ m n place b b', (s.calls m).copy? = some (place, b) →
    (s.calls n).copy? = some (place, b') → m = n
  last : ∀ bytes, s.moved.getLast? = some bytes → s.host.read (cache.pathFor c) = .ok bytes
  found : ∀ n path, (s.calls n).result? = some (.ok path) →
    path = cache.pathFor c ∧ s.host.isFile (cache.pathFor c) = true

theorem Sound.effect (h : s.Sound cache c) (n : Nat) :
    Effect cache c s.host (s.calls n) (cache.advance c s.host (s.calls n)).1
      (cache.advance c s.host (s.calls n)).2 :=
  (advances cache c s.host (s.calls n)).effect (h.copies n)

theorem eq_clear_of_moved? {stage stage' : Stage} {bytes : ByteArray}
    (h : stage.moved? stage' = some bytes) : ∃ place, stage = .clear bytes place := by
  cases stage with
  | clear b place =>
    cases stage' with
    | done result =>
      cases h
      exact ⟨place, rfl⟩
    | _ => cases h
  | _ => cases h

/-- After a step the artifact is what it was, or what a store moved that had seen none. -/
theorem Sound.read_go (h : s.Sound cache c) (n : Nat) {bytes : ByteArray}
    (hread : s.host.read (cache.pathFor c) = .ok bytes) :
    ∃ bytes', (s.step cache c (.go n)).host.read (cache.pathFor c) = .ok bytes' ∧
      (bytes' = bytes ∨ ∃ place, s.calls n = .clear bytes' place) := by
  cases hmoved : (s.calls n).moved? (cache.advance c s.host (s.calls n)).1 with
  | none => exact ⟨bytes, (h.effect n).kept hmoved bytes hread, .inl rfl⟩
  | some bytes' =>
    exact ⟨bytes', (h.effect n).moved bytes' hmoved, .inr (eq_clear_of_moved? hmoved)⟩

theorem Sound.isFile_go (h : s.Sound cache c) (n : Nat)
    (hfile : s.host.isFile (cache.pathFor c) = true) :
    (s.step cache c (.go n)).host.isFile (cache.pathFor c) = true := by
  obtain ⟨bytes, hread⟩ := Host.isFile_iff_read.mp hfile
  obtain ⟨bytes', hread', -⟩ := h.read_go n hread
  exact Host.isFile_iff_read.mpr ⟨bytes', hread'⟩

theorem Sound.step_go (h : s.Sound cache c) (n : Nat) : (s.step cache c (.go n)).Sound cache c := by
  have heffect := h.effect n
  have hcalls : ∀ m, (s.step cache c (.go n)).calls m =
      if m = n then (cache.advance c s.host (s.calls n)).1 else s.calls m := fun m =>
    Function.update_apply _ _ _ _
  refine ⟨fun m place bytes hcopy => ?_, fun m k place b b' hm hk => ?_, fun bytes hlast => ?_,
    fun m path hresult => ?_⟩
  · rw [hcalls] at hcopy
    split at hcopy
    · exact (heffect.copy place bytes hcopy).1
    · rename_i hne
      refine heffect.others place bytes (h.copies m place bytes hcopy) fun b hb => hne ?_
      exact h.apart m n place bytes b hcopy hb
  · -- A new staging file is where nothing was, so it is apart from the old ones.
    have hnew : ∀ k b', k ≠ n → (s.calls k).copy? = some (place, b') →
        ∀ b, (cache.advance c s.host (s.calls n)).1.copy? ≠ some (place, b) := by
      intro k b' hne hk b hn
      obtain ⟨-, hold | hnone⟩ := heffect.copy place b hn
      · exact hne (h.apart k n place b' b hk hold)
      · rw [(h.copies k place b' hk).1] at hnone
        cases hnone
    rw [hcalls] at hm hk
    split at hm <;> split at hk
    · rename_i hmn hkn
      rw [hmn, hkn]
    · exact absurd hm (hnew k b' ‹_› hk b)
    · exact absurd hk (hnew m b ‹_› hm b')
    · exact h.apart m k place b b' hm hk
  · -- The file has the bytes of the last move, which may be that of this step.
    cases hmoved : (s.calls n).moved? (cache.advance c s.host (s.calls n)).1 with
    | none =>
      refine heffect.kept hmoved bytes (h.last bytes ?_)
      simpa only [Race.step, hmoved, Option.toList_none, List.append_nil] using hlast
    | some bytes' =>
      obtain rfl : bytes' = bytes := by
        simpa only [Race.step, hmoved, Option.toList_some, List.getLast?_concat,
          Option.some.injEq] using hlast
      exact heffect.moved bytes' hmoved
  · rw [hcalls] at hresult
    split at hresult
    · obtain hold | hnew := heffect.result path hresult
      · exact ⟨(h.found n path hold).1, h.isFile_go n (h.found n path hold).2⟩
      · exact hnew
    · exact ⟨(h.found m path hresult).1, h.isFile_go n (h.found m path hresult).2⟩

/-- A store that is called has done nothing yet. -/
theorem step_call (cache : Cache) (c : Coordinate) (s : Race) (n : Nat) (bytes : ByteArray) :
    (s.step cache c (.call n bytes)).host = s.host ∧
      (s.step cache c (.call n bytes)).moved = s.moved ∧
      ∀ m, (s.step cache c (.call n bytes)).calls m = s.calls m ∨
        (s.step cache c (.call n bytes)).calls m = .called bytes := by
  rw [step]
  split
  · refine ⟨rfl, rfl, fun m => ?_⟩
    simp only [Function.update_apply]
    split
    · exact .inr rfl
    · exact .inl rfl
  · exact ⟨rfl, rfl, fun m => .inl rfl⟩

theorem Sound.step_call (h : s.Sound cache c) (n : Nat) (bytes : ByteArray) :
    (s.step cache c (.call n bytes)).Sound cache c := by
  obtain ⟨hhost, hmoved, hcalls⟩ := Race.step_call cache c s n bytes
  have hcopy : ∀ m place b, ((s.step cache c (.call n bytes)).calls m).copy? = some (place, b) →
      (s.calls m).copy? = some (place, b) := by
    intro m place b hm
    obtain heq | heq := hcalls m <;> rw [heq] at hm
    · exact hm
    · cases hm
  refine ⟨fun m place b hm => ?_, fun m k place b b' hm hk => ?_, fun b hlast => ?_,
    fun m path hresult => ?_⟩
  · rw [hhost]
    exact h.copies m place b (hcopy m place b hm)
  · exact h.apart m k place b b' (hcopy m place b hm) (hcopy k place b' hk)
  · rw [hhost]
    exact h.last b (hmoved ▸ hlast)
  · rw [hhost]
    obtain heq | heq := hcalls m <;> rw [heq] at hresult
    · exact h.found m path hresult
    · cases hresult

theorem Sound.step (h : s.Sound cache c) : ∀ e, (s.step cache c e).Sound cache c
  | .call n bytes => h.step_call n bytes
  | .go n => h.step_go n

theorem sound_start (host : Host) : (start host).Sound cache c := ⟨nofun, nofun, nofun, nofun⟩

theorem sound_after (cache : Cache) (c : Coordinate) (host : Host) (events : List Event) :
    (after cache c host events).Sound cache c :=
  runFrom_keeps (sound_start host) (fun _ e h => h.step e) events

/-! ## The first writer -/

/-- The entry is written once: the artifact does not change, and with every store that succeeds it
is the first that was moved. -/
structure FirstWins (cache : Cache) (c : Coordinate) (host : Host) (events : List Event) :
    Prop where
  unchanged : ∀ past e bytes, Follows past e events →
    (after cache c host past).host.read (cache.pathFor c) = .ok bytes →
    (after cache c host (past ++ [e])).host.read (cache.pathFor c) = .ok bytes
  first : ∀ past n path, past <+: events →
    (after cache c host past).calls n = .done (.ok path) →
    path = cache.pathFor c ∧ ∃ bytes,
      (after cache c host past).host.read (cache.pathFor c) = .ok bytes ∧
        ∀ b ∈ (after cache c host past).moved.head?, b = bytes

/-- A store that saw no artifact is about to move its file over one with other bytes. -/
def Overwrites (cache : Cache) (c : Coordinate) (s : Race) (n : Nat) : Prop :=
  ∃ bytes place old, s.calls n = .clear bytes place ∧
    s.host.read (cache.pathFor c) = .ok old ∧ old ≠ bytes

/-- A store that saw no artifact moves its file where there is one. -/
theorem Sound.read_of_clear (h : s.Sound cache c) {n : Nat} {bytes : ByteArray} {place : Place}
    (hclear : s.calls n = .clear bytes place)
    (hfile : s.host.isFile (cache.pathFor c) = true) :
    (s.step cache c (.go n)).host.read (cache.pathFor c) = .ok bytes := by
  have hget : s.host.files.get? place = some (.file bytes) := by
    refine (h.copies n place bytes ?_).1
    rw [hclear]
    rfl
  -- The file that is there is no obstacle: it is replaced.
  have hrename := Files.rename_of_isFile (cache.endsInName_pathFor c) hfile hget
  have hdone : (cache.advance c s.host (s.calls n)).1 = .done (.ok (cache.pathFor c)) := by
    rw [hclear]
    simp only [Cache.advance, Stage.next, Host.persist, hrename, Except.map]
  refine (h.effect n).moved bytes ?_
  rw [hdone, hclear]
  rfl

/-- Every store that moved its file did it with the bytes that the artifact has. -/
def Uniform (cache : Cache) (c : Coordinate) (s : Race) : Prop :=
  ∀ bytes ∈ s.moved, s.host.read (cache.pathFor c) = .ok bytes

theorem Sound.read_step (h : s.Sound cache c) {e : Event} {bytes : ByteArray}
    (hread : s.host.read (cache.pathFor c) = .ok bytes)
    (hallowed : ∀ n, e = .go n → ¬ s.Overwrites cache c n) :
    (s.step cache c e).host.read (cache.pathFor c) = .ok bytes := by
  cases e with
  | call n b =>
    rw [(Race.step_call cache c s n b).1]
    exact hread
  | go n =>
    obtain ⟨bytes', hread', rfl | ⟨place, hclear⟩⟩ := h.read_go n hread
    · exact hread'
    · by_contra hother
      refine hallowed n rfl ⟨bytes', place, bytes, hclear, hread, ?_⟩
      rintro rfl
      exact hother hread'

theorem Uniform.step (h : s.Uniform cache c) (hsound : s.Sound cache c) {e : Event}
    (hallowed : ∀ n, e = .go n → ¬ s.Overwrites cache c n) :
    (s.step cache c e).Uniform cache c := by
  intro bytes hbytes
  have hkept : bytes ∈ s.moved →
      (s.step cache c e).host.read (cache.pathFor c) = .ok bytes := fun hmem =>
    hsound.read_step (h bytes hmem) hallowed
  cases e with
  | call n b =>
    rw [(Race.step_call cache c s n b).2.1] at hbytes
    exact hkept hbytes
  | go n =>
    obtain hold | hnew := List.mem_append.mp hbytes
    · exact hkept hold
    · exact (hsound.effect n).moved bytes (by simpa using hnew)

theorem uniform_after {events : List Event} (hnone : ∀ past n, Follows past (.go n) events →
    ¬ (after cache c host past).Overwrites cache c n) :
    (after cache c host events).Uniform cache c := by
  refine (runFrom_keeps_of (P := fun s : Race => s.Sound cache c ∧ s.Uniform cache c)
    (fun (s : Race) e => ∀ n, e = .go n → ¬ s.Overwrites cache c n) ⟨sound_start host, nofun⟩
    (fun s e hallowed h => ⟨h.1.step e, h.2.step h.1 hallowed⟩) events ?_).2
  rintro past _ hfollows n rfl
  exact hnone past n hfollows

theorem after_concat (cache : Cache) (c : Coordinate) (host : Host) (past : List Event)
    (e : Event) : after cache c host (past ++ [e]) = (after cache c host past).step cache c e :=
  runFrom_concat _ _ _

theorem firstWins_of_not_overwrites {events : List Event}
    (hnone : ∀ past n, Follows past (.go n) events →
      ¬ (after cache c host past).Overwrites cache c n) : FirstWins cache c host events := by
  refine ⟨fun past e bytes hfollows hread => ?_, fun past n path hpast hdone => ?_⟩
  · rw [after_concat]
    refine (sound_after cache c host past).read_step hread fun n he => ?_
    exact hnone past n (he ▸ hfollows)
  · -- All stores that moved their files had the same bytes, so the first one had them as well.
    have hsound := sound_after cache c host past
    obtain ⟨hpath, hfile⟩ := hsound.found n path (by rw [hdone]; rfl)
    obtain ⟨bytes, hread⟩ := Host.isFile_iff_read.mp hfile
    have huniform : (after cache c host past).Uniform cache c :=
      uniform_after fun past' n' h => hnone past' n' (h.trans_prefix hpast)
    refine ⟨hpath, bytes, hread, fun b hb => ?_⟩
    have hread' := huniform b (List.mem_of_head? hb)
    rw [hread] at hread'
    exact (Except.ok.inj hread').symm

/-- Whatever the order of steps, the artifact is what was moved last. The first writer wins in a run
exactly if no store that saw no artifact moves its file over one with other bytes. -/
theorem firstWins_iff (cache : Cache) (c : Coordinate) (host : Host)
    (events : List Event) :
    (∀ bytes, (after cache c host events).moved.getLast? = some bytes →
      (after cache c host events).host.read (cache.pathFor c) = .ok bytes) ∧
    (FirstWins cache c host events ↔
      ∀ past n, Follows past (.go n) events →
        ¬ (after cache c host past).Overwrites cache c n) := by
  refine ⟨(sound_after cache c host events).last, fun hfirst past n hfollows => ?_,
    firstWins_of_not_overwrites⟩
  -- The step after which the artifact is another one is in the run.
  rintro ⟨bytes, place, old, hclear, hread, hne⟩
  have hold := hfirst.unchanged past (.go n) old hfollows hread
  have hnew := (sound_after cache c host past).read_of_clear hclear
    (Host.isFile_iff_read.mpr ⟨old, hread⟩)
  rw [after_concat, hnew] at hold
  cases hold
  exact hne rfl

/-- No other step comes between the look of a store and its move. -/
def Uninterrupted (cache : Cache) (c : Coordinate) (host : Host) (events : List Event) : Prop :=
  ∀ past n bytes place, Follows past (.go n) events →
    (after cache c host past).calls n = .clear bytes place →
      ∃ before, past = before ++ [.go n] ∧
        (after cache c host before).calls n = .staged bytes place

/-- If look and move are one step, the first writer wins. -/
theorem firstWins_of_uninterrupted {events : List Event}
    (h : Uninterrupted cache c host events) : FirstWins cache c host events := by
  refine firstWins_of_not_overwrites fun past n hfollows => ?_
  rintro ⟨bytes, place, old, hclear, hread, -⟩
  obtain ⟨before, rfl, hstaged⟩ := h past n bytes place hfollows hclear
  rw [after_concat] at hclear hread
  simp only [step, hstaged, Cache.advance, Stage.next, Function.update_self] at hclear hread
  -- The look went to the same files as the reading, and it saw no artifact.
  split at hclear
  · cases hclear
  · rename_i hmiss
    rw [if_neg hmiss] at hread
    exact hmiss (Host.isFile_iff_read.mpr ⟨old, hread⟩)

/-- Two stores that both see no artifact: the second one replaces what the first one stored. -/
theorem second_writer_wins :
    let cache : Cache := ⟨⟨"cache"⟩⟩
    let c : Coordinate := ⟨"a", "b", "1"⟩
    let host := Host.empty ["w"]
    let looks := [.call 0 ⟨#[1]⟩, .call 1 ⟨#[2]⟩, .go 0, .go 0, .go 0, .go 1, .go 1, .go 1]
    let s := after cache c host (looks ++ [.go 0])
    let s' := after cache c host (looks ++ [.go 0] ++ [.go 1])
    s.host.read (cache.pathFor c) = .ok ⟨#[1]⟩ ∧ s'.host.read (cache.pathFor c) = .ok ⟨#[2]⟩ ∧
      s'.moved = [⟨#[1]⟩, ⟨#[2]⟩] ∧ (s'.calls 0).result? = some (.ok (cache.pathFor c)) ∧
      (s'.calls 1).result? = some (.ok (cache.pathFor c)) ∧
      ¬ FirstWins cache c host (looks ++ [.go 0] ++ [.go 1]) := by
  intro cache c host looks s s'
  have hread : s.host.read (cache.pathFor c) = .ok ⟨#[1]⟩ := by decide +kernel
  have hread' : s'.host.read (cache.pathFor c) = .ok ⟨#[2]⟩ := by decide +kernel
  refine ⟨hread, hread', by decide +kernel, by decide +kernel, by decide +kernel, ?_⟩
  intro hfirst
  have hkept := hfirst.unchanged _ (.go 1) _ (List.prefix_refl _) hread
  rw [hread'] at hkept
  exact absurd hkept (by decide)

end Race
end Artifact
end ScriptSession
