import ScriptSession.Proofs.Session.Rebuilds
import ScriptSession.Proofs.Task.Rest

/-!
# The snapshot at rest

Every evaluation, batch of tests and change of a variable publishes the context it has taken, and a
rebuild publishes the context it has made. So the latest snapshot may be of an older context than
the current one: a rebuild does not wait for the work it overtakes, and that work publishes its own
context when it ends. Main statement: at rest the latest snapshot is of the current context or an
older one, and it is of an older one exactly if the last publication came late, that is after a
newer context had become the current one (`Activity.latest_at_rest`).
-/

namespace ScriptSession
namespace Session
namespace Activity

open Concurrency (Follows follows_concat runFrom)

/-! ## Late publications -/

/-- The snapshot that a move publishes. -/
def published? (s : Activity) : Move → Option Report.Snapshot
  | .advance a =>
    match s.stages a with
    | .showing shot | .presenting shot => some shot
    | _ => none
  | _ => none

/-- A move publishes a snapshot of another context than the current one. -/
def PublishesLate (s : Activity) (m : Move) : Prop :=
  ∃ shot k, s.published? m = some shot ∧ s.world.session.context = some k ∧
    shot.generation ≠ (s.world.context k).generation

/-- The last publication of a run came late. -/
def EndsLate (w : World) (moves : List Move) : Prop :=
  ∃ past m, Follows past m moves ∧ (run w past).PublishesLate m ∧
    ∀ past' m', Follows past' m' moves → past.length < past'.length →
      (run w past').published? m' = none

variable {w : World} {past : List Move} {m : Move}

theorem length_lt_of_follows {past' : List Move} {m' : Move} (h : Follows past' m' past) :
    past'.length < past.length := by
  have hle := List.IsPrefix.length_le h
  rwa [List.length_append, List.length_singleton] at hle

/-- A publication decides whether the last one came late. -/
theorem endsLate_concat_of_publishes (h : (run w past).published? m ≠ none) :
    EndsLate w (past ++ [m]) ↔ (run w past).PublishesLate m := by
  constructor
  · rintro ⟨past', m', hfollows, hlate, hlast⟩
    obtain ⟨rfl, rfl⟩ | hbefore := follows_concat hfollows
    · exact hlate
    · exact absurd (hlast past m (List.prefix_refl _) (length_lt_of_follows hbefore)) h
  · intro hlate
    refine ⟨past, m, List.prefix_refl _, hlate, fun past' m' hfollows hlt => ?_⟩
    obtain ⟨rfl, -⟩ | hbefore := follows_concat hfollows
    · exact absurd hlt (Nat.lt_irrefl _)
    · exact absurd hlt (Nat.lt_asymm (length_lt_of_follows hbefore))

/-- A move that publishes nothing decides nothing. -/
theorem endsLate_concat_of_none (h : (run w past).published? m = none) :
    EndsLate w (past ++ [m]) ↔ EndsLate w past := by
  constructor
  · rintro ⟨past', m', hfollows, hlate, hlast⟩
    obtain ⟨rfl, rfl⟩ | hbefore := follows_concat hfollows
    · obtain ⟨shot, k, hshot, -⟩ := hlate
      rw [h] at hshot
      cases hshot
    · exact ⟨past', m', hbefore, hlate, fun past'' m'' hfollows' =>
        hlast past'' m'' (hfollows'.trans_prefix (List.prefix_append past [m]))⟩
  · rintro ⟨past', m', hfollows, hlate, hlast⟩
    refine ⟨past', m', hfollows.trans_prefix (List.prefix_append past [m]), hlate, ?_⟩
    intro past'' m'' hfollows' hlt
    obtain ⟨rfl, rfl⟩ | hbefore := follows_concat hfollows'
    · exact h
    · exact hlast past'' m'' hbefore hlt

/-! ## Steps that publish nothing -/

/-- Neither the current context nor what is published changes, and whoever has a context to publish
still has. -/
structure KeepsLatest (s s' : Activity) : Prop where
  context : s'.world.session.context = s.world.session.context
  latest : s'.world.session.reporter.latest = s.world.session.reporter.latest
  pending : ∀ a, (s.stages a).isPending = true → (s'.stages a).isPending = true

namespace KeepsLatest

variable {s s' s'' : Activity}

theorem refl (s : Activity) : s.KeepsLatest s := ⟨rfl, rfl, fun _ h => h⟩

theorem trans (h : s.KeepsLatest s') (h' : s'.KeepsLatest s'') : s.KeepsLatest s'' :=
  ⟨h'.context.trans h.context, h'.latest.trans h.latest, fun a ha => h'.pending a (h.pending a ha)⟩

theorem go {a : Agent} {next : Stage} {f : World → World}
    (ha : (s.stages a).isPending = true → next.isPending = true)
    (hcontext : (f s.world).session.context = s.world.session.context)
    (hlatest : (f s.world).session.reporter.latest = s.world.session.reporter.latest) :
    s.KeepsLatest (s.go a next f) := by
  refine ⟨hcontext, hlatest, fun b hb => ?_⟩
  by_cases hba : b = a
  · rw [hba, stages_go_self]
    exact ha (hba ▸ hb)
  · rwa [stages_go_of_ne hba]

theorem go_of_not {a : Agent} {next : Stage} {f : World → World}
    (ha : (s.stages a).isPending = false)
    (hcontext : (f s.world).session.context = s.world.session.context)
    (hlatest : (f s.world).session.reporter.latest = s.world.session.reporter.latest) :
    s.KeepsLatest (s.go a next f) :=
  .go (fun hpending => absurd (ha.symm.trans hpending) Bool.false_ne_true) hcontext hlatest

theorem atAdmission (e : Task.Event) : s.KeepsLatest (s.atAdmission e) :=
  ⟨rfl, rfl, fun _ h => h⟩

end KeepsLatest

variable {s s' : Activity}

/-- An agent that publishes nothing keeps what is published last, unless it makes the context of a
rebuild the current one. -/
theorem Goes.keepsLatest {a : Agent} {next : Stage} {f : World → World} (h : s.Goes a m next f)
    (hnone : s.published? m = none) :
    s.KeepsLatest (s.go a next f) ∨ ∃ i, s.Replaces m i := by
  rw [published?.eq_def] at hnone
  cases h with
  | starts i ha => exact .inr ⟨i, a, rfl, ha⟩
  | publishes shot ha | presents shot ha => simp only [ha, reduceCtorEq] at hnone
  | looksAnew i ha => exact .inl (.go (fun _ => rfl) rfl rfl)
  | looks _ ha | locks ha | numbers ha | builds _ _ _ ha | unlocks ha | givesUp _ ha | fails ha =>
    exact .inl (.go_of_not (by rw [ha]; rfl) rfl rfl)

/-- A step that publishes nothing keeps what is published last, unless a rebuild makes its context
the current one. -/
theorem Takes.keepsLatest (hs : s.Sound) (h : s.Takes m s') (hnone : s.published? m = none) :
    s.KeepsLatest s' ∨ ∃ i, s.Replaces m i := by
  cases h with
  | nothing => exact .inl (.refl s)
  | begins _ t next ht => exact .inl (.go_of_not (by rw [ht]; rfl) rfl rfl)
  | waits | atAdmission => exact .inl (.atAdmission _)
  | refused t hasThread sub hsub =>
    have hcaller : (s.stages (.caller t)).isPending = false := by
      rw [hsub]
      rfl
    exact .inl (.trans (.atAdmission _) (.go_of_not hcaller rfl rfl))
  | admitted t hasThread sub hsub =>
    -- Neither the caller nor the task that begins has anything to publish.
    have hcaller : (s.stages (.caller t)).isPending = false := by
      rw [hsub]
      rfl
    have hfree : (s.stages (.task s.world.admission.nextId)).isPending = false := by
      rw [hs.fresh s.world.admission.nextId (Nat.lt_succ_self _)]
      rfl
    refine .inl (.trans (.atAdmission _) (.trans (.go_of_not hfree rfl rfl)
      (.go_of_not ?_ rfl rfl)))
    have hne : Agent.caller t ≠ .task s.world.admission.nextId := by simp
    rw [stages_go_of_ne hne]
    exact hcaller
  | works c =>
    obtain ⟨⟨-, hcontext, -⟩, hlatest, -⟩ := c.incidental s.world
    exact .inl ⟨hcontext, hlatest, fun _ ha => ha⟩
  | goes h => exact h.keepsLatest hnone

/-! ## Steps that publish -/

/-- Two stages publish: one shows the snapshot it has taken, the other presents a new context. What
they publish is not newer than the current context. -/
theorem advance_of_published? {a : Agent} {shot : Report.Snapshot} (hs : s.Sound)
    (h : s.published? (.advance a) = some shot) :
    (∃ next, s.advance a = s.go a next (·.publish shot)) ∧
      ∃ k, s.world.session.context = some k ∧ shot.generation ≤ k + 1 := by
  have hfits : (s.stages a).Fits s.world := hs.fits a
  rw [published?] at h
  rw [advance]
  cases ha : s.stages a <;> simp only [ha, reduceCtorEq, Option.some.injEq] at h <;>
    rw [ha] at hfits <;> subst h
  · exact ⟨⟨_, rfl⟩, hfits⟩
  · obtain ⟨k, hk, heq⟩ := hfits
    exact ⟨⟨_, rfl⟩, k, hk, Nat.le_of_eq heq⟩

/-- What is published is published last from then on, and the current context stays. -/
theorem step_of_published? {shot : Report.Snapshot} (hs : s.Sound)
    (h : s.published? m = some shot) :
    ∃ k, s.world.session.context = some k ∧ (s.step m).world.session.context = some k ∧
      (s.step m).world.session.reporter.latest = some shot ∧ shot.generation ≤ k + 1 := by
  cases m with
  | advance a =>
    obtain ⟨⟨next, hgo⟩, k, hk, hle⟩ := advance_of_published? hs h
    have hsession : (s.step (.advance a)).world.session =
        { s.world.session with
          reporter := { s.world.session.reporter with latest := some shot } } := by
      rw [step, hgo]
      exact (s.world.session_publish shot).1
    rw [hsession]
    exact ⟨k, hk, hk, rfl, hle⟩
  | _ => cases h

/-! ## Main statement -/

/-- Where no rebuild has a context to publish, the latest snapshot is an older one or that of the
current context, as the last publication came late or did not. -/
def Shows (s : Activity) (late : Prop) : Prop :=
  (∃ a, (s.stages a).isPending = true) ∨ ∀ k, s.world.session.context = some k →
    ∃ shot, s.world.session.reporter.latest = some shot ∧ (late → shot.generation < k + 1) ∧
      (¬ late → shot.generation = k + 1)

theorem shows_run (hw : w.Untouched) (moves : List Move) :
    (run w moves).Shows (EndsLate w moves) := by
  induction moves using List.reverseRecOn with
  | nil =>
    refine .inr fun k hk => ?_
    rw [show (run w []).world.session.context = none from hw.context] at hk
    cases hk
  | append_singleton past m ih =>
    have hs : (run w past).Sound := sound_run hw past
    rw [run_concat]
    cases hshot : (run w past).published? m with
    | some shot =>
      -- What is published now decides alone, whatever was published before.
      obtain ⟨k, hk, hk', hlatest, hle⟩ := step_of_published? hs hshot
      have hgeneration : ((run w past).world.context k).generation = k + 1 :=
        hs.ordered.generation_context (hs.ordered.current k hk)
      have hlate : EndsLate w (past ++ [m]) ↔ shot.generation ≠ k + 1 := by
        rw [endsLate_concat_of_publishes (by rw [hshot]; exact nofun), PublishesLate, hshot, hk]
        constructor
        · rintro ⟨_, _, ⟨⟩, ⟨⟩, hne⟩
          rwa [hgeneration] at hne
        · intro hne
          exact ⟨shot, k, rfl, rfl, by rwa [hgeneration]⟩
      refine .inr fun k₁ hk₁ => ⟨shot, hlatest, fun h => ?_, fun h => ?_⟩
      all_goals obtain rfl : k = k₁ := Option.some.inj (hk'.symm.trans hk₁)
      · exact Nat.lt_of_le_of_ne hle (hlate.mp h)
      · exact not_not.mp fun hne => h (hlate.mpr hne)
    | none =>
      -- The current context changes only where a rebuild is left with a context to publish.
      rw [Shows, endsLate_concat_of_none hshot]
      obtain hkeeps | ⟨i, a, rfl, ha⟩ := ((run w past).step_takes m).keepsLatest hs hshot
      · rw [hkeeps.context, hkeeps.latest]
        exact ih.imp_left fun ⟨a, ha⟩ => ⟨a, hkeeps.pending a ha⟩
      · refine .inl ⟨a, ?_⟩
        rw [step, advance, ha, stages_go_self]
        rfl

/-- At rest, with a context, there is a latest snapshot. It is not of a newer context than the
current one, and it is of the current one exactly if the last publication did not come late. -/
theorem latest_at_rest (w : World) (hw : w.Untouched) (moves : List Move)
    (hrest : (run w moves).AtRest) (k : Nat)
    (hk : (run w moves).world.session.context = some k) :
    ∃ shot, (run w moves).world.session.reporter.latest = some shot ∧
      shot.generation ≤ ((run w moves).world.context k).generation ∧
      (shot.generation = ((run w moves).world.context k).generation ↔ ¬ EndsLate w moves) := by
  have hs : (run w moves).Sound := sound_run hw moves
  rw [hs.ordered.generation_context (hs.ordered.current k hk)]
  obtain ⟨a, ha⟩ | hshows := shows_run hw moves
  · -- At rest no rebuild has anything left to publish.
    rw [hrest a] at ha
    cases ha
  · obtain ⟨shot, hlatest, hlate, hnot⟩ := hshows k hk
    refine ⟨shot, hlatest, ?_, fun heq h => ?_, hnot⟩
    · by_cases h : EndsLate w moves
      · exact Nat.le_of_lt (hlate h)
      · exact Nat.le_of_eq (hnot h)
    · exact absurd heq (Nat.ne_of_lt (hlate h))

/-! ## Runs that end late and in time -/

/-- A session with usual settings that has just been opened. -/
def opened : World :=
  { World.new ⟨⟨[(["w"], .directory)]⟩, ["w"], [], []⟩ with
    session := open_ .default ⟨⟨"/cache"⟩⟩ (some ⟨"/w"⟩) [] }

theorem untouched_opened : opened.Untouched := untouched_open ..

/-- The work of a rebuild without a wait, and its end as a task. -/
def rebuilding (id : Nat) : List Move :=
  [.advance (.task id), .advance (.task id), .build (.task id) .empty .empty] ++
    List.replicate 5 (.advance (.task id)) ++
      [.admission (.finish id .completed), .admission (.release id)]

/-- What a task that evaluates does at its end. -/
def completing (id : Nat) : List Move :=
  [.advance (.task id), .advance (.task id), .admission (.finish id .completed),
    .admission (.release id)]

/-- A rebuild overtakes an evaluation, which then publishes the context it was submitted in. -/
def overtaken : List Move :=
  [.rebuild 0, .turn 0 true] ++ rebuilding 1 ++
    [.evaluateAsync 0 "print(1)" "a" none [], .turn 0 true, .rebuild 0, .turn 0 true] ++
      rebuilding 3 ++ completing 2

theorem older_after_overtaking :
    opened.Untouched ∧ (run opened overtaken).AtRest ∧ (run opened overtaken).traffic.AtRest ∧
      (run opened overtaken).world.session.context = some 1 ∧
      ((run opened overtaken).world.context 1).generation = 2 ∧
      (run opened overtaken).world.session.reporter.latest.map (·.generation) = some 1 := by
  refine ⟨untouched_opened, fun a => ?_, ⟨by decide, fun t => ?_⟩, by decide, by decide, by decide⟩
  · cases a with
    | caller t => rcases t with _ | t <;> rfl
    | task id => rcases id with _ | _ | _ | _ | id <;> rfl
  · rcases t with _ | t <;> rfl

/-- Tests wait behind a rebuild and publish the context they were submitted in, and then a variable
is set in the new one. -/
def overtakenAndEdited : List Move :=
  [.rebuild 0, .turn 0 true] ++ rebuilding 1 ++
    [.rebuild 0, .turn 0 true, .runBatch 1 [⟨"case", "1"⟩] true, .turn 1 true] ++ rebuilding 2 ++
      [.turn 1 true] ++ completing 3 ++
        [.edit 0, .advance (.caller 0), .advance (.caller 0)]

theorem newest_after_edit :
    (run opened overtakenAndEdited).AtRest ∧
      (run opened overtakenAndEdited).world.session.context = some 1 ∧
      (run opened overtakenAndEdited).world.session.reporter.latest.map (·.generation) = some 2 ∧
      ¬ EndsLate opened overtakenAndEdited := by
  have hrest : (run opened overtakenAndEdited).AtRest := by
    intro a
    cases a with
    | caller t => rcases t with _ | _ | t <;> rfl
    | task id => rcases id with _ | _ | _ | _ | id <;> rfl
  have hcontext : (run opened overtakenAndEdited).world.session.context = some 1 := by decide
  have hgeneration :
      (run opened overtakenAndEdited).world.session.reporter.latest.map (·.generation) =
        some ((run opened overtakenAndEdited).world.context 1).generation := by decide
  obtain ⟨shot, hlatest, -, hiff⟩ :=
    latest_at_rest opened untouched_opened overtakenAndEdited hrest 1 hcontext
  rw [hlatest, Option.map_some, Option.some.injEq] at hgeneration
  refine ⟨hrest, hcontext, by decide, hiff.mp hgeneration⟩

end Activity
end Session
end ScriptSession
