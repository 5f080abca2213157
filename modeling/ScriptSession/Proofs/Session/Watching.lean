import ScriptSession.Proofs.Concurrency.Interference
import ScriptSession.Proofs.Concurrency.Runs
import ScriptSession.Session.Watching

/-!
# Changes that a watcher has heard of

A round of a watcher takes in what it receives and asks for a rebuild if one is due. Whoever is
asked may refuse, and the watcher does not ask again for the same change. The rounds write down what
they do (`Watch.Deed`), and what the watcher's own loop does are such rounds (`Watch.watchLoop_eq`).
Main statement: when no change waits, every change has been followed by a rebuild that was accepted
exactly if the last rebuild was not refused (`Watch.keeps_changes_iff`).
-/

namespace ScriptSession
namespace Session

open Concurrency (noted noted_keeps runFrom runFrom_concat Thread)

/-- Whether the watcher of a manifest hears of a change. -/
def Received.isChange (manifest : Path) : Received → Bool
  | .event kind paths => touchesManifest kind paths manifest
  | .problem | .quiet => false

namespace Watch

/-- What a round meets: what it receives, the times at which it takes that in and at which it looks
whether a rebuild is due, and whether a rebuild would be accepted. -/
structure Round where
  received : Received
  taken : Nat
  now : Nat
  isAccepted : Bool

/-- What a round does. -/
inductive Deed where
  /-- A change of the manifest is taken in. -/
  | change
  /-- A rebuild is asked for. -/
  | ask (isAccepted : Bool)
deriving DecidableEq

section
variable (manifest : Path) (debounce : Nat)

/-- What is left waiting after a round. -/
def step (w : Watch) (r : Round) : Watch := (w.round manifest debounce r.taken r.now r.received).1

/-- What a round does, in order. -/
def deeds (w : Watch) (r : Round) : List Deed :=
  (if r.received.isChange manifest then [.change] else []) ++
    if (w.round manifest debounce r.taken r.now r.received).2 then [.ask r.isAccepted] else []

/-- What is left waiting after the rounds of a new watcher. -/
def run (rounds : List Round) : Watch := runFrom (step manifest debounce) idle rounds

/-- What the rounds of a new watcher did. -/
def history (rounds : List Round) : List Deed :=
  noted (step manifest debounce) (deeds manifest debounce) idle rounds

/-! ## The watcher's loop -/

/-- The rounds of a watcher, which are written down behind earlier ones. -/
def roundsOf : Nat → List Round → Act (List Round)
  | 0, past => pure past
  | n + 1, past => do
    if (← getThe World).watch.isRunning then
      let r ← receiveEvent
      let now ← Thread.now
      let isDue := ((run manifest debounce past).round manifest debounce now now r).2
      let isAccepted ← if isDue then Except.toBool <$> rebuild else pure false
      roundsOf n (past ++ [⟨r, now, now, isAccepted⟩])
    else pure past

/-- What a watcher does are rounds, and what waits in between is what they have left waiting. -/
theorem watchLoop_eq (n : Nat) (past : List Round) :
    watchLoop manifest debounce n (run manifest debounce past) =
      (fun _ => ()) <$> roundsOf manifest debounce n past := by
  induction n generalizing past with
  | zero => rfl
  | succ n ih =>
    rw [watchLoop, roundsOf, map_bind]
    refine congrArg _ (funext fun w => ?_)
    split
    case isFalse => rw [map_pure]
    rw [map_bind]
    refine congrArg _ (funext fun r => ?_)
    rw [map_bind]
    refine congrArg _ (funext fun now => ?_)
    -- Whether the rebuild is accepted makes no difference to what waits afterwards.
    have hnext : ∀ isAccepted, run manifest debounce (past ++ [⟨r, now, now, isAccepted⟩]) =
        (round manifest debounce now now r (run manifest debounce past)).1 :=
      fun _ => runFrom_concat ..
    generalize round manifest debounce now now r (run manifest debounce past) = outcome at hnext ⊢
    obtain ⟨watch, isDue⟩ := outcome
    cases isDue with
    | true =>
      show (do let _ ← rebuild; watchLoop manifest debounce n watch) =
        (fun _ => ()) <$> (do
          let isAccepted ← Except.toBool <$> rebuild
          roundsOf manifest debounce n (past ++ [⟨r, now, now, isAccepted⟩]))
      rw [map_bind, bind_map_left]
      refine congrArg _ (funext fun answer => ?_)
      rw [← ih, hnext]
    | false =>
      show watchLoop manifest debounce n watch =
        (fun _ => ()) <$> roundsOf manifest debounce n (past ++ [⟨r, now, now, false⟩])
      rw [← ih, hnext]

end

/-! ## Courses -/

/-- What rounds may have done, and whether a change waits. -/
inductive Course : Bool → List Deed → Prop where
  | start : Course false []
  | change {isPending : Bool} {past : List Deed} (h : Course isPending past) :
      Course true (past ++ [.change])
  | ask {past : List Deed} (isAccepted : Bool) (h : Course true past) :
      Course false (past ++ [.ask isAccepted])

section
variable {manifest : Path} {debounce : Nat} {w : Watch} {past : List Deed}

/-- The watcher takes in what it receives. -/
theorem course_receive (manifest : Path) (h : Course w.pendingSince.isSome past) (taken : Nat)
    (r : Received) :
    Course (w.receive manifest taken r).pendingSince.isSome
      (past ++ if r.isChange manifest then [.change] else []) := by
  cases r with
  | event kind paths =>
    rw [receive, Received.isChange]
    split
    · exact .change h
    · rwa [List.append_nil]
  | problem | quiet =>
    show Course w.pendingSince.isSome (past ++ [])
    rwa [List.append_nil]

theorem course_step (h : Course w.pendingSince.isSome past) (r : Round) :
    Course (step manifest debounce w r).pendingSince.isSome
      (past ++ deeds manifest debounce w r) := by
  have htaken := course_receive manifest h r.taken r.received
  rw [step, deeds, round, ← List.append_assoc]
  cases hdue : (w.receive manifest r.taken r.received).isDue debounce r.now with
  | true =>
    -- A rebuild is due only if a change waits.
    have hpending : (w.receive manifest r.taken r.received).pendingSince.isSome = true := by
      rw [isDue, Option.any_eq_true] at hdue
      obtain ⟨since, hsince, -⟩ := hdue
      rw [hsince, Option.isSome_some]
    rw [hpending] at htaken
    exact .ask r.isAccepted htaken
  | false =>
    simpa only [Bool.false_eq_true, if_false, List.append_nil] using htaken

theorem course_history (manifest : Path) (debounce : Nat) (rounds : List Round) :
    Course (run manifest debounce rounds).pendingSince.isSome
      (history manifest debounce rounds) := by
  have hidle : Course idle.pendingSince.isSome [] := .start
  exact noted_keeps (P := fun past (w : Watch) => Course w.pendingSince.isSome past) hidle
    (fun _ _ r hpast => course_step hpast r) rounds

end

/-! ## Main statement -/

/-- Every change has been followed by a rebuild that was accepted. -/
def Kept (history : List Deed) : Prop :=
  ∀ before after, history = before ++ .change :: after → .ask true ∈ after

/-- An accepted rebuild makes up for whatever was refused before it. -/
theorem kept_concat_accepted (past : List Deed) : Kept (past ++ [.ask true]) := by
  intro before after h
  cases after using List.reverseRecOn with
  | nil =>
    have hlast := (List.append_inj' h rfl).2
    cases hlast
  | append_singleton after d =>
    rw [← List.cons_append, ← List.append_assoc] at h
    obtain ⟨-, hlast⟩ := List.append_inj' h rfl
    rw [← hlast]
    exact List.mem_append_right after (List.mem_singleton_self _)

/-- A rebuild is asked for because of a change, which is lost if it is refused. -/
theorem not_kept_concat_refused {past : List Deed} (h : Course true past) :
    ¬ Kept (past ++ [.ask false]) := by
  intro hkept
  cases h with
  | @change isPending before h =>
    have hafter : .ask true ∈ [Deed.ask false] :=
      hkept before [.ask false] (List.append_assoc ..)
    cases List.mem_singleton.mp hafter

theorem Course.kept_iff {past : List Deed} (h : Course false past) :
    Kept past ↔ past.getLast? ≠ some (.ask false) := by
  cases h with
  | start => exact iff_of_true (fun before after h => by simp at h) nofun
  | @ask past isAccepted h =>
    rw [List.getLast?_concat]
    cases isAccepted with
    | true => exact iff_of_true (kept_concat_accepted past) nofun
    | false => exact iff_of_false (not_kept_concat_refused h) (not_not_intro rfl)

/-- Whatever a watcher receives, whenever, and whichever rebuilds are refused: when no change waits,
every change has been followed by a rebuild that was accepted exactly if the last one was not
refused. -/
theorem keeps_changes_iff (manifest : Path) (debounce : Nat) (rounds : List Round)
    (hidle : (run manifest debounce rounds).pendingSince = none) :
    Kept (history manifest debounce rounds) ↔
      (history manifest debounce rounds).getLast? ≠ some (.ask false) := by
  have hcourse := course_history manifest debounce rounds
  rw [hidle] at hcourse
  exact hcourse.kept_iff

/-- A change that is left alone for half a second is acted on. -/
theorem kept_after_debounce :
    let manifest : Path := ⟨"proj/rivet.toml"⟩
    let rounds : List Round :=
      [⟨.event .modify [manifest], 0, 0, true⟩, ⟨.quiet, 100, 100, true⟩, ⟨.quiet, 600, 600, true⟩]
    (run manifest defaultDebounce rounds).pendingSince = none ∧
      Kept (history manifest defaultDebounce rounds) := by
  intro manifest rounds
  have hidle : (run manifest defaultDebounce rounds).pendingSince = none := by decide
  exact ⟨hidle, (keeps_changes_iff manifest defaultDebounce rounds hidle).mpr (by decide)⟩

/-- A change whose rebuild is refused is lost. -/
theorem lost_after_refusal :
    let manifest : Path := ⟨"proj/rivet.toml"⟩
    let rounds : List Round := [⟨.event .modify [manifest], 0, 0, false⟩]
    (run manifest 0 rounds).pendingSince = none ∧ ¬ Kept (history manifest 0 rounds) := by
  intro manifest rounds
  have hhistory : history manifest 0 rounds = [.change, .ask false] := by decide
  refine ⟨by decide, fun hkept => ?_⟩
  have hafter : .ask true ∈ [Deed.ask false] := hkept [] _ hhistory
  revert hafter
  decide

end Watch
end Session
end ScriptSession
