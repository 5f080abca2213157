import ScriptSession.CommandLine.Execution
import ScriptSession.Proofs.Session.Speaking

/-!
# The thread of an interactive session

An interactive session opens a session, prompts, and then takes line after line. What a line asks
for is done on the thread itself, which prompts in the end, or by a task, which the thread waits
for. Main statement: the thread takes a line only when the one before has been answered by a prompt,
and it comes to its end only then or when a line asks to leave (`follows_talk`), wherever it is
interrupted and whatever it finds then.
-/

namespace ScriptSession
namespace CommandLine

open Concurrency (Thread)
open Config (Settings)
open Report (Entry)
open Session
open ScriptSession.Task (Admission)

/-! ## Talks -/

/-- What an interactive session does when its context is there: it starts to watch the manifest if
that is wanted, prompts, and takes lines. -/
def takeLines (s : Settings) (watches : Bool) : ExceptT Failure Act Unit := do
  if watches || s.session.watchesManifest then watchManifest
  Session.write .prompt
  readLines lineSupply

/-- An interactive session up to the end of its lines. -/
def talk (s : Settings) (watches : Bool) : ExceptT Failure Act Unit := do
  openWithContext s
  takeLines s watches

/-- What an interactive session does at the end of its lines. -/
def takeLeave (r : Except Failure Unit) : Act (Except Failure String) := do
  let result ← (do
    ExceptT.mk (pure r)
    Session.shutdown : ExceptT Failure Act Unit).run
  stopWatching
  return result.map fun _ => ""

/-- Where a talk is: its current line has still to be answered, a task for it has been admitted, the
talk waits for this task, or the line has been answered. Some tasks prompt by themselves. -/
inductive Phase where
  | asked
  | holds (id : Nat) (prompts : Bool)
  | awaits (id : Nat) (prompts : Bool)
  | answered

/-- The task that a talk has to do with. -/
def Phase.id? : Phase → Option Nat
  | .holds id _ | .awaits id _ => some id
  | .asked | .answered => none

/-- How far a talk is: the lines that it has taken, and where it is with the last one. -/
structure Progress where
  taken : List String
  phase : Phase

/-- A change that is no prompt, ends no task and leaves the input alone. -/
structure Speaks (w w' : World) : Prop extends w.Talks w' where
  input : w'.input = w.input

/-- What a talk may change. -/
inductive Converses : Progress → World → Progress → World → Prop
  | speaks {lines : List String} {w w' : World} (h : Speaks w w') :
      Converses ⟨lines, .asked⟩ w ⟨lines, .asked⟩ w'
  | prompts {lines : List String} {w w' : World} (hshows : w.Shows [.prompt] w')
      (hadmission : w'.admission = w.admission) (hinput : w'.input = w.input) :
      Converses ⟨lines, .asked⟩ w ⟨lines, .answered⟩ w'
  | admits {lines : List String} {id : Nat} {prompts : Bool} {w w' : World} (h : Speaks w w')
      (hfresh : w.admission.issued < id) (hissued : id ≤ w'.admission.issued)
      (hrunning : w'.admission.hasExited id = false) :
      Converses ⟨lines, .asked⟩ w ⟨lines, .holds id prompts⟩ w'
  | joins {lines : List String} {id : Nat} {prompts : Bool} {w w' : World}
      (hexited : w.admission.hasExited id = true) (hshows : w.Shows [] w') (h : Speaks w w') :
      Converses ⟨lines, .awaits id prompts⟩ w ⟨lines, if prompts then .answered else .asked⟩ w'
  | takes {lines : List String} {line : String} {w w' : World} (hshows : w.Shows [] w')
      (hadmission : w'.admission = w.admission) (hinput : w.input = line :: w'.input) :
      Converses ⟨lines, .answered⟩ w ⟨lines ++ [line], .asked⟩ w'

/-- What a talk may start. -/
inductive Delegates : Progress → Job → Progress → Prop
  | evaluation (lines : List String) (id i : Nat) (script : String)
      (extra : List (String × Script.Value)) :
      Delegates ⟨lines, .holds id true⟩ (.task id (.evaluate i script extra))
        ⟨lines, .awaits id true⟩
  | rebuild (lines : List String) (id : Nat) :
      Delegates ⟨lines, .holds id false⟩ (.task id .rebuild) ⟨lines, .awaits id false⟩
  | watcher (lines : List String) (manifest : Path) (debounce : Nat) :
      Delegates ⟨lines, .asked⟩ (.watch manifest debounce) ⟨lines, .asked⟩

/-- The thread talks like that. -/
abbrev Follows {α : Type} (Q : Progress → α → Prop) (t : Act α) (hasMoved : Bool) (g : Progress)
    (w : World) : Prop := Thread.Follows Converses Delegates Q t hasMoved g w

/-- None of the lines asks to leave. -/
def Stays (lines : List String) : Prop := ∀ line ∈ lines, Line.parse line ≠ .quit

/-- All lines have been answered, or the last one asks to leave and the others have been. -/
inductive HasEnded : Progress → Prop
  | answered {lines : List String} (h : Stays lines) : HasEnded ⟨lines, .answered⟩
  | left {lines : List String} {line : String} (h : Stays lines)
      (hquit : Line.parse line = .quit) : HasEnded ⟨lines ++ [line], .asked⟩

/-! ## Speaking -/

variable {α : Type} {lines : List String} {w : World} {id : Nat} {prompts hasMoved : Bool}

theorem input_writeEntry (w : World) (e : Entry) : (w.writeEntry e).input = w.input := by
  rw [World.writeEntry]
  split
  · rw [World.record]
    split <;> rfl
  · rfl

namespace Speaks

theorem of_eq {w' : World} (htranscript : w'.transcript = w.transcript)
    (hstreams : w'.streams = w.streams) (hadmission : w'.admission = w.admission)
    (hinput : w'.input = w.input) : Speaks w w' :=
  ⟨.of_eq htranscript hstreams hadmission, hinput⟩

theorem entry (w : World) {e : Entry} (he : e ≠ .prompt) : Speaks w (w.writeEntry e) :=
  ⟨.entry w he, input_writeEntry w e⟩

theorem admission {a : Admission} (h : Admission.Confines none w.admission a) :
    Speaks w { w with admission := a } := ⟨.admission h, rfl⟩

end Speaks

/-- A thread that only speaks does so before the current line is answered. -/
theorem follows_of_makes {Q : α → Prop} {t : Act α} (h : Makes Speaks Q t) :
    Follows (fun g a => g = ⟨lines, .asked⟩ ∧ Q a) t hasMoved ⟨lines, .asked⟩ w :=
  h.follows fun _ _ => .speaks

theorem follows_write {e : Entry} (he : e ≠ .prompt) :
    Follows (fun g _ => g = ⟨lines, .asked⟩) (write e) hasMoved ⟨lines, .asked⟩ w :=
  follows_modify fun w => .speaks (.entry w he)

theorem follows_prompt :
    Follows (fun g _ => g = ⟨lines, .answered⟩) (write .prompt) hasMoved ⟨lines, .asked⟩ w :=
  follows_modify fun w => .prompts (writes_writeEntry 0 w .prompt).shows
    (admission_writeEntry w _) (input_writeEntry w _)

/-! ## Tasks -/

/-- A submission that is admitted is waited for. -/
def Submits (lines : List String) (prompts : Bool) (g : Progress) (r : Except Failure Nat) : Prop :=
  (∃ id, r = .ok id ∧ g = ⟨lines, .awaits id prompts⟩) ∨ ∃ e, r = .error e ∧ g = ⟨lines, .asked⟩

theorem follows_submit {s : Submission}
    (hs : ∀ id, Delegates ⟨lines, .holds id prompts⟩ (.task id s.work)
      ⟨lines, .awaits id prompts⟩) :
    Follows (Submits lines prompts) (submit s) hasMoved ⟨lines, .asked⟩ w :=
  follows_submitWith (P := Converses) (F := Delegates) (Progress.mk lines .asked)
    (fun id => ⟨lines, .holds id prompts⟩) (fun id => ⟨lines, .awaits id prompts⟩)
    (fun _ _ h => .speaks (.admission h))
    (fun _ _ _ h hfresh hissued hrunning => .admits (.admission h) hfresh hissued hrunning)
    hs turns false

theorem follows_rebuildSubmission :
    Follows (Submits lines false) rebuild hasMoved ⟨lines, .asked⟩ w :=
  follows_submit fun id => .rebuild lines id

/-- A task that has been waited for has ended. Nobody acts between that and taking its result. -/
theorem follows_join :
    Follows (fun g _ => g = ⟨lines, if prompts then .answered else .asked⟩) (join id) hasMoved
      ⟨lines, .awaits id prompts⟩ w := by
  refine ⟨fun w hexited => ⟨_, .joins hexited (.of_eq rfl rfl rfl) ?_, rfl⟩, nofun⟩
  exact .admission (.takeResult w.admission id)

theorem follows_evaluateAsync (text : String) :
    Follows (Submits lines true) (evaluateAsync text "repl" none []) hasMoved ⟨lines, .asked⟩
      w := by
  refine follows_get_bind fun w => ?_
  dsimp only [Thread.bind]
  cases w.session.context with
  | none => exact Or.inr ⟨_, rfl, rfl⟩
  | some i =>
    exact (follows_submit (s := ⟨"repl", false, none, .evaluate i text []⟩)
      fun id => .evaluation lines id i text []).of_moved

/-! ## Opening -/

theorem makes_onFiles {β : Type} (op : Artifact.FileOperation β) :
    Makes Speaks (fun _ => True) (onFiles op) :=
  .getHost_bind fun _ => .bind (.setHost (fun _ _ => .of_eq rfl rfl rfl rfl) _) fun _ _ =>
    .pure trivial

theorem makes_openSession (s : Settings) : Makes Speaks (fun _ => True) (openSession s) := by
  have hrepositories : Makes Speaks (fun _ => True) (repositoriesOf s.session) := by
    refine .getHost_bind fun host => ?_
    split
    · exact .pure trivial
    · split
      · exact makes_onFiles _
      · exact .pure trivial
  refine .bind (.modify fun _ => .of_eq rfl rfl rfl rfl) fun _ _ =>
    .bind hrepositories fun repositories _ => ?_
  cases repositories with
  | error e => exact .pure trivial
  | ok rs => exact ⟨fun _ _ _ => ⟨.of_eq rfl rfl rfl rfl, trivial⟩⟩

theorem follows_rebuildBlocking :
    Follows (fun g _ => g = ⟨lines, .asked⟩) rebuildBlocking hasMoved ⟨lines, .asked⟩ w := by
  refine follows_rebuildSubmission.bind ?_
  rintro g r w (⟨id, rfl, rfl⟩ | ⟨e, rfl, rfl⟩)
  · exact follows_join
  · exact rfl

theorem follows_openWithContext (s : Settings) :
    Follows (fun g _ => g = ⟨lines, .asked⟩) (openWithContext s).run hasMoved
      ⟨lines, .asked⟩ w := by
  refine (follows_of_makes (makes_openSession s)).bind ?_
  rintro _ opened w ⟨rfl, -⟩
  cases opened with
  | error e => exact rfl
  | ok u =>
    refine follows_rebuildBlocking.bind ?_
    rintro _ built w rfl
    cases built <;> exact rfl

theorem follows_watchManifest :
    Follows (fun g _ => g = ⟨lines, .asked⟩) watchManifest hasMoved ⟨lines, .asked⟩ w := by
  have hstart : Follows (fun g _ => g = ⟨lines, .asked⟩) (startWatching defaultDebounce) hasMoved
      ⟨lines, .asked⟩ w := by
    refine follows_get_bind fun w => ?_
    cases w.session.projectDir with
    | none => exact rfl
    | some project =>
      dsimp only
      split
      · exact rfl
      · exact ⟨_, .speaks (.of_eq rfl rfl rfl rfl), _, .watcher lines _ _, rfl⟩
  refine hstart.bind ?_
  rintro _ r w rfl
  cases r with
  | ok manifest => exact rfl
  | error e => exact follows_write nofun

/-! ## Lines -/

/-- A thread that goes on after another one that cannot fail. -/
theorem follows_lift_bind {β : Type} {Q : Progress → α → Prop}
    {R : Progress → Except Failure β → Prop} {t : Act α} {f : α → ExceptT Failure Act β}
    {g : Progress} (h : Follows Q t hasMoved g w)
    (hf : ∀ g a w, Q g a → Follows R (f a).run true g w) :
    Follows R (ExceptT.lift t >>= f).run hasMoved g w := by
  rw [ExceptT.run_bind_lift]
  exact h.bind hf

/-- What a line has led to: it has been answered, or it asks to leave. -/
def Obeys (lines : List String) (line : Line) (g : Progress) (r : Except Failure Bool) : Prop :=
  match r with
  | .error _ => True
  | .ok goesOn =>
    if goesOn then line ≠ .quit ∧ g = ⟨lines, .answered⟩ else line = .quit ∧ g = ⟨lines, .asked⟩

theorem follows_answerLine (text : String) :
    Follows (fun g _ => g = ⟨lines, .answered⟩) (answerLine text) hasMoved ⟨lines, .asked⟩ w := by
  refine (follows_write (e := .output text) nofun).bind ?_
  rintro _ _ w rfl
  exact follows_prompt

theorem follows_evaluateLine (text : String) :
    Follows (fun g _ => g = ⟨lines, .answered⟩) (evaluateLine text) hasMoved ⟨lines, .asked⟩
      w := by
  refine (follows_evaluateAsync text).bind ?_
  rintro g r w (⟨id, rfl, rfl⟩ | ⟨e, rfl, rfl⟩)
  · refine follows_join.bind ?_
    rintro _ _ w rfl
    exact rfl
  · refine (follows_write (e := .warning e.message) nofun).bind ?_
    rintro _ _ w rfl
    exact follows_prompt

theorem follows_restartSession :
    Follows (fun g _ => g = ⟨lines, .asked⟩) restartSession.run hasMoved ⟨lines, .asked⟩ w := by
  have hrestart : Follows (Submits lines false) restart hasMoved ⟨lines, .asked⟩ w := by
    refine (follows_write (e := .output "[Session restarted]") nofun).bind ?_
    rintro _ _ w rfl
    exact follows_rebuildSubmission
  refine hrestart.bind ?_
  rintro g r w (⟨id, rfl, rfl⟩ | ⟨e, rfl, rfl⟩)
  · refine follows_join.bind ?_
    rintro _ joined w rfl
    cases joined <;> exact rfl
  · exact rfl

/-- Whatever a line asks for, it is answered by one prompt, unless it asks to leave. -/
theorem follows_obey (line : Line) :
    Follows (Obeys lines line) (obey line).run hasMoved ⟨lines, .asked⟩ w := by
  cases line with
  | blank =>
    refine follows_lift_bind follows_prompt ?_
    rintro _ _ w rfl
    exact ⟨nofun, rfl⟩
  | quit => exact ⟨rfl, rfl⟩
  | help =>
    refine follows_lift_bind (follows_answerLine _) ?_
    rintro _ _ w rfl
    exact ⟨nofun, rfl⟩
  | bindings =>
    refine follows_get_bind fun w => ?_
    refine Thread.Follows.of_moved (follows_lift_bind (follows_answerLine _) ?_)
    rintro _ _ w rfl
    exact ⟨nofun, rfl⟩
  | restart =>
    refine follows_restartSession.bind ?_
    rintro _ r w rfl
    cases r with
    -- A restart that fails ends the talk, so no prompt is due.
    | error e => exact trivial
    | ok u =>
      refine follows_lift_bind follows_prompt ?_
      rintro _ _ w rfl
      exact ⟨nofun, rfl⟩
  | script text =>
    refine follows_lift_bind (follows_evaluateLine text) ?_
    rintro _ _ w rfl
    exact ⟨nofun, rfl⟩

/-- What has been taken from the input: the next line, or nothing at its end. -/
def Takes (lines : List String) (g : Progress) : Option String → Prop
  | none => g = ⟨lines, .answered⟩
  | some line => g = ⟨lines ++ [line], .asked⟩

/-- The next line is taken when the last one has been answered. -/
theorem follows_nextLine :
    Follows (Takes lines) nextLine hasMoved ⟨lines, .answered⟩ w := by
  refine ⟨fun w _ => follows_get_bind fun w => ?_, nofun⟩
  split
  · exact rfl
  · rename_i line rest hinput
    exact ⟨_, .takes (.of_eq rfl rfl rfl) rfl hinput, rfl⟩

/-- The induction is on the supply of lines. -/
theorem follows_readLines (n : Nat) (hstays : Stays lines) :
    Follows (fun g r => r = .ok () → HasEnded g) (readLines n).run hasMoved ⟨lines, .answered⟩
      w := by
  induction n generalizing lines hasMoved w with
  | zero => exact fun _ => .answered hstays
  | succ n ih =>
    refine follows_lift_bind follows_nextLine fun g line w hg => ?_
    cases line with
    | none =>
      obtain rfl : g = ⟨lines, .answered⟩ := hg
      exact fun _ => .answered hstays
    | some line =>
      obtain rfl : g = ⟨lines ++ [line], .asked⟩ := hg
      show Follows _ (obey (.parse line) >>= _ : ExceptT Failure Act Unit).run true _ w
      generalize hparse : Line.parse line = asked
      refine (follows_obey asked).bind fun g r w hr => ?_
      cases r with
      | error e => exact nofun
      | ok goesOn =>
        cases goesOn with
        | false =>
          obtain ⟨hquit, rfl⟩ := hr
          exact fun _ => .left hstays (hparse.trans hquit)
        | true =>
          -- The line has been answered, and like those before it does not ask to leave.
          obtain ⟨hline, rfl⟩ := hr
          refine ih fun other hother => ?_
          obtain hother | hother := List.mem_append.mp hother
          · exact hstays other hother
          · rw [List.mem_singleton.mp hother, hparse]
            exact hline

/-- A talk answers line by line, beginning with the prompt that it opens with. -/
theorem follows_talk (s : Settings) (watches : Bool) (w : World) :
    Follows (fun g r => r = .ok () → HasEnded g) (talk s watches).run false ⟨[], .asked⟩ w := by
  -- Whether the manifest is watched or not, the lines begin with a prompt.
  have hlines : ∀ w, Follows (fun g r => r = .ok () → HasEnded g) (do
      Session.write .prompt
      readLines lineSupply : ExceptT Failure Act Unit).run true ⟨[], .asked⟩ w := by
    intro w
    refine follows_lift_bind follows_prompt ?_
    rintro _ _ w rfl
    exact follows_readLines lineSupply nofun
  refine (follows_openWithContext s).bind ?_
  rintro _ opened w rfl
  cases opened with
  | error e => exact nofun
  | ok u =>
    show Follows _ (takeLines s watches).run true _ w
    rw [takeLines]
    split
    · refine follows_lift_bind follows_watchManifest ?_
      rintro _ _ w rfl
      exact hlines w
    · exact hlines w

/-- What comes after a talk is its leave. -/
theorem run_takeLeave (t : ExceptT Failure Act Unit) :
    (do
      let result ← ExceptT.lift (do t; Session.shutdown : ExceptT Failure Act Unit).run
      Session.stopWatching
      ExceptT.mk (pure result)
      return "" : ExceptT Failure Act String).run = t.run >>= takeLeave := by
  -- The watching stops whether the talk has failed or not.
  have hclose : ∀ result : Except Failure Unit, (do
      Session.stopWatching
      ExceptT.mk (pure result)
      return "" : ExceptT Failure Act String).run = (do
        stopWatching
        return result.map fun _ => "") := by
    intro result
    refine (ExceptT.run_bind_lift ..).trans ?_
    cases result <;> rfl
  refine (ExceptT.run_bind_lift ..).trans ((Thread.bind_assoc t.run _ _).trans ?_)
  refine congrArg t.run.bind (funext fun r => ?_)
  cases r with
  | ok u =>
    exact congrArg (ExceptT.lift Session.shutdown : ExceptT Failure Act Unit).run.bind
      (funext hclose)
  | error e => exact hclose (.error e)

/-- An interactive session is a talk, and then it takes its leave. -/
theorem runRepl_eq (s : Settings) (watches : Bool) :
    runRepl s watches = openWithContext s >>= fun _ =>
      ExceptT.mk ((takeLines s watches).run >>= takeLeave) := by
  have hconverse : converse = (do
      (do
        Session.write .prompt
        readLines lineSupply : ExceptT Failure Act Unit)
      Session.shutdown) := (bind_assoc ..).symm
  have hlines := run_takeLeave (do
    Session.write .prompt
    readLines lineSupply)
  rw [← hconverse] at hlines
  refine congrArg (openWithContext s >>= ·) (funext fun _ => ExceptT.ext ?_)
  rw [takeLines]
  cases watches || s.session.watchesManifest with
  | false => exact hlines
  | true =>
    refine (ExceptT.run_bind_lift ..).trans ?_
    show _ = (ExceptT.lift watchManifest >>= fun _ => _).run >>= takeLeave
    rw [ExceptT.run_bind_lift]
    exact (congrArg watchManifest.bind (funext fun _ => hlines)).trans
      (Thread.bind_assoc watchManifest _ takeLeave).symm

end CommandLine
end ScriptSession
