import Mathlib.Data.List.TakeWhile
import ScriptSession.Proofs.Concurrency.Runs
import ScriptSession.Proofs.CommandLine.Conversing

/-!
# One prompt for every line

An interactive session with all the threads that it starts: the one that takes the lines, the tasks
of the lines, the watcher of the manifest and the rebuilds that this one starts. The threads go on
in strides, in any order, while files change and lines arrive. Every change is noted with the line
that it is owed to, or with the watcher. Scripts may come to anything, also to a panic.

Main statement: when the lines are over, there has been one prompt for the opening and one for each
line that did not ask to leave. The prompt of a line comes after all else that the line shows and
before anything that the next line does (`prompts_once_for_each_line`).
-/

namespace ScriptSession
namespace CommandLine

open Concurrency (Mark Thread runFrom runFrom_keeps)
open Config (Settings)
open Session
open Session.Speaking
open ScriptSession.Task (Admission)

/-! ## Conversations -/

/-- What a change is owed to: a line, by its number, where the opening of the session is line 0, or
the watcher of the manifest. -/
inductive Cause where
  | line (number : Nat)
  | watcher
deriving DecidableEq

/-- What a job is owed to: to what the thread is owed that starts it, unless it is a watcher. -/
def causeOf (starter : Cause) : Job → Cause
  | .watch _ _ => .watcher
  | _ => starter

/-- A change, with the world before and after it, and what it is owed to. -/
structure Moment where
  cause : Cause
  before : World
  after : World

/-- The change shows a prompt and nothing else. -/
def Moment.IsPrompt (c : Moment) : Prop := c.before.Shows [.prompt] c.after

/-- The change shows nothing. -/
def Moment.IsSilent (c : Moment) : Prop := c.before.Shows [] c.after

/-- What is noted of a conversation: the lines that have been taken, the threads that have been
started, and all changes, the first one first. -/
structure Record where
  taken : List String
  others : List (Cause × Act Unit)
  history : List Moment

/-- The lines that are gone from the input. -/
def takenBy : Mark World Job → List String
  | .change w w' => w.input.take (w.input.length - w'.input.length)
  | .start _ => []

/-- What happens outside of the program: files change, the watcher hears of files, and lines arrive
or their end does. -/
inductive Outside where
  | files (host : Host)
  | fileEvents (events : List (List Path))
  | input (lines : List String) (isOpen : Bool)

/-- The world after that. -/
def Outside.happen (w : World) : Outside → World
  | .files host => { w with host := host }
  | .fileEvents events => { w with watch := { w.watch with events := events } }
  | .input lines isOpen => { w with input := w.input ++ lines, isInputOpen := isOpen }

/-- An interactive session up to the end of its lines: the world, the thread that takes the lines,
and what is noted. -/
structure Conversation where
  shared : World
  front : Act (Except Failure Unit)
  record : Record

/-- What happens next: a stride of the thread that takes the lines, a stride of another one, or
something outside. -/
inductive Turn where
  | front (now : Nat) (isLate : Bool)
  | other (i now : Nat) (isLate : Bool)
  | outside (o : Outside)

section

variable (behave : Job → Act Unit)

/-- Note something of a thread. -/
def Record.note (cause : Cause) (r : Record) : Mark World Job → Record
  | .change w w' => { r with history := r.history ++ [⟨cause, w, w'⟩] }
  | .start job => { r with others := r.others ++ [(causeOf cause job, behave job)] }

/-- Note something of the thread that takes the lines: it is owed to the last line. -/
def Record.noteFront (r : Record) (m : Mark World Job) : Record :=
  { r.note behave (.line r.taken.length) m with taken := r.taken ++ takenBy m }

/-- What becomes of a conversation, where jobs do as they are said to. -/
def Conversation.step (c : Conversation) : Turn → Conversation
  | .front now isLate =>
    let r := c.front.stride now isLate c.shared
    ⟨r.shared, r.thread, r.marks.foldl (Record.noteFront behave) c.record⟩
  | .other i now isLate =>
    match c.record.others[i]? with
    | none => c
    | some (cause, t) =>
      let r := t.stride now isLate c.shared
      let record := r.marks.foldl (Record.note behave cause) c.record
      ⟨r.shared, c.front, { record with others := record.others.set i (cause, r.thread) }⟩
  | .outside o => { c with shared := o.happen c.shared }

/-- The beginning of an interactive session. -/
def Conversation.start (s : Settings) (watches : Bool) (w : World) : Conversation :=
  ⟨w, (talk s watches).run, ⟨[], [], []⟩⟩

/-- The jobs of an interactive session do what they do in the program, but an evaluation may come to
anything, also to a panic. -/
structure IsProgram : Prop where
  evaluates : ∀ id i script extra, ∃ eval, Chats eval ∧
    behave (.task id (.evaluate i script extra)) = runTask id (Completion.concluding id i eval)
  rebuilds : ∀ id, behave (.task id .rebuild) = body (.task id .rebuild)
  watches : ∀ manifest debounce, behave (.watch manifest debounce) = body (.watch manifest debounce)

end

theorem isProgram_body : IsProgram body where
  evaluates id i script extra := ⟨Completion.evaluating id i script extra,
    chats_evaluating id i script extra,
    congrArg (runTask id) (Completion.perform_evaluate id i script extra)⟩
  rebuilds _ := rfl
  watches _ _ := rfl

/-! ## Histories -/

open Classical in
/-- The number of prompts. -/
noncomputable def promptCount (history : List Moment) : Nat :=
  history.countP fun c => c.IsPrompt

/-- A line has been answered: it has got one prompt, nothing before is owed to a later line, and
nothing that is owed to this line is shown afterwards. -/
def IsAnswered (history : List Moment) (k : Nat) : Prop :=
  ∃ earlier w w' later, history = earlier ++ ⟨.line k, w, w'⟩ :: later ∧ w.Shows [.prompt] w' ∧
    (∀ c ∈ earlier, ∀ j, c.cause = .line j → j ≤ k ∧ (j = k → ¬c.IsPrompt)) ∧
    ∀ c ∈ later, c.cause = .line k → c.IsSilent

/-- A history in which the opening and lines up to the number `n` have been worked on, and the first
`p` of them have been answered. -/
structure IsPrompted (history : List Moment) (p n : Nat) : Prop where
  count : promptCount history = p
  answered : ∀ k < p, IsAnswered history k
  prompts : ∀ c ∈ history, c.IsPrompt → ∃ k < p, c.cause = .line k
  causes : ∀ c ∈ history, ∀ k, c.cause = .line k → k ≤ n

variable {history : List Moment} {c : Moment} {p n k : Nat}

theorem Moment.IsSilent.not_isPrompt (h : c.IsSilent) : ¬c.IsPrompt := h.not_prompt

theorem promptCount_concat_of_not (hc : ¬c.IsPrompt) :
    promptCount (history ++ [c]) = promptCount history := by
  simp [promptCount, hc]

theorem promptCount_concat (hc : c.IsPrompt) :
    promptCount (history ++ [c]) = promptCount history + 1 := by
  simp [promptCount, hc]

theorem IsAnswered.concat (h : IsAnswered history k) (hc : c.cause = .line k → c.IsSilent) :
    IsAnswered (history ++ [c]) k := by
  obtain ⟨earlier, w, w', later, rfl, hshows, hearlier, hlater⟩ := h
  refine ⟨earlier, w, w', later ++ [c], by simp, hshows, hearlier, fun d hd => ?_⟩
  obtain hd | hd := List.mem_append.mp hd
  · exact hlater d hd
  · obtain rfl := List.mem_singleton.mp hd
    exact hc

namespace IsPrompted

theorem nil : IsPrompted [] 0 0 where
  count := rfl
  answered _ hk := absurd hk (Nat.not_lt_zero _)
  prompts _ hc := absurd hc List.not_mem_nil
  causes _ hc := absurd hc List.not_mem_nil

theorem mono (h : IsPrompted history p n) {n' : Nat} (hn : n ≤ n') : IsPrompted history p n' :=
  ⟨h.count, h.answered, h.prompts, fun c hc k hk => Nat.le_trans (h.causes c hc k hk) hn⟩

/-- A change that is no prompt, and that shows nothing if its line has been answered. -/
theorem concat (h : IsPrompted history p n) (hc : ¬c.IsPrompt)
    (hcause : ∀ k, c.cause = .line k → k ≤ n ∧ (k < p → c.IsSilent)) :
    IsPrompted (history ++ [c]) p n where
  count := (promptCount_concat_of_not hc).trans h.count
  answered k hk := (h.answered k hk).concat fun hck => (hcause k hck).2 hk
  prompts d hd hprompt := by
    obtain hd | hd := List.mem_append.mp hd
    · exact h.prompts d hd hprompt
    · obtain rfl := List.mem_singleton.mp hd
      exact absurd hprompt hc
  causes d hd k hk := by
    obtain hd | hd := List.mem_append.mp hd
    · exact h.causes d hd k hk
    · obtain rfl := List.mem_singleton.mp hd
      exact (hcause k hk).1

/-- A change that shows nothing. -/
theorem silent (h : IsPrompted history p n) (hc : c.IsSilent)
    (hcause : ∀ k, c.cause = .line k → k ≤ n) : IsPrompted (history ++ [c]) p n :=
  h.concat hc.not_isPrompt fun k hk => ⟨hcause k hk, fun _ => hc⟩

/-- A change that is no prompt, while the last line has still to be answered. -/
theorem unanswered (h : IsPrompted history n n) (hc : ¬c.IsPrompt)
    (hcause : ∀ k, c.cause = .line k → k = n) : IsPrompted (history ++ [c]) n n :=
  h.concat hc fun k hk =>
    ⟨Nat.le_of_eq (hcause k hk), fun hlt => absurd (hcause k hk) (Nat.ne_of_lt hlt)⟩

/-- The prompt of the last line. -/
theorem prompt (h : IsPrompted history n n) (hc : c.IsPrompt) (hcause : c.cause = .line n) :
    IsPrompted (history ++ [c]) (n + 1) n where
  count := by rw [promptCount_concat hc, h.count]
  answered k hk := by
    obtain hk | rfl := Nat.lt_succ_iff_lt_or_eq.mp hk
    · refine (h.answered k hk).concat fun hck => ?_
      exact absurd hk (Nat.not_lt_of_le (Nat.le_of_eq (Cause.line.inj (hcause.symm.trans hck))))
    · -- The change answers its own line: every prompt before it belongs to an earlier one.
      obtain ⟨cause, w, w'⟩ := c
      obtain rfl : cause = .line k := hcause
      refine ⟨history, w, w', [], rfl, hc, fun d hd j hj => ⟨h.causes d hd j hj, ?_⟩,
        fun _ hd => absurd hd List.not_mem_nil⟩
      rintro rfl hprompt
      obtain ⟨i, hi, hdi⟩ := h.prompts d hd hprompt
      exact Nat.ne_of_lt hi (Cause.line.inj (hdi.symm.trans hj))
  prompts d hd hprompt := by
    obtain hd | hd := List.mem_append.mp hd
    · obtain ⟨k, hk, hdk⟩ := h.prompts d hd hprompt
      exact ⟨k, Nat.lt_succ_of_lt hk, hdk⟩
    · obtain rfl := List.mem_singleton.mp hd
      exact ⟨n, Nat.lt_succ_self n, hcause⟩
  causes d hd k hk := by
    obtain hd | hd := List.mem_append.mp hd
    · exact h.causes d hd k hk
    · obtain rfl := List.mem_singleton.mp hd
      exact Nat.le_of_eq (Cause.line.inj (hk.symm.trans hcause))

end IsPrompted

/-! ## How threads stand to each other -/

/-- The talk expects nothing more of a task: it has nothing to do with it, or it waits for it and
has got the prompt that it may be owed. -/
def IsSettled (g : Progress) (p id : Nat) : Prop :=
  g.phase.id? = some id →
    ∃ prompts, g.phase = .awaits id prompts ∧ (prompts = true → p = g.taken.length + 1)

/-- How many prompts there have been where a talk is, and whether its task is under way. -/
inductive Stands (p : Nat) (a : Admission) : Progress → Prop
  | asked {lines : List String} (hp : p = lines.length) : Stands p a ⟨lines, .asked⟩
  | answered {lines : List String} (hp : p = lines.length + 1) : Stands p a ⟨lines, .answered⟩
  | holds {lines : List String} {id : Nat} {prompts : Bool} (hp : p = lines.length)
      (hissued : id ≤ a.issued) (hrunning : a.hasExited id = false) :
      Stands p a ⟨lines, .holds id prompts⟩
  | awaits {lines : List String} {id : Nat} {prompts : Bool} (hp : p = lines.length)
      (hissued : id ≤ a.issued) (hrunning : prompts = true → a.hasExited id = false) :
      Stands p a ⟨lines, .awaits id prompts⟩
  | told {lines : List String} {id : Nat} (hp : p = lines.length + 1) (hissued : id ≤ a.issued) :
      Stands p a ⟨lines, .awaits id true⟩

/-- The role that a thread may have, the one with the index `i`. What is owed to the watcher never
prompts and has nothing to do with the task of the talk. What is owed to a line is over, or it works
on the task of the talk, and then it is the current one. -/
inductive Fits (g : Progress) (p current : Nat) (a : Admission) (i : Nat) : Cause → Role → Prop
  | watches {r : Role} (hr : ∀ id, r ≠ .works id true)
      (hissued : ∀ id, r.id? = some id → id ≤ a.issued)
      (hapart : ∀ id, r.id? = some id → g.phase.id? ≠ some id) : Fits g p current a i .watcher r
  | finished {k id : Nat} (hk : k ≤ g.taken.length) (hissued : id ≤ a.issued)
      (hcurrent : g.phase.id? = some id → i = current) (hsettled : IsSettled g p id) :
      Fits g p current a i (.line k) (.finished id)
  | works {k id : Nat} {prompts : Bool} (hk : k = g.taken.length) (hi : i = current)
      (hphase : g.phase = .awaits id prompts) (hp : p = g.taken.length) (hissued : id ≤ a.issued)
      (hrunning : a.hasExited id = false) : Fits g p current a i (.line k) (.works id prompts)

variable {g g' : Progress} {a b : Admission} {current i : Nat} {cause : Cause} {role role' : Role}
  {own : Option Nat}

theorem Stands.issued (h : Stands p a g) {id : Nat} (hid : g.phase.id? = some id) :
    id ≤ a.issued := by
  cases h with
  | asked | answered => cases hid
  | holds _ hissued _ | awaits _ hissued _ | told _ hissued =>
    cases hid
    exact hissued

/-- A change that ends no task of which the talk expects something. -/
theorem Stands.confines (h : Stands p a g) (hc : Admission.Confines own a b)
    (hown : ∀ id, own = some id → IsSettled g p id) : Stands p b g := by
  cases h with
  | asked hp => exact .asked hp
  | answered hp => exact .answered hp
  -- The task that the talk holds or waits for still runs, for it is not the one that may end.
  | holds hp hissued hrunning =>
    refine .holds hp (Nat.le_trans hissued hc.issued) ?_
    rw [hc.hasExited _ hissued fun hid => ?_]
    · exact hrunning
    · obtain ⟨_, hphase, -⟩ := hown _ hid rfl
      cases hphase
  | awaits hp hissued hrunning =>
    refine .awaits hp (Nat.le_trans hissued hc.issued) fun hprompts => ?_
    rw [hc.hasExited _ hissued fun hid => ?_]
    · exact hrunning hprompts
    · obtain ⟨_, hphase, htold⟩ := hown _ hid rfl
      cases hphase
      have htwice := htold hprompts
      dsimp only at htwice
      omega
  | told hp hissued => exact .told hp (Nat.le_trans hissued hc.issued)

/-- A change that does not end the task of another thread. -/
theorem Fits.confines (h : Fits g p current a i cause role) (hc : Admission.Confines own a b)
    (hown : ∀ id, own = some id → g.phase.id? = some id → i ≠ current) :
    Fits g p current b i cause role := by
  cases h with
  | watches hr hissued hapart =>
    exact .watches hr (fun id hid => Nat.le_trans (hissued id hid) hc.issued) hapart
  | finished hk hissued hcurrent hsettled =>
    exact .finished hk (Nat.le_trans hissued hc.issued) hcurrent hsettled
  | works hk hi hphase hp hissued hrunning =>
    refine .works hk hi hphase hp (Nat.le_trans hissued hc.issued) ?_
    rw [hc.hasExited _ hissued fun hid => ?_]
    · exact hrunning
    · exact hown _ hid (by rw [hphase]; rfl) hi

/-- All threads keep to a role that they may have, except for one. -/
def AllFit (but : Option Nat) (g : Progress) (p current : Nat) (a : Admission)
    (others : List (Cause × Act Unit)) : Prop :=
  ∀ i cause t, some i ≠ but → others[i]? = some (cause, t) →
    ∃ role, (∀ w, KeepsTo (fun _ _ => True) t false role w) ∧ Fits g p current a i cause role

/-- What is known of a conversation where the talk has come to `g` and there have been `p` prompts,
of all threads but one. -/
structure Sound (but : Option Nat) (g : Progress) (p current : Nat) (w : World) (r : Record) :
    Prop where
  taken : r.taken = g.taken
  prompted : IsPrompted r.history p g.taken.length
  stands : Stands p w.admission g
  others : AllFit but g p current w.admission r.others

variable {but : Option Nat} {current' p' : Nat} {others : List (Cause × Act Unit)} {t : Act Unit}

theorem AllFit.imp (h : AllFit but g p current a others)
    (hfits : ∀ i cause role, some i ≠ but → Fits g p current a i cause role →
      Fits g' p' current' b i cause role) : AllFit but g' p' current' b others := by
  intro i cause t hi ht
  obtain ⟨role, hkeeps, hrole⟩ := h i cause t hi ht
  exact ⟨role, hkeeps, hfits i cause role hi hrole⟩

theorem AllFit.concat (h : AllFit but g p current a others)
    (hkeeps : ∀ w, KeepsTo (fun _ _ => True) t false role w)
    (hfits : Fits g p current a others.length cause role) :
    AllFit but g p current a (others ++ [(cause, t)]) := by
  intro i cause' t' hi ht
  rw [List.getElem?_append] at ht
  split at ht
  · exact h i cause' t' hi ht
  · obtain ⟨hindex, hthread⟩ := List.getElem?_eq_some_iff.mp ht
    rw [List.length_singleton] at hindex
    have hlast : i = others.length := by omega
    rw [List.getElem_singleton] at hthread
    cases hthread
    exact ⟨role, hkeeps, hlast ▸ hfits⟩

/-- The thread that has been left out keeps to its role. -/
theorem AllFit.set (h : AllFit (some i) g p current a others)
    (hkeeps : ∀ w, KeepsTo (fun _ _ => True) t false role w)
    (hfits : Fits g p current a i cause role) :
    AllFit none g p current a (others.set i (cause, t)) := by
  intro j cause' t' _ ht
  by_cases hj : j = i
  · subst hj
    rw [List.getElem?_set_self'] at ht
    obtain ⟨_, -, hthread⟩ := Option.map_eq_some_iff.mp ht
    cases hthread
    exact ⟨role, hkeeps, hfits⟩
  · rw [List.getElem?_set_ne (Ne.symm hj)] at ht
    exact h j cause' t' (fun hsome => hj (Option.some.inj hsome)) ht

/-! ## The thread that takes the lines -/

/-- A talk that has nothing to do with a task, for now. -/
theorem Fits.forget (h : Fits g p current a i cause role) (hc : Admission.Confines none a b)
    (hphase : g'.phase.id? = none) (htaken : g.taken.length ≤ g'.taken.length)
    (hexited : ∀ id prompts, g.phase = .awaits id prompts → a.hasExited id = true) :
    Fits g' p' current b i cause role := by
  cases h with
  | watches hr hissued hapart =>
    refine .watches hr (fun id hid => Nat.le_trans (hissued id hid) hc.issued) fun id _ hid => ?_
    rw [hphase] at hid
    cases hid
  | finished hk hissued hcurrent hsettled =>
    have hnone : ∀ id, g'.phase.id? ≠ some id := by
      intro id hid
      rw [hphase] at hid
      cases hid
    exact .finished (Nat.le_trans hk htaken) (Nat.le_trans hissued hc.issued)
      (fun hid => absurd hid (hnone _)) fun hid => absurd hid (hnone _)
  | works hk hi hawaits hp hissued hrunning =>
    rw [hexited _ _ hawaits] at hrunning
    cases hrunning

/-- A talk that has to do with a task that nobody else has to do with. -/
theorem Fits.take (h : Fits g p current a i cause role) (hc : Admission.Confines none a b)
    (htaken : g'.taken = g.taken) (hapart : ∀ id, g'.phase.id? = some id → a.issued < id ∨
      g.phase.id? = some id) (hphase : ∀ id prompts, g.phase ≠ .awaits id prompts) :
    Fits g' p current' b i cause role := by
  -- The task is either the one that the talk had or one with a new number.
  have hnew : ∀ id, id ≤ a.issued → g.phase.id? ≠ some id → g'.phase.id? ≠ some id := by
    intro id hissued hold hid
    obtain hfresh | hsame := hapart id hid
    · exact Nat.not_lt_of_le hissued hfresh
    · exact hold hsame
  cases h with
  | watches hr hissued hold =>
    exact .watches hr (fun id hid => Nat.le_trans (hissued id hid) hc.issued) fun id hid =>
      hnew id (hissued id hid) (hold id hid)
  | @finished k id hk hissued hcurrent hsettled =>
    have hold : g.phase.id? ≠ some id := by
      intro hid
      obtain ⟨prompts, hawaits, -⟩ := hsettled hid
      exact hphase id prompts hawaits
    have hnone := hnew id hissued hold
    exact .finished (htaken ▸ hk) (Nat.le_trans hissued hc.issued) (fun hid => absurd hid hnone)
      fun hid => absurd hid hnone
  | works hk hi hawaits hp hissued hrunning => exact absurd hawaits (hphase _ _)

variable {behave : Job → Act Unit} {w w' : World} {r : Record}

theorem Record.taken_noteFront (r : Record) (h : w'.input = w.input) :
    (r.noteFront behave (.change w w')).taken = r.taken := by
  rw [noteFront, takenBy, h, Nat.sub_self, List.take_zero, List.append_nil]

theorem Record.taken_noteFront_of_cons (r : Record) {line : String}
    (h : w.input = line :: w'.input) :
    (r.noteFront behave (.change w w')).taken = r.taken ++ [line] := by
  rw [noteFront, takenBy, h, List.length_cons, Nat.add_sub_cancel_left]
  rfl

namespace Sound

/-- A change of the thread that takes the lines. -/
theorem front_change (h : Sound none g p current w r) (hstep : Converses g w g' w') :
    ∃ p', Sound none g' p' current w' (r.noteFront behave (.change w w')) := by
  obtain ⟨htaken, hprompted, hstands, hothers⟩ := h
  have hcause : ∀ k, Cause.line r.taken.length = .line k → k = g.taken.length := by
    rintro _ ⟨⟩
    exact congrArg List.length htaken
  have hle : ∀ k, Cause.line r.taken.length = .line k → k ≤ g.taken.length := fun k hk =>
    Nat.le_of_eq (hcause k hk)
  cases hstep with
  | @speaks lines _ _ hspeaks =>
    obtain ⟨rfl⟩ := hstands
    refine ⟨lines.length, (r.taken_noteFront hspeaks.input).trans htaken,
      hprompted.unanswered hspeaks.noPrompt hcause, .asked rfl, ?_⟩
    exact hothers.imp fun i cause role _ hfits =>
      hfits.forget hspeaks.confines rfl (Nat.le_refl _) nofun
  | @prompts lines _ _ hshows hadmission hinput =>
    obtain ⟨rfl⟩ := hstands
    refine ⟨lines.length + 1, (r.taken_noteFront hinput).trans htaken,
      hprompted.prompt hshows (congrArg (Cause.line ∘ List.length) htaken), .answered rfl, ?_⟩
    exact hothers.imp fun i cause role _ hfits =>
      hfits.forget (.of_eq hadmission) rfl (Nat.le_refl _) nofun
  | @admits lines id prompts _ _ hspeaks hfresh hissued hrunning =>
    obtain ⟨rfl⟩ := hstands
    refine ⟨lines.length, (r.taken_noteFront hspeaks.input).trans htaken,
      hprompted.unanswered hspeaks.noPrompt hcause, .holds rfl hissued hrunning, ?_⟩
    refine hothers.imp fun i cause role _ hfits =>
      hfits.take hspeaks.confines rfl (fun id hid => .inl ?_) nofun
    cases hid
    exact hfresh
  | @joins lines id prompts _ _ hexited hshows hspeaks =>
    refine ⟨p, (r.taken_noteFront hspeaks.input).trans htaken, hprompted.silent hshows hle, ?_, ?_⟩
    · cases hstands with
      | awaits hp hissued hrunning =>
        -- A task that owes a prompt has not ended before it, and joining waits for its end.
        cases prompts with
        | false => exact .asked hp
        | true =>
          rw [hrunning rfl] at hexited
          cases hexited
      | told hp hissued => exact .answered hp
    · refine hothers.imp fun i cause role _ hfits =>
        hfits.forget hspeaks.confines ?_ (Nat.le_refl _) ?_
      · cases prompts <;> rfl
      · rintro _ _ ⟨⟩
        exact hexited
  | @takes lines line _ _ hshows hadmission hinput =>
    obtain ⟨⟩ | ⟨hp⟩ := hstands
    have hlength : (lines ++ [line]).length = lines.length + 1 := List.length_append
    have hsilent : IsPrompted (r.noteFront behave (.change w w')).history p lines.length :=
      hprompted.silent hshows hle
    refine ⟨p, (r.taken_noteFront_of_cons hinput).trans (congrArg (· ++ [line]) htaken),
      hsilent.mono (hlength ▸ Nat.le_succ _), .asked (hp.trans hlength.symm), ?_⟩
    exact hothers.imp fun i cause role _ hfits =>
      hfits.forget (.of_eq hadmission) rfl (hlength ▸ Nat.le_succ _) nofun

/-- A job that the thread starts which takes the lines. -/
theorem front_start (hbehave : IsProgram behave) {job : Job} (h : Sound none g p current w r)
    (hstart : Delegates g job g') :
    ∃ current', Sound none g' p current' w (r.noteFront behave (.start job)) := by
  obtain ⟨htaken, hprompted, hstands, hothers⟩ := h
  have hnone : r.taken ++ takenBy (.start job) = g.taken := by
    rw [takenBy, List.append_nil, htaken]
  have hkeep : Admission.Confines none w.admission w.admission := .of_eq rfl
  cases hstart with
  | evaluation lines id i script extra =>
    obtain ⟨⟩ | ⟨⟩ | ⟨hp, hissued, hrunning⟩ := hstands
    -- The new thread is the one that owes the line its prompt from now on.
    obtain ⟨eval, heval, hjob⟩ := hbehave.evaluates id i script extra
    refine ⟨r.others.length, hnone, hprompted, .awaits hp hissued fun _ => hrunning, ?_⟩
    have hrest : AllFit none ⟨lines, .awaits id true⟩ p r.others.length w.admission r.others :=
      hothers.imp fun i cause role _ hfits => hfits.take hkeep rfl (fun _ hid => .inr hid) nofun
    refine hrest.concat (fun w => ?_)
      (.works (congrArg List.length htaken) rfl rfl hp hissued hrunning)
    rw [hjob]
    exact follows_evaluation heval
  | rebuild lines id =>
    obtain ⟨⟩ | ⟨⟩ | ⟨hp, hissued, hrunning⟩ := hstands
    refine ⟨r.others.length, hnone, hprompted, .awaits hp hissued nofun, ?_⟩
    have hrest : AllFit none ⟨lines, .awaits id false⟩ p r.others.length w.admission r.others :=
      hothers.imp fun i cause role _ hfits => hfits.take hkeep rfl (fun _ hid => .inr hid) nofun
    refine hrest.concat (fun w => ?_)
      (.works (congrArg List.length htaken) rfl rfl hp hissued hrunning)
    rw [hbehave.rebuilds]
    exact follows_rebuild
  | watcher lines manifest debounce =>
    refine ⟨current, hnone, hprompted, hstands, ?_⟩
    refine hothers.concat (fun w => ?_) (.watches (r := .free) nofun nofun nofun)
    rw [hbehave.watches]
    exact follows_watchJob manifest debounce

/-! ## The other threads -/

/-- A change that is owed to the watcher and that has nothing to do with the task of the talk. -/
theorem watcher_change (h : Sound (some i) g p current w r) (hshows : ¬ w.Shows [.prompt] w')
    (hc : Admission.Confines own w.admission w'.admission)
    (hown : ∀ id, own = some id → g.phase.id? ≠ some id) :
    Sound (some i) g p current w' (r.note behave .watcher (.change w w')) where
  taken := h.taken
  prompted := h.prompted.concat hshows fun _ hk => by cases hk
  stands := h.stands.confines hc fun id hid hphase => absurd hphase (hown id hid)
  others := h.others.imp fun _ _ _ _ hfits => hfits.confines hc fun id hid hphase =>
    absurd hphase (hown id hid)

/-- A change that is owed to a line and shows nothing. At most it ends a task of which the talk
expects nothing more. -/
theorem silent_change (h : Sound (some i) g p current w r) {id : Nat} (hk : k ≤ g.taken.length)
    (hshows : w.Shows [] w') (hc : Admission.Confines (some id) w.admission w'.admission)
    (hcurrent : g.phase.id? = some id → i = current) (hsettled : IsSettled g p id) :
    Sound (some i) g p current w' (r.note behave (.line k) (.change w w')) := by
  refine ⟨h.taken, h.prompted.silent hshows ?_, h.stands.confines hc ?_, ?_⟩
  · rintro _ ⟨⟩
    exact hk
  · rintro _ ⟨⟩
    exact hsettled
  · refine h.others.imp fun j _ _ hj hfits => hfits.confines hc ?_
    rintro _ ⟨⟩ hid rfl
    exact hj (congrArg some (hcurrent hid).symm)

/-- The prompt at the end of the task of the talk. -/
theorem prompt_change (h : Sound (some current) g p current w r) {id : Nat}
    (hphase : g.phase = .awaits id true) (hp : p = g.taken.length)
    (hissued : id ≤ w.admission.issued) (hshows : w.Shows [.prompt] w')
    (hc : Admission.Confines none w.admission w'.admission) :
    Sound (some current) g (p + 1) current w'
      (r.note behave (.line g.taken.length) (.change w w')) := by
  obtain ⟨lines, phase⟩ := g
  obtain rfl : phase = .awaits id true := hphase
  subst hp
  refine ⟨h.taken, h.prompted.prompt hshows rfl, .told rfl (Nat.le_trans hissued hc.issued), ?_⟩
  refine h.others.imp fun j _ _ hj hfits => ?_
  have hother : j ≠ current := fun hsame => hj (congrArg some hsame)
  cases hfits with
  | watches hr hold hapart =>
    exact .watches hr (fun id hid => Nat.le_trans (hold id hid) hc.issued) hapart
  | finished hk hold hnow _ =>
    exact .finished hk (Nat.le_trans hold hc.issued) hnow fun hid => absurd (hnow hid) hother
  | works _ hnow => exact absurd hnow hother

/-- A change of a thread in its role. -/
theorem other_change (h : Sound (some i) g p current w r)
    (hfits : Fits g p current w.admission i cause role) (hstep : Plays role w role' w') :
    ∃ p', Sound (some i) g p' current w' (r.note behave cause (.change w w')) ∧
      Fits g p' current w'.admission i cause role' := by
  cases hfits with
  | watches hr hissued hapart =>
    cases hstep with
    | looks htalks =>
      exact ⟨p, h.watcher_change htalks.noPrompt htalks.confines nofun,
        .watches nofun nofun nofun⟩
    | @admits _ _ id htalks hfresh hnew =>
      refine ⟨p, h.watcher_change htalks.noPrompt htalks.confines nofun, .watches nofun ?_ ?_⟩
      · rintro _ ⟨⟩
        exact hnew
      · rintro _ ⟨⟩ hid
        exact Nat.not_lt_of_le (h.stands.issued hid) hfresh
    | works htalks =>
      refine ⟨p, h.watcher_change htalks.noPrompt htalks.confines nofun, .watches hr ?_ hapart⟩
      exact fun id hid => Nat.le_trans (hissued id hid) htalks.confines.issued
    | prompts => exact absurd rfl (hr _)
    | ends hshows hc | tidies hshows hc =>
      refine ⟨p, h.watcher_change hshows.not_prompt hc fun id hid => ?_, .watches nofun ?_ hapart⟩
      · exact hapart id hid
      · exact fun id hid => Nat.le_trans (hissued id hid) hc.issued
  | finished hk hissued hcurrent hsettled =>
    cases hstep with
    | tidies hshows hc =>
      exact ⟨p, h.silent_change hk hshows hc hcurrent hsettled,
        .finished hk (Nat.le_trans hissued hc.issued) hcurrent hsettled⟩
  | @works k id prompts hk hi hphase hp hissued hrunning =>
    subst hk hi
    cases hstep with
    | works htalks =>
      refine ⟨p, ⟨h.taken, ?_, h.stands.confines htalks.confines nofun, ?_⟩, ?_⟩
      · subst hp
        refine h.prompted.unanswered htalks.noPrompt ?_
        rintro _ ⟨⟩
        rfl
      · exact h.others.imp fun _ _ _ _ hfits => hfits.confines htalks.confines nofun
      · refine .works rfl rfl hphase hp (Nat.le_trans hissued htalks.confines.issued) ?_
        rw [htalks.confines.hasExited id hissued nofun]
        exact hrunning
    | prompts hshows hc =>
      -- The prompt is the one that the talk waits for, and the thread gives no other.
      refine ⟨p + 1, h.prompt_change hphase hp hissued hshows hc, ?_⟩
      exact .finished (Nat.le_refl _) (Nat.le_trans hissued hc.issued) (fun _ => rfl) fun _ =>
        ⟨true, hphase, fun _ => congrArg (· + 1) hp⟩
    | ends hshows hc =>
      have hsettled : IsSettled g p id := fun _ => ⟨false, hphase, nofun⟩
      exact ⟨p, h.silent_change (Nat.le_refl _) hshows hc (fun _ => rfl) hsettled,
        .finished (Nat.le_refl _) (Nat.le_trans hissued hc.issued) (fun _ => rfl) hsettled⟩

/-- A job that a thread starts in its role: only the watcher starts any. -/
theorem other_start (hbehave : IsProgram behave) {job : Job} (h : Sound (some i) g p current w r)
    (hfits : Fits g p current w.admission i cause role) (hstart : Starts role job role') :
    Sound (some i) g p current w (r.note behave cause (.start job)) ∧
      Fits g p current w.admission i cause role' := by
  obtain ⟨id⟩ := hstart
  obtain ⟨-, hissued, hapart⟩ | ⟨⟩ | ⟨⟩ := hfits
  refine ⟨⟨h.taken, h.prompted, h.stands, ?_⟩, .watches nofun nofun nofun⟩
  have hkeeps : ∀ w, KeepsTo (fun _ _ => True) (behave (.task id .rebuild)) false
      (.works id false) w := by
    rw [hbehave.rebuilds]
    exact fun _ => follows_rebuild
  exact h.others.concat hkeeps (.watches nofun hissued hapart)

end Sound

/-! ## Turns -/

/-- A conversation in which everything that has been said is sound. -/
def Conversation.IsSound (c : Conversation) : Prop :=
  ∃ g p current, Sound none g p current c.shared c.record ∧
    ∀ w, Follows (fun g r => r = .ok () → HasEnded g) c.front false g w

theorem isSound_start (s : Settings) (watches : Bool) (w : World) :
    (Conversation.start s watches w).IsSound :=
  ⟨⟨[], .asked⟩, 0, 0, ⟨rfl, .nil, .asked rfl, nofun⟩, follows_talk s watches⟩

theorem Conversation.IsSound.step (hbehave : IsProgram behave) {c : Conversation} (h : c.IsSound)
    (turn : Turn) : (c.step behave turn).IsSound := by
  obtain ⟨g, p, current, hsound, hfront⟩ := h
  cases turn with
  | front now isLate =>
    obtain ⟨g', ⟨p', current', hsound'⟩, hfront'⟩ := Thread.Follows.stride
      (I := fun g w r => ∃ p current, Sound none g p current w r)
      (Record.noteFront behave)
      (fun ⟨_, _, h⟩ hstep => (h.front_change hstep).imp fun _ h => ⟨_, h⟩)
      (fun ⟨_, _, h⟩ hstart => ⟨_, h.front_start hbehave hstart⟩)
      hfront ⟨p, current, hsound⟩ now isLate
    exact ⟨g', p', current', hsound', hfront'⟩
  | other i now isLate =>
    rw [Conversation.step]
    split
    · exact ⟨g, p, current, hsound, hfront⟩
    · -- What holds of all threads holds of those but this one, which is looked at apart.
      rename_i cause t ht
      obtain ⟨role, hkeeps, hfits⟩ := hsound.others i cause t nofun ht
      have hbut : Sound (some i) g p current c.shared c.record :=
        ⟨hsound.taken, hsound.prompted, hsound.stands, fun j _ _ _ => hsound.others j _ _ nofun⟩
      obtain ⟨role', ⟨p', hsound', hfits'⟩, hkeeps'⟩ := Thread.Follows.stride
        (I := fun role w r => ∃ p, Sound (some i) g p current w r ∧
          Fits g p current w.admission i cause role)
        (Record.note behave cause)
        (fun ⟨_, h, hfits⟩ hstep => h.other_change hfits hstep)
        (fun ⟨_, h, hfits⟩ hstart => ⟨_, h.other_start hbehave hfits hstart⟩)
        hkeeps ⟨p, hbut, hfits⟩ now isLate
      exact ⟨g, p', current, ⟨hsound'.taken, hsound'.prompted, hsound'.stands,
        hsound'.others.set hkeeps' hfits'⟩, hfront⟩
  | outside o =>
    have hsame : (o.happen c.shared).admission = c.shared.admission := by cases o <;> rfl
    refine ⟨g, p, current, ⟨hsound.taken, hsound.prompted, ?_, ?_⟩, hfront⟩
    · exact hsame ▸ hsound.stands
    · exact hsame ▸ hsound.others

/-! ## Prompts -/

/-- The lines before the first one that asks to leave. -/
def answeredLines (lines : List String) : List String :=
  lines.takeWhile fun line => Line.parse line ≠ .quit

theorem answeredLines_of_stays {lines : List String} (h : Stays lines) :
    answeredLines lines = lines :=
  List.takeWhile_eq_self_iff.mpr fun line hline => decide_eq_true (h line hline)

theorem answeredLines_concat_quit {lines : List String} {line : String} (h : Stays lines)
    (hquit : Line.parse line = .quit) : answeredLines (lines ++ [line]) = lines := by
  have hall : ∀ line ∈ lines, decide (Line.parse line ≠ .quit) = true := fun line hline =>
    decide_eq_true (h line hline)
  rw [answeredLines, List.takeWhile_append_of_pos hall, List.takeWhile_cons_of_neg, List.append_nil]
  simp [hquit]

/-- Every line but the last one has got its prompt, and the last one may have. -/
theorem Stands.length_le (h : Stands p a g) : g.taken.length ≤ p := by
  cases h with
  | asked hp | holds hp | awaits hp => exact Nat.le_of_eq hp.symm
  | answered hp | told hp => exact hp ▸ Nat.le_succ _

/-- At the end there has been one prompt for the opening and one for each line. -/
theorem Stands.of_hasEnded (h : Stands p a g) (hended : HasEnded g) :
    p = (answeredLines g.taken).length + 1 := by
  cases hended with
  | answered hstays =>
    obtain ⟨⟩ | ⟨hp⟩ := h
    rw [answeredLines_of_stays hstays]
    exact hp
  | left hstays hquit =>
    obtain ⟨hp⟩ := h
    rw [answeredLines_concat_quit hstays hquit, hp, List.length_append, List.length_singleton]

/-- An interactive session is a talk, after which it takes its leave. Whatever happens beside the
talk, every line is answered before the next one is taken, and when the lines are over there has
been one prompt for the opening and one for each line that did not ask to leave. -/
theorem prompts_once_for_each_line (hbehave : IsProgram behave) (s : Settings) (watches : Bool)
    (w : World) (turns : List Turn) :
    runRepl s watches =
        (openWithContext s >>= fun _ => ExceptT.mk ((takeLines s watches).run >>= takeLeave)) ∧
      let c := runFrom (Conversation.step behave) (.start s watches w) turns
      (∀ k < c.record.taken.length, IsAnswered c.record.history k) ∧
        (c.front = .done (.ok ()) →
          promptCount c.record.history = (answeredLines c.record.taken).length + 1 ∧
            ∀ k ≤ (answeredLines c.record.taken).length, IsAnswered c.record.history k) := by
  refine ⟨runRepl_eq s watches, ?_⟩
  obtain ⟨g, p, current, hsound, hfront⟩ := runFrom_keeps (isSound_start s watches w)
    (fun _ turn h => h.step hbehave turn) turns
  generalize runFrom (Conversation.step behave) (.start s watches w) turns = c at hsound hfront
  dsimp only
  rw [hsound.taken]
  refine ⟨fun k hk => ?_, fun hdone => ?_⟩
  · exact hsound.prompted.answered k (Nat.lt_of_lt_of_le hk hsound.stands.length_le)
  · have hended : HasEnded g := by
      have hlast := hfront c.shared
      rw [hdone] at hlast
      exact hlast rfl
    have hp := hsound.stands.of_hasEnded hended
    rw [← hp]
    refine ⟨hsound.prompted.count, fun k hk => hsound.prompted.answered k ?_⟩
    rw [hp]
    exact Nat.lt_succ_of_le hk

/-- The jobs of the program, where the evaluation of one script panics. -/
def panickingOn (text : String) : Job → Act Unit
  | .task id (.evaluate i script extra) =>
    runTask id (Completion.concluding id i (if script = text then pure (.panic "overflow")
      else Completion.evaluating id i script extra))
  | job => body job

theorem isProgram_panickingOn (text : String) : IsProgram (panickingOn text) where
  evaluates id i script extra := by
    refine ⟨_, ?_, rfl⟩
    split
    · exact .pure trivial
    · exact chats_evaluating id i script extra
  rebuilds _ := rfl
  watches _ _ := rfl

/-- The lines are over. -/
def Conversation.isOver (c : Conversation) : Bool :=
  match c.front with
  | .done (.ok ()) => true
  | _ => false

theorem Conversation.front_of_isOver {c : Conversation} (h : c.isOver = true) :
    c.front = .done (.ok ()) := by
  rw [isOver] at h
  split at h
  · assumption
  · cases h

/-- Four lines, of which one panics and the last one asks to leave. -/
def fourLines : World :=
  { World.new (Host.empty ["home"]) with input := ["1 + 1", "", "boom", ":quit"] }

/-- The thread that takes the lines goes on until it waits for a task, and then this task does. -/
def fourTurns : List Turn :=
  [(.front 0 false, 3), (.other 0 0 false, 12), (.front 0 false, 5), (.other 2 0 false, 10),
    (.front 0 false, 5), (.other 3 0 false, 8), (.front 0 false, 3)].flatMap fun (turn, n) =>
      List.replicate n turn

/-- A session with a value, a blank line and a panic prompts four times. -/
theorem four_prompts_for_three_lines :
    let c := runFrom (Conversation.step (panickingOn "boom"))
      (.start (.default fourLines.host) true fourLines) fourTurns
    promptCount c.record.history = 4 ∧ ∀ k ≤ 3, IsAnswered c.record.history k := by
  intro c
  have hover : c.isOver = true := by decide +kernel
  have hlines : (answeredLines c.record.taken).length = 3 := by decide +kernel
  have hprompts := (prompts_once_for_each_line (isProgram_panickingOn "boom")
    (.default fourLines.host) true fourLines fourTurns).2.2 (c.front_of_isOver hover)
  rw [hlines] at hprompts
  exact hprompts

end CommandLine
end ScriptSession
