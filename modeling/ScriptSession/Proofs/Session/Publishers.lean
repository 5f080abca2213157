import ScriptSession.Proofs.Session.Activity
import ScriptSession.Proofs.Session.Threads

/-!
# The threads behind a session in progress

What the threads of a session do are moves of a session in progress. The work of a task of any kind
takes those of its agent, from where it begins to where nothing is under way
(`retires_perform`), and so does a thread that sets or removes a variable (`retires_addVariable`,
`retires_dropVariable`): each turn of such a thread is a list of moves, whatever others have done
since the last one (`Continues.moves_of_turn`). A task is started by the move in which its
submission is admitted, and the context of a script is the one that was current when the thread
called (`evaluateAsync_moves`).
-/

namespace ScriptSession
namespace Session

open Concurrency (Member Pool Protocol Thread runFrom)
open Report (TestCase TestRun)
open Script (Value)
open ScriptSession.Task (Listener)
open Activity (step)

/-! ## Moves of one agent -/

/-- An agent in a stage may change a world by moves that leave the other agents where they are. A
calling thread is in the middle of nothing at the admission. -/
def protocol (a : Agent) : Protocol Stage World := fun g w g' w' =>
  ∀ s : Activity, s.world = w → s.stages a = g → (∀ t, a = .caller t → s.calls t = .none) →
    ∃ moves, runFrom step s moves = s.go a g' fun _ => w'

variable {a : Agent} {g g' : Stage} {w w' : World}

theorem isChained_protocol (a : Agent) : (protocol a).IsChained := by
  constructor
  · rintro g w s rfl rfl -
    refine ⟨[], ?_⟩
    rw [Activity.go, Function.update_eq_self]
    rfl
  · rintro g w g' w' g'' w'' h h' s hw hg hcalls
    obtain ⟨moves, hmoves⟩ := h s hw hg hcalls
    obtain ⟨moves', hmoves'⟩ := h' (s.go a g' fun _ => w') rfl (s.stages_go_self a g' _) hcalls
    refine ⟨moves ++ moves', ?_⟩
    calc runFrom step s (moves ++ moves')
        = runFrom step (runFrom step s moves) moves' := List.foldl_append
      _ = (s.go a g' fun _ => w').go a g'' fun _ => w'' := by rw [hmoves, hmoves']
      _ = s.go a g'' fun _ => w'' := by
        rw [Activity.go, Activity.go, Activity.go, Function.update_idem]

/-- An agent that goes on takes a single move. -/
theorem protocol_of_goes (m : Move)
    (h : ∀ s : Activity, s.world = w → s.stages a = g → ∃ f, s.Goes a m g' f ∧ f w = w') :
    protocol a g w g' w' := by
  rintro s hw hg -
  obtain ⟨f, hgoes, hf⟩ := h s hw hg
  refine ⟨[m], ?_⟩
  show s.step m = _
  rw [hgoes.step_eq, Activity.go, Activity.go, hw, hf]

/-- Incidental changes are moves of any agent. -/
theorem protocol_of_incidental (hw : Incidental w w') : protocol a g w g w' := by
  classical
  intro s hs hg _
  -- An aside is incidental in every world, so it does its change in this one only.
  let aside : Aside := ⟨fun v => if v = w then w' else v, fun v => by
    split
    · rename_i hv
      exact hv ▸ hw
    · exact .refl v⟩
  refine ⟨[.work aside], ?_⟩
  have hrun : aside.run s.world = w' := if_pos hs
  show ({ s with world := aside.run s.world } : Activity) = _
  rw [hrun, Activity.go, ← hg, Function.update_eq_self]

section

variable {α : Type} {Q : Stage → α → Prop}

theorem heeds_get_bind {f : World → Act α} (h : (f w).Heeds (protocol a) Q g w) :
    (getThe World >>= f).Heeds (protocol a) Q g w := ⟨g, (isChained_protocol a).refl g w, h⟩

theorem heeds_modify_bind {f : World → World} {k : Unit → Act α} (hstep : protocol a g w g' (f w))
    (h : (k ()).Heeds (protocol a) Q g' (f w)) :
    (modifyThe World f >>= k).Heeds (protocol a) Q g w :=
  ⟨g, (isChained_protocol a).refl g w, g', hstep, h⟩

theorem heeds_set_bind {k : Unit → Act α} (hstep : protocol a g w g' w')
    (h : (k ()).Heeds (protocol a) Q g' w') : (set w' >>= k).Heeds (protocol a) Q g w :=
  ⟨g', hstep, h⟩

end

/-- A harmless beginning leaves the agent in its stage. -/
theorem Harmless.andThen {α β : Type} {t : Act α} {f : α → Act β} {Q : Stage → β → Prop}
    (h : Harmless t) (hf : ∀ x w, (f x).Heeds (protocol a) Q g w) (w : World) :
    (t >>= f).Heeds (protocol a) Q g w := by
  refine Thread.Heeds.bind (h.heeds (fun _ _ => protocol_of_incidental) w) ?_
  rintro _ x w rfl
  exact hf x w

/-- A harmless thread ends in the stage it begins in. -/
theorem Harmless.ends {α : Type} {t : Act α} {Q : Stage → α → Prop} (h : Harmless t)
    (hQ : ∀ x, Q g x) (w : World) : t.Heeds (protocol a) Q g w := by
  have hheeds : t.Heeds (protocol a) (fun g' _ => g' = g) g w :=
    h.heeds (fun _ _ => protocol_of_incidental) w
  refine hheeds.mono (fun d e => d = e) ?_ ?_ rfl
  · rintro _ w g' w' _ rfl hstep
    exact ⟨g', rfl, hstep⟩
  · rintro _ x _ rfl rfl
    exact hQ x

/-- An agent that has worked in a context publishes it. -/
theorem protocol_publish (a : Agent) (i : Nat) (w : World) :
    protocol a (.working i) w .resting (w.publish (w.context i).snapshot) := by
  have hlook : protocol a (.working i) w (.showing (w.context i).snapshot) w := by
    refine protocol_of_goes (.advance a) ?_
    rintro s rfl hg
    exact ⟨_, .looks i hg, rfl⟩
  have hpublish : protocol a (.showing (w.context i).snapshot) w .resting
      (w.publish (w.context i).snapshot) :=
    protocol_of_goes (.advance a) fun _ _ hg => ⟨_, .publishes _ hg, rfl⟩
  exact (isChained_protocol a).trans hlook hpublish

/-! ## Tasks -/

/-- A thread of an agent that has nothing under way at its end. -/
def Retires {α : Type} (a : Agent) (g : Stage) (t : Act α) : Prop :=
  ∀ w, t.Heeds (protocol a) (fun g' _ => g' = .resting) g w

namespace Retires

variable {α β : Type}

theorem bind {t : Act α} {f : α → Act β} (h : Retires a g t) (hf : ∀ x, Retires a .resting (f x)) :
    Retires a g (t >>= f) := by
  refine fun w => (h w).bind ?_
  rintro _ x w rfl
  exact hf x w

theorem of_harmless {t : Act α} (h : Harmless t) : Retires a .resting t := h.ends fun _ => rfl

theorem get_bind {f : World → Act α} (hf : ∀ w, Retires a g (f w)) :
    Retires a g (getThe World >>= f) :=
  fun w => heeds_get_bind (hf w w)

/-- A thread that publishes the context its agent has worked in and then does harmless things. -/
theorem refreshSnapshot_bind (i : Nat) {f : Unit → Act α} (hf : Harmless (f ())) :
    Retires a (.working i) (refreshSnapshot i >>= f) :=
  fun w => heeds_modify_bind (protocol_publish a i w) (of_harmless hf _)

end Retires

theorem retires_complete (a : Agent) (i id : Nat) : Retires a (.working i) (complete i id) :=
  (harmless_notifyEnded id).andThen fun _ =>
    Retires.refreshSnapshot_bind i (harmless_write .prompt)

theorem retires_evaluateTask (a : Agent) (id i : Nat) (script : String)
    (extra : List (String × Value)) :
    Retires a (.working i) (evaluateTask id i script extra) := by
  refine .get_bind fun w => (harmless_evaluateIn _ script _ extra).andThen fun result => ?_
  have hend : Retires a (.working i) (do
      complete i id
      return (.result (result.mapError .evaluation) : Outcome)) :=
    (retires_complete a i id).bind fun _ => .of_harmless (.pure _)
  cases result with
  | ok v =>
    dsimp only
    split
    · exact hend
    · exact (harmless_write _).andThen fun _ => hend
  | error f => exact (harmless_write _).andThen fun _ => hend

theorem retires_batchTask (a : Agent) (id i : Nat) (cases : List TestCase) (hasSummary : Bool) :
    Retires a (.working i) (batchTask id i cases hasSummary) := by
  have hend : ∀ run : TestRun, Retires a (.working i) (do
      modifyThe World fun w => { w with batches := (id, run) :: w.batches }
      complete i id
      return (.result (.ok .unit) : Outcome)) := by
    intro run
    refine Harmless.andThen (.modify fun _ => .of_eq rfl rfl rfl) fun _ => ?_
    exact (retires_complete a i id).bind fun _ => .of_harmless (.pure _)
  have hruns : ∀ report : TestRun → Act Unit, (∀ run, Harmless (report run)) →
      Retires a (.working i) (do
        let started ← Thread.now
        let results ← runCases id i hasSummary cases
        let run : TestRun := ⟨results, (← Thread.now) - started⟩
        report run
        modifyThe World fun w => { w with batches := (id, run) :: w.batches }
        complete i id
        return (.result (.ok .unit) : Outcome)) := by
    intro report hreport
    refine Harmless.now.andThen fun started => ?_
    refine (harmless_runCases id i hasSummary cases).andThen fun results => ?_
    exact Harmless.now.andThen fun now => (hreport _).andThen fun _ => hend _
  -- A summary adds entries on both sides of the tests, and nothing else.
  cases hasSummary with
  | true =>
    exact (harmless_write _).andThen fun _ => (harmless_write _).andThen fun _ =>
      hruns (fun run => run.summaryEntries.forM write) fun run => harmless_forM harmless_write _
  | false => exact hruns (fun _ => pure ()) fun _ => .pure _

/-! ## Rebuilds -/

theorem protocol_acquire (a : Agent) {w : World} (hfree : w.session.isRebuilding = false) :
    protocol a .awaiting w .building
      (w.alterSession fun c => { c with isRebuilding := true }) := by
  refine protocol_of_goes (.advance a) ?_
  rintro s rfl hg
  exact ⟨_, .locks hg hfree, rfl⟩

theorem protocol_number (a : Agent) (w : World) :
    protocol a .building w (.numbered (w.session.generation + 1))
      (w.alterSession fun c => { c with generation := w.session.generation + 1 }) := by
  refine protocol_of_goes (.advance a) ?_
  rintro s rfl hg
  exact ⟨_, .numbers hg, rfl⟩

theorem protocol_build (a : Agent) (generation : Nat) (loading : Context.LoadingScope)
    (bindings : Context.Bindings) (w : World) :
    protocol a (.numbered generation) w (.built w.contexts.length)
      (w.addContext (.new generation loading bindings)).2 := by
  refine protocol_of_goes (.build a loading bindings) ?_
  rintro s rfl hg
  exact ⟨_, .builds generation loading bindings hg, rfl⟩

theorem protocol_start (a : Agent) (i : Nat) (w : World) :
    protocol a (.built i) w (.starting i)
      (w.alterSession fun c => { c with context := some i }) :=
  protocol_of_goes (.advance a) fun _ _ hg => ⟨_, .starts i hg, rfl⟩

theorem protocol_present (a : Agent) (i : Nat) (w : World) :
    protocol a (.starting i) w .closing (w.publish (w.context i).snapshot) := by
  have hlook : protocol a (.starting i) w (.presenting (w.context i).snapshot) w := by
    refine protocol_of_goes (.advance a) ?_
    rintro s rfl hg
    exact ⟨_, .looksAnew i hg, rfl⟩
  have hpresent : protocol a (.presenting (w.context i).snapshot) w .closing
      (w.publish (w.context i).snapshot) :=
    protocol_of_goes (.advance a) fun _ _ hg => ⟨_, .presents _ hg, rfl⟩
  exact (isChained_protocol a).trans hlook hpresent

/-- A rebuild that is over lets the next one begin, and so does one that has failed. -/
theorem protocol_close (a : Agent) (w : World) (hg : g = .building ∨ g = .closing) :
    protocol a g w .resting (w.alterSession fun c => { c with isRebuilding := false }) := by
  have hunlock : protocol a .closing w .resting
      (w.alterSession fun c => { c with isRebuilding := false }) :=
    protocol_of_goes (.advance a) fun _ _ hg => ⟨_, .unlocks hg, rfl⟩
  obtain rfl | rfl := hg
  · have hfail : protocol a .building w .closing w :=
      protocol_of_goes (.giveUp a) fun _ _ hg => ⟨_, .fails hg, rfl⟩
    exact (isChained_protocol a).trans hfail hunlock
  · exact hunlock

/-- Where a rebuild is once it has built a context or failed to. -/
def Built (g : Stage) : Except Failure Nat → Prop
  | .ok i => g = .built i
  | .error _ => g = .building

/-- Building makes a context with the next generation, or fails before that. -/
theorem heeds_build (a : Agent) (owner : Owner) (parent : Context.LoadingScope)
    (m : Artifact.Manifest) (bindings : Context.Bindings) (options : RebuildOptions) (w : World) :
    (build owner parent m bindings options).Heeds (protocol a) Built .building w := by
  have hend : ∀ scope w, (keepContext scope bindings).Heeds (protocol a) Built .building w :=
    fun scope w => heeds_get_bind (heeds_modify_bind (protocol_number a w) (heeds_get_bind
      (heeds_set_bind (protocol_build a _ scope bindings _) rfl)))
  refine heeds_get_bind ?_
  cases w.session.projectDir with
  | none => exact rfl
  | some project =>
    refine heeds_get_bind ?_
    dsimp only
    split
    · exact (harmless_withDependencies owner project m _).andThen (fun _ => hend _) w
    · exact hend _ w

theorem retires_rebuildNow (a : Agent) (id : Nat) : Retires a .awaiting (rebuildNow id) := by
  have hclose : ∀ (result : Except Failure Nat) (g : Stage), g = .building ∨ g = .closing →
      Retires a g (do
        modifyThe World (·.alterSession fun c => { c with isRebuilding := false })
        return result) := fun result g hg w =>
    heeds_modify_bind (protocol_close a w hg) rfl
  have hstart : ∀ i, Retires a (.built i) (do
      modifyThe World (·.alterSession fun c => { c with context := some i })
      banner.forM write
      runAutorun i
      refreshSnapshot i
      let result : Except Failure Nat := .ok ((← getThe World).context i).generation
      modifyThe World (·.alterSession fun c => { c with isRebuilding := false })
      return result) := by
    intro i w
    refine heeds_modify_bind (protocol_start a i w) ?_
    refine Harmless.andThen (harmless_forM harmless_write banner) (fun _ => ?_) _
    refine (harmless_runAutorun i).andThen fun _ w => ?_
    exact heeds_modify_bind (protocol_present a i w) (heeds_get_bind (hclose _ _ (.inr rfl) _))
  -- It begins with the lock, which is free: while another rebuild has it, this one waits.
  refine fun w => ⟨fun w hfree => ?_, nofun⟩
  rw [Bool.not_eq_true'] at hfree
  refine heeds_modify_bind (protocol_acquire a hfree) (heeds_get_bind ?_)
  refine (heeds_build a ..).bind fun g built w hg => ?_
  cases built with
  | error e => exact hclose _ _ (.inl hg) w
  | ok i =>
    obtain rfl : g = .built i := hg
    exact hstart i w

/-- Whatever the work of a task is, its agent goes from where the work begins to where nothing is
under way. -/
theorem retires_perform (a : Agent) (id : Nat) (work : Work) :
    Retires a work.stage (perform id work) := by
  cases work with
  | planned plan => exact .of_harmless (harmless_planTask id plan)
  | evaluate i script extra => exact retires_evaluateTask a id i script extra
  | batch i cases hasSummary => exact retires_batchTask a id i cases hasSummary
  | rebuild => exact (retires_rebuildNow a id).bind fun _ => .of_harmless (.pure _)

/-! ## Variables -/

/-- A thread that changes a variable takes the current context. -/
theorem protocol_edit (t : Nat) {i : Nat} {w : World} (hi : w.session.context = some i) :
    protocol (.caller t) .resting w (.working i) w := by
  rintro s rfl hg hcalls
  refine ⟨[.edit t], ?_⟩
  show s.step (.edit t) = _
  rw [step, Activity.onCurrent, hi]
  dsimp only
  rw [Activity.begin, hg, hcalls t rfl]
  rfl

/-- A thread that gives up to change a variable publishes nothing. -/
theorem protocol_giveUp (t i : Nat) (w : World) :
    protocol (.caller t) (.working i) w .resting w :=
  protocol_of_goes (.giveUp (.caller t)) fun _ _ hg => ⟨_, .givesUp i hg rfl, rfl⟩

theorem withContext_eq {α : Type} (f : Nat → Act (Except Failure α)) :
    withContext f = getThe World >>= fun w =>
      match w.session.context with
      | some i => f i
      | none => return .error .engineNotReady := by
  refine congrArg Thread.get (funext fun w => ?_)
  show Thread.bind (Thread.bind (.done w) _) _ = Thread.bind (.done w) _
  cases hcontext : w.session.context <;> simp only [Thread.bind, hcontext] <;> rfl

theorem retires_withContext {α : Type} (t : Nat) {f : Nat → Act (Except Failure α)}
    (hf : ∀ i, Retires (.caller t) (.working i) (f i)) :
    Retires (.caller t) .resting (withContext f) := by
  intro w
  rw [withContext_eq]
  cases hi : w.session.context with
  | none =>
    refine heeds_get_bind ?_
    rw [hi]
    exact rfl
  | some i =>
    refine ⟨.working i, protocol_edit t hi, ?_⟩
    show Thread.Heeds _ _ (match w.session.context with
      | some i => f i
      | none => return .error .engineNotReady) _ w
    rw [hi]
    exact hf i w

/-- A thread that sets a variable takes the current context, and publishes it at the end. -/
theorem retires_addVariable (t : Nat) (name : String) (v : Value) :
    Retires (.caller t) .resting (addVariable name v) :=
  retires_withContext t fun i =>
    (harmless_setVariable i name v).andThen fun _ => Retires.refreshSnapshot_bind i (.pure _)

/-- Where a thread is once it has removed a variable or could not have the variables. -/
def Removed (i : Nat) (g : Stage) : Except Evaluation.Fault (Option Value) → Prop
  | .ok _ => g = .working i
  | .error _ => g = .resting

theorem heeds_removeVariable (t i : Nat) (name : String) (w : World) :
    (removeVariable i name).Heeds (protocol (.caller t)) (Removed i) (.working i) w := by
  refine (Harmless.awaitFor _ _).andThen (fun isFree w => ?_) w
  cases isFree with
  | true =>
    exact heeds_get_bind (heeds_modify_bind
      (protocol_of_incidental (w.incidental_alterContext i rfl)) rfl)
  | false => exact ⟨.resting, protocol_giveUp t i w, rfl⟩

/-- A thread that removes a variable does so too, unless it cannot have the variables. -/
theorem retires_dropVariable (t : Nat) (name : String) :
    Retires (.caller t) .resting (dropVariable name) := by
  refine retires_withContext t fun i w => ?_
  refine (heeds_removeVariable t i name w).bind fun g result w hg => ?_
  cases result with
  | error f => exact hg
  | ok v =>
    obtain rfl : g = .working i := hg
    exact Retires.refreshSnapshot_bind i (.pure _) w

/-! ## Turns -/

/-- An agent's thread between two turns. -/
def Continues {α : Type} (a : Agent) (g : Stage) (m : Member World Job α) : Prop :=
  m.Heeds (protocol a) (fun g' _ => g' = .resting) g

/-- The work of a task that has just been started. -/
theorem continues_perform (a : Agent) (id : Nat) (work : Work) :
    Continues a work.stage (.active (perform id work)) := retires_perform a id work

/-- A turn of an agent's thread is a list of moves that take the agent to another stage. -/
theorem Continues.moves_of_turn {α : Type} {m : Member World Job α} (hm : Continues a g m)
    (s : Activity) (hg : s.stages a = g) (hcalls : ∀ t, a = .caller t → s.calls t = .none)
    {now : Nat} {t : Act α} (hwake : Pool.wake now s.world m = some t) :
    ∃ g' moves, runFrom step s moves = s.go a g' (fun _ => (Pool.drive now t s.world []).1) ∧
      Continues a g' (Pool.drive now t s.world []).2.1 := by
  obtain ⟨g', hmoves, hnext⟩ := Member.Heeds.turn (isChained_protocol a) hm hwake
  obtain ⟨moves, hrun⟩ := hmoves s rfl hg hcalls
  exact ⟨g', moves, hrun, hnext⟩

/-! ## Submissions -/

/-- A turn of a submitting thread changes the admission and starts the task that is admitted. -/
theorem drive_turn (sub : Submission) (now n : Nat) (fromQueue : Bool) (w : World) :
    (Pool.drive now (submitWith sub (n + 2) fromQueue) w []).1 =
        { w with admission := (w.admission.turn sub.ticket fromQueue true).2 } ∧
      ∀ job ∈ (Pool.drive now (submitWith sub (n + 2) fromQueue) w []).2.2,
        ∃ id, (w.admission.turn sub.ticket fromQueue true).1 = .admitted id ∧
          job = .task id sub.work := by
  rw [drive_submitWith]
  cases hturn : w.admission.turn sub.ticket fromQueue true with
  | mk reply a =>
  cases reply with
  | admitted id => exact ⟨rfl, fun job hjob => ⟨id, rfl, List.mem_singleton.mp hjob⟩⟩
  | behind id =>
    have hbehind : (w.admission.turn sub.ticket fromQueue true).1 = .behind id := by rw [hturn]
    -- Whom it has to wait for blocks it at once, so the first turn ends there.
    have hblocked : a.isBlocked id = true := by
      simpa only [hturn] using Task.Admission.isBlocked_turn hbehind
    dsimp only
    rw [drive_waitBehind_of_isBlocked sub now [] n (n + 1) hblocked]
    exact ⟨rfl, fun job hjob => absurd hjob List.not_mem_nil⟩
  | refused => exact ⟨rfl, fun job hjob => absurd hjob List.not_mem_nil⟩
  | unstarted => exact ⟨rfl, fun job hjob => absurd hjob List.not_mem_nil⟩

/-- The first turn of a submitting thread is a move, and where it starts a task, the task's agent is
where its work begins. -/
theorem submit_moves (s : Activity) {t : Nat} {sub : Submission}
    (hsub : s.stages (.caller t) = .submitting sub) (hcalls : s.calls t = .none) (now : Nat) :
    (Pool.drive now (submit sub) s.world []).1 = (s.step (.turn t true)).world ∧
      ∀ job ∈ (Pool.drive now (submit sub) s.world []).2.2, ∃ id,
        job = .task id sub.work ∧ (s.step (.turn t true)).stages (.task id) = sub.work.stage := by
  obtain ⟨n, hn⟩ : ∃ n, turns = n + 2 := Nat.exists_eq_add_of_le' (by decide)
  have hevent : s.submitEvent t sub true = .submit t sub.ticket true := if_pos hcalls
  have hadmission : (s.atAdmission (.submit t sub.ticket true)).world.admission =
      (s.world.admission.turn sub.ticket false true).2 := by
    show (s.traffic.step (.submit t sub.ticket true)).admission = _
    rw [Task.Traffic.step, if_pos (show s.traffic.calls t = .none from hcalls)]
    rfl
  obtain ⟨hworld, hjobs⟩ := drive_turn sub now n false s.world
  rw [submit, hn, step, Activity.takeTurn, hsub]
  dsimp only
  rw [hevent]
  refine ⟨?_, fun job hjob => ?_⟩
  · -- Only the admission has changed: which stage comes next makes no difference to the world.
    rw [hworld, ← hadmission]
    split
    · rfl
    · split <;> rfl
  · obtain ⟨id, hadmitted, rfl⟩ := hjobs job hjob
    have hid : id = s.world.admission.nextId ∧
        (s.world.admission.turn sub.ticket false true).2.current =
          some s.world.admission.nextId := by
      obtain ⟨-, hturn⟩ | ⟨j, -, -, hturn⟩ | ⟨j, -, -, -, hturn⟩ | ⟨j, -, -, -, hturn⟩ :=
        s.world.admission.turn_cases sub.ticket false true <;> rw [hturn] at hadmitted ⊢
      · cases hadmitted
        exact ⟨rfl, rfl⟩
      all_goals cases hadmitted
    obtain ⟨rfl, hcurrent⟩ := hid
    refine ⟨_, rfl, ?_⟩
    rw [if_pos (hadmission ▸ hcurrent)]
    -- The agent of the new task is another one than the caller, so its stage is the one it has been
    -- given.
    have hne : Agent.task s.world.admission.nextId ≠ .caller t := by simp
    rw [Activity.stages_go_of_ne hne, Activity.stages_go_self]

/-- A thread that submits a script takes the current context for it. -/
theorem evaluateAsync_moves (s : Activity) {t i : Nat} (hi : s.world.session.context = some i)
    (ht : s.stages (.caller t) = .resting) (hcalls : s.calls t = .none) (now : Nat)
    (script title : String) (listener : Option Listener) (extra : List (String × Value)) :
    let next := (s.step (.evaluateAsync t script title listener extra)).step (.turn t true)
    let turn := Pool.drive now (evaluateAsync script title listener extra) s.world []
    turn.1 = next.world ∧ ∀ job ∈ turn.2.2, ∃ id,
      job = .task id (.evaluate i script extra) ∧ next.stages (.task id) = .working i := by
  -- To take the context and to submit are one step each here, and one program there.
  have hbegin : s.step (.evaluateAsync t script title listener extra) =
      s.go (.caller t) (.submitting ⟨title, false, listener, .evaluate i script extra⟩) id := by
    rw [step, Activity.onCurrent, hi]
    dsimp only
    rw [Activity.begin, ht, hcalls]
    rfl
  have hdrive : Pool.drive now (evaluateAsync script title listener extra) s.world [] =
      Pool.drive now (submit ⟨title, false, listener, .evaluate i script extra⟩) s.world [] := by
    rw [evaluateAsync, withContext_eq]
    show Pool.drive now (match s.world.session.context with
      | some i => submit ⟨title, false, listener, .evaluate i script extra⟩
      | none => return .error .engineNotReady) s.world [] = _
    rw [hi]
  dsimp only
  rw [hbegin, hdrive]
  exact submit_moves (s.go (.caller t) _ id) (Activity.stages_go_self ..) hcalls now

end Session
end ScriptSession
