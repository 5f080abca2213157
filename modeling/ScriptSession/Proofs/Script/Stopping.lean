import ScriptSession.Script.Evaluate

/-!
# Scripts that are told to stop

A script asks from time to time whether it may go on, and a sleep tells it whether it was cut
short. Either way it can be told to stop, and then it does nothing any more: it asks no further
question and ends with the fault of a terminated script (`Run.Heeds`). No handler of the script
sees that fault, and it passes out of functions as it is. All scripts and modules are so
(`heeds_run`, `heeds_runModule`), since everything evaluation is made of is.
-/

namespace ScriptSession
namespace Script

/-! ## Runs -/

/-- The reply that tells a script to stop, if there is one. -/
def Request.stop? : (q : Request) → Option q.Reply
  | .proceed => some false
  | .sleep _ => some true
  | .print _ | .complain _ | .readText _ | .load _ _ => none

/-- The fault of a script that was told to stop. -/
def Fault.IsInterruption (f : Fault) : Prop := ∃ p, f = .terminated (.text "interrupted") p

namespace Run

variable {α β : Type} {S : α → Prop} {P : β → Prop}

/-- The run is over, with a result that is as required. -/
def EndsIn (S : α → Prop) (run : Run α) : Prop := ∃ a, run = .done a ∧ S a

/-- Whenever the run is told to stop it is over, with a result that is as required. -/
def Heeds (S : α → Prop) : Run α → Prop
  | .done _ => True
  | .ask q k => (∀ x, q.stop? = some x → (k x).EndsIn S) ∧ ∀ x, (k x).Heeds S

/-- The run comes to another one, with some replies to its questions. -/
inductive Reaches : Run α → Run α → Prop
  | here (run : Run α) : Reaches run run
  | later {q : Request} {k : q.Reply → Run α} {run : Run α} (x : q.Reply)
    (h : Reaches (k x) run) : Reaches (.ask q k) run

theorem Heeds.of_reaches {run run' : Run α} (h : run.Heeds S) (hreaches : run.Reaches run') :
    run'.Heeds S := by
  induction hreaches with
  | here => exact h
  | later x _ ih => exact ih (h.2 x)

theorem Heeds.bind {run : Run α} {f : α → Run β} (h : run.Heeds S) (hf : ∀ a, (f a).Heeds P)
    (hstop : ∀ a, S a → (f a).EndsIn P) : (run >>= f).Heeds P := by
  show (run.bind f).Heeds P
  induction run with
  | done a => exact hf a
  | ask q k ih =>
    refine ⟨fun x hx => ?_, fun x => ih x (h.2 x)⟩
    obtain ⟨a, hk, ha⟩ := h.1 x hx
    show ((k x).bind f).EndsIn P
    rw [hk]
    exact hstop a ha

end Run

/-! ## Computations -/

namespace Eval

variable {α β : Type}

/-- The computation has stopped with the fault of a script that was told to. -/
def IsStopped (out : Except Stop α × Machine) : Prop :=
  ∃ f : Fault, out.1 = .error (.fault f) ∧ f.IsInterruption

/-- The computation asks nothing and stops with the fault of a script that was told to. -/
def Halts (x : Eval α) : Prop := ∀ setting machine, Run.EndsIn IsStopped (x setting machine)

/-- Whenever the computation is told to stop it does. -/
def Heeds (x : Eval α) : Prop := ∀ setting machine, Run.Heeds IsStopped (x setting machine)

theorem heeds_pure (a : α) : (pure a : Eval α).Heeds := fun _ _ => trivial

theorem heeds_throw (s : Stop) : (throw s : Eval α).Heeds := fun _ _ => trivial

theorem heeds_fault (f : Fault) : (fault f : Eval α).Heeds := fun _ _ => trivial

theorem heeds_get : (get : Eval Machine).Heeds := fun _ _ => trivial

theorem heeds_set (m : Machine) : (set m : Eval PUnit).Heeds := fun _ _ => trivial

theorem heeds_modify (f : Machine → Machine) : (modify f : Eval PUnit).Heeds := fun _ _ => trivial

theorem heeds_read : (read : Eval Setting).Heeds := fun _ _ => trivial

theorem heeds_request {q : Request} (hq : q.stop? = none) : (request q).Heeds :=
  fun _ _ => ⟨fun _ hx => (nomatch hq.symm.trans hx), fun _ => trivial⟩

theorem heeds_ofExcept (r : Except Fault α) : (ofExcept r).Heeds := by
  cases r with
  | ok a => exact heeds_pure a
  | error f => exact heeds_fault f

theorem heeds_withReader (g : Setting → Setting) {x : Eval α} (hx : x.Heeds) :
    (withReader g x : Eval α).Heeds := fun s m => hx (g s) m

theorem halts_fault {f : Fault} (hf : f.IsInterruption) : (fault f : Eval α).Halts :=
  fun _ _ => ⟨_, rfl, f, rfl, hf⟩

theorem halts_throw {f : Fault} (hf : f.IsInterruption) : (throw (.fault f) : Eval α).Halts :=
  fun _ _ => ⟨_, rfl, f, rfl, hf⟩

theorem halts_modify_bind {g : Machine → Machine} {f : PUnit → Eval α} (hf : (f ⟨⟩).Halts) :
    (modify g >>= f).Halts := fun s m => hf s (g m)

theorem heeds_bind {x : Eval α} {f : α → Eval β} (hx : x.Heeds) (hf : ∀ a, (f a).Heeds) :
    (x >>= f).Heeds := by
  intro s m
  refine Run.Heeds.bind (hx s m) ?_ ?_
  · rintro ⟨a | e, m'⟩
    · trivial
    · exact hf _ s m'
  · rintro ⟨_, m'⟩ ⟨f, rfl, hf⟩
    exact ⟨_, rfl, f, rfl, hf⟩

/-- A question that may tell the computation to stop, after which it does. -/
theorem heeds_request_bind {q : Request} {f : q.Reply → Eval α}
    (hstop : ∀ x, q.stop? = some x → (f x).Halts) (hf : ∀ x, (f x).Heeds) :
    (request q >>= f).Heeds := fun s m => ⟨fun x hx => hstop x hx s m, fun x => hf x s m⟩

/-- A computation whose outcome is looked at, by something that stops with the computation. -/
theorem heeds_attempt_bind {x : Eval α} {f : Except Stop α → Eval β} (hx : x.Heeds)
    (hf : ∀ o, (f o).Heeds)
    (hstop : ∀ g : Fault, g.IsInterruption → (f (.error (.fault g))).Halts) :
    (attempt x >>= f).Heeds := by
  intro s m
  have hattempt : Run.Heeds (fun out : Except Stop (Except Stop α) × Machine =>
      ∃ g : Fault, out.1 = .ok (.error (.fault g)) ∧ g.IsInterruption) (attempt x s m) :=
    Run.Heeds.bind (hx s m) (fun _ => trivial) fun
      | ⟨_, m'⟩, ⟨g, rfl, hg⟩ => ⟨_, rfl, g, rfl, hg⟩
  refine Run.Heeds.bind hattempt ?_ ?_
  · rintro ⟨o | e, m'⟩
    · trivial
    · exact hf _ s m'
  · rintro ⟨_, m'⟩ ⟨g, rfl, hg⟩
    exact hstop g hg s m'

theorem heeds_ite {c : Prop} [Decidable c] {x y : Eval α} (hx : x.Heeds) (hy : y.Heeds) :
    (if c then x else y).Heeds := by
  split
  · exact hx
  · exact hy

/-- A check in front of a computation. -/
theorem heeds_guard {c : Prop} [Decidable c] {f : Fault} {y : Eval α} (hy : y.Heeds) :
    (if c then (fault f : Eval PUnit) >>= fun _ => y else y).Heeds :=
  heeds_ite (heeds_bind (heeds_fault _) fun _ => hy) hy

theorem heeds_mapM {γ : Type} {f : γ → Eval α} {cs : List γ} (hf : ∀ c ∈ cs, (f c).Heeds) :
    (cs.mapM f).Heeds := by
  have hloop : ∀ (cs : List γ) (done : List α), (∀ c ∈ cs, (f c).Heeds) →
      (List.mapM.loop f cs done).Heeds := by
    intro cs
    induction cs with
    | nil => exact fun done _ => heeds_pure _
    | cons c rest ih =>
      intro done hf
      exact heeds_bind (hf c List.mem_cons_self) fun a =>
        ih _ fun c' hc' => hf c' (List.mem_cons_of_mem c hc')
  exact hloop cs [] hf

theorem heeds_count (p : Position) : (count p).Heeds := by
  rw [count]
  refine heeds_bind (heeds_modify _) fun _ => heeds_bind heeds_get fun m => ?_
  split
  · refine heeds_request_bind ?_ ?_
    · rintro _ ⟨⟩
      exact halts_fault ⟨_, rfl⟩
    · intro goesOn
      split
      · exact heeds_pure _
      · exact heeds_fault _
  · exact heeds_pure _

theorem heeds_inBlock {x : Eval α} (hx : x.Heeds) : (inBlock x).Heeds := by
  refine heeds_bind heeds_get fun before => heeds_bind (heeds_set _) fun _ => ?_
  refine heeds_attempt_bind hx ?_ ?_
  · intro o
    refine heeds_bind (heeds_modify _) fun _ => ?_
    split
    · exact heeds_pure _
    · exact heeds_throw _
  · exact fun g hg => halts_modify_bind (halts_throw hg)

end Eval

open Eval

theorem heeds_callHost (name : String) (args : List Value) (p : Position) :
    (callHost name args p).Heeds := by
  unfold callHost
  split
  · exact heeds_bind (heeds_request rfl) fun _ => heeds_pure _
  · exact heeds_bind (heeds_request rfl) fun _ => heeds_pure _
  · exact heeds_bind heeds_read fun _ => heeds_bind (heeds_request rfl) fun _ => heeds_pure _
  · exact heeds_bind heeds_read fun _ => heeds_bind (heeds_request rfl) fun _ => heeds_pure _
  · exact heeds_bind (heeds_request rfl) fun _ => heeds_pure _
  · -- The answer to a sleep says whether it was interrupted.
    refine heeds_request_bind ?_ fun interrupted => ?_
    · rintro _ ⟨⟩
      exact halts_fault ⟨_, rfl⟩
    · split
      · exact heeds_fault _
      · exact heeds_pure _
  · refine heeds_bind (heeds_request rfl) fun text => ?_
    split
    · exact heeds_pure _
    · exact heeds_fault _
  · exact heeds_pure _
  · split
    · exact heeds_pure _
    · exact heeds_ofExcept _
  · exact heeds_pure _
  · exact heeds_ofExcept _

namespace Phrase

theorem heeds_nameValue (path : Qualifier) (name : String) (p : Position) :
    (nameValue path name p).Heeds := by
  unfold nameValue
  split
  · refine heeds_bind heeds_get fun m => ?_
    split
    · exact heeds_pure _
    · exact heeds_fault _
  · refine heeds_bind heeds_get fun m => heeds_bind (heeds_ofExcept _) fun found => ?_
    split
    · exact heeds_fault _
    · split
      · exact heeds_pure _
      · exact heeds_fault _

theorem heeds_target (name : String) (p : Position) : (target name p).Heeds := by
  refine heeds_bind heeds_get fun m => ?_
  split
  · exact heeds_fault _
  · exact heeds_ite (heeds_fault _) (heeds_pure _)

section

variable {self : Self} (hself : ∀ phrase, (self phrase).Heeds)
include hself

theorem heeds_optional (e : Option Expr) : (optional self e).Heeds := by
  cases e with
  | none => exact heeds_pure _
  | some e => exact hself _

theorem heeds_values (es : List Expr) : (values self es).Heeds := heeds_mapM fun _ _ => hself _

theorem heeds_condition (e : Expr) : (condition self e).Heeds := by
  refine heeds_bind (hself _) fun v => ?_
  split
  · exact heeds_pure _
  · exact heeds_fault _

/-! ### Calls -/

theorem heeds_callNamed (name : String) (args : List Value) (p : Position) :
    (callNamed self name args p).Heeds := by
  refine heeds_bind heeds_read fun setting => ?_
  split
  · exact heeds_bind (hself _) fun _ => heeds_pure _
  · exact heeds_callHost name args p

theorem heeds_callQualified (path : Qualifier) (name : String) (args : List Value)
    (p : Position) : (callQualified self path name args p).Heeds := by
  refine heeds_bind heeds_get fun m => heeds_bind (heeds_ofExcept _) fun found => ?_
  split
  · exact heeds_fault _
  · split
    · exact hself _
    · exact heeds_fault _

theorem heeds_callOnVariable (name variable_ : String) (args : List Value) (p : Position) :
    (callOnVariable self name variable_ args p).Heeds := by
  refine heeds_bind heeds_get fun m => heeds_guard ?_
  refine heeds_bind (heeds_callNamed hself name args p) fun found => ?_
  obtain ⟨v, changed⟩ := found
  cases changed with
  | none => exact heeds_pure _
  | some c => exact heeds_bind (heeds_modify _) fun _ => heeds_pure _

/-- The fault of a script that was told to stop passes out of a function as it is, at the place of
the call. -/
theorem heeds_callBody (f : Function) (home : Option Module) (args : List Value) (p : Position) :
    (callBody self f home args p).Heeds := by
  refine heeds_bind heeds_read fun setting => heeds_guard ?_
  refine heeds_bind heeds_get fun before => heeds_bind (heeds_set _) fun _ => ?_
  refine heeds_attempt_bind (heeds_withReader _ (hself _)) ?_ ?_
  · intro outcome
    refine heeds_bind (heeds_modify _) fun _ => ?_
    split
    · exact heeds_pure _
    · exact heeds_pure _
    · exact heeds_ite (heeds_fault _) (heeds_fault _)
    · exact heeds_throw _
  · rintro _ ⟨q, rfl⟩
    exact halts_modify_bind (halts_fault ⟨_, rfl⟩)

/-! ### Chains -/

theorem heeds_steps (links : List Link) : (steps self links).Heeds := by
  refine heeds_mapM fun link _ => ?_
  cases link with
  | index key p => exact heeds_bind (hself _) fun _ => heeds_pure _
  | field name p => exact heeds_pure _
  | method name args p => exact heeds_bind (heeds_values hself args) fun _ => heeds_pure _

theorem heeds_follow (isConstant : Bool) (v : Value) (steps : List Step) :
    (follow self isConstant v steps).Heeds := by
  induction steps generalizing isConstant v with
  | nil => exact heeds_pure _
  | cons step rest ih =>
    cases step with
    -- A part is looked up, followed, and put back if it has changed.
    | index key p start =>
      refine heeds_bind (heeds_ofExcept _) fun part =>
        heeds_bind (ih _ _) fun found => ?_
      obtain ⟨result, changed⟩ := found
      cases changed with
      | none => exact heeds_pure _
      | some c => exact heeds_bind (heeds_ofExcept _) fun _ => heeds_pure _
    | field name p =>
      refine heeds_bind (heeds_ofExcept _) fun part =>
        heeds_bind (ih _ _) fun found => ?_
      obtain ⟨result, changed⟩ := found
      cases changed with
      | none => exact heeds_pure _
      | some c => exact heeds_bind (heeds_ofExcept _) fun _ => heeds_pure _
    | method name args p =>
      have hrest (found : Value × Option Value) : Eval.Heeds (do
          let next ← follow self false found.1 rest
          pure (next.1, found.2)) := heeds_bind (ih _ _) fun _ => heeds_pure _
      refine heeds_guard (heeds_bind heeds_read fun setting => ?_)
      split
      · exact heeds_bind (hself _) fun _ => heeds_bind (heeds_pure _) fun found => hrest found
      · exact heeds_bind (heeds_callHost _ _ _) fun found => hrest found

/-! ### Expressions -/

theorem heeds_stepExpr (e : Expr) : (stepExpr self e).Heeds := by
  -- One case for each expression, in their order in the definition.
  refine heeds_bind (heeds_count _) fun _ => ?_
  split
  · exact heeds_pure _
  · exact heeds_bind (heeds_values hself _) fun _ => heeds_pure _
  · exact heeds_bind (heeds_values hself _) fun _ => heeds_pure _
  · refine heeds_bind (heeds_mapM fun field _ => ?_) fun _ => heeds_pure _
    exact heeds_bind (hself _) fun _ => heeds_pure _
  · exact heeds_nameValue _ _ _
  · exact heeds_bind (heeds_nameValue _ _ _) fun _ => heeds_bind (heeds_values hself _) fun _ =>
      heeds_callOnVariable hself _ _ _ _
  · exact heeds_bind (heeds_values hself _) fun _ => heeds_bind (heeds_callNamed hself _ _ _)
      fun _ => heeds_pure _
  · exact heeds_bind (heeds_values hself _) fun _ => heeds_callQualified hself _ _ _ _
  · exact heeds_bind (hself _) fun _ => heeds_ofExcept _
  · exact heeds_bind (hself _) fun _ => heeds_bind (hself _) fun _ => heeds_ofExcept _
  · refine heeds_bind (heeds_condition hself _) fun _ => heeds_ite ?_ (heeds_pure _)
    exact heeds_bind (heeds_condition hself _) fun _ => heeds_pure _
  · refine heeds_bind (heeds_condition hself _) fun _ => heeds_ite (heeds_pure _) ?_
    exact heeds_bind (heeds_condition hself _) fun _ => heeds_pure _
  · refine heeds_bind (heeds_steps hself _) fun _ => heeds_bind (heeds_nameValue _ _ _) fun _ =>
      heeds_bind heeds_get fun m => heeds_bind (heeds_follow hself _ _ _) fun found => ?_
    obtain ⟨v, changed⟩ := found
    cases changed with
    | none => exact heeds_pure _
    | some c => exact heeds_bind (heeds_modify _) fun _ => heeds_pure _
  · exact heeds_bind (heeds_steps hself _) fun _ => heeds_bind (hself _) fun _ =>
      heeds_bind (heeds_follow hself _ _ _) fun _ => heeds_pure _
  · exact heeds_inBlock (hself _)

/-! ### Statements -/

theorem heeds_assign (op : Option String) (e : Expr) (v : Value) (p : Position) :
    (assign self op e v p).Heeds := by
  unfold assign
  dsimp only
  split
  · exact heeds_bind (heeds_target _ _) fun _ => heeds_bind (heeds_ofExcept _) fun _ =>
      heeds_modify _
  · exact heeds_bind (heeds_steps hself _) fun _ => heeds_bind (heeds_target _ _) fun _ =>
      heeds_bind (heeds_ofExcept _) fun _ => heeds_modify _
  · exact heeds_bind (heeds_nameValue _ _ _) fun _ => heeds_fault _
  · exact heeds_pure _

theorem heeds_handle (f : Fault) (name : Option String) (handler : List Stmt) :
    (handle self f name handler).Heeds := by
  refine heeds_bind heeds_read fun setting => heeds_attempt_bind (heeds_inBlock ?_) ?_ ?_
  · cases name with
    | none => exact heeds_inBlock (hself _)
    | some n => exact heeds_bind (heeds_modify _) fun _ => heeds_inBlock (hself _)
  · intro outcome
    split
    · exact heeds_pure _
    · exact heeds_fault _
    · exact heeds_throw _
  · rintro _ ⟨q, rfl⟩
    exact halts_throw ⟨q, rfl⟩

theorem heeds_stepStmt (s : Stmt) : (stepStmt self s).Heeds := by
  cases s with
  | expr e => exact hself _
  | declare name v isConstant isExported p =>
    exact heeds_bind (heeds_count _) fun _ => heeds_bind (heeds_optional hself _) fun _ =>
      heeds_bind (heeds_modify _) fun _ => heeds_pure _
  | assign op e v p =>
    exact heeds_bind (heeds_count _) fun _ => heeds_bind (hself _) fun _ =>
      heeds_bind (heeds_assign hself _ _ _ _) fun _ => heeds_pure _
  | block stmts p => exact heeds_bind (heeds_count _) fun _ => heeds_inBlock (hself _)
  | branch test yes no p =>
    exact heeds_bind (heeds_count _) fun _ => heeds_bind (heeds_condition hself _) fun _ =>
      heeds_inBlock (hself _)
  | whilst test stmts q p => exact heeds_bind (heeds_count _) fun _ => hself _
  | each name counter source stmts q p =>
    exact heeds_bind (heeds_count _) fun _ => heeds_bind (hself _) fun _ =>
      heeds_bind (heeds_ofExcept _) fun _ => heeds_inBlock (hself _)
  | leave v p =>
    exact heeds_bind (heeds_count _) fun _ => heeds_bind (heeds_optional hself _) fun _ =>
      heeds_throw _
  | skip p => exact heeds_bind (heeds_count _) fun _ => heeds_throw _
  | ret v p =>
    exact heeds_bind (heeds_count _) fun _ => heeds_bind (heeds_optional hself _) fun _ =>
      heeds_throw _
  | raise v p =>
    exact heeds_bind (heeds_count _) fun _ => heeds_bind (heeds_optional hself _) fun _ =>
      heeds_fault _
  | attempt stmts name handler p =>
    refine heeds_bind (heeds_count _) fun _ => heeds_attempt_bind (heeds_inBlock (hself _)) ?_ ?_
    · intro outcome
      split
      · exact heeds_pure _
      · exact heeds_ite (heeds_handle hself _ _ _) (heeds_fault _)
      · exact heeds_throw _
    · -- An interruption is no fault that the handler gets to see.
      rintro _ ⟨q, rfl⟩
      exact halts_fault ⟨q, rfl⟩
  | load path localName p =>
    refine heeds_bind (heeds_count _) fun _ => heeds_bind (hself _) fun v => ?_
    split
    · refine heeds_bind (heeds_request rfl) fun found => heeds_bind (heeds_ofExcept _) fun m => ?_
      cases localName with
      | none => exact heeds_pure _
      | some localName => exact heeds_bind (heeds_modify _) fun _ => heeds_pure _
    · exact heeds_fault _
  | share name localName p =>
    refine heeds_bind (heeds_count _) fun _ => heeds_bind heeds_get fun m => heeds_ite ?_ ?_
    · exact heeds_bind (heeds_modify _) fun _ => heeds_pure _
    · exact heeds_fault _

theorem heeds_inOrder (stmts : List Stmt) (v : Value) : (inOrder self stmts v).Heeds := by
  induction stmts generalizing v with
  | nil => exact heeds_pure _
  | cons s rest ih => exact heeds_bind (hself _) fun v => ih v

theorem heeds_loopBody (stmts : List Stmt) (bodyAt : Position) :
    (loopBody self stmts bodyAt).Heeds := by
  refine heeds_ite (heeds_bind (heeds_count _) fun _ => heeds_pure _) ?_
  refine heeds_attempt_bind (heeds_inBlock (hself _)) ?_ fun g hg => halts_throw hg
  intro outcome
  split
  · exact heeds_pure _
  · exact heeds_pure _
  · exact heeds_pure _
  · exact heeds_throw _

/-- One step of evaluation heeds if the steps it is made of do. -/
theorem heeds_step (phrase : Phrase) : (step self phrase).Heeds := by
  cases phrase with
  | expr e => exact heeds_stepExpr hself e
  | stmt s => exact heeds_stepStmt hself s
  | body stmts => exact heeds_inOrder hself stmts _
  | round test stmts q =>
    have hbody : (loopBody self stmts q).Heeds := heeds_loopBody hself stmts q
    cases test with
    | none =>
      refine heeds_bind (heeds_pure true) fun goesOn =>
        heeds_ite (heeds_bind hbody fun outcome => ?_) (heeds_pure _)
      split
      · exact heeds_pure _
      · exact hself _
    | some e =>
      refine heeds_bind (heeds_condition hself e) fun goesOn =>
        heeds_ite (heeds_bind hbody fun outcome => ?_) (heeds_pure _)
      split
      · exact heeds_pure _
      · exact hself _
  | items name counter rest i stmts q =>
    cases rest with
    | nil => exact heeds_pure _
    | cons v rest =>
      -- A round is the same with and without a counter, which is set in front of it.
      refine heeds_bind heeds_get fun before => ?_
      extract_lets turn
      have hturn : (turn ⟨⟩).Heeds := by
        refine heeds_bind (heeds_modify _) fun _ => heeds_bind (heeds_loopBody hself _ _)
          fun outcome => heeds_bind (heeds_modify _) fun _ => ?_
        split
        · exact heeds_pure _
        · exact hself _
      cases counter with
      | none => exact hturn
      | some c => exact heeds_bind (heeds_modify _) fun _ => hturn
  | call f home args p => exact heeds_callBody hself f home args p
  | script p source =>
    refine heeds_attempt_bind (heeds_withReader _ (hself _)) ?_ fun g hg => halts_throw hg
    intro outcome
    split
    · exact heeds_pure _
    · exact heeds_pure _
    · exact heeds_throw _

end

theorem heeds_evaluate (n : Nat) (phrase : Phrase) : (evaluate n phrase).Heeds := by
  induction n generalizing phrase with
  | zero => exact heeds_fault _
  | succ n ih => exact heeds_step ih phrase

end Phrase

/-! ## Scripts -/

theorem heeds_runProgram (p : Program) (source : String) (scope : Scope) :
    (runProgram p source scope).Heeds fun out => ∃ f, out.1 = .error f ∧ f.IsInterruption := by
  refine Run.Heeds.bind (Phrase.heeds_evaluate _ _ _ _) ?_ ?_
  · rintro ⟨outcome, after⟩
    dsimp only
    split
    · trivial
    · trivial
    · trivial
    · trivial
    · trivial
  · rintro ⟨_, after⟩ ⟨f, rfl, hf⟩
    exact ⟨_, rfl, f, rfl, hf⟩

/-- A script that is told to stop is over, and it ends with the fault of a terminated script. -/
theorem heeds_run (source : String) (scope : Scope) :
    (run source scope).Heeds fun out => ∃ f, out.1 = .error f ∧ f.IsInterruption := by
  unfold run
  split
  · trivial
  · refine (heeds_runProgram _ _ _).bind (fun _ => trivial) ?_
    rintro ⟨_, after⟩ ⟨f, rfl, hf⟩
    exact ⟨_, rfl, f, rfl, hf⟩

/-- A module file that is told to stop while it runs is over, and makes no module of itself. -/
theorem heeds_runModule (source file : String) :
    (runModule source file).Heeds fun out => ∃ f, out = .error f ∧ f.IsInterruption := by
  unfold runModule
  split
  · trivial
  · refine (heeds_runProgram _ _ _).bind (fun _ => trivial) ?_
    rintro ⟨_, after⟩ ⟨f, rfl, hf⟩
    exact ⟨_, rfl, f, rfl, hf⟩

end Script
end ScriptSession
