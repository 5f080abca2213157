import ScriptSession.Proofs.Concurrency.Endings
import ScriptSession.Proofs.Concurrency.Runs

/-!
# Calls

A thread that starts a job, waits for it and goes on with what the job has left behind, among others
that may change what is shared between the turns of the two, as a relation says. What a thread does
is told by a condition on where it begins: from there on something holds whenever the thread waits,
and something else when it ends, and if need be it does end (`Thread.Proceeds`). Main statements:
what a call comes to is what the job and then the calling thread come to (`Call.of_result`), and a
call can be brought to its end from wherever it is, if the two threads end (`Call.exists_result`).
-/

namespace ScriptSession
namespace Concurrency

variable {σ ι α β : Type} {R : σ → σ → Prop} {P : σ → Prop} {ends : Prop}

namespace Thread

/-- From `s` on `P` holds whenever the thread begins to wait, and `Q` when it ends, when others
change what is shared only as `R` says, and only while the thread waits. If it `ends` for certain,
it does not wait for ever. -/
def Proceeds (R : σ → σ → Prop) (P : σ → Prop) (ends : Prop) :
    Thread σ ι α → σ → (α → σ → Prop) → Prop
  | .done a, s, Q => Q a s
  | .get k, s, Q => (k s).Proceeds R P ends s Q
  | .set s₁ k, _, Q => k.Proceeds R P ends s₁ Q
  | .clock k, s, Q => ∀ now, (k now).Proceeds R P ends s Q
  | .fork _ k, s, Q => k.Proceeds R P ends s Q
  | .wait isReady limit k, s, Q =>
    isReady s = true ∧ (k true).Proceeds R P ends s Q ∨
      isReady s = false ∧ P s ∧ (ends → limit.isSome = true) ∧ ∀ s₁, R s s₁ →
        (isReady s₁ = true → (k true).Proceeds R P ends s₁ Q) ∧
          (isReady s₁ = false → limit.isSome = true → (k false).Proceeds R P ends s₁ Q)

section

variable {t : Thread σ ι α} {s : σ} {Q Q' : α → σ → Prop}

theorem Proceeds.mono {P' : σ → Prop} (h : t.Proceeds R P ends s Q) (hP : ∀ s, P s → P' s)
    (hQ : ∀ a s, Q a s → Q' a s) : t.Proceeds R P' ends s Q' := by
  induction t generalizing s with
  | done a => exact hQ a s h
  | get k ih => exact ih s h
  | set s₁ k ih => exact ih h
  | clock k ih => exact fun now => ih now (h now)
  | fork job k ih => exact ih h
  | wait isReady limit k ih =>
    refine h.imp (And.imp_right (ih true)) ?_
    rintro ⟨hs, hs', hlimit, hk⟩
    exact ⟨hs, hP s hs', hlimit, fun s₁ hs₁ => ⟨fun hready => ih true ((hk s₁ hs₁).1 hready),
      fun hready hsome => ih false ((hk s₁ hs₁).2 hready hsome)⟩⟩

theorem Proceeds.bind {f : α → Thread σ ι β} {Q : β → σ → Prop}
    (h : t.Proceeds R P ends s fun a s₁ => (f a).Proceeds R P ends s₁ Q) :
    (t >>= f).Proceeds R P ends s Q := by
  show (t.bind f).Proceeds R P ends s Q
  induction t generalizing s with
  | done a => exact h
  | get k ih => exact ih s h
  | set s₁ k ih => exact ih h
  | clock k ih => exact fun now => ih now (h now)
  | fork job k ih => exact ih h
  | wait isReady limit k ih =>
    refine h.imp (And.imp_right (ih true)) ?_
    rintro ⟨hs, hP, hlimit, hk⟩
    exact ⟨hs, hP, hlimit, fun s₁ hs₁ => ⟨fun hready => ih true ((hk s₁ hs₁).1 hready),
      fun hready hsome => ih false ((hk s₁ hs₁).2 hready hsome)⟩⟩

/-- A thread that makes only some changes proceeds to its outcomes. What its changes and those of
the others keep holds all the time. -/
theorem Only.proceeds {G : σ → σ → Prop} {Q₀ : α → Prop} (h : t.Only G Q₀ s)
    (hG : ∀ s s', G s s' → P s → P s') (hR : ∀ s s', R s s' → P s → P s')
    (hrefl : ∀ s, R s s) (hP : P s) (hends : ends → t.Finishes R s Q) :
    t.Proceeds R P ends s fun a s' => t.Ends R s a s' ∧ P s' ∧ (ends → Q a s') := by
  induction t generalizing s with
  | done a => exact ⟨⟨rfl, rfl⟩, hP, hends⟩
  | get k ih => exact ih s (h s) hP hends
  | set s₁ k ih => exact ih h.2 (hG _ _ h.1 hP) hends
  | clock k ih =>
    exact fun now => (ih now (h now) hP fun he => hends he now).mono (fun _ h => h)
      fun a s' => And.imp_left fun hk => ⟨now, hk⟩
  | fork job k ih => exact h.elim
  | wait isReady limit k ih =>
    cases hs : isReady s with
    | true =>
      have hk := ih true (h true s) hP fun he => (hends he).of_ready hs
      exact .inl ⟨hs, hk.mono (fun _ h => h) fun a s' => And.imp_left fun hk => .inl ⟨hs, hk⟩⟩
    | false =>
      -- Others may do nothing at all, so a thread that ends for certain has a limit to its wait.
      refine .inr ⟨hs, hP, fun he => ((hends he).of_late hs (hrefl s) hs).1, fun s₁ hs₁ => ?_⟩
      have hP₁ : P s₁ := hR s s₁ hs₁ hP
      constructor
      · intro hready
        have hk := ih true (h true s₁) hP₁ fun he => (hends he).of_brought hs hs₁ hready
        exact hk.mono (fun _ h => h)
          fun a s' => And.imp_left fun hk => .inr ⟨hs, s₁, hs₁, .inl ⟨hready, hk⟩⟩
      · intro hready hsome
        have hk := ih false (h false s₁) hP₁ fun he => ((hends he).of_late hs hs₁ hready).2
        exact hk.mono (fun _ h => h)
          fun a s' => And.imp_left fun hk => .inr ⟨hs, s₁, hs₁, .inr ⟨hready, hsome, hk⟩⟩

end

end Thread

/-! ## Turns -/

/-- A turn of a thread, if it can go on: what is shared afterwards, the thread, and the jobs it has
started. -/
def Pool.go (now : Nat) (s : σ) (m : Member σ ι α) : σ × Member σ ι α × List ι :=
  match wake now s m with
  | some t => drive now t s []
  | none => (s, m, [])

/-- What a thread in a pool does from where it is. Others may have acted before its next turn. -/
def Member.Proceeds (R : σ → σ → Prop) (P : σ → Prop) (ends : Prop) (m : Member σ ι α) (s : σ)
    (Q : α → σ → Prop) : Prop :=
  match m with
  | .finished a => ∃ s₀, Q a s₀ ∧ R s₀ s
  | .active t => P s ∧ ∀ s₁, R s s₁ → t.Proceeds R P ends s₁ Q
  | .asleep z => P s ∧ (ends → z.deadline.isSome = true) ∧ ∀ s₁, R s s₁ →
    (z.isReady s₁ = true → (z.resume true).Proceeds R P ends s₁ Q) ∧
      (z.isReady s₁ = false → z.deadline.isSome = true → (z.resume false).Proceeds R P ends s₁ Q)

section

variable {Q : α → σ → Prop} {m : Member σ ι α} {t : Thread σ ι α} {s s' : σ} {now : Nat}
  (hR : IsKept R)
include hR

theorem Member.Proceeds.others (h : m.Proceeds R P ends s Q) (hs : R s s')
    (hP : P s → P s') : m.Proceeds R P ends s' Q := by
  cases m with
  | finished a =>
    obtain ⟨s₀, hQ, hs₀⟩ := h
    exact ⟨s₀, hQ, hR.trans hs₀ hs⟩
  | active t => exact ⟨hP h.1, fun s₁ hs₁ => h.2 s₁ (hR.trans hs hs₁)⟩
  | asleep z => exact ⟨hP h.1, h.2.1, fun s₁ hs₁ => h.2.2 s₁ (hR.trans hs hs₁)⟩

theorem Thread.Proceeds.drive (h : t.Proceeds R P ends s Q) (now : Nat) (jobs : List ι) :
    (Pool.drive now t s jobs).2.1.Proceeds R P ends (Pool.drive now t s jobs).1 Q := by
  induction t generalizing s jobs with
  | done a => exact ⟨s, h, hR.refl s⟩
  | get k ih => exact ih s h jobs
  | set s₁ k ih => exact ih h jobs
  | clock k ih => exact ih now (h now) jobs
  | fork job k ih => exact ih h (jobs ++ [job])
  | wait isReady limit k ih =>
    rw [Pool.drive]
    obtain ⟨hs, hk⟩ | ⟨hs, hP, hlimit, hk⟩ := h
    · rw [if_pos hs]
      exact ih true hk jobs
    · rw [if_neg (Bool.eq_false_iff.mp hs)]
      refine ⟨hP, fun he => ?_, fun s₁ hs₁ => ⟨(hk s₁ hs₁).1, fun hready hsome => ?_⟩⟩
      · rw [Option.isSome_map]
        exact hlimit he
      · rw [Option.isSome_map] at hsome
        exact (hk s₁ hs₁).2 hready hsome

theorem Member.Proceeds.go (h : m.Proceeds R P ends s Q) (now : Nat) :
    (Pool.go now s m).2.1.Proceeds R P ends (Pool.go now s m).1 Q := by
  rw [Pool.go]
  split
  · rename_i t hwake
    refine Thread.Proceeds.drive hR ?_ now []
    cases m with
    | finished a => cases hwake
    | active t' =>
      cases hwake
      exact h.2 s (hR.refl s)
    | asleep z =>
      obtain ⟨htrue, hfalse⟩ := h.2.2 s (hR.refl s)
      obtain ⟨hready, rfl⟩ | ⟨hready, ⟨time, hdeadline, -⟩, rfl⟩ :=
        Pool.wake_asleep_eq_some.mp hwake
      · exact htrue hready
      · exact hfalse hready (Option.isSome_of_eq_some hdeadline)
  · exact h

end

/-- A turn of a thread beside which nothing happens. -/
def Pool.solo (p : σ × Member σ ι α) (now : Nat) : σ × Member σ ι α :=
  ((Pool.go now p.1 p.2).1, (Pool.go now p.1 p.2).2.1)

/-- A thread that ends for certain has ended after some turns. -/
theorem Thread.Proceeds.exists_finished (hR : IsKept R) {Q : α → σ → Prop} {t : Thread σ ι α}
    {s : σ} (h : t.Proceeds R P True s Q) (now : Nat) (jobs : List ι) :
    ∃ nows a, (runFrom Pool.solo ((Pool.drive now t s jobs).1, (Pool.drive now t s jobs).2.1)
      nows).2 = .finished a := by
  induction t generalizing s now jobs with
  | done a => exact ⟨[], a, rfl⟩
  | get k ih => exact ih s h now jobs
  | set s₁ k ih => exact ih h now jobs
  | clock k ih => exact ih now (h now) now jobs
  | fork job k ih => exact ih h now (jobs ++ [job])
  | wait isReady limit k ih =>
    rw [Pool.drive]
    obtain ⟨hs, hk⟩ | ⟨hs, -, hlimit, hk⟩ := h
    · rw [if_pos hs]
      exact ih true hk now jobs
    · -- The thread takes its next turn when its patience is over.
      rw [if_neg (Bool.eq_false_iff.mp hs)]
      obtain ⟨millis, rfl⟩ := Option.isSome_iff_exists.mp (hlimit trivial)
      obtain ⟨nows, a, hnows⟩ := ih false ((hk s (hR.refl s)).2 hs rfl) (now + millis) []
      refine ⟨(now + millis) :: nows, a, ?_⟩
      rw [← hnows]
      simp [runFrom, Pool.solo, Pool.go, Pool.wake, hs]

theorem Member.Proceeds.exists_finished (hR : IsKept R) {Q : α → σ → Prop} {m : Member σ ι α}
    {s : σ} (h : m.Proceeds R P True s Q) :
    ∃ nows a, (runFrom Pool.solo (s, m) nows).2 = .finished a := by
  cases m with
  | finished a => exact ⟨[], a, rfl⟩
  | active t =>
    obtain ⟨nows, a, hnows⟩ := (h.2 s (hR.refl s)).exists_finished hR 0 []
    exact ⟨0 :: nows, a, hnows⟩
  | asleep z =>
    obtain ⟨time, htime⟩ := Option.isSome_iff_exists.mp (h.2.1 trivial)
    have hwake : ∃ t, Pool.wake time s (.asleep z) = some t ∧ t.Proceeds R P True s Q := by
      obtain ⟨htrue, hfalse⟩ := h.2.2 s (hR.refl s)
      cases hs : z.isReady s with
      | true => exact ⟨_, Pool.wake_asleep_eq_some.mpr (.inl ⟨hs, rfl⟩), htrue hs⟩
      | false =>
        have hlate : ∃ time', z.deadline = some time' ∧ time' ≤ time := ⟨time, htime, Nat.le_refl _⟩
        exact ⟨_, Pool.wake_asleep_eq_some.mpr (.inr ⟨hs, hlate, rfl⟩),
          hfalse hs (h.2.1 trivial)⟩
    obtain ⟨t, hwake, ht⟩ := hwake
    obtain ⟨nows, a, hnows⟩ := ht.exists_finished hR time []
    refine ⟨time :: nows, a, ?_⟩
    rw [← hnows]
    simp [runFrom, Pool.solo, Pool.go, hwake]

/-- After some turns a thread proceeds from where it is then. -/
theorem Member.Proceeds.run (hR : IsKept R) {Q : α → σ → Prop} {m : Member σ ι α} {s : σ}
    (h : m.Proceeds R P ends s Q) (nows : List Nat) :
    (runFrom Pool.solo (s, m) nows).2.Proceeds R P ends (runFrom Pool.solo (s, m) nows).1 Q :=
  runFrom_keeps (P := fun p : σ × Member σ ι α => p.2.Proceeds R P ends p.1 Q) h
    (fun _ now hp => hp.go hR now) nows

/-! ## Calls -/

/-- A call in progress: what is shared, the calling thread, and the thread of the first job it has
started. -/
structure Call (σ ι α : Type) where
  shared : σ
  caller : Member σ ι α
  worker : Option (ι × Member σ ι Unit)

namespace Call

/-- What happens next: a turn of one of the two threads, or others change what is shared. -/
inductive Turn (σ : Type) where
  | caller (now : Nat)
  | worker (now : Nat)
  | others (s : σ)

/-- A call before its first turn. -/
def start (t : Thread σ ι α) (s : σ) : Call σ ι α := ⟨s, .active t, none⟩

open Classical in
/-- What becomes of a call. Others act from the start of the job on, as `R` says. -/
noncomputable def step (body : ι → Thread σ ι Unit) (R : σ → σ → Prop) (c : Call σ ι α) :
    Turn σ → Call σ ι α
  | .caller now =>
    let (s, caller, jobs) := Pool.go now c.shared c.caller
    ⟨s, caller, c.worker.or (jobs.head?.map fun j => (j, .active (body j)))⟩
  | .worker now =>
    match c.worker with
    | none => c
    | some (j, m) =>
      let (s, m, _) := Pool.go now c.shared m
      { c with shared := s, worker := some (j, m) }
  | .others s => if c.worker.isSome ∧ R c.shared s then { c with shared := s } else c

/-- What the call has come to. -/
def result? (c : Call σ ι α) : Option α :=
  match c.caller with
  | .finished a => some a
  | _ => none

/-- In its first turn the calling thread starts one job and begins to wait; it goes on as `k`. -/
structure Delegates (t : Thread σ ι α) (s : σ) (j : ι) (s₁ : σ) (isReady : σ → Bool)
    (k : Thread σ ι α) : Prop where
  drive : ∀ now, Pool.drive now t s [] = (s₁, .asleep ⟨isReady, none, fun _ => k⟩, [j])
  waits : isReady s₁ = false

/-- The calling thread goes on after its job, and what it comes to is as `Q` says. -/
def GoesOn (R : σ → σ → Prop) (ends : Prop) (isReady : σ → Bool) (k : Thread σ ι α)
    (Q : α → σ → Prop) (s : σ) : Prop :=
  ∀ s₁, R s s₁ → isReady s₁ = true ∧ k.Proceeds R (fun _ => True) ends s₁ Q

/-- What holds of every call that can be reached. -/
inductive Sound (R : σ → σ → Prop) (ends : Prop) (t : Thread σ ι α) (s : σ) (j : ι)
    (isReady : σ → Bool) (k : Thread σ ι α) (Q : α → σ → Prop) : Call σ ι α → Prop
  | begins : Sound R ends t s j isReady k Q (start t s)
  | works {s' : σ} {m : Member σ ι Unit}
    (hm : m.Proceeds R (fun s => isReady s = false) ends s' fun _ => GoesOn R ends isReady k Q) :
    Sound R ends t s j isReady k Q ⟨s', .asleep ⟨isReady, none, fun _ => k⟩, some (j, m)⟩
  | closes {s' : σ} {caller : Member σ ι α}
    (hcaller : caller.Proceeds R (fun _ => True) ends s' Q) :
    Sound R ends t s j isReady k Q ⟨s', caller, some (j, .finished ())⟩

section

variable {body : ι → Thread σ ι Unit} {t k : Thread σ ι α} {s s₁ : σ} {j : ι} {isReady : σ → Bool}
  {Q : α → σ → Prop} {c : Call σ ι α}
  (hR : IsKept R) (hready : ∀ s s', R s s' → isReady s = false → isReady s' = false)
  (ht : Delegates t s j s₁ isReady k)
  (hbody : ∀ s', R s₁ s' → (body j).Proceeds R (fun s => isReady s = false) ends s' fun _ =>
    GoesOn R ends isReady k Q)
include hR hready ht hbody

theorem Sound.step (hc : Sound R ends t s j isReady k Q c) (turn : Turn σ) :
    Sound R ends t s j isReady k Q (c.step body R turn) := by
  cases hc with
  | begins =>
    cases turn with
    | caller now =>
      -- The caller starts its job and begins to wait in one turn; nothing happens in between.
      have hgo : Pool.go now s (.active t) = (s₁, .asleep ⟨isReady, none, fun _ => k⟩, [j]) :=
        ht.drive now
      simp only [Call.step, start, hgo, Option.none_or, List.head?_cons, Option.map_some]
      exact .works ⟨ht.waits, hbody⟩
    | worker now => exact .begins
    | others s' =>
      simp only [Call.step, start, Option.isSome_none, Bool.false_eq_true, false_and, if_false]
      exact .begins
  | @works s' m hm =>
    cases turn with
    | caller now =>
      cases m with
      | finished u =>
        -- The job has left what the caller waits for, and the others have not taken it away.
        obtain ⟨s₀, hgoes, hs₀⟩ := hm
        obtain ⟨hs', hk⟩ := hgoes s' hs₀
        have hcaller := hk.drive hR now []
        simp only [Call.step, Pool.go, Pool.wake, hs', if_true, Option.some_or]
        exact .closes hcaller
      | active | asleep =>
        -- As long as the job is under way the caller finds nothing.
        have hs' : isReady s' = false := hm.1
        simp only [Call.step, Pool.go, Pool.wake, hs', Bool.false_eq_true, if_false,
          Option.any_none, Option.some_or]
        exact .works hm
    | worker now => exact .works (hm.go hR now)
    | others s'' =>
      rw [Call.step]
      split
      · rename_i hmay
        exact .works (hm.others hR hmay.2 (hready s' s'' hmay.2))
      · exact .works hm
  | @closes s' caller hcaller =>
    cases turn with
    | caller now => exact .closes (hcaller.go hR now)
    | worker now => exact .closes hcaller
    | others s'' =>
      rw [Call.step]
      split
      · rename_i hmay
        exact .closes (hcaller.others hR hmay.2 id)
      · exact .closes hcaller

theorem sound_run (turns : List (Turn σ)) :
    Sound R ends t s j isReady k Q (runFrom (step body R) (start t s) turns) :=
  runFrom_keeps .begins (fun _ turn hc => hc.step hR hready ht hbody turn) turns

/-- What a call comes to is as its job and then the calling thread come to it. -/
theorem of_result (turns : List (Turn σ)) {a : α}
    (ha : (runFrom (step body R) (start t s) turns).result? = some a) :
    ∃ s', Q a s' ∧ R s' (runFrom (step body R) (start t s) turns).shared := by
  have hsound : Sound R ends t s j isReady k Q (runFrom (step body R) (start t s) turns) :=
    sound_run hR hready ht hbody turns
  generalize runFrom (step body R) (start t s) turns = c at ha hsound
  cases hsound with
  | begins | works => cases ha
  | @closes s' caller hcaller =>
    cases caller with
    | finished b =>
      cases ha
      exact hcaller
    | active | asleep => cases ha

end

/-! ## The end of a call -/

variable {body : ι → Thread σ ι Unit} {t k : Thread σ ι α} {s s₁ : σ} {j : ι} {isReady : σ → Bool}
  {Q : α → σ → Prop} {c : Call σ ι α}

theorem runFrom_callers (body : ι → Thread σ ι Unit) (nows : List Nat) (s : σ)
    (caller : Member σ ι α) (w : ι × Member σ ι Unit) :
    runFrom (step body R) ⟨s, caller, some w⟩ (nows.map .caller) =
      ⟨(runFrom Pool.solo (s, caller) nows).1, (runFrom Pool.solo (s, caller) nows).2, some w⟩ := by
  induction nows generalizing s caller with
  | nil => rfl
  | cons now rest ih => exact ih _ _

theorem runFrom_workers (body : ι → Thread σ ι Unit) (R : σ → σ → Prop) (j : ι) (nows : List Nat)
    (s : σ) (caller : Member σ ι α) (m : Member σ ι Unit) :
    runFrom (step body R) ⟨s, caller, some (j, m)⟩ (nows.map .worker) =
      ⟨(runFrom Pool.solo (s, m) nows).1, caller,
        some (j, (runFrom Pool.solo (s, m) nows).2)⟩ := by
  induction nows generalizing s m with
  | nil => rfl
  | cons now rest ih => exact ih _ _

theorem runFrom_append (c : Call σ ι α) (turns more : List (Turn σ)) :
    runFrom (step body R) c (turns ++ more) =
      runFrom (step body R) (runFrom (step body R) c turns) more := List.foldl_append

/-- A call whose calling thread goes on after its job can be brought to its end. -/
theorem exists_result_of_closes (body : ι → Thread σ ι Unit) (hR : IsKept R)
    {caller : Member σ ι α} (hcaller : caller.Proceeds R (fun _ => True) True s Q)
    (w : ι × Member σ ι Unit) :
    ∃ more, (runFrom (step body R) ⟨s, caller, some w⟩ more).result?.isSome := by
  obtain ⟨nows, a, hnows⟩ := hcaller.exists_finished hR
  refine ⟨nows.map .caller, ?_⟩
  rw [runFrom_callers, result?, hnows]
  rfl

/-- A call whose job is under way can be brought to its end. -/
theorem exists_result_of_works (body : ι → Thread σ ι Unit) (j : ι) (hR : IsKept R)
    {m : Member σ ι Unit}
    (hm : m.Proceeds R (fun s => isReady s = false) True s fun _ => GoesOn R True isReady k Q) :
    ∃ more, (runFrom (step body R) ⟨s, .asleep ⟨isReady, none, fun _ => k⟩, some (j, m)⟩
      more).result?.isSome := by
  obtain ⟨nows, u, hnows⟩ := hm.exists_finished hR
  have hfinished := hm.run hR nows
  have hworkers := runFrom_workers body R j nows s
    (.asleep ⟨isReady, none, fun _ => k⟩ : Member σ ι α) m
  generalize runFrom Pool.solo (s, m) nows = p at hnows hfinished hworkers
  rw [hnows] at hfinished hworkers
  obtain ⟨s₀, hgoes, hs₀⟩ := hfinished
  obtain ⟨hs, hk⟩ := hgoes p.1 hs₀
  -- The calling thread finds that its job is over.
  have hcaller := hk.drive hR 0 []
  obtain ⟨more, hmore⟩ := exists_result_of_closes body hR hcaller (j, .finished u)
  refine ⟨nows.map .worker ++ .caller 0 :: more, ?_⟩
  rw [runFrom_append, hworkers, ← hmore]
  simp only [runFrom, List.foldl_cons, step, Pool.go, Pool.wake, hs, if_true, Option.some_or]

/-- A call can be brought to its end from wherever it is, if its threads end for certain. -/
theorem Sound.exists_result (hR : IsKept R) (ht : Delegates t s j s₁ isReady k)
    (hbody : ∀ s', R s₁ s' → (body j).Proceeds R (fun s => isReady s = false) True s' fun _ =>
      GoesOn R True isReady k Q)
    (hc : Sound R True t s j isReady k Q c) :
    ∃ more, (runFrom (Call.step body R) c more).result?.isSome := by
  cases hc with
  | begins =>
    have hworker : (Member.active (body j)).Proceeds R (fun s => isReady s = false) True s₁
        fun _ => GoesOn R True isReady k Q := ⟨ht.waits, hbody⟩
    obtain ⟨more, hmore⟩ := exists_result_of_works body j hR hworker
    have hgo : Pool.go 0 s (.active t) = (s₁, .asleep ⟨isReady, none, fun _ => k⟩, [j]) :=
      ht.drive 0
    refine ⟨.caller 0 :: more, ?_⟩
    rw [← hmore]
    simp only [runFrom, List.foldl_cons, Call.step, start, hgo, Option.none_or, List.head?_cons,
      Option.map_some]
  | works hm => exact exists_result_of_works body j hR hm
  | closes hcaller => exact exists_result_of_closes body hR hcaller _

/-- A call that has taken some turns can be brought to its end, if its threads end for certain. -/
theorem exists_result (hR : IsKept R)
    (hready : ∀ s s', R s s' → isReady s = false → isReady s' = false)
    (ht : Delegates t s j s₁ isReady k)
    (hbody : ∀ s', R s₁ s' → (body j).Proceeds R (fun s => isReady s = false) True s' fun _ =>
      GoesOn R True isReady k Q) (turns : List (Turn σ)) :
    ∃ more, (runFrom (step body R) (start t s) (turns ++ more)).result?.isSome := by
  have hsound : Sound R True t s j isReady k Q (runFrom (step body R) (start t s) turns) :=
    sound_run hR hready ht hbody turns
  obtain ⟨more, hmore⟩ := hsound.exists_result hR ht hbody
  refine ⟨more, ?_⟩
  rw [runFrom_append]
  exact hmore

end Call

end Concurrency
end ScriptSession
