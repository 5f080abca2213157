import ScriptSession.Concurrency.Pool

/-!
# Threads that keep to a protocol

A protocol says how a thread in a stage may change what is shared, and in which stage it is then. A
thread heeds a protocol if all its changes are of that kind, whatever others do to what is shared
while it waits. In a turn such a thread takes a chain of steps of the protocol, and heeds it still
when it goes on (`Member.Heeds.turn`).
-/

namespace ScriptSession
namespace Concurrency

/-- How a thread in a stage may change what is shared, and which stage follows. -/
abbrev Protocol (γ σ : Type) := γ → σ → γ → σ → Prop

/-- Chains of steps of the protocol are steps of it. -/
structure Protocol.IsChained {γ σ : Type} (P : Protocol γ σ) : Prop where
  refl : ∀ g s, P g s g s
  trans : ∀ {g s g' s' g'' s''}, P g s g' s' → P g' s' g'' s'' → P g s g'' s''

namespace Thread

variable {γ δ σ ι α β : Type} {P : Protocol γ σ} {Q : γ → α → Prop}

/-- The thread heeds a protocol from a stage and a state on, and it ends in a stage and with a
result as `Q` says. It may go on to another stage when it reads the state. Nothing is known about
the state after a wait but what was waited for. -/
def Heeds (P : Protocol γ σ) (Q : γ → α → Prop) : Thread σ ι α → γ → σ → Prop
  | .done a, g, _ => Q g a
  | .get k, g, s => ∃ g', P g s g' s ∧ (k s).Heeds P Q g' s
  | .set s' k, g, s => ∃ g', P g s g' s' ∧ k.Heeds P Q g' s'
  | .clock k, g, s => ∀ now, (k now).Heeds P Q g s
  | .fork _ k, g, s => k.Heeds P Q g s
  | .wait isReady limit k, g, _ =>
    (∀ s, isReady s = true → (k true).Heeds P Q g s) ∧
      (limit.isSome → ∀ s, (k false).Heeds P Q g s)

theorem Heeds.bind {R : γ → β → Prop} {t : Thread σ ι α} {f : α → Thread σ ι β} {g : γ} {s : σ}
    (h : t.Heeds P Q g s) (hf : ∀ g a s, Q g a → (f a).Heeds P R g s) :
    (t.bind f).Heeds P R g s := by
  induction t generalizing g s with
  | done a => exact hf g a s h
  | get k ih =>
    obtain ⟨g', hstep, hk⟩ := h
    exact ⟨g', hstep, ih s hk⟩
  | set s' k ih =>
    obtain ⟨g', hstep, hk⟩ := h
    exact ⟨g', hstep, ih hk⟩
  | clock k ih => exact fun now => ih now (h now)
  | fork job k ih => exact ih h
  | wait isReady limit k ih =>
    exact ⟨fun s hs => ih true (h.1 s hs), fun hlimit s => ih false (h.2 hlimit s)⟩

/-- A thread that heeds one protocol heeds another one whose stages stand for those of the first,
if the steps of the first are steps of the second there. -/
theorem Heeds.mono {P' : Protocol δ σ} {Q' : δ → α → Prop} {t : Thread σ ι α} {g : γ} {s : σ}
    (r : γ → δ → Prop) (h : t.Heeds P Q g s)
    (hP : ∀ {g s g' s' d}, r g d → P g s g' s' → ∃ d', r g' d' ∧ P' d s d' s')
    (hQ : ∀ g a d, r g d → Q g a → Q' d a) {d : δ} (hd : r g d) : t.Heeds P' Q' d s := by
  induction t generalizing g s d with
  | done a => exact hQ g a d hd h
  | get k ih =>
    obtain ⟨g', hstep, hk⟩ := h
    obtain ⟨d', hd', hstep'⟩ := hP hd hstep
    exact ⟨d', hstep', ih s hk hd'⟩
  | set s' k ih =>
    obtain ⟨g', hstep, hk⟩ := h
    obtain ⟨d', hd', hstep'⟩ := hP hd hstep
    exact ⟨d', hstep', ih hk hd'⟩
  | clock k ih => exact fun now => ih now (h now) hd
  | fork job k ih => exact ih h hd
  | wait isReady limit k ih =>
    exact ⟨fun s hs => ih true (h.1 s hs) hd, fun hlimit s => ih false (h.2 hlimit s) hd⟩

end Thread

variable {γ σ ι α : Type} {P : Protocol γ σ} {Q : γ → α → Prop}

/-- A thread in a pool heeds a protocol from a stage on, whatever the state is when it goes on. -/
def Member.Heeds (P : Protocol γ σ) (Q : γ → α → Prop) (g : γ) : Member σ ι α → Prop
  | .finished a => Q g a
  | .active t => ∀ s, t.Heeds P Q g s
  | .asleep z =>
    (∀ s, z.isReady s = true → (z.resume true).Heeds P Q g s) ∧
      (z.deadline.isSome → ∀ s, (z.resume false).Heeds P Q g s)

theorem Thread.Heeds.drive (hP : P.IsChained) {t : Thread σ ι α} {g : γ} {s : σ}
    (h : t.Heeds P Q g s) (now : Nat) (jobs : List ι) :
    ∃ g', P g s g' (Pool.drive now t s jobs).1 ∧
      (Pool.drive now t s jobs).2.1.Heeds P Q g' := by
  -- Along the thread: each step is chained to those of the rest of the turn, up to a wait.
  induction t generalizing g s jobs with
  | done a => exact ⟨g, hP.refl g s, h⟩
  | get k ih =>
    obtain ⟨g', hstep, hk⟩ := h
    obtain ⟨g'', hsteps, hmember⟩ := ih s hk jobs
    exact ⟨g'', hP.trans hstep hsteps, hmember⟩
  | set s' k ih =>
    obtain ⟨g', hstep, hk⟩ := h
    obtain ⟨g'', hsteps, hmember⟩ := ih hk jobs
    exact ⟨g'', hP.trans hstep hsteps, hmember⟩
  | clock k ih => exact ih now (h now) jobs
  | fork job k ih => exact ih h (jobs ++ [job])
  | wait isReady limit k ih =>
    rw [Pool.drive]
    split
    · rename_i hready
      exact ih true (h.1 s hready) jobs
    · refine ⟨g, hP.refl g s, h.1, fun hdeadline => h.2 ?_⟩
      rwa [Option.isSome_map] at hdeadline

/-- A thread that waits goes on where what it waits for is there, and else when its patience is
over. -/
theorem Pool.wake_asleep_eq_some {now : Nat} {s : σ} {z : Sleeper σ ι α} {t : Thread σ ι α} :
    Pool.wake now s (.asleep z) = some t ↔
      z.isReady s = true ∧ t = z.resume true ∨
        z.isReady s = false ∧ (∃ time, z.deadline = some time ∧ time ≤ now) ∧
          t = z.resume false := by
  rw [Pool.wake]
  cases hready : z.isReady s with
  | true => simp [eq_comm]
  | false =>
    cases hdeadline : z.deadline with
    | none => simp
    | some time => simp [eq_comm]

theorem Member.Heeds.wake {m : Member σ ι α} {g : γ} (h : m.Heeds P Q g) {now : Nat} {s : σ}
    {t : Thread σ ι α} (hwake : Pool.wake now s m = some t) : t.Heeds P Q g s := by
  cases m with
  | finished a => cases hwake
  | active t' =>
    cases hwake
    exact h s
  | asleep z =>
    obtain ⟨hready, rfl⟩ | ⟨-, ⟨time, hdeadline, -⟩, rfl⟩ := Pool.wake_asleep_eq_some.mp hwake
    · exact h.1 s hready
    · exact h.2 (Option.isSome_of_eq_some hdeadline) s

/-- In its turn a thread in a pool takes a step of the protocol, and heeds it from there on. -/
theorem Member.Heeds.turn (hP : P.IsChained) {m : Member σ ι α} {g : γ} (h : m.Heeds P Q g)
    {now : Nat} {s : σ} {t : Thread σ ι α} (hwake : Pool.wake now s m = some t) :
    ∃ g', P g s g' (Pool.drive now t s []).1 ∧ (Pool.drive now t s []).2.1.Heeds P Q g' :=
  (h.wake hwake).drive hP now []

end Concurrency
end ScriptSession
