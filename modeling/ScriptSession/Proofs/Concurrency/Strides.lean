import ScriptSession.Proofs.Concurrency.Interference

/-!
# Threads in strides

What a thread does when the others may act after each of its changes. The thread goes on in strides:
a stride ends where the thread waits, and where it looks at what is shared after a change of its
own. What a thread has looked at is thus still there when it changes something, and between a change
and the next look anything can happen. A thread follows a protocol if its changes and the jobs that
it starts are steps of the protocol, whatever it finds when a stride begins (`Thread.Follows`). Main
statement: what every step of the protocol keeps is kept by every stride (`Follows.stride`).
-/

namespace ScriptSession
namespace Concurrency

variable {γ δ σ ι α β : Type}

/-- What is noted of a thread: a change, with what was shared before and after it, or a job that it
has started. -/
inductive Mark (σ ι : Type) where
  | change (before after : σ)
  | start (job : ι)

/-- Where a stride has led: what is shared, the thread, and what is noted of the stride. -/
structure Stride (σ ι α : Type) where
  shared : σ
  thread : Thread σ ι α
  marks : List (Mark σ ι)

/-- A stride with a mark before those that it has. -/
def Stride.after (m : Mark σ ι) (r : Stride σ ι α) : Stride σ ι α :=
  { r with marks := m :: r.marks }

namespace Thread

/-- Go on until the next wait, or until the next look if there has been a change. -/
def goOn (now : Nat) : Thread σ ι α → Bool → σ → Stride σ ι α
  | .get k, false, s => (k s).goOn now false s
  | .set s' k, _, s => .after (.change s s') (k.goOn now true s')
  | .clock k, hasMoved, s => (k now).goOn now hasMoved s
  | .fork job k, _, s => .after (.start job) (k.goOn now true s)
  | t, _, s => ⟨s, t, []⟩

/-- The next stride. A wait that is not for ever may end late, without what was waited for. -/
def stride (now : Nat) (isLate : Bool) (t : Thread σ ι α) (s : σ) : Stride σ ι α :=
  match t with
  | .wait isReady limit k =>
    if isReady s then (k true).goOn now false s
    else if limit.isSome && isLate then (k false).goOn now false s
    else ⟨s, .wait isReady limit k, []⟩
  | t => t.goOn now false s

/-- The thread follows a protocol from a stage on, in the middle of a stride: its changes are steps
in `P`, the jobs that it starts are steps in `F`, and it ends in a stage and with a result in `Q`.
It finds what is shared as it is, unless it has moved. -/
def Follows (P : Protocol γ σ) (F : γ → ι → γ → Prop) (Q : γ → α → Prop) :
    Thread σ ι α → Bool → γ → σ → Prop
  | .done a, _, g, _ => Q g a
  | .get k, false, g, s => (k s).Follows P F Q false g s
  | .get k, true, g, _ => ∀ s, (k s).Follows P F Q false g s
  | .set s' k, _, g, s => ∃ g', P g s g' s' ∧ k.Follows P F Q true g' s'
  | .clock k, hasMoved, g, s => ∀ now, (k now).Follows P F Q hasMoved g s
  | .fork job k, _, g, s => ∃ g', F g job g' ∧ k.Follows P F Q true g' s
  | .wait isReady limit k, _, g, _ =>
    (∀ s, isReady s = true → (k true).Follows P F Q false g s) ∧
      (limit.isSome → ∀ s, (k false).Follows P F Q false g s)

variable {P : Protocol γ σ} {F : γ → ι → γ → Prop} {Q : γ → α → Prop} {t : Thread σ ι α}
  {hasMoved : Bool} {g : γ} {s : σ}

/-- A thread that follows the protocol whatever it finds follows it where it is. -/
theorem Follows.of_moved (h : t.Follows P F Q true g s) : t.Follows P F Q hasMoved g s := by
  cases hasMoved with
  | true => exact h
  | false =>
    induction t generalizing g s with
    | done | set | fork | wait => exact h
    | get k ih => exact h s
    | clock k ih => exact fun now => ih now (h now)

theorem Follows.bind {R : γ → β → Prop} {f : α → Thread σ ι β}
    (h : t.Follows P F Q hasMoved g s) (hf : ∀ g a s, Q g a → (f a).Follows P F R true g s) :
    (t.bind f).Follows P F R hasMoved g s := by
  induction t generalizing hasMoved g s with
  | done a => exact (hf g a s h).of_moved
  | get k ih =>
    cases hasMoved with
    | false => exact ih s h
    | true => exact fun s => ih s (h s)
  | set s' k ih =>
    obtain ⟨g', hstep, hk⟩ := h
    exact ⟨g', hstep, ih hk⟩
  | clock k ih => exact fun now => ih now (h now)
  | fork job k ih =>
    obtain ⟨g', hstart, hk⟩ := h
    exact ⟨g', hstart, ih hk⟩
  | wait isReady limit k ih =>
    exact ⟨fun s hs => ih true (h.1 s hs), fun hlimit s => ih false (h.2 hlimit s)⟩

theorem Follows.mono {Q' : γ → α → Prop} (h : t.Follows P F Q hasMoved g s)
    (hQ : ∀ g a, Q g a → Q' g a) : t.Follows P F Q' hasMoved g s := by
  have hbind := h.bind (f := .done) fun g a s ha => hQ g a ha
  rwa [bind_done] at hbind

/-- A thread that makes only some changes follows every protocol that has them as steps in some
stages, and it stays in these. -/
theorem Only.follows {R : σ → σ → Prop} {Q : α → Prop} (S : γ → Prop) (h : t.Only R Q s)
    (hR : ∀ g s s', S g → R s s' → ∃ g', S g' ∧ P g s g' s') (hg : S g) :
    t.Follows P F (fun g a => S g ∧ Q a) hasMoved g s := by
  induction t generalizing hasMoved g s with
  | done a => exact ⟨hg, h⟩
  | get k ih =>
    cases hasMoved with
    | false => exact ih s (h s) hg
    | true => exact fun s => ih s (h s) hg
  | set s' k ih =>
    obtain ⟨g', hg', hstep⟩ := hR g s s' hg h.1
    exact ⟨g', hstep, ih h.2 hg'⟩
  | clock k ih => exact fun now => ih now (h now) hg
  | fork job k ih => exact h.elim
  | wait isReady limit k ih =>
    exact ⟨fun s _ => ih true (h true s) hg, fun _ s => ih false (h false s) hg⟩

section

variable {I : γ → σ → δ → Prop} (note : δ → Mark σ ι → δ)
  (hchange : ∀ {g s d g' s'}, I g s d → P g s g' s' → I g' s' (note d (.change s s')))
  (hstart : ∀ {g s d job g'}, I g s d → F g job g' → I g' s (note d (.start job)))
include hchange hstart

/-- The induction is on the thread. It stops where nothing is known of what will be shared when it
goes on. -/
theorem Follows.goOn {d : δ} (h : t.Follows P F Q hasMoved g s) (hI : I g s d) (now : Nat) :
    ∃ g', I g' (t.goOn now hasMoved s).shared ((t.goOn now hasMoved s).marks.foldl note d) ∧
      ∀ s', (t.goOn now hasMoved s).thread.Follows P F Q false g' s' := by
  induction t generalizing hasMoved g s d with
  | done a => exact ⟨g, hI, fun _ => h⟩
  | get k ih =>
    cases hasMoved with
    | false => exact ih s h hI
    | true => exact ⟨g, hI, h⟩
  | set s' k ih =>
    obtain ⟨g', hstep, hk⟩ := h
    exact ih hk (hchange hI hstep)
  | clock k ih => exact ih now (h now) hI
  | fork job k ih =>
    obtain ⟨g', hjob, hk⟩ := h
    exact ih hk (hstart hI hjob)
  | wait isReady limit k ih => exact ⟨g, hI, fun _ => h⟩

/-- A stride keeps what the steps of the protocol keep, together with all that is noted of it, and
the thread follows the protocol from there on, whatever it finds. -/
theorem Follows.stride {d : δ} (h : ∀ s, t.Follows P F Q false g s) (hI : I g s d) (now : Nat)
    (isLate : Bool) :
    ∃ g', I g' (t.stride now isLate s).shared ((t.stride now isLate s).marks.foldl note d) ∧
      ∀ s', (t.stride now isLate s).thread.Follows P F Q false g' s' := by
  cases t with
  | done | get | set | clock | fork => exact (h s).goOn note hchange hstart hI now
  | wait isReady limit k =>
    rw [Thread.stride]
    split
    · rename_i hready
      exact ((h s).1 s hready).goOn note hchange hstart hI now
    · split
      · rename_i hlate
        exact ((h s).2 (Bool.and_eq_true_iff.mp hlate).1 s).goOn note hchange hstart hI now
      · exact ⟨g, hI, h⟩

end

end Thread
end Concurrency
end ScriptSession
