import ScriptSession.Proofs.Concurrency.Outcomes

/-!
# Threads that come to an end

A thread among others finishes if it ends whatever the others do while it waits, as far as a
relation says what they may do (`Thread.Finishes`). A wait without a limit is the only thing that
can keep a thread from it. A thread that finishes has an outcome (`Thread.Finishes.exists_ends`),
and every outcome it has is as required (`Thread.Finishes.of_ends`).
-/

namespace ScriptSession
namespace Concurrency
namespace Thread

variable {σ ι α β : Type} {R R' : σ → σ → Prop}

/-- The thread that begins in `s` ends, and ends as `Q` says, when others change what is shared
only as `R` says, and only while the thread waits. -/
def Finishes (R : σ → σ → Prop) : Thread σ ι α → σ → (α → σ → Prop) → Prop
  | .done a, s, Q => Q a s
  | .get k, s, Q => (k s).Finishes R s Q
  | .set s₁ k, _, Q => k.Finishes R s₁ Q
  | .clock k, s, Q => ∀ now, (k now).Finishes R s Q
  | .fork _ k, s, Q => k.Finishes R s Q
  | .wait isReady limit k, s, Q =>
    isReady s = true ∧ (k true).Finishes R s Q ∨
      isReady s = false ∧ ∀ s₁, R s s₁ →
        (isReady s₁ = true ∧ (k true).Finishes R s₁ Q ∨
          isReady s₁ = false ∧ limit.isSome = true ∧ (k false).Finishes R s₁ Q)

namespace Finishes

variable {t : Thread σ ι α} {s s' : σ} {Q Q' : α → σ → Prop}

theorem mono (h : t.Finishes R s Q) (hQ : ∀ a s, Q a s → Q' a s) : t.Finishes R s Q' := by
  induction t generalizing s with
  | done a => exact hQ a s h
  | get k ih => exact ih s h
  | set s₁ k ih => exact ih h
  | clock k ih => exact fun now => ih now (h now)
  | fork job k ih => exact ih h
  | wait isReady limit k ih =>
    refine h.imp (And.imp_right (ih true)) (And.imp_right fun hk s₁ hs₁ => ?_)
    exact (hk s₁ hs₁).imp (And.imp_right (ih true)) (And.imp_right (And.imp_right (ih false)))

theorem bind {f : α → Thread σ ι β} {P : β → σ → Prop}
    (h : t.Finishes R s fun a s₁ => (f a).Finishes R s₁ P) : (t >>= f).Finishes R s P := by
  show (t.bind f).Finishes R s P
  induction t generalizing s with
  | done a => exact h
  | get k ih => exact ih s h
  | set s₁ k ih => exact ih h
  | clock k ih => exact fun now => ih now (h now)
  | fork job k ih => exact ih h
  | wait isReady limit k ih =>
    refine h.imp (And.imp_right (ih true)) (And.imp_right fun hk s₁ hs₁ => ?_)
    exact (hk s₁ hs₁).imp (And.imp_right (ih true)) (And.imp_right (And.imp_right (ih false)))

/-- A wait with a limit ends. -/
theorem awaitFor {limit : Nat} {isReady : σ → Bool} {P : Bool → σ → Prop}
    (hready : isReady s = true → P true s)
    (hwait : isReady s = false → ∀ s₁, R s s₁ → P (isReady s₁) s₁) :
    (Thread.awaitFor limit isReady : Thread σ ι Bool).Finishes R s P := by
  cases hs : isReady s with
  | true => exact .inl ⟨hs, hready hs⟩
  | false =>
    refine .inr ⟨hs, fun s₁ hs₁ => ?_⟩
    have hP := hwait hs s₁ hs₁
    cases hs₁' : isReady s₁ with
    | true => exact .inl ⟨rfl, hs₁' ▸ hP⟩
    | false => exact .inr ⟨rfl, rfl, hs₁' ▸ hP⟩

section

variable {isReady : σ → Bool} {limit : Option Nat} {k : Bool → Thread σ ι α} {s₁ : σ}

/-- The thread finds what it waits for. -/
theorem of_ready (h : (Thread.wait isReady limit k).Finishes R s Q) (hs : isReady s = true) :
    (k true).Finishes R s Q := by
  obtain ⟨-, hk⟩ | ⟨hs', -⟩ := h
  · exact hk
  · exact absurd hs (Bool.eq_false_iff.mp hs')

/-- The others bring about what the thread waits for. -/
theorem of_brought (h : (Thread.wait isReady limit k).Finishes R s Q) (hs : isReady s = false)
    (hs₁ : R s s₁) (hready : isReady s₁ = true) : (k true).Finishes R s₁ Q := by
  obtain ⟨hs', -⟩ | ⟨-, hk⟩ := h
  · exact absurd hs' (Bool.eq_false_iff.mp hs)
  obtain ⟨-, htrue⟩ | ⟨hready', -⟩ := hk s₁ hs₁
  · exact htrue
  · exact absurd hready (Bool.eq_false_iff.mp hready')

/-- The thread waits for as long as it may. -/
theorem of_late (h : (Thread.wait isReady limit k).Finishes R s Q) (hs : isReady s = false)
    (hs₁ : R s s₁) (hready : isReady s₁ = false) :
    limit.isSome = true ∧ (k false).Finishes R s₁ Q := by
  obtain ⟨hs', -⟩ | ⟨-, hk⟩ := h
  · exact absurd hs' (Bool.eq_false_iff.mp hs)
  obtain ⟨hready', -⟩ | ⟨-, hfalse⟩ := hk s₁ hs₁
  · exact absurd hready' (Bool.eq_false_iff.mp hready)
  · exact hfalse

end

/-- A thread that finishes has an outcome. -/
theorem exists_ends (h : t.Finishes R s Q) (hR : ∀ s, R s s) :
    ∃ a s', t.Ends R s a s' ∧ Q a s' := by
  induction t generalizing s with
  | done a => exact ⟨a, s, ⟨rfl, rfl⟩, h⟩
  | get k ih => exact ih s h
  | set s₁ k ih => exact ih h
  | clock k ih =>
    obtain ⟨a, s', hk, hQ⟩ := ih 0 (h 0)
    exact ⟨a, s', ⟨0, hk⟩, hQ⟩
  | fork job k ih => exact ih h
  | wait isReady limit k ih =>
    cases hs : isReady s with
    | true =>
      obtain ⟨a, s', hends, hQ⟩ := ih true (h.of_ready hs)
      exact ⟨a, s', .inl ⟨hs, hends⟩, hQ⟩
    | false =>
      -- The others may leave everything as it is, so the thread waits for as long as it may.
      obtain ⟨hlimit, hfalse⟩ := h.of_late hs (hR s) hs
      obtain ⟨a, s', hends, hQ⟩ := ih false hfalse
      exact ⟨a, s', .inr ⟨hs, s, hR s, .inr ⟨hs, hlimit, hends⟩⟩, hQ⟩

/-- Every outcome of a thread that finishes is as required. -/
theorem of_ends {a : α} (h : t.Finishes R s Q) (hends : t.Ends R s a s') : Q a s' := by
  induction t generalizing s with
  | done b =>
    obtain ⟨rfl, rfl⟩ := hends
    exact h
  | get k ih => exact ih s h hends
  | set s₁ k ih => exact ih h hends
  | clock k ih =>
    obtain ⟨now, hk⟩ := hends
    exact ih now (h now) hk
  | fork job k ih => exact ih h hends
  | wait isReady limit k ih =>
    obtain ⟨hs, hends⟩ | ⟨hs, s₁, hs₁, ⟨hready, hends⟩ | ⟨hready, -, hends⟩⟩ := hends
    · exact ih true (h.of_ready hs) hends
    · exact ih true (h.of_brought hs hs₁ hready) hends
    · exact ih false (h.of_late hs hs₁ hready).2 hends

end Finishes

end Thread
end Concurrency
end ScriptSession
