import ScriptSession.Proofs.Concurrency.Protocols

/-!
# Threads among others

What a thread does when the others may act before each of its looks at what is shared, and not only
while it waits. The thread is cut into slices: a slice begins with a look or with the end of a wait
and goes on until the thread looks or waits again. A thread that makes only changes of some kind
and starts no jobs, whatever it sees at its looks (`Thread.Only`), keeps to that in every slice, and
it goes on to what comes after it with a result of the right kind (`Only.slice_bind`).
-/

namespace ScriptSession
namespace Concurrency
namespace Thread

variable {σ ι α β γ : Type} {t : Thread σ ι α} {f : α → Thread σ ι β} {s : σ}

theorem bind_assoc (t : Thread σ ι α) (f : α → Thread σ ι β) (g : β → Thread σ ι γ) :
    (t.bind f).bind g = t.bind fun a => (f a).bind g := by
  induction t with
  | done a => rfl
  | get k ih => exact congrArg get (funext ih)
  | set s k ih => exact congrArg (set s) ih
  | clock k ih => exact congrArg clock (funext ih)
  | fork job k ih => exact congrArg (fork job) ih
  | wait isReady limit k ih => exact congrArg (wait isReady limit) (funext ih)

theorem bind_done (t : Thread σ ι α) : t.bind .done = t := by
  induction t with
  | done a => rfl
  | get k ih => exact congrArg get (funext ih)
  | set s k ih => exact congrArg (set s) ih
  | clock k ih => exact congrArg clock (funext ih)
  | fork job k ih => exact congrArg (fork job) ih
  | wait isReady limit k ih => exact congrArg (wait isReady limit) (funext ih)

instance : LawfulMonad (Thread σ ι) := .mk' _ bind_done (fun _ _ => rfl) bind_assoc

/-! ## Slices -/

/-- Go on until the next look or the next wait: what is shared then, and the thread. The jobs that
are started go their own ways. -/
def settleDown (now : Nat) : Thread σ ι α → σ → σ × Thread σ ι α
  | .set s k, _ => k.settleDown now s
  | .clock k, s => (k now).settleDown now s
  | .fork _ k, s => k.settleDown now s
  | t, s => (s, t)

/-- Look at what is shared, or end a wait, and go on until the next time. A wait that is not for
ever may end late, without what was waited for. -/
def slice (now : Nat) (isLate : Bool) (t : Thread σ ι α) (s : σ) : σ × Thread σ ι α :=
  match t with
  | .get k => (k s).settleDown now s
  | .wait isReady limit k =>
    if isReady s then (k true).settleDown now s
    else if limit.isSome && isLate then (k false).settleDown now s
    else (s, .wait isReady limit k)
  | t => t.settleDown now s

/-- The thread is about to look or to end a wait. -/
def AboutToLook : Thread σ ι α → Prop
  | .get _ | .wait _ _ _ => True
  | _ => False

/-! ## Threads that make only some changes -/

/-- The thread makes only changes in `R` and starts no jobs, and it has only results in `Q`. Nothing
is known about what is shared when it looks or ends a wait. -/
def Only (R : σ → σ → Prop) (Q : α → Prop) : Thread σ ι α → σ → Prop
  | .done a, _ => Q a
  | .get k, _ => ∀ s, (k s).Only R Q s
  | .set s' k, s => R s s' ∧ k.Only R Q s'
  | .clock k, s => ∀ now, (k now).Only R Q s
  | .fork _ _, _ => False
  | .wait _ _ k, _ => ∀ b s, (k b).Only R Q s

variable {R R' : σ → σ → Prop} {Q Q' : α → Prop}

theorem Only.bind {Q' : β → Prop} (h : t.Only R Q s) (hf : ∀ a s, Q a → (f a).Only R Q' s) :
    (t.bind f).Only R Q' s := by
  induction t generalizing s with
  | done a => exact hf a s h
  | get k ih => exact fun s => ih s (h s)
  | set s' k ih => exact ⟨h.1, ih h.2⟩
  | clock k ih => exact fun now => ih now (h now)
  | fork job k ih => exact h.elim
  | wait isReady limit k ih => exact fun b s => ih b (h b s)

theorem Only.mono (h : t.Only R Q s) (hR : ∀ s s', R s s' → R' s s') (hQ : ∀ a, Q a → Q' a) :
    t.Only R' Q' s := by
  induction t generalizing s with
  | done a => exact hQ a h
  | get k ih => exact fun s => ih s (h s)
  | set s' k ih => exact ⟨hR s s' h.1, ih h.2⟩
  | clock k ih => exact fun now => ih now (h now)
  | fork job k ih => exact h.elim
  | wait isReady limit k ih => exact fun b s => ih b (h b s)

/-- A thread that is about to look knows nothing of what is shared. -/
theorem Only.of_aboutToLook (h : t.Only R Q s) (ht : t.AboutToLook) (s' : σ) : t.Only R Q s' := by
  cases t with
  | get k => exact h
  | wait isReady limit k => exact h
  | done a | set s k | clock k | fork job k => exact ht.elim

/-- A thread that makes only some changes heeds every protocol that allows them in one stage. -/
theorem Only.heeds {δ : Type} {P : Protocol δ σ} {g : δ} (h : t.Only R Q s)
    (hrefl : ∀ s, P g s g s) (hR : ∀ s s', R s s' → P g s g s') :
    t.Heeds P (fun g' a => g' = g ∧ Q a) g s := by
  induction t generalizing s with
  | done a => exact ⟨rfl, h⟩
  | get k ih => exact ⟨g, hrefl s, ih s (h s)⟩
  | set s' k ih => exact ⟨g, hR s s' h.1, ih h.2⟩
  | clock k ih => exact fun now => ih now (h now)
  | fork job k ih => exact h.elim
  | wait isReady limit k ih =>
    exact ⟨fun s _ => ih true (h true s), fun _ s => ih false (h false s)⟩

/-- How a thread that makes only some changes goes on in front of others: it is about to look
again, or it is over and what comes after it goes on in the same slice. -/
inductive GoesOn (R : σ → σ → Prop) (Q : α → Prop) (f : α → Thread σ ι β) (now : Nat) (s : σ) :
    σ × Thread σ ι β → Prop
  | before {s' : σ} {t : Thread σ ι α} (ht : t.AboutToLook) (h : t.Only R Q s') (hs : R s s') :
      GoesOn R Q f now s (s', t.bind f)
  | after {s' : σ} {a : α} (ha : Q a) (hs : R s s') :
      GoesOn R Q f now s ((f a).settleDown now s')

theorem GoesOn.of_step {s' : σ} {r : σ × Thread σ ι β}
    (htrans : ∀ s s' s'', R s s' → R s' s'' → R s s'') (hs : R s s') {now : Nat}
    (h : GoesOn R Q f now s' r) : GoesOn R Q f now s r := by
  cases h with
  | before ht h hs' => exact .before ht h (htrans _ _ _ hs hs')
  | after ha hs' => exact .after ha (htrans _ _ _ hs hs')

/-- A thread with nothing to come after it keeps to its changes. -/
theorem GoesOn.only {now : Nat} {r : σ × Thread σ ι α} (h : GoesOn R Q .done now s r) :
    R s r.1 ∧ ∀ s', r.2.Only R Q s' := by
  cases h with
  | before ht h hs =>
    rw [bind_done]
    exact ⟨hs, h.of_aboutToLook ht⟩
  | after ha hs => exact ⟨hs, fun _ => ha⟩

variable (hrefl : ∀ s, R s s) (htrans : ∀ s s' s'', R s s' → R s' s'' → R s s'')
include hrefl htrans

theorem Only.settleDown_bind (h : t.Only R Q s) (f : α → Thread σ ι β) (now : Nat) :
    GoesOn R Q f now s ((t.bind f).settleDown now s) := by
  induction t generalizing s with
  | done a => exact .after h (hrefl s)
  | get k ih => exact .before trivial h (hrefl s)
  | set s' k ih => exact .of_step htrans h.1 (ih h.2)
  | clock k ih => exact ih now (h now)
  | fork job k ih => exact h.elim
  | wait isReady limit k ih => exact .before trivial h (hrefl s)

/-- A slice of a thread that makes only some changes, with something to come after it. -/
theorem Only.slice_bind (h : t.Only R Q s) (ht : t.AboutToLook) (f : α → Thread σ ι β) (now : Nat)
    (isLate : Bool) : GoesOn R Q f now s ((t.bind f).slice now isLate s) := by
  cases t with
  | get k => exact Only.settleDown_bind hrefl htrans (h s) f now
  | wait isReady limit k =>
    have hstays : GoesOn R Q f now s (s, (wait isReady limit k).bind f) :=
      .before trivial h (hrefl s)
    simp only [Thread.bind, slice]
    split
    · exact Only.settleDown_bind hrefl htrans (h true s) f now
    · split
      · exact Only.settleDown_bind hrefl htrans (h false s) f now
      · exact hstays
  | done a | set s k | clock k | fork job k => exact ht.elim

theorem Only.settleDown (h : t.Only R Q s) (now : Nat) :
    R s (t.settleDown now s).1 ∧ ∀ s', (t.settleDown now s).2.Only R Q s' := by
  have hgoes := h.settleDown_bind hrefl htrans .done now
  rw [bind_done] at hgoes
  exact hgoes.only

theorem Only.slice (h : t.Only R Q s) (now : Nat) (isLate : Bool) :
    R s (t.slice now isLate s).1 ∧ ∀ s', (t.slice now isLate s).2.Only R Q s' := by
  by_cases ht : t.AboutToLook
  · have hgoes := h.slice_bind hrefl htrans ht .done now isLate
    rw [bind_done] at hgoes
    exact hgoes.only
  · cases t with
    | get | wait => exact absurd trivial ht
    | done | set | clock | fork => exact h.settleDown hrefl htrans now

end Thread

/-! ## Turns -/

variable {σ ι α β : Type}

/-- What follows a thread is what follows the waits of the thread. -/
def Member.bind (m : Member σ ι α) (f : α → Thread σ ι β) : Member σ ι β :=
  match m with
  | .finished a => .active (f a)
  | .active t => .active (t.bind f)
  | .asleep z => .asleep ⟨z.isReady, z.deadline, fun b => (z.resume b).bind f⟩

theorem Member.bind_assoc {γ : Type} (m : Member σ ι α) (f : α → Thread σ ι β)
    (g : β → Thread σ ι γ) : (m.bind f).bind g = m.bind fun a => (f a).bind g := by
  cases m with
  | finished a => rfl
  | active t => exact congrArg Member.active (t.bind_assoc f g)
  | asleep z =>
    show Member.asleep ⟨z.isReady, z.deadline, fun b => ((z.resume b).bind f).bind g⟩ = _
    simp only [Thread.bind_assoc]
    rfl

/-- A turn of a thread with something to come after it. -/
theorem Pool.drive_bind (now : Nat) (t : Thread σ ι α) (f : α → Thread σ ι β) (s : σ)
    (jobs : List ι) :
    Pool.drive now (t.bind f) s jobs =
      match Pool.drive now t s jobs with
      | (s, .finished a, jobs) => Pool.drive now (f a) s jobs
      | (s, m, jobs) => (s, m.bind f, jobs) := by
  induction t generalizing s jobs with
  | done a => rfl
  | get k ih => exact ih s s jobs
  | set s' k ih => exact ih s' jobs
  | clock k ih => exact ih now s jobs
  | fork job k ih => exact ih s (jobs ++ [job])
  | wait isReady limit k ih =>
    simp only [Thread.bind, Pool.drive]
    split
    · exact ih true s jobs
    · rfl

end Concurrency
end ScriptSession
