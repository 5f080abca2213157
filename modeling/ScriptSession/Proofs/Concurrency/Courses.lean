import ScriptSession.Proofs.Concurrency.Interference

/-!
# The course of a thread among others

What a thread does one action at a time, while others may change what is shared whenever the thread
is about to look and after its end. Each change of the thread's own is written down with what was
shared before and after it. The thread abides by a protocol if its next changes are steps of the
protocol, in whatever stage and state it looks, provided that every stage has a property of what is
shared that the others keep (`Thread.Abides`). Main statements: what a thread has done is then a
chain of steps of the protocol, after each of its actions (`Course.Stands.act`) and after each of
the changes of the others (`Course.Stands.others`), and the course of a thread that goes on after
another is a course of the other, with a course of what comes next after it if the other is over
(`Course.Comes.bind_cases`).
-/

namespace ScriptSession
namespace Concurrency

variable {γ σ ι α β : Type}

namespace Thread

/-- The thread makes only steps of the protocol and keeps what its stage demands of what is shared,
if the others keep that as well, and it ends in a stage and with a result as `Q` says. -/
def Abides (P : Protocol γ σ) (J : γ → σ → Prop) (Q : γ → α → Prop) : Thread σ ι α → γ → σ → Prop
  | .done a, g, _ => Q g a
  | .get k, g, _ => ∀ s, J g s → (k s).Abides P J Q g s
  | .set s' k, g, s => ∃ g', P g s g' s' ∧ J g' s' ∧ k.Abides P J Q g' s'
  | .clock k, g, s => ∀ now, (k now).Abides P J Q g s
  | .fork _ k, g, s => k.Abides P J Q g s
  | .wait _ _ k, g, _ => ∀ b s, J g s → (k b).Abides P J Q g s

variable {P : Protocol γ σ} {J : γ → σ → Prop} {Q : γ → α → Prop} {t : Thread σ ι α} {g : γ} {s : σ}

theorem Abides.bind {R : γ → β → Prop} {f : α → Thread σ ι β} (h : t.Abides P J Q g s)
    (hJ : J g s) (hf : ∀ g a s, J g s → Q g a → (f a).Abides P J R g s) :
    (t.bind f).Abides P J R g s := by
  induction t generalizing g s with
  | done a => exact hf g a s hJ h
  | get k ih => exact fun s hs => ih s (h s hs) hs
  | set s' k ih =>
    obtain ⟨g', hstep, hJ', hk⟩ := h
    exact ⟨g', hstep, hJ', ih hk hJ'⟩
  | clock k ih => exact fun now => ih now (h now) hJ
  | fork job k ih => exact ih h hJ
  | wait isReady limit k ih => exact fun b s hs => ih b (h b s hs) hs

/-- A thread that makes only some changes abides by every protocol that allows them in some stages,
and it stays in these. -/
theorem Only.abides {R : σ → σ → Prop} {Q : α → Prop} (S : γ → Prop) (h : t.Only R Q s)
    (hR : ∀ g s s', S g → J g s → R s s' → ∃ g', S g' ∧ P g s g' s' ∧ J g' s') (hg : S g)
    (hJ : J g s) : t.Abides P J (fun g a => S g ∧ Q a) g s := by
  induction t generalizing g s with
  | done a => exact ⟨hg, h⟩
  | get k ih => exact fun s hs => ih s (h s) hg hs
  | set s' k ih =>
    obtain ⟨g', hg', hstep, hJ'⟩ := hR g s s' hg hJ h.1
    exact ⟨g', hstep, hJ', ih h.2 hg' hJ'⟩
  | clock k ih => exact fun now => ih now (h now) hg hJ
  | fork job k ih => exact h.elim
  | wait isReady limit k ih => exact fun b s hs => ih b (h b s) hg hs

/-- The thread is about to look or to end a wait, or it is over. -/
def Pauses : Thread σ ι α → Prop
  | .done _ | .get _ | .wait _ _ _ => True
  | _ => False

/-- A thread that pauses knows of what is shared only what its stage demands. -/
theorem Abides.of_pauses (h : t.Abides P J Q g s) (ht : t.Pauses) (s' : σ) :
    t.Abides P J Q g s' := by
  cases t with
  | done | get | wait => exact h
  | set | clock | fork => exact ht.elim

/-- A thread that is not over pauses where the thread pauses that goes on after it. -/
theorem pauses_bind {f : α → Thread σ ι β} (ht : ∀ a, t ≠ .done a) :
    (t.bind f).Pauses ↔ t.Pauses := by
  cases t with
  | done a => exact absurd rfl (ht a)
  | get | set | clock | fork | wait => exact Iff.rfl

theorem bind_eq_done {f : α → Thread σ ι β} {b : β} (h : t.bind f = .done b) :
    ∃ a, t = .done a ∧ f a = .done b := by
  cases t with
  | done a => exact ⟨a, rfl, h⟩
  | get | set | clock | fork | wait => cases h

/-- The thread is over after so many actions at most, and it waits for nothing. -/
def Within : Nat → Thread σ ι α → Prop
  | _, .done _ => True
  | 0, _ => False
  | n + 1, .get k => ∀ s, (k s).Within n
  | n + 1, .set _ k => k.Within n
  | n + 1, .clock k => ∀ now, (k now).Within n
  | n + 1, .fork _ k => k.Within n
  | _ + 1, .wait _ _ _ => False

theorem within_done (n : Nat) (a : α) : (done a : Thread σ ι α).Within n := by
  cases n <;> exact trivial

theorem Within.mono {m n : Nat} (h : t.Within m) (hmn : m ≤ n) : t.Within n := by
  induction t generalizing m n with
  | done a => exact within_done n a
  | get k ih | clock k ih =>
    obtain _ | m := m <;> obtain _ | n := n
    · exact h.elim
    · exact h.elim
    · omega
    · exact fun x => ih x (h x) (by omega)
  | set _ k ih | fork _ k ih =>
    obtain _ | m := m <;> obtain _ | n := n
    · exact h.elim
    · exact h.elim
    · omega
    · exact ih h (by omega)
  | wait => cases m <;> exact h.elim

theorem Within.bind {f : α → Thread σ ι β} {m n : Nat} (h : t.Within m)
    (hf : ∀ a, (f a).Within n) : (t.bind f).Within (m + n) := by
  induction t generalizing m with
  | done a => exact (hf a).mono (Nat.le_add_left n m)
  | get k ih | clock k ih =>
    obtain _ | m := m
    · exact h.elim
    · rw [Nat.succ_add]
      exact fun x => ih x (h x)
  | set _ k ih | fork _ k ih =>
    obtain _ | m := m
    · exact h.elim
    · rw [Nat.succ_add]
      exact ih h
  | wait => cases m <;> exact h.elim

theorem within_zero : t.Within 0 ↔ ∃ a, t = .done a := by
  constructor
  · intro h
    cases t with
    | done a => exact ⟨a, rfl⟩
    | get | set | clock | fork | wait => exact h.elim
  · rintro ⟨a, rfl⟩
    exact trivial

end Thread

/-- Chains of steps of the protocol from a stage on, with the changes that they make. -/
inductive Protocol.Chain (P : Protocol γ σ) (start : γ) : γ → List (σ × σ) → Prop
  | nil : P.Chain start start []
  | concat {g g' : γ} {changes : List (σ × σ)} {s s' : σ} (h : P.Chain start g changes)
      (hstep : P g s g' s') : P.Chain start g' (changes ++ [(s, s')])

/-- A thread at work: what is shared, what the thread has still to do, and the changes that it has
made. -/
structure Course (σ ι α : Type) where
  shared : σ
  thread : Thread σ ι α
  changes : List (σ × σ)

namespace Course

/-- The next action of the thread. A wait that is not for ever may end late, without what was waited
for. -/
def act (c : Course σ ι α) (now : Nat) (isLate : Bool) : Course σ ι α :=
  match c.thread with
  | .done _ => c
  | .get k => { c with thread := k c.shared }
  | .set s k => ⟨s, k, c.changes ++ [(c.shared, s)]⟩
  | .clock k => { c with thread := k now }
  | .fork _ k => { c with thread := k }
  | .wait isReady limit k =>
    if isReady c.shared then { c with thread := k true }
    else if limit.isSome && isLate then { c with thread := k false }
    else c

open Classical in
/-- Others change what is shared, if the thread pauses and the change is one of theirs. -/
noncomputable def others (R : σ → σ → Prop) (c : Course σ ι α) (s : σ) : Course σ ι α :=
  if c.thread.Pauses ∧ R c.shared s then { c with shared := s } else c

/-- The thread has come to a stage by steps of the protocol and abides by it from there on. -/
structure Stands (P : Protocol γ σ) (J : γ → σ → Prop) (Q : γ → α → Prop) (start g : γ)
    (c : Course σ ι α) : Prop where
  chain : P.Chain start g c.changes
  shared : J g c.shared
  thread : c.thread.Abides P J Q g c.shared

variable {P : Protocol γ σ} {J : γ → σ → Prop} {Q : γ → α → Prop} {start g : γ} {c : Course σ ι α}

theorem Stands.act (h : c.Stands P J Q start g) (now : Nat) (isLate : Bool) :
    ∃ g', (g' = g ∨ ∃ s s', P g s g' s') ∧ (c.act now isLate).Stands P J Q start g' := by
  obtain ⟨shared, thread, changes⟩ := c
  obtain ⟨hchain, hJ, hthread⟩ := h
  cases thread with
  | done a => exact ⟨g, .inl rfl, hchain, hJ, hthread⟩
  | get k => exact ⟨g, .inl rfl, hchain, hJ, hthread shared hJ⟩
  | set s' k =>
    obtain ⟨g', hstep, hJ', hk⟩ := hthread
    exact ⟨g', .inr ⟨_, _, hstep⟩, hchain.concat hstep, hJ', hk⟩
  | clock k => exact ⟨g, .inl rfl, hchain, hJ, hthread now⟩
  | fork job k => exact ⟨g, .inl rfl, hchain, hJ, hthread⟩
  | wait isReady limit k =>
    -- Whatever the wait comes to, the stage is the one in which it has begun.
    refine ⟨g, .inl rfl, ?_⟩
    simp only [Course.act]
    split
    · exact ⟨hchain, hJ, hthread true shared hJ⟩
    · split
      · exact ⟨hchain, hJ, hthread false shared hJ⟩
      · exact ⟨hchain, hJ, hthread⟩

theorem Stands.others {R : σ → σ → Prop} (hR : ∀ g s s', R s s' → J g s → J g s')
    (h : c.Stands P J Q start g) (s : σ) : (c.others R s).Stands P J Q start g := by
  rw [Course.others]
  split
  · rename_i hmay
    exact ⟨h.chain, hR g _ _ hmay.2 h.shared, h.thread.of_pauses hmay.1 s⟩
  · exact h

/-! ## Courses of threads that go on -/

/-- A course comes to another by actions of its thread and changes of the others. -/
inductive Comes (R : σ → σ → Prop) (c : Course σ ι α) : Course σ ι α → Prop
  | refl : Comes R c c
  | act {d : Course σ ι α} (h : Comes R c d) (now : Nat) (isLate : Bool) :
      Comes R c (d.act now isLate)
  | others {d : Course σ ι α} (h : Comes R c d) (s : σ) : Comes R c (d.others R s)

/-- The course of a thread whose changes come after others. -/
def after (earlier : List (σ × σ)) (c : Course σ ι α) : Course σ ι α :=
  { c with changes := earlier ++ c.changes }

/-- The course of a thread that goes on when it is over. -/
def bind (c : Course σ ι α) (f : α → Thread σ ι β) : Course σ ι β :=
  ⟨c.shared, c.thread.bind f, c.changes⟩

variable {R : σ → σ → Prop} {c' d : Course σ ι α} {f : α → Thread σ ι β}

theorem act_after (earlier : List (σ × σ)) (c : Course σ ι α) (now : Nat) (isLate : Bool) :
    (c.after earlier).act now isLate = (c.act now isLate).after earlier := by
  obtain ⟨shared, thread, changes⟩ := c
  cases thread with
  | done | get | clock | fork => rfl
  | set s k => simp only [act, after, List.append_assoc]
  | wait isReady limit k =>
    simp only [act, apply_ite (after earlier)]
    rfl

theorem others_after (earlier : List (σ × σ)) (c : Course σ ι α) (s : σ) :
    (c.after earlier).others R s = (c.others R s).after earlier := by
  simp only [others, apply_ite (after earlier)]
  rfl

theorem act_bind (hc : ∀ a, c.thread ≠ .done a) (now : Nat) (isLate : Bool) :
    (c.bind f).act now isLate = (c.act now isLate).bind f := by
  obtain ⟨shared, thread, changes⟩ := c
  cases thread with
  | done a => exact absurd rfl (hc a)
  | get | set | clock | fork => rfl
  | wait isReady limit k =>
    simp only [act, apply_ite (bind · f)]
    rfl

theorem others_bind (hc : ∀ a, c.thread ≠ .done a) (s : σ) :
    (c.bind f).others R s = (c.others R s).bind f := by
  have hpauses : (c.bind f).thread.Pauses ↔ c.thread.Pauses := Thread.pauses_bind hc
  by_cases hmay : c.thread.Pauses ∧ R c.shared s
  · rw [others, others, if_pos hmay, if_pos ⟨hpauses.mpr hmay.1, hmay.2⟩]
    rfl
  · rw [others, others, if_neg hmay, if_neg fun h => hmay ⟨hpauses.mp h.1, h.2⟩]

theorem bind_of_done {a : α} (h : c.thread = .done a) :
    c.bind f = after c.changes ⟨c.shared, f a, []⟩ := by
  simp only [bind, after, h, Thread.bind, List.append_nil]

theorem Comes.of_after {earlier : List (σ × σ)} (h : (c.after earlier).Comes R c') :
    ∃ d, c.Comes R d ∧ c' = d.after earlier := by
  induction h with
  | refl => exact ⟨c, .refl, rfl⟩
  | act _ now isLate ih =>
    obtain ⟨d, hd, rfl⟩ := ih
    exact ⟨_, hd.act now isLate, act_after ..⟩
  | others _ s ih =>
    obtain ⟨d, hd, rfl⟩ := ih
    exact ⟨_, hd.others s, others_after ..⟩

/-- What has become of a thread that goes on: it is not over or has just come to its result, or
what follows the result is on its way. -/
theorem Comes.bind_cases {b : Course σ ι β} (h : (c.bind f).Comes R b) :
    (∃ d, c.Comes R d ∧ b = d.bind f) ∨
      ∃ d a e, c.Comes R d ∧ d.thread = .done a ∧ Comes R ⟨d.shared, f a, []⟩ e ∧
        b = e.after d.changes := by
  -- A thread that is over is followed as what comes next, with its own changes before it.
  have hnext : ∀ {d : Course σ ι α} {b : Course σ ι β}, c.Comes R d →
      (∃ a, d.thread = .done a) → (d.bind f).Comes R b →
      ∃ d a e, c.Comes R d ∧ d.thread = .done a ∧ Comes R ⟨d.shared, f a, []⟩ e ∧
        b = e.after d.changes := by
    rintro d b hd ⟨a, ha⟩ hb
    rw [bind_of_done ha] at hb
    obtain ⟨e, he, rfl⟩ := hb.of_after
    exact ⟨d, a, e, hd, ha, he, rfl⟩
  induction h with
  | refl => exact .inl ⟨c, .refl, rfl⟩
  | act _ now isLate ih =>
    obtain ⟨d, hd, rfl⟩ | ⟨d, a, e, hd, ha, he, rfl⟩ := ih
    · by_cases hdone : ∃ a, d.thread = .done a
      · exact .inr (hnext hd hdone (.act .refl now isLate))
      · exact .inl ⟨_, hd.act now isLate, act_bind (not_exists.mp hdone) ..⟩
    · exact .inr ⟨d, a, _, hd, ha, he.act now isLate, act_after ..⟩
  | others _ s ih =>
    obtain ⟨d, hd, rfl⟩ | ⟨d, a, e, hd, ha, he, rfl⟩ := ih
    · by_cases hdone : ∃ a, d.thread = .done a
      · exact .inr (hnext hd hdone (.others .refl s))
      · exact .inl ⟨_, hd.others s, others_bind (not_exists.mp hdone) s⟩
    · exact .inr ⟨d, a, _, hd, ha, he.others s, others_after ..⟩

/-- A course whose thread abides by a protocol comes only to such courses, and what every step of
the protocol keeps of the stage is kept. -/
theorem Stands.comes {F : γ → Prop} (hR : ∀ g s s', R s s' → J g s → J g s')
    (hF : ∀ g s g' s', P g s g' s' → F g → F g') (h : c.Stands P J Q start g)
    (hc : c.Comes R c') : ∃ g', c'.Stands P J Q start g' ∧ (F g → F g') := by
  induction hc with
  | refl => exact ⟨g, h, id⟩
  | act _ now isLate ih =>
    obtain ⟨g', hg', hkept⟩ := ih
    obtain ⟨g'', hstep, hg''⟩ := hg'.act now isLate
    refine ⟨g'', hg'', fun hF₀ => ?_⟩
    obtain rfl | ⟨s, s', hs⟩ := hstep
    · exact hkept hF₀
    · exact hF _ _ _ _ hs (hkept hF₀)
  | others _ s ih =>
    obtain ⟨g', hg', hkept⟩ := ih
    exact ⟨g', hg'.others hR s, hkept⟩

/-- An action brings a thread nearer to its end. -/
theorem within_act {n : Nat} (h : c.thread.Within (n + 1)) (now : Nat) (isLate : Bool) :
    (c.act now isLate).thread.Within n := by
  obtain ⟨shared, thread, changes⟩ := c
  cases thread with
  | done a => exact Thread.within_done n a
  | get k => exact h shared
  | set s k | fork job k => exact h
  | clock k => exact h now
  | wait isReady limit k => exact h.elim

end Course
end Concurrency
end ScriptSession
