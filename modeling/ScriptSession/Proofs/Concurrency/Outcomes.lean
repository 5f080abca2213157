import ScriptSession.Proofs.Concurrency.Pools

/-!
# What threads come to

A thread among others ends with a result in a state, or it does not end. While it waits the others
may change what is shared, as a relation says, and it goes on once what it waits for is there or its
patience is over; the rest of the time it is alone (`Thread.Ends`). What follows a thread goes on
from where the thread ends (`Thread.ends_bind`), so the results of a program are found by going
through it step by step. In a pool whose jobs change what is shared only as the relation says, the
thread in front comes to nothing else (`Pool.ends_of_run`).
-/

namespace ScriptSession
namespace Concurrency
namespace Thread

variable {σ ι α β : Type} {R R' : σ → σ → Prop}

/-- The thread that begins in `s` ends with `a` in `s'`, when others change what is shared only as
`R` says, and only while the thread waits. -/
def Ends (R : σ → σ → Prop) : Thread σ ι α → σ → α → σ → Prop
  | .done b, s, a, s' => a = b ∧ s' = s
  | .get k, s, a, s' => (k s).Ends R s a s'
  | .set s₁ k, _, a, s' => k.Ends R s₁ a s'
  | .clock k, s, a, s' => ∃ now, (k now).Ends R s a s'
  | .fork _ k, s, a, s' => k.Ends R s a s'
  | .wait isReady limit k, s, a, s' =>
    isReady s = true ∧ (k true).Ends R s a s' ∨
      isReady s = false ∧ ∃ s₁, R s s₁ ∧
        (isReady s₁ = true ∧ (k true).Ends R s₁ a s' ∨
          isReady s₁ = false ∧ limit.isSome = true ∧ (k false).Ends R s₁ a s')

variable {t : Thread σ ι α} {f : α → Thread σ ι β} {s s' : σ} {a : α} {b : β}

theorem ends_bind :
    (t.bind f).Ends R s b s' ↔ ∃ a s₁, t.Ends R s a s₁ ∧ (f a).Ends R s₁ b s' := by
  induction t generalizing s with
  | done a =>
    constructor
    · exact fun h => ⟨a, s, ⟨rfl, rfl⟩, h⟩
    · rintro ⟨a, s₁, ⟨rfl, rfl⟩, h⟩
      exact h
  | get k ih => exact ih s
  | set s₁ k ih => exact ih
  | clock k ih =>
    constructor
    · rintro ⟨now, h⟩
      obtain ⟨a, s₁, hk, hf⟩ := (ih now).mp h
      exact ⟨a, s₁, ⟨now, hk⟩, hf⟩
    · rintro ⟨a, s₁, ⟨now, hk⟩, hf⟩
      exact ⟨now, (ih now).mpr ⟨a, s₁, hk, hf⟩⟩
  | fork job k ih => exact ih
  | wait isReady limit k ih =>
    constructor
    · rintro (⟨hs, h⟩ | ⟨hs, s₁, hR, ⟨hs₁, h⟩ | ⟨hs₁, hlimit, h⟩⟩)
      · obtain ⟨a, s₂, hk, hf⟩ := (ih true).mp h
        exact ⟨a, s₂, .inl ⟨hs, hk⟩, hf⟩
      · obtain ⟨a, s₂, hk, hf⟩ := (ih true).mp h
        exact ⟨a, s₂, .inr ⟨hs, s₁, hR, .inl ⟨hs₁, hk⟩⟩, hf⟩
      · obtain ⟨a, s₂, hk, hf⟩ := (ih false).mp h
        exact ⟨a, s₂, .inr ⟨hs, s₁, hR, .inr ⟨hs₁, hlimit, hk⟩⟩, hf⟩
    · rintro ⟨a, s₂, ⟨hs, hk⟩ | ⟨hs, s₁, hR, ⟨hs₁, hk⟩ | ⟨hs₁, hlimit, hk⟩⟩, hf⟩
      · exact .inl ⟨hs, (ih true).mpr ⟨a, s₂, hk, hf⟩⟩
      · exact .inr ⟨hs, s₁, hR, .inl ⟨hs₁, (ih true).mpr ⟨a, s₂, hk, hf⟩⟩⟩
      · exact .inr ⟨hs, s₁, hR, .inr ⟨hs₁, hlimit, (ih false).mpr ⟨a, s₂, hk, hf⟩⟩⟩

/-! ## Steps -/

section

variable {m : Thread σ ι α} {g : α → Thread σ ι β}

theorem ends_bind' :
    (m >>= g).Ends R s b s' ↔ ∃ a s₁, m.Ends R s a s₁ ∧ (g a).Ends R s₁ b s' := ends_bind

theorem ends_pure {c : α} : (pure c : Thread σ ι α).Ends R s a s' ↔ a = c ∧ s' = s := Iff.rfl

theorem ends_get_bind {g : σ → Thread σ ι β} :
    (getThe σ >>= g).Ends R s b s' ↔ (g s).Ends R s b s' := Iff.rfl

theorem ends_modify {f : σ → σ} {u : Unit} :
    (modifyThe σ f : Thread σ ι Unit).Ends R s u s' ↔ s' = f s :=
  ⟨fun h => h.2, fun h => ⟨rfl, h⟩⟩

theorem ends_modify_bind {f : σ → σ} {g : Unit → Thread σ ι β} :
    (modifyThe σ f >>= g).Ends R s b s' ↔ (g ()).Ends R (f s) b s' := Iff.rfl

/-- A wait without a limit ends where what it waits for is there. -/
theorem ends_await {isReady : σ → Bool} {u : Unit} :
    (await isReady : Thread σ ι Unit).Ends R s u s' ↔
      isReady s' = true ∧ (s' = s ∨ isReady s = false ∧ R s s') := by
  constructor
  · rintro (⟨hs, -, rfl⟩ | ⟨hs, s₁, hR, ⟨hs₁, -, rfl⟩ | ⟨-, hlimit, -⟩⟩)
    · exact ⟨hs, .inl rfl⟩
    · exact ⟨hs₁, .inr ⟨hs, hR⟩⟩
    · cases hlimit
  · rintro ⟨hs', rfl | ⟨hs, hR⟩⟩
    · exact .inl ⟨hs', rfl, rfl⟩
    · exact .inr ⟨hs, s', hR, .inl ⟨hs', rfl, rfl⟩⟩

/-- A wait with a limit tells whether what it waits for is there. -/
theorem ends_awaitFor {limit : Nat} {isReady : σ → Bool} {c : Bool} :
    (awaitFor limit isReady : Thread σ ι Bool).Ends R s c s' ↔
      isReady s' = c ∧ (isReady s = true ∧ s' = s ∨ isReady s = false ∧ R s s') := by
  constructor
  · rintro (⟨hs, rfl, rfl⟩ | ⟨hs, s₁, hR, ⟨hs₁, rfl, rfl⟩ | ⟨hs₁, -, rfl, rfl⟩⟩)
    · exact ⟨hs, .inl ⟨hs, rfl⟩⟩
    · exact ⟨hs₁, .inr ⟨hs, hR⟩⟩
    · exact ⟨hs₁, .inr ⟨hs, hR⟩⟩
  · rintro ⟨hc, ⟨hs, rfl⟩ | ⟨hs, hR⟩⟩
    · rw [hs] at hc
      exact .inl ⟨hs, hc.symm, rfl⟩
    · cases c with
      | true => exact .inr ⟨hs, s', hR, .inl ⟨hc, rfl, rfl⟩⟩
      | false => exact .inr ⟨hs, s', hR, .inr ⟨hc, rfl, rfl, rfl⟩⟩

end

/-! ## Results and changes -/

/-- What others may do less often, a thread comes to less often. -/
theorem Ends.mono (h : t.Ends R s a s') (hR : ∀ s s', R s s' → R' s s') : t.Ends R' s a s' := by
  induction t generalizing s with
  | done b => exact h
  | get k ih => exact ih s h
  | set s₁ k ih => exact ih h
  | clock k ih => exact h.imp fun now => ih now
  | fork job k ih => exact ih h
  | wait isReady limit k ih =>
    refine h.imp (And.imp_right (ih true)) (And.imp_right ?_)
    rintro ⟨s₁, hs₁, hk⟩
    exact ⟨s₁, hR _ _ hs₁, hk.imp (And.imp_right (ih true))
      (And.imp_right (And.imp_right (ih false)))⟩

variable {G P : σ → σ → Prop} {Q : α → Prop}

/-- A thread that makes only some changes ends with a result of the right kind, and what its changes
and those of the others keep is kept. -/
theorem Only.of_ends (h : t.Only G Q s) (hends : t.Ends R s a s') (hP : IsKept P)
    (hG : ∀ s s', G s s' → P s s') (hR : ∀ s s', R s s' → P s s') : Q a ∧ P s s' := by
  induction t generalizing s with
  | done b =>
    obtain ⟨rfl, rfl⟩ := hends
    exact ⟨h, hP.refl _⟩
  | get k ih => exact ih s (h s) hends
  | set s₁ k ih => exact (ih h.2 hends).imp_right (hP.trans (hG _ _ h.1))
  | clock k ih =>
    obtain ⟨now, hk⟩ := hends
    exact ih now (h now) hk
  | fork job k ih => exact h.elim
  | wait isReady limit k ih =>
    obtain ⟨-, hk⟩ | ⟨-, s₁, hs₁, ⟨-, hk⟩ | ⟨-, -, hk⟩⟩ := hends
    · exact ih true (h true s) hk
    · exact (ih true (h true s₁) hk).imp_right (hP.trans (hR _ _ hs₁))
    · exact (ih false (h false s₁) hk).imp_right (hP.trans (hR _ _ hs₁))

/-! ## Two runs -/

/-- Whatever two threads come to, each among others of its own, is as `P` says. -/
def Agree (R R' : σ → σ → Prop) (P : α → β → σ → σ → Prop) (t : Thread σ ι α) (s : σ)
    (t' : Thread σ ι β) (s' : σ) : Prop :=
  ∀ a v b v', t.Ends R s a v → t'.Ends R' s' b v' → P a b v v'

/-- Two threads that begin in states which are related have one result and end in such states. -/
def Lockstep (R R' : σ → σ → Prop) (I : σ → σ → Prop) (t t' : Thread σ ι α) : Prop :=
  ∀ s s', I s s' → Agree R R' (fun a b v v' => b = a ∧ I v v') t s t' s'

/-- What others do on either side keeps states related. -/
structure Tolerates (R R' : σ → σ → Prop) (I : σ → σ → Prop) : Prop where
  left : ∀ {s s' v}, I s s' → R s v → I v s'
  right : ∀ {s s' v'}, I s s' → R' s' v' → I s v'

theorem Agree.bind {P : α → α → σ → σ → Prop} {P' : β → β → σ → σ → Prop} {t t' : Thread σ ι α}
    {f f' : α → Thread σ ι β} (h : Agree R R' P t s t' s')
    (hf : ∀ a b v v', P a b v v' → Agree R R' P' (f a) v (f' b) v') :
    Agree R R' P' (t >>= f) s (t' >>= f') s' := by
  intro a v b v' ht ht'
  obtain ⟨c, v₁, hc, hfc⟩ := ends_bind.mp ht
  obtain ⟨c', v₁', hc', hfc'⟩ := ends_bind.mp ht'
  exact hf c c' v₁ v₁' (h c v₁ c' v₁' hc hc') a v b v' hfc hfc'

namespace Lockstep

variable {I : σ → σ → Prop} {t t' : Thread σ ι α} {f f' : α → Thread σ ι β}

theorem pure (a : α) : Lockstep R R' I (pure a : Thread σ ι α) (pure a) := by
  rintro s s' hI a v b v' ⟨rfl, rfl⟩ ⟨rfl, rfl⟩
  exact ⟨rfl, hI⟩

theorem bind (h : Lockstep R R' I t t') (hf : ∀ a, Lockstep R R' I (f a) (f' a)) :
    Lockstep R R' I (t >>= f) (t' >>= f') := by
  refine fun s s' hI => (h s s' hI).bind ?_
  rintro a b v v' ⟨rfl, hv⟩
  exact hf b v v' hv

theorem get_bind {g g' : σ → Thread σ ι α}
    (hg : ∀ s s', I s s' → Lockstep R R' I (g s) (g' s')) :
    Lockstep R R' I (getThe σ >>= g) (getThe σ >>= g') :=
  fun s s' hI => hg s s' hI s s' hI

theorem modify {g g' : σ → σ} (hg : ∀ s s', I s s' → I (g s) (g' s')) :
    Lockstep R R' I (modifyThe σ g : Thread σ ι Unit) (modifyThe σ g') := by
  rintro s s' hI a v b v' ⟨-, rfl⟩ ⟨-, rfl⟩
  exact ⟨rfl, hg s s' hI⟩

theorem forM {γ : Type} {f f' : γ → Thread σ ι Unit}
    (hf : ∀ c, Lockstep R R' I (f c) (f' c)) (cs : List γ) :
    Lockstep R R' I (cs.forM f) (cs.forM f') := by
  induction cs with
  | nil => exact .pure _
  | cons c rest ih => exact .bind (hf c) fun _ => ih

variable (hI : Tolerates R R' I)
include hI

theorem await (isReady isReady' : σ → Bool) :
    Lockstep R R' I (await isReady : Thread σ ι Unit) (await isReady') := by
  intro s s' hs a v b v' ht ht'
  have hv : I v s' := by
    obtain ⟨-, rfl | ⟨-, hR⟩⟩ := ends_await.mp ht
    · exact hs
    · exact hI.left hs hR
  obtain ⟨-, rfl | ⟨-, hR⟩⟩ := ends_await.mp ht'
  · exact ⟨rfl, hv⟩
  · exact ⟨rfl, hI.right hv hR⟩

/-- Two waits for what is there or not on both sides. -/
theorem awaitFor (limit : Nat) {isReady isReady' : σ → Bool}
    (h : ∀ s s', I s s' → isReady' s' = isReady s) :
    Lockstep R R' I (awaitFor limit isReady : Thread σ ι Bool) (awaitFor limit isReady') := by
  intro s s' hs a v b v' ht ht'
  obtain ⟨rfl, hv⟩ := ends_awaitFor.mp ht
  obtain ⟨rfl, hv'⟩ := ends_awaitFor.mp ht'
  have hvs : I v s' := by
    obtain ⟨-, rfl⟩ | ⟨-, hR⟩ := hv
    · exact hs
    · exact hI.left hs hR
  have hvv : I v v' := by
    obtain ⟨-, rfl⟩ | ⟨-, hR⟩ := hv'
    · exact hvs
    · exact hI.right hvs hR
  exact ⟨h v v' hvv, hvv⟩

end Lockstep

/-! ## Two threads that do the same -/

/-- The two threads do the same as long as what is shared satisfies `P` whenever they look at it. -/
inductive SameWhile (P : σ → Prop) : Thread σ ι α → Thread σ ι α → Prop
  | done (a : α) : SameWhile P (.done a) (.done a)
  | get {k k' : σ → Thread σ ι α} (h : ∀ s, P s → SameWhile P (k s) (k' s)) :
    SameWhile P (.get k) (.get k')
  | set (s : σ) {k k' : Thread σ ι α} (h : SameWhile P k k') : SameWhile P (.set s k) (.set s k')
  | clock {k k' : Nat → Thread σ ι α} (h : ∀ now, SameWhile P (k now) (k' now)) :
    SameWhile P (.clock k) (.clock k')
  | fork (job : ι) {k k' : Thread σ ι α} (h : SameWhile P k k') :
    SameWhile P (.fork job k) (.fork job k')
  | wait (isReady : σ → Bool) (limit : Option Nat) {k k' : Bool → Thread σ ι α}
    (h : ∀ b, SameWhile P (k b) (k' b)) :
    SameWhile P (.wait isReady limit k) (.wait isReady limit k')

namespace SameWhile

variable {P : σ → Prop} {t t' : Thread σ ι α}

theorem refl (t : Thread σ ι α) : SameWhile P t t := by
  induction t with
  | done a => exact .done a
  | get k ih => exact .get fun s _ => ih s
  | set s k ih => exact .set s ih
  | clock k ih => exact .clock ih
  | fork job k ih => exact .fork job ih
  | wait isReady limit k ih => exact .wait isReady limit ih

theorem bind {f f' : α → Thread σ ι β} (h : SameWhile P t t')
    (hf : ∀ a, SameWhile P (f a) (f' a)) : SameWhile P (t >>= f) (t' >>= f') := by
  show SameWhile P (t.bind f) (t'.bind f')
  induction h with
  | done a => exact hf a
  | get _ ih => exact .get ih
  | set s _ ih => exact .set s ih
  | clock _ ih => exact .clock ih
  | fork job _ ih => exact .fork job ih
  | wait isReady limit _ ih => exact .wait isReady limit ih

theorem get_bind {g g' : σ → Thread σ ι α} (hg : ∀ s, P s → SameWhile P (g s) (g' s)) :
    SameWhile P (getThe σ >>= g) (getThe σ >>= g') := .get hg

theorem mono {P' : σ → Prop} (h : SameWhile P t t') (hP : ∀ s, P' s → P s) :
    SameWhile P' t t' := by
  induction h with
  | done a => exact .done a
  | get _ ih => exact .get fun s hs => ih s (hP s hs)
  | set s _ ih => exact .set s ih
  | clock _ ih => exact .clock ih
  | fork job _ ih => exact .fork job ih
  | wait isReady limit _ ih => exact .wait isReady limit ih

theorem forM {γ : Type} {f f' : γ → Thread σ ι Unit} {cs : List γ}
    (hf : ∀ c ∈ cs, SameWhile P (f c) (f' c)) : SameWhile P (cs.forM f) (cs.forM f') := by
  induction cs with
  | nil => exact .refl _
  | cons c rest ih =>
    exact .bind (hf c List.mem_cons_self) fun _ => ih fun d hd => hf d (List.mem_cons_of_mem c hd)

end SameWhile

end Thread

/-! ## In front of a pool -/

variable {σ ι α : Type} {R : σ → σ → Prop} {s : σ} {t : Thread σ ι α}

/-- What a waiting thread comes to, in whatever state the others leave it, a thread comes to. -/
def Sleeper.StandsFor (R : σ → σ → Prop) (z : Sleeper σ ι α) (t : Thread σ ι α) (s s₁ : σ) : Prop :=
  ∀ s₂ a s', R s₁ s₂ →
    (z.isReady s₂ = true ∧ (z.resume true).Ends R s₂ a s' ∨
      z.isReady s₂ = false ∧ z.deadline.isSome = true ∧ (z.resume false).Ends R s₂ a s') →
      t.Ends R s a s'

/-- A turn of a thread takes it to where it ends, or to a wait that stands for it. -/
theorem Thread.ends_drive (now : Nat) (t : Thread σ ι α) (s : σ) (jobs : List ι) :
    (∃ a s' jobs', Pool.drive now t s jobs = (s', .finished a, jobs') ∧ t.Ends R s a s') ∨
      ∃ z s' jobs', Pool.drive now t s jobs = (s', .asleep z, jobs') ∧ z.StandsFor R t s s' := by
  induction t generalizing s jobs with
  | done a => exact .inl ⟨a, s, jobs, rfl, rfl, rfl⟩
  | get k ih => exact ih s s jobs
  | set s₁ k ih => exact ih s₁ jobs
  | clock k ih =>
    refine (ih now s jobs).imp ?_ ?_
    · rintro ⟨a, s', jobs', hdrive, hk⟩
      exact ⟨a, s', jobs', hdrive, now, hk⟩
    · rintro ⟨z, s', jobs', hdrive, hz⟩
      exact ⟨z, s', jobs', hdrive, fun s₂ a s'' hs₂ hk => ⟨now, hz s₂ a s'' hs₂ hk⟩⟩
  | fork job k ih => exact ih s (jobs ++ [job])
  | wait isReady limit k ih =>
    rw [Pool.drive]
    split
    · rename_i hready
      refine (ih true s jobs).imp ?_ ?_
      · rintro ⟨a, s', jobs', hdrive, hk⟩
        exact ⟨a, s', jobs', hdrive, .inl ⟨hready, hk⟩⟩
      · rintro ⟨z, s', jobs', hdrive, hz⟩
        exact ⟨z, s', jobs', hdrive, fun s₂ a s'' hs₂ hk => .inl ⟨hready, hz s₂ a s'' hs₂ hk⟩⟩
    · -- The wait begins here, and what the others do from here on is what it leaves open.
      rename_i hready
      rw [Bool.not_eq_true] at hready
      refine .inr ⟨_, s, jobs, rfl, fun s₂ a s'' hs₂ hk => .inr ⟨hready, s₂, hs₂, ?_⟩⟩
      rw [Option.isSome_map] at hk
      exact hk

/-- A thread that a turn takes to its end ends there. -/
theorem Thread.ends_of_drive {now : Nat} {a : α} {s' : σ} {jobs jobs' : List ι}
    (h : Pool.drive now t s jobs = (s', .finished a, jobs')) : t.Ends R s a s' := by
  obtain ⟨b, s₁, _, hdrive, hends⟩ | ⟨z, s₁, _, hdrive, -⟩ := t.ends_drive (R := R) now s jobs
  · rw [h] at hdrive
    cases hdrive
    exact hends
  · rw [h] at hdrive
    cases hdrive

/-- The thread in front is on its way: it has not begun, or it waits, or it has ended. -/
inductive Pool.Goes (R : σ → σ → Prop) (t : Thread σ ι α) (s : σ) : Pool σ ι α → Prop
  | begins {now : Nat} : Pool.Goes R t s ⟨s, now, .active t, []⟩
  | waits {z : Sleeper σ ι α} {s₁ s₂ : σ} {now : Nat} {others : List (Member σ ι Unit)}
      (hz : z.StandsFor R t s s₁) (hs : R s₁ s₂)
      (hothers : AllBehave R (fun _ => True) others) : Pool.Goes R t s ⟨s₂, now, .asleep z, others⟩
  | ended {a : α} {s₁ s₂ : σ} {now : Nat} {others : List (Member σ ι Unit)}
      (ht : t.Ends R s a s₁) (hs : R s₁ s₂)
      (hothers : AllBehave R (fun _ => True) others) :
      Pool.Goes R t s ⟨s₂, now, .finished a, others⟩

section

variable {body : ι → Thread σ ι Unit} (hR : IsKept R)
  (hbody : ∀ job s, (body job).Behaves R (fun _ => True) (fun _ _ => True) s)
include hR hbody

/-- A turn of the thread in front, from where what it does stands for the whole thread. -/
theorem Pool.goes_of_drive {t' : Thread σ ι α} {s₁ : σ} {now : Nat}
    {others : List (Member σ ι Unit)} (ht' : ∀ a s', t'.Ends R s₁ a s' → t.Ends R s a s')
    (hothers : AllBehave R (fun _ => True) others) :
    let r := Pool.drive now t' s₁ []
    Pool.Goes R t s ⟨r.1, now, r.2.1, others ++ Pool.spawn body r.2.2⟩ := by
  have hspawn : ∀ jobs, AllBehave R (fun _ => True) (others ++ Pool.spawn body jobs) :=
    fun jobs => hothers.append (allBehave_spawn (fun job _ => hbody job) fun _ _ => trivial)
  obtain ⟨a, s', jobs, hdrive, ha⟩ | ⟨z, s', jobs, hdrive, hz⟩ := t'.ends_drive now s₁ []
  · rw [hdrive]
    exact .ended (ht' a s' ha) (hR.refl s') (hspawn jobs)
  · rw [hdrive]
    exact .waits (fun s₂ a s'' hs₂ hk => ht' a s'' (hz s₂ a s'' hs₂ hk)) (hR.refl s') (hspawn jobs)

theorem Pool.Goes.step {p p' : Pool σ ι α} (hp : p.Goes R t s) (hstep : p.step body = some p') :
    p'.Goes R t s := by
  have hjobs : ∀ job, (fun _ : ι => True) job → ∀ s,
      (body job).Behaves R (fun _ => True) (fun _ _ => True) s := fun job _ => hbody job
  obtain ⟨s', members, left, hturn, hleft, rfl⟩ | ⟨t', hwake, rfl⟩ | ⟨now', -, rfl⟩ :=
    Pool.step_cases hstep
  · cases hp with
    | begins => cases hturn
    | waits hz hs hothers =>
      obtain ⟨hs', hnext⟩ := hothers.turn hjobs hR hturn
      exact .waits hz (hR.trans hs hs') fun m hm => hnext m (hleft hm)
    | ended ht hs hothers =>
      obtain ⟨hs', hnext⟩ := hothers.turn hjobs hR hturn
      exact .ended ht (hR.trans hs hs') fun m hm => hnext m (hleft hm)
  · cases hp with
    | begins =>
      cases hwake
      exact Pool.goes_of_drive hR hbody (fun _ _ h => h) fun _ hm => (List.not_mem_nil hm).elim
    | @waits z s₁ s₂ now others hz hs hothers =>
      -- The wait stands for the whole thread in the state in which the others have left it.
      refine Pool.goes_of_drive hR hbody (fun a s' h => hz s₂ a s' hs ?_) hothers
      obtain ⟨hready, rfl⟩ | ⟨hready, ⟨time, hdeadline, -⟩, rfl⟩ :=
        Pool.wake_asleep_eq_some.mp hwake
      · exact .inl ⟨hready, h⟩
      · exact .inr ⟨hready, Option.isSome_of_eq_some hdeadline, h⟩
    | ended => cases hwake
  · cases hp with
    | begins => exact .begins
    | waits hz hs hothers => exact .waits hz hs hothers
    | ended ht hs hothers => exact .ended ht hs hothers

/-- Where the jobs of a pool change what is shared only in some way, the thread in front comes to
what a thread among others comes to. -/
theorem Pool.ends_of_run {n : Nat} {a : α}
    (hend : (Pool.run body n (.ofThread t s)).result? = some a) :
    ∃ s', t.Ends R s a s' ∧ R s' (Pool.run body n (.ofThread t s)).shared := by
  have hlast : (Pool.run body n (.ofThread t s)).Goes R t s :=
    Pool.run_keeps (fun p p' hp hstep => hp.step hR hbody hstep) n .begins
  generalize Pool.run body n (.ofThread t s) = p at hend hlast
  cases hlast with
  | begins => cases hend
  | waits => cases hend
  | ended ht hs =>
    cases hend
    exact ⟨_, ht, hs⟩

end

end Concurrency
end ScriptSession
