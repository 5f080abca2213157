import ScriptSession.Proofs.Concurrency.Interference

/-!
# Runs of pools

What a pool comes to, from what its threads do one by one. A thread behaves if its changes are in a
relation, the jobs it starts are of some kind and its results are right, where others may have
changed anything while it has waited (`Thread.Behaves`). If the thread in front behaves up to some
point and whatever is started behaves, then what the changes keep holds of the shared state when
the thread in front comes to that point, and what it does afterwards is up to what comes after
(`Pool.run_bind`).
-/

namespace ScriptSession
namespace Concurrency

variable {σ ι α β : Type} {R G : σ → σ → Prop} {J : ι → Prop} {Q : α → σ → Prop}

namespace Thread

/-- The changes of the thread are in `R`, the jobs it starts are in `J`, and it has results as `Q`
says in the state in which it ends. Nothing is known about the state after a wait but what was
waited for. -/
def Behaves (R : σ → σ → Prop) (J : ι → Prop) (Q : α → σ → Prop) : Thread σ ι α → σ → Prop
  | .done a, s => Q a s
  | .get k, s => (k s).Behaves R J Q s
  | .set s' k, s => R s s' ∧ k.Behaves R J Q s'
  | .clock k, s => ∀ now, (k now).Behaves R J Q s
  | .fork job k, s => J job ∧ k.Behaves R J Q s
  | .wait isReady limit k, _ =>
    (∀ s, isReady s = true → (k true).Behaves R J Q s) ∧
      (limit.isSome → ∀ s, (k false).Behaves R J Q s)

variable {t : Thread σ ι α} {s : σ}

theorem behaves_get {k : σ → Thread σ ι α} :
    (Thread.get k).Behaves R J Q s ↔ (k s).Behaves R J Q s := Iff.rfl

theorem Behaves.bind {f : α → Thread σ ι β} {Q' : β → σ → Prop} (h : t.Behaves R J Q s)
    (hf : ∀ a s, Q a s → (f a).Behaves R J Q' s) : (t.bind f).Behaves R J Q' s := by
  induction t generalizing s with
  | done a => exact hf a s h
  | get k ih => exact ih s h
  | set s' k ih => exact ⟨h.1, ih h.2⟩
  | clock k ih => exact fun now => ih now (h now)
  | fork job k ih => exact ⟨h.1, ih h.2⟩
  | wait isReady limit k ih =>
    exact ⟨fun s hs => ih true (h.1 s hs), fun hlimit s => ih false (h.2 hlimit s)⟩

/-- A thread that goes on only if what comes first has not failed. -/
theorem Behaves.bindExcept {ε : Type} {x : ExceptT ε (Thread σ ι) α}
    {f : α → ExceptT ε (Thread σ ι) β} {Q : Except ε α → σ → Prop} {Q' : Except ε β → σ → Prop}
    (h : x.run.Behaves R J Q s) (hok : ∀ a s, Q (.ok a) s → (f a).run.Behaves R J Q' s)
    (herror : ∀ e s, Q (.error e) s → Q' (.error e) s) : (x >>= f).run.Behaves R J Q' s := by
  refine h.bind fun r s hr => ?_
  cases r with
  | ok a => exact hok a s hr
  | error e => exact herror e s hr

theorem Behaves.liftExcept (ε : Type) (h : t.Behaves R J Q s) :
    (ExceptT.lift t : ExceptT ε (Thread σ ι) α).run.Behaves R J
      (fun r s => ∃ a, r = .ok a ∧ Q a s) s :=
  h.bind fun a _ ha => ⟨a, rfl, ha⟩

theorem Behaves.mono {R' : σ → σ → Prop} {J' : ι → Prop} {Q' : α → σ → Prop}
    (h : t.Behaves R J Q s) (hR : ∀ s s', R s s' → R' s s') (hJ : ∀ job, J job → J' job)
    (hQ : ∀ a s, Q a s → Q' a s) : t.Behaves R' J' Q' s := by
  induction t generalizing s with
  | done a => exact hQ a s h
  | get k ih => exact ih s h
  | set s' k ih => exact ⟨hR s s' h.1, ih h.2⟩
  | clock k ih => exact fun now => ih now (h now)
  | fork job k ih => exact ⟨hJ job h.1, ih h.2⟩
  | wait isReady limit k ih =>
    exact ⟨fun s hs => ih true (h.1 s hs), fun hlimit s => ih false (h.2 hlimit s)⟩

/-- A thread that makes only some changes and starts no jobs. -/
theorem Only.behaves {P : α → Prop} (h : t.Only G P s) (hR : ∀ s s', G s s' → R s s') :
    t.Behaves R J (fun a _ => P a) s := by
  induction t generalizing s with
  | done a => exact h
  | get k ih => exact ih s (h s)
  | set s' k ih => exact ⟨hR s s' h.1, ih h.2⟩
  | clock k ih => exact fun now => ih now (h now)
  | fork job k ih => exact h.elim
  | wait isReady limit k ih =>
    exact ⟨fun s _ => ih true (h true s), fun _ s => ih false (h false s)⟩

end Thread

/-! ## Turns -/

/-- A thread that waits behaves, whatever the state is when it goes on. -/
def Sleeper.Behaves (R : σ → σ → Prop) (J : ι → Prop) (Q : α → σ → Prop) (z : Sleeper σ ι α) :
    Prop :=
  (∀ s, z.isReady s = true → (z.resume true).Behaves R J Q s) ∧
    (z.deadline.isSome → ∀ s, (z.resume false).Behaves R J Q s)

/-- A thread in a pool behaves, whatever the state is when it gets its turn. -/
def Member.Behaves (R : σ → σ → Prop) (J : ι → Prop) (P : α → Prop) : Member σ ι α → Prop
  | .finished a => P a
  | .active t => ∀ s, t.Behaves R J (fun a _ => P a) s
  | .asleep z => z.Behaves R J fun a _ => P a

/-- What a turn of a thread that behaves comes to: it has ended or it waits. -/
inductive Driven (R : σ → σ → Prop) (J : ι → Prop) (Q : α → σ → Prop) (s : σ) :
    σ × Member σ ι α × List ι → Prop
  | ended {s' : σ} {a : α} {jobs : List ι} (hs : R s s') (ha : Q a s')
      (hjobs : ∀ job ∈ jobs, J job) : Driven R J Q s (s', .finished a, jobs)
  | waits {s' : σ} {z : Sleeper σ ι α} {jobs : List ι} (hs : R s s') (hz : z.Behaves R J Q)
      (hjobs : ∀ job ∈ jobs, J job) : Driven R J Q s (s', .asleep z, jobs)

/-- A preorder of changes. -/
structure IsKept (R : σ → σ → Prop) : Prop where
  refl : ∀ s, R s s
  trans : ∀ {s s' s''}, R s s' → R s' s'' → R s s''

theorem Driven.of_step (hR : IsKept R) {s s' : σ} (hs : R s s')
    {r : σ × Member σ ι α × List ι} (h : Driven R J Q s' r) : Driven R J Q s r := by
  cases h with
  | ended hs' ha hjobs => exact .ended (hR.trans hs hs') ha hjobs
  | waits hs' hz hjobs => exact .waits (hR.trans hs hs') hz hjobs

theorem Thread.Behaves.drive (hR : IsKept R) {t : Thread σ ι α} {s : σ} (h : t.Behaves R J Q s)
    (now : Nat) {jobs : List ι} (hjobs : ∀ job ∈ jobs, J job) :
    Driven R J Q s (Pool.drive now t s jobs) := by
  induction t generalizing s jobs with
  | done a => exact .ended (hR.refl s) h hjobs
  | get k ih => exact ih s h hjobs
  | set s' k ih => exact .of_step hR h.1 (ih h.2 hjobs)
  | clock k ih => exact ih now (h now) hjobs
  | fork job k ih =>
    refine ih h.2 fun j hj => ?_
    obtain hj | hj := List.mem_append.mp hj
    · exact hjobs j hj
    · exact List.mem_singleton.mp hj ▸ h.1
  | wait isReady limit k ih =>
    rw [Pool.drive]
    split
    · rename_i hready
      exact ih true (h.1 s hready) hjobs
    · refine .waits (hR.refl s) ⟨h.1, fun hdeadline => h.2 ?_⟩ hjobs
      rwa [Option.isSome_map] at hdeadline

/-- A thread that waits goes on as it has to. -/
theorem Sleeper.Behaves.wake {z : Sleeper σ ι α} (h : z.Behaves R J Q) {now : Nat} {s : σ}
    {t : Thread σ ι α} (hwake : Pool.wake now s (.asleep z) = some t) :
    t.Behaves R J Q s := by
  obtain ⟨hready, rfl⟩ | ⟨-, ⟨time, hdeadline, -⟩, rfl⟩ := Pool.wake_asleep_eq_some.mp hwake
  · exact h.1 s hready
  · exact h.2 (Option.isSome_of_eq_some hdeadline) s

variable {P : α → Prop} {m : Member σ ι α} {now : Nat} {s : σ} {t : Thread σ ι α}

/-- A turn of a member that behaves, which behaves afterwards. -/
theorem Member.Behaves.turn (hR : IsKept R) (h : m.Behaves R J P)
    (hwake : Pool.wake now s m = some t) :
    let r := Pool.drive now t s []
    R s r.1 ∧ r.2.1.Behaves R J P ∧ ∀ job ∈ r.2.2, J job := by
  have ht : t.Behaves R J (fun a _ => P a) s := by
    cases m with
    | finished a => cases hwake
    | active t' =>
      cases hwake
      exact h s
    | asleep z => exact Sleeper.Behaves.wake h hwake
  have hdriven := ht.drive hR now (List.forall_mem_nil J)
  generalize Pool.drive now t s [] = r at hdriven
  cases hdriven with
  | ended hs ha hjobs => exact ⟨hs, ha, hjobs⟩
  | waits hs hz hjobs => exact ⟨hs, hz, hjobs⟩

variable {body : ι → Thread σ ι Unit}

/-- The threads beside the one in front behave. -/
def AllBehave (R : σ → σ → Prop) (J : ι → Prop) (members : List (Member σ ι Unit)) : Prop :=
  ∀ m ∈ members, m.Behaves R J fun _ => True

theorem AllBehave.append {members more : List (Member σ ι Unit)} (h : AllBehave R J members)
    (hmore : AllBehave R J more) : AllBehave R J (members ++ more) := by
  intro m hm
  obtain hm | hm := List.mem_append.mp hm
  · exact h m hm
  · exact hmore m hm

section

variable (hbody : ∀ job, J job → ∀ s, (body job).Behaves R J (fun _ _ => True) s)
include hbody

theorem allBehave_spawn {jobs : List ι} (hjobs : ∀ job ∈ jobs, J job) :
    AllBehave R J (Pool.spawn body jobs) := by
  intro m hm
  obtain ⟨job, hjob, rfl⟩ := List.mem_map.mp hm
  exact hbody job (hjobs job hjob)

/-- A turn beside the thread in front. -/
theorem AllBehave.turn (hR : IsKept R) {members members' : List (Member σ ι Unit)} {s s' : σ}
    (h : AllBehave R J members) (hturn : Pool.turn body now s members = some (s', members')) :
    R s s' ∧ AllBehave R J members' := by
  induction members generalizing members' with
  | nil => cases hturn
  | cons m rest ih =>
    have hm : m.Behaves R J fun _ => True := h m List.mem_cons_self
    have hrest : AllBehave R J rest := fun m hm => h m (List.mem_cons_of_mem _ hm)
    rw [Pool.turn] at hturn
    cases hwake : Pool.wake now s m with
    | some t =>
      rw [hwake] at hturn
      obtain ⟨hs, hnext, hjobs⟩ := hm.turn hR hwake
      cases hturn
      refine ⟨hs, AllBehave.append (fun m' hm' => ?_) (allBehave_spawn hbody hjobs)⟩
      obtain rfl | hm' := List.mem_cons.mp hm'
      · exact hnext
      · exact hrest m' hm'
    | none =>
      -- The first one cannot go on, so the turn is that of one behind it.
      rw [hwake] at hturn
      dsimp only at hturn
      cases hbeside : Pool.turn body now s rest with
      | none =>
        rw [hbeside] at hturn
        cases hturn
      | some r =>
        rw [hbeside] at hturn
        cases hturn
        obtain ⟨hs, hnext⟩ := ih hrest hbeside
        refine ⟨hs, fun m' hm' => ?_⟩
        obtain rfl | hm' := List.mem_cons.mp hm'
        · exact hm
        · exact hnext m' hm'

end

/-- A thread that waits goes on in front of what follows it. -/
theorem Pool.wake_bind (now : Nat) (s : σ) (z : Sleeper σ ι α) (f : α → Thread σ ι β) :
    Pool.wake now s ((Member.asleep z).bind f) =
      (Pool.wake now s (.asleep z)).map (·.bind f) := by
  simp only [Member.bind, Pool.wake]
  split
  · rfl
  · split <;> rfl

/-! ## Runs -/

/-- A step of a pool is a turn of one of the other threads, those that have ended leaving the pool,
or a turn of the thread in front, or time that passes. -/
theorem Pool.step_cases {p p' : Pool σ ι α} (hstep : p.step body = some p') :
    (∃ s others left, Pool.turn body p.now p.shared p.others = some (s, others) ∧
        left ⊆ others ∧ p' = { p with shared := s, others := left }) ∨
      (∃ t, Pool.wake p.now p.shared p.front = some t ∧
        p' = { p with
          shared := (Pool.drive p.now t p.shared []).1
          front := (Pool.drive p.now t p.shared []).2.1
          others := p.others ++ Pool.spawn body (Pool.drive p.now t p.shared []).2.2 }) ∨
      ∃ now, p.now ≤ now ∧ p' = { p with now := now } := by
  rw [Pool.step] at hstep
  split at hstep
  · rename_i s others hturn
    cases hstep
    exact .inl ⟨s, others, _, hturn, List.filter_sublist.subset, rfl⟩
  · split at hstep
    · rename_i t hwake
      cases hstep
      exact .inr (.inl ⟨t, hwake, rfl⟩)
    · split at hstep
      · rename_i time hdeadline
        cases hstep
        exact .inr (.inr ⟨max p.now time, Nat.le_max_left .., rfl⟩)
      · cases hstep

/-- What every step of a pool keeps, a run keeps. -/
theorem Pool.run_keeps {I : Pool σ ι α → Prop}
    (hstep : ∀ p p', I p → p.step body = some p' → I p') (n : Nat) {p : Pool σ ι α} (hp : I p) :
    I (Pool.run body n p) := by
  induction n generalizing p with
  | zero => exact hp
  | succ n ih =>
    rw [Pool.run]
    split
    · exact hp
    · cases hnext : p.step body with
      | none => exact hp
      | some p' => exact ih (hstep p p' hp hnext)

/-- A pool whose thread in front is on its way to a point, or has passed it with something known of
the state, which the changes from there on keep. -/
inductive Pool.Passes {ε : Type} (R G : σ → σ → Prop) (J : ι → Prop) (I : σ → Prop)
    (Q : α → σ → Prop) (f : α → Thread σ ι β) (K : ε → σ → Prop) (P : ε → β → Prop) :
    Pool σ ι β → Prop
  | before {s : σ} {now : Nat} {z : Sleeper σ ι α} {others : List (Member σ ι Unit)}
      (hz : z.Behaves R J Q) (hs : I s) (hothers : AllBehave R J others) :
      Pool.Passes R G J I Q f K P ⟨s, now, (Member.asleep z).bind f, others⟩
  | after {s : σ} {now : Nat} {e : ε} {front : Member σ ι β} {others : List (Member σ ι Unit)}
      (hfront : front.Behaves G J (P e)) (hs : K e s) (hothers : AllBehave R J others) :
      Pool.Passes R G J I Q f K P ⟨s, now, front, others⟩

section

variable {ε : Type} {I : σ → Prop} {f : α → Thread σ ι β} {K : ε → σ → Prop} {P : ε → β → Prop}

theorem Pool.Passes.of_result {p : Pool σ ι β} (hp : p.Passes R G J I Q f K P) {b : β}
    (hend : p.result? = some b) : ∃ e, K e p.shared ∧ P e b := by
  cases hp with
  | before => cases hend
  | @after s now e front others hfront hs hothers =>
    cases front with
    | finished b' =>
      cases hend
      exact ⟨e, hs, hfront⟩
    | active | asleep => cases hend

variable
  (hR : IsKept R) (hG : IsKept G)
  (hbody : ∀ job, J job → ∀ s, (body job).Behaves R J (fun _ _ => True) s)
  (hI : ∀ s s', R s s' → I s → I s') (hK : ∀ e s s', G s s' → K e s → K e s')
  (hf : ∀ a s, I s → Q a s → ∃ e, K e s ∧ (f a).Behaves G J (fun b _ => P e b) s)
include hR hG hbody hI hK hf

/-- A turn of the thread in front on its way to the point. -/
theorem Pool.Passes.of_driven {t : Thread σ ι α} {others : List (Member σ ι Unit)}
    (ht : t.Behaves R J Q s) (hs : I s) (hothers : AllBehave R J others) :
    let r := Pool.drive now (t.bind f) s []
    Pool.Passes R G J I Q f K P ⟨r.1, now, r.2.1, others ++ Pool.spawn body r.2.2⟩ := by
  have hdriven := ht.drive hR now (List.forall_mem_nil J)
  rw [Pool.drive_bind]
  generalize Pool.drive now t s [] = r at hdriven
  cases hdriven with
  | waits hs' hz hjobs =>
    exact .before hz (hI _ _ hs' hs) (hothers.append (allBehave_spawn hbody hjobs))
  | @ended s' a jobs hs' ha hjobs =>
    -- The thread comes to the point within this turn and goes on beyond it.
    obtain ⟨e, hKe, hfa⟩ := hf a s' (hI _ _ hs' hs) ha
    have hrest := hfa.drive hG now hjobs
    dsimp only
    generalize Pool.drive now (f a) s' jobs = r at hrest
    cases hrest with
    | ended hs'' hb hjobs =>
      exact .after hb (hK e _ _ hs'' hKe) (hothers.append (allBehave_spawn hbody hjobs))
    | waits hs'' hz hjobs =>
      exact .after hz (hK e _ _ hs'' hKe) (hothers.append (allBehave_spawn hbody hjobs))

theorem Pool.Passes.step (hRG : ∀ s s', R s s' → G s s') {p p' : Pool σ ι β}
    (hp : p.Passes R G J I Q f K P) (hstep : p.step body = some p') :
    p'.Passes R G J I Q f K P := by
  obtain ⟨s', members, left, hturn, hleft, rfl⟩ | ⟨t, hwake, rfl⟩ | ⟨now', -, rfl⟩ :=
    Pool.step_cases hstep
  · cases hp with
    | before hz hs hothers =>
      obtain ⟨hs', hnext⟩ := hothers.turn hbody hR hturn
      exact .before hz (hI _ _ hs' hs) fun m hm => hnext m (hleft hm)
    | after hfront hs hothers =>
      -- Beyond the point only the changes in `G` are known to keep anything.
      obtain ⟨hs', hnext⟩ := hothers.turn hbody hR hturn
      exact .after hfront (hK _ _ _ (hRG _ _ hs') hs) fun m hm => hnext m (hleft hm)
  · cases hp with
    | @before s now z others hz hs hothers =>
      obtain ⟨t', hwake', rfl⟩ := Option.map_eq_some_iff.mp ((Pool.wake_bind now s z f).symm.trans
        hwake)
      exact .of_driven hR hG hbody hI hK hf (hz.wake hwake') hs hothers
    | after hfront hs hothers =>
      obtain ⟨hs', hnext, hjobs⟩ := hfront.turn hG hwake
      exact .after hnext (hK _ _ _ hs' hs) (hothers.append (allBehave_spawn hbody hjobs))
  · cases hp with
    | before hz hs hothers => exact .before hz hs hothers
    | after hfront hs hothers => exact .after hfront hs hothers

/-- When the thread in front of a pool has ended, it has passed the point on its way, and what was
known there is so still. -/
theorem Pool.run_bind (hRG : ∀ s s', R s s' → G s s') {t : Thread σ ι α} (ht : t.Behaves R J Q s)
    (hs : I s) {n : Nat} {b : β}
    (hend : (Pool.run body n (.ofThread (t.bind f) s)).result? = some b) :
    ∃ e, K e (Pool.run body n (.ofThread (t.bind f) s)).shared ∧ P e b := by
  have hpasses : ∀ p p', Pool.Passes R G J I Q f K P p → p.step body = some p' →
      Pool.Passes R G J I Q f K P p' :=
    fun p p' hp hstep => hp.step hR hG hbody hI hK hf hRG hstep
  cases n with
  | zero => cases hend
  | succ n =>
    -- Nobody else is there yet, so the first turn is that of the thread in front.
    have hnobody : AllBehave R J ([] : List (Member σ ι Unit)) := nofun
    have hfirst : let r := Pool.drive 0 (t.bind f) s []
        Pool.Passes R G J I Q f K P ⟨r.1, 0, r.2.1, [] ++ Pool.spawn body r.2.2⟩ :=
      .of_driven hR hG hbody hI hK hf ht hs hnobody
    exact (Pool.run_keeps hpasses n hfirst).of_result hend

end

end Concurrency
end ScriptSession
