import ScriptSession.Concurrency.Thread

/-!
# Pools of threads

A pool runs threads in turn: each as far as it gets without waiting, in the order in which they
were started. One thread is in front of the pool. It gets its turn only when no other thread can
go on, so whatever it finds is settled. When nobody can go on, time passes until the earliest
deadline; a pool in which nobody can go on and nobody has a deadline stands still.
-/

namespace ScriptSession
namespace Concurrency

/-- A thread that waits, with the time at which it gives up. -/
structure Sleeper (σ ι α : Type) where
  isReady : σ → Bool
  deadline : Option Nat
  resume : Bool → Thread σ ι α

/-- A thread in a pool. -/
inductive Member (σ ι α : Type) where
  | finished (a : α)
  | active (t : Thread σ ι α)
  | asleep (s : Sleeper σ ι α)

/-- A pool: what is shared, the time in milliseconds, the thread in front and the others. -/
structure Pool (σ ι α : Type) where
  shared : σ
  now : Nat
  front : Member σ ι α
  others : List (Member σ ι Unit)

namespace Pool

variable {σ ι α β : Type}

/-- Run a thread until it waits or ends: what is shared afterwards, the thread, and the jobs it
has started, the first one first. -/
def drive (now : Nat) : Thread σ ι β → σ → List ι → σ × Member σ ι β × List ι
  | .done a, s, jobs => (s, .finished a, jobs)
  | .get k, s, jobs => drive now (k s) s jobs
  | .set s k, _, jobs => drive now k s jobs
  | .fork job k, s, jobs => drive now k s (jobs ++ [job])
  | .clock k, s, jobs => drive now (k now) s jobs
  | .wait isReady limit k, s, jobs =>
    if isReady s then drive now (k true) s jobs
    else (s, .asleep ⟨isReady, limit.map (now + ·), k⟩, jobs)

/-- What a thread can do at a time: nothing, or go on. -/
def wake (now : Nat) (s : σ) : Member σ ι β → Option (Thread σ ι β)
  | .finished _ => none
  | .active t => some t
  | .asleep z =>
    if z.isReady s then some (z.resume true)
    else if z.deadline.any (· ≤ now) then some (z.resume false)
    else none

/-- The time at which a thread gives up waiting. -/
def deadline? : Member σ ι β → Option Nat
  | .asleep z => z.deadline
  | _ => none

/-- The earlier of two times. -/
def earlier : Option Nat → Option Nat → Option Nat
  | some a, some b => some (min a b)
  | some a, none => some a
  | none, b => b

/-- The threads that a list of jobs stands for. -/
def spawn (body : ι → Thread σ ι Unit) (jobs : List ι) : List (Member σ ι Unit) :=
  jobs.map fun j => .active (body j)

/-- Give the first thread that can go on its turn. -/
def turn (body : ι → Thread σ ι Unit) (now : Nat) :
    σ → List (Member σ ι Unit) → Option (σ × List (Member σ ι Unit))
  | _, [] => none
  | s, m :: rest =>
    match wake now s m with
    | some t =>
      let (s, m, jobs) := drive now t s []
      some (s, m :: rest ++ spawn body jobs)
    | none =>
      match turn body now s rest with
      | some (s, rest) => some (s, m :: rest)
      | none => none

/-- One step of a pool; nothing when it stands still. -/
def step (body : ι → Thread σ ι Unit) (p : Pool σ ι α) : Option (Pool σ ι α) :=
  match turn body p.now p.shared p.others with
  | some (s, others) =>
    some { p with shared := s, others := others.filter fun
      | .finished _ => false
      | _ => true }
  | none =>
    match wake p.now p.shared p.front with
    | some t =>
      let (s, front, jobs) := drive p.now t p.shared []
      some { p with shared := s, front := front, others := p.others ++ spawn body jobs }
    | none =>
      match (p.others.map deadline?).foldl earlier (deadline? p.front) with
      | some t => some { p with now := max p.now t }
      | none => none

/-- Run a pool until the thread in front has ended and everything else has settled, or until it
stands still, or for a number of steps. -/
def run (body : ι → Thread σ ι Unit) : Nat → Pool σ ι α → Pool σ ι α
  | 0, p => p
  | n + 1, p =>
    match p.front, turn body p.now p.shared p.others with
    | .finished _, none => p
    | _, _ =>
      match p.step body with
      | some p => run body n p
      | none => p

/-- A pool with nothing but a thread in front. -/
def ofThread (t : Thread σ ι α) (s : σ) : Pool σ ι α := ⟨s, 0, .active t, []⟩

/-- The result of the thread in front. -/
def result? (p : Pool σ ι α) : Option α :=
  match p.front with
  | .finished a => some a
  | _ => none

end Pool
end Concurrency
end ScriptSession
