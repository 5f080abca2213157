/-!
# Threads

What several tasks do beside one another, as data. A thread works on a state that all threads
share. Between two waits it is not interrupted, so whatever stands between two waits is one step.
A wait names the condition it waits for and, if it does not wait for ever, for how many
milliseconds it waits; the thread learns whether the condition came about. A wait whose condition
is met already is no wait at all.

A thread starts others by naming a job. What the job does is said elsewhere, which keeps threads
first-order.
-/

namespace ScriptSession
namespace Concurrency

/-- A thread over a shared state `σ` that can start jobs of type `ι`. -/
inductive Thread (σ ι α : Type) : Type where
  | done (a : α)
  | get (k : σ → Thread σ ι α)
  | set (s : σ) (k : Thread σ ι α)
  | clock (k : Nat → Thread σ ι α)
  | fork (job : ι) (k : Thread σ ι α)
  | wait (isReady : σ → Bool) (limit : Option Nat) (k : Bool → Thread σ ι α)

namespace Thread

variable {σ ι α β : Type}

/-- Go on with the result. -/
def bind (m : Thread σ ι α) (f : α → Thread σ ι β) : Thread σ ι β :=
  match m with
  | .done a => f a
  | .get k => .get fun s => (k s).bind f
  | .set s k => .set s (k.bind f)
  | .clock k => .clock fun t => (k t).bind f
  | .fork job k => .fork job (k.bind f)
  | .wait isReady limit k => .wait isReady limit fun b => (k b).bind f

instance : Monad (Thread σ ι) where
  pure := .done
  bind := bind

instance : MonadStateOf σ (Thread σ ι) where
  get := .get .done
  set s := .set s (.done ())
  modifyGet f := .get fun s => .set (f s).2 (.done (f s).1)

/-- Start a job on a thread of its own. -/
def start (job : ι) : Thread σ ι Unit := .fork job (.done ())

/-- The time in milliseconds. -/
def now : Thread σ ι Nat := .clock .done

/-- Wait for a condition, for ever if need be. -/
def await (isReady : σ → Bool) : Thread σ ι Unit := .wait isReady none fun _ => .done ()

/-- Wait for a condition for some milliseconds, and whether it came about. -/
def awaitFor (limit : Nat) (isReady : σ → Bool) : Thread σ ι Bool :=
  .wait isReady (some limit) .done

/-- Let every other thread go as far as it can. -/
def settle : Thread σ ι Unit := .wait (fun _ => false) (some 0) fun _ => .done ()

end Thread
end Concurrency
end ScriptSession
