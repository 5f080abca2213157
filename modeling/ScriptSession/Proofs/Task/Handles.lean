import ScriptSession.Proofs.Task.Records

/-!
# Handles of tasks

What the handles of a task see of it: its title, how it ended, and the slot of its result. The end
of a task, the keeping of its result and a join change this, one part each. A result that is put
into the slot once is handed out once (`HandedOut`), and who joins a task that has ended gets it, or
learns that there is none, or that the task was given up (`Handle.Accounts`).
-/

namespace ScriptSession
namespace Task

open Script (Value)

/-- What the handles of a task see. -/
structure Handle where
  title : String
  exit : Exit
  slot : Option (Except Session.Failure Value)

/-- What a join is told that finds no result. -/
def noResult (title : String) : Except Session.Failure Value :=
  .error (.taskFailed ("no result available for " ++ title))

/-- What a join is told of a task that was given up. -/
def givenUp (title : String) : Except Session.Failure Value :=
  .error (.interrupted (title ++ " was terminated after the grace period"))

namespace Handle

/-- The first end of a task stays. -/
def finish (h : Handle) (exit : Exit) : Handle :=
  if h.exit = .running then { h with exit := exit } else h

/-- What a join is told. -/
def answer (h : Handle) : Except Session.Failure Value :=
  if h.exit = .terminated then givenUp h.title else h.slot.getD (noResult h.title)

/-- A join empties the slot, unless the task was given up. -/
def joined (h : Handle) : Handle :=
  if h.exit = .terminated then h else { h with slot := none }

theorem title_joined (h : Handle) : h.joined.title = h.title := by
  rw [joined]
  split <;> rfl

theorem exit_joined (h : Handle) : h.joined.exit = h.exit := by
  rw [joined]
  split <;> rfl

end Handle

/-- What handles see of a record. -/
def Record.handle (r : Record) : Handle := ⟨r.control.title, r.control.exit, r.outcome⟩

namespace Admission

/-- What handles see of a task. -/
def handle? (a : Admission) (id : Nat) : Option Handle := (a.task? id).map Record.handle

variable {a : Admission} {id : Nat} {h : Handle}

theorem exit_of_handle? (hh : a.handle? id = some h) :
    (a.control? id).map (·.exit) = some h.exit := by
  obtain ⟨r, hr, rfl⟩ := Option.map_eq_some_iff.mp hh
  rw [control?, hr]
  rfl

theorem hasExited_of_handle? (hh : a.handle? id = some h) :
    a.hasExited id = true ↔ h.exit ≠ .running := by
  obtain ⟨r, hr, rfl⟩ := Option.map_eq_some_iff.mp hh
  rw [hasExited_of_task? hr, Control.hasExited, decide_eq_true_eq]
  rfl

theorem handle?_alterTask (a : Admission) (id : Nat) {f : Record → Record} {g : Handle → Handle}
    (hid : ∀ r, (f r).control.id = r.control.id) (hf : ∀ r, (f r).handle = g r.handle) :
    (a.alterTask id f).handle? id = (a.handle? id).map g := by
  rw [handle?, task?_alterTask_self a id hid, handle?]
  cases a.task? id with
  | none => rfl
  | some r => exact congrArg some (hf r)

theorem handle?_keep (a : Admission) (id : Nat) (result : Except Session.Failure Value) :
    (a.keep id result).handle? id = (a.handle? id).map fun h => { h with slot := some result } :=
  a.handle?_alterTask id (fun _ => rfl) fun _ => rfl

theorem handle?_finish (a : Admission) (id : Nat) (exit : Exit) :
    (a.finish id exit).2.handle? id = (a.handle? id).map (·.finish exit) := by
  refine a.handle?_alterTask id (fun r => (r.becomes_finish exit).id) fun r => ?_
  show Record.handle { r with control := (r.control.finish exit).2 } =
    if r.control.exit = .running then _ else _
  rw [Control.finish]
  split <;> rfl

theorem handle?_takeListener (a : Admission) (id : Nat) :
    (a.takeListener id).2.handle? id = a.handle? id := by
  have h := a.handle?_alterTask id (f := fun r => { r with control := r.control.takeListener.2 })
    (g := fun h => h) (fun _ => rfl) fun _ => rfl
  rwa [Option.map_id'] at h

theorem handle?_release (a : Admission) (id : Nat) : (a.release id).handle? id = a.handle? id := by
  have h := a.handle?_alterTask id (f := fun r => { r with hasLeft := true }) (g := fun h => h)
    (fun _ => rfl) fun _ => rfl
  rw [Option.map_id'] at h
  rw [← h, handle?, handle?, task?, task?, (a.tasks_release id).1]

theorem takeResult_of_handle? (hh : a.handle? id = some h) :
    a.takeResult id =
      if h.exit = .terminated then (givenUp h.title, a)
      else
        (h.slot.getD (noResult h.title), a.alterTask id fun t => { t with outcome := none }) := by
  obtain ⟨r, hr, rfl⟩ := Option.map_eq_some_iff.mp hh
  rw [takeResult, hr]
  rfl

theorem takeResult_fst (hh : a.handle? id = some h) : (a.takeResult id).1 = h.answer := by
  rw [takeResult_of_handle? hh, Handle.answer]
  split <;> rfl

theorem handle?_takeResult (hh : a.handle? id = some h) :
    (a.takeResult id).2.handle? id = some h.joined := by
  have htaken := a.handle?_alterTask id (f := fun r => { r with outcome := none })
    (g := fun h => { h with slot := none }) (fun _ => rfl) fun _ => rfl
  rw [takeResult_of_handle? hh, Handle.joined]
  split
  · exact hh
  · rw [htaken, hh]
    rfl

/-- A task that has just been admitted runs, and there is no result. -/
theorem handle?_enroll (a : Admission) (t : Ticket) (fromQueue : Bool) :
    (a.enroll t fromQueue true).2.handle? a.nextId = some ⟨t.title, .running, none⟩ := by
  show ((a.issue fromQueue).track a.nextId t).handle? a.nextId = _
  rw [handle?, task?_track, if_pos rfl]
  rfl

end Admission

/-! ## Handing out -/

section

variable {α : Type} {absent r : α} {mine slot : Option α} {early : Nat} {results : List α}

/-- What has been handed out of a slot, and what is in it still: some that came early got nothing;
after a result was put in, one got it and the others nothing. -/
inductive HandedOut (absent : α) : Option α → Nat → Option α → List α → Prop
  | empty (early : Nat) : HandedOut absent none early none (.replicate early absent)
  | filled (r : α) (early : Nat) :
      HandedOut absent (some r) early (some r) (.replicate early absent)
  | taken (r : α) (early late : Nat) : HandedOut absent (some r) early none
      (.replicate early absent ++ r :: .replicate late absent)

/-- A result is put into a slot that was empty from the beginning. -/
theorem HandedOut.put (h : HandedOut absent none early slot results) (r : α) :
    HandedOut absent (some r) early (some r) results := by
  cases h with
  | empty => exact .filled r early

/-- The next one takes what is there. It comes early if nothing has been put in. -/
theorem HandedOut.take (h : HandedOut absent mine early slot results) :
    ∃ early', (mine.isSome → early' = early) ∧
      HandedOut absent mine early' none (results ++ [slot.getD absent]) := by
  cases h with
  | empty =>
    refine ⟨early + 1, nofun, ?_⟩
    show HandedOut absent none (early + 1) none (.replicate early absent ++ [absent])
    rw [← List.replicate_succ']
    exact .empty _
  | filled r => exact ⟨early, fun _ => rfl, .taken r early 0⟩
  | taken r early late =>
    refine ⟨early, fun _ => rfl, ?_⟩
    show HandedOut absent (some r) early none
      ((.replicate early absent ++ r :: .replicate late absent) ++ [absent])
    rw [List.append_assoc, List.cons_append, ← List.replicate_succ']
    exact .taken r early _

/-- Nobody has got anything else than the result. -/
theorem HandedOut.results_eq (h : HandedOut absent mine early slot results) :
    results = .replicate early absent ∨ ∃ r late, mine = some r ∧
      results = .replicate early absent ++ r :: .replicate late absent := by
  cases h with
  | empty | filled => exact .inl rfl
  | taken r _ late => exact .inr ⟨r, late, rfl, rfl⟩

/-- Nobody came early where nobody came. -/
theorem HandedOut.eq_zero (h : HandedOut absent mine early slot []) : early = 0 := by
  generalize hresults : ([] : List α) = results at h
  cases h with
  | empty | filled => simpa using congrArg List.length hresults.symm
  | taken => simp at hresults

/-- Where nobody came early, the first one got the result. -/
theorem HandedOut.of_zero (h : HandedOut absent (some r) 0 slot results) :
    results = [] ∨ ∃ late, results = r :: .replicate late absent := by
  cases h with
  | filled => exact .inl rfl
  | taken r _ late => exact .inr ⟨late, rfl⟩

end

namespace Handle

variable {h : Handle} {mine : Option (Except Session.Failure Value)} {early : Nat}
  {results : List (Except Session.Failure Value)}

/-- How the results that joins have got agree with the handle: nobody has got one while the task
runs, all have learnt that it was given up if it was, and otherwise they have got what was handed
out of the slot. -/
structure Accounts (h : Handle) (mine : Option (Except Session.Failure Value)) (early : Nat)
    (results : List (Except Session.Failure Value)) : Prop where
  running : h.exit = .running → results = []
  terminated : h.exit = .terminated → ∀ r ∈ results, r = givenUp h.title
  handed : h.exit ≠ .terminated → HandedOut (noResult h.title) mine early h.slot results

namespace Accounts

theorem eq_zero (ha : h.Accounts mine early results) (hexit : h.exit = .running) : early = 0 := by
  have hhanded := ha.handed (by rw [hexit]; nofun)
  rw [ha.running hexit] at hhanded
  exact hhanded.eq_zero

theorem keep (ha : h.Accounts none early results) (r : Except Session.Failure Value) :
    Accounts { h with slot := some r } (some r) early results :=
  ⟨ha.running, ha.terminated, fun hexit => (ha.handed hexit).put r⟩

theorem finish (ha : h.Accounts mine early results) (exit : Exit) :
    (h.finish exit).Accounts mine early results := by
  rw [Handle.finish]
  split
  · rename_i hrunning
    have hnone : results = [] := ha.running hrunning
    refine ⟨fun _ => hnone, fun _ r hr => ?_, fun _ => ha.handed (by rw [hrunning]; nofun)⟩
    rw [hnone] at hr
    cases hr
  · exact ha

/-- One more join of a task that has ended. -/
theorem join (ha : h.Accounts mine early results) (hexit : h.exit ≠ .running) :
    ∃ early', (mine.isSome → early' = early) ∧
      h.joined.Accounts mine early' (results ++ [h.answer]) := by
  rw [Handle.joined, Handle.answer]
  split
  · rename_i hterminated
    refine ⟨early, fun _ => rfl, fun hrunning => absurd hrunning hexit, fun _ r hr => ?_,
      fun hne => absurd hterminated hne⟩
    obtain hr | hr := List.mem_append.mp hr
    · exact ha.terminated hterminated r hr
    · exact List.mem_singleton.mp hr
  · rename_i hne
    obtain ⟨early', hearly, hhanded⟩ := (ha.handed hne).take
    exact ⟨early', hearly, fun hrunning => absurd hrunning hexit,
      fun hterminated => absurd hterminated hne, fun _ => hhanded⟩

end Accounts
end Handle
end Task
end ScriptSession
