import ScriptSession.Proofs.Context.Interleaving

/-!
# Delivery of deferred changes

What calls without the variables defer is queued and reaches the variables when whoever holds them
merges what is pending. The steps of a run note what they do to changes and to the variables
(`Deed`), and the history of a run is compared with where it ends. Main statement: the changes that
were queued are those that were merged and then those that are pending, one by one and in the order
of their queueing, the changes of one call stay together, and the variables are what the merges and
their holders have made of them (`Sharing.delivers_once`).
-/

namespace ScriptSession
namespace Context

open Concurrency (noted noted_keeps)
open Script (Entry Scope)

/-- Something that happens to changes or to the variables. -/
inductive Deed where
  /-- A call that does not hold the variables has changes to defer. -/
  | record (thread : Nat) (es : List Entry)
  /-- A call adds its changes to what is pending. -/
  | queue (thread : Nat) (es : List Entry)
  /-- The holder takes what is pending and merges it. -/
  | merge (es : List Entry)
  /-- The holder puts what it has made of the variables in their place. -/
  | replace (s : Scope)

namespace Deed

/-- The variables after a deed. -/
def run : Scope → Deed → Scope
  | s, .merge es => applyAll s es
  | _, .replace s => s
  | s, .record _ _ | s, .queue _ _ => s

/-- The changes that a thread has to defer. -/
def recordedBy? (t : Nat) : Deed → Option (List Entry)
  | .record u es => if u = t then some es else none
  | _ => none

/-- The changes of a call that are queued, and its thread. -/
def queued? : Deed → Option (Nat × List Entry)
  | .queue t es => some (t, es)
  | _ => none

def merged? : Deed → Option (List Entry)
  | .merge es => some es
  | _ => none

end Deed

/-! ## Histories -/

/-- The changes that a thread had to defer, call by call. -/
def recordedBy (t : Nat) (history : List Deed) : List (List Entry) :=
  history.filterMap (Deed.recordedBy? t)

/-- The changes that were queued, call by call. -/
def queued (history : List Deed) : List (Nat × List Entry) := history.filterMap Deed.queued?

/-- The changes that were merged, merge by merge. -/
def merged (history : List Deed) : List (List Entry) := history.filterMap Deed.merged?

/-- A history and one deed more, through a view of the deeds. -/
theorem filterMap_concat {α : Type} (view : Deed → Option α) (past : List Deed) (d : Deed) :
    (past ++ [d]).filterMap view = past.filterMap view ++ (view d).toList := by
  rw [List.filterMap_append]
  cases h : view d with
  | none => rw [List.filterMap_cons_none h, List.filterMap_nil, Option.toList_none]
  | some a => rw [List.filterMap_cons_some h, List.filterMap_nil, Option.toList_some]

@[simp] theorem recordedBy_concat (t : Nat) (past : List Deed) (d : Deed) :
    recordedBy t (past ++ [d]) = recordedBy t past ++ (d.recordedBy? t).toList :=
  filterMap_concat ..

@[simp] theorem queued_concat (past : List Deed) (d : Deed) :
    queued (past ++ [d]) = queued past ++ d.queued?.toList := filterMap_concat ..

@[simp] theorem merged_concat (past : List Deed) (d : Deed) :
    merged (past ++ [d]) = merged past ++ d.merged?.toList := filterMap_concat ..

/-- The changes of several calls, one after the other. -/
def entriesOf (calls : List (Nat × List Entry)) : List Entry := calls.flatMap (·.2)

theorem entriesOf_append (calls more : List (Nat × List Entry)) :
    entriesOf (calls ++ more) = entriesOf calls ++ entriesOf more := List.flatMap_append

theorem entriesOf_flatten (groups : List (List (Nat × List Entry))) :
    entriesOf groups.flatten = (groups.map entriesOf).flatten := by
  rw [entriesOf, ← List.flatMap_id, List.flatMap_assoc, ← List.flatMap_def]
  rfl

/-- The calls of a thread. -/
def callsOf (t : Nat) (calls : List (Nat × List Entry)) : List (List Entry) :=
  calls.filterMap fun c => if c.1 = t then some c.2 else none

/-- The changes that a call has to defer and has not queued. -/
def Stage.unqueued : Stage → List (List Entry)
  | .showing es | .queueing es => [es]
  | _ => []

/-- What an evaluation on a copy gives back are variables of its own, in their order. -/
theorem changes_sublist (before after : Scope) :
    (changes before after).Sublist after.oldestFirst := by
  have h : (changes before after).Sublist (after.oldestFirst.zipIdx.map (·.1)) :=
    List.filter_sublist.map _
  rwa [List.zipIdx_map_fst] at h

namespace Sharing

/-- What a step does to changes and to the variables. -/
def deeds (s : Sharing) : Event → List Deed
  | .bindBeside t name v =>
    match s.stages t with
    | .resting => [.record t [Entry.variable_ name v]]
    | _ => []
  | .script t after =>
    match s.stages t with
    | .running => [.replace after]
    | .copied before => [.record t (changes before after)]
    | _ => []
  | .advance t =>
    match s.stages t with
    | .opening _ | .closing => [.merge s.context.pending]
    | .editing e => [.replace (e.run s.context.scope)]
    | .queueing es => [.queue t es]
    | _ => []
  | _ => []

/-- What events have done to changes and to the variables of a context that nobody used before. -/
def history (c : State) (events : List Event) : List Deed := noted step deeds (new c) events

/-! ## What a history says about where it ends -/

/-- A history of a context that began with some variables and nothing pending. -/
structure Accounts (start : Scope) (past : List Deed) (s : Sharing) : Prop where
  scope : s.context.scope = past.foldl Deed.run start
  calls : ∃ (merges : List (List (Nat × List Entry))) (waiting : List (Nat × List Entry)),
    queued past = merges.flatten ++ waiting ∧ merged past = merges.map entriesOf ∧
      s.context.pending = entriesOf waiting
  recorded : ∀ t, recordedBy t past = callsOf t (queued past) ++ (s.stages t).unqueued

section
variable {start : Scope} {past : List Deed} {s : Sharing}

theorem accounts_new {c : State} (h : c.pending = []) : Accounts c.scope [] (new c) :=
  ⟨rfl, ⟨[], [], rfl, rfl, h⟩, fun _ => rfl⟩

/-- What a thread has queued and has still to queue, when it alone goes on. -/
theorem Accounts.recorded_go (h : Accounts start past s) {t : Nat} {next : Stage}
    {f : State → State} {past' : List Deed}
    (hself : recordedBy t past' = callsOf t (queued past') ++ next.unqueued)
    (hother : ∀ u ≠ t, recordedBy u past' = recordedBy u past ∧
      callsOf u (queued past') = callsOf u (queued past)) (u : Nat) :
    recordedBy u past' = callsOf u (queued past') ++ ((s.go t next f).stages u).unqueued := by
  by_cases hu : u = t
  · rw [hu, stages_go]
    exact hself
  · rw [stages_go_of_ne s hu, (hother u hu).1, (hother u hu).2]
    exact h.recorded u

/-- Nothing is done. -/
theorem Accounts.go (h : Accounts start past s) {t : Nat} {next : Stage} {f : State → State}
    (hstage : next.unqueued = (s.stages t).unqueued)
    (hscope : (f s.context).scope = s.context.scope)
    (hpending : (f s.context).pending = s.context.pending) :
    Accounts start (past ++ []) (s.go t next f) := by
  rw [List.append_nil]
  refine ⟨hscope.trans h.scope, ?_, h.recorded_go ?_ fun _ _ => ⟨rfl, rfl⟩⟩
  · rw [context_go, hpending]
    exact h.calls
  · rw [hstage]
    exact h.recorded t

/-- The holder merges what is pending: the changes of all calls that were waiting. -/
theorem Accounts.merge (h : Accounts start past s) {t : Nat} {next : Stage}
    (hstage : next.unqueued = (s.stages t).unqueued) :
    Accounts start (past ++ [.merge s.context.pending]) (s.go t next State.mergePending) := by
  refine ⟨?_, ?_, h.recorded_go ?_ fun _ _ => ?_⟩
  · rw [List.foldl_concat, ← h.scope]
    rfl
  · obtain ⟨merges, waiting, hqueued, hmerged, hpending⟩ := h.calls
    refine ⟨merges ++ [waiting], [], ?_, ?_, rfl⟩
    · simp [hqueued, Deed.queued?]
    · simp [hmerged, hpending, Deed.merged?]
  · simpa [Deed.recordedBy?, Deed.queued?, hstage] using h.recorded t
  · simp [Deed.recordedBy?, Deed.queued?]

/-- The holder puts back what it has made of the variables. -/
theorem Accounts.replace (h : Accounts start past s) {t : Nat} {next : Stage} {f : State → State}
    (after : Scope) (hstage : next.unqueued = (s.stages t).unqueued)
    (hscope : (f s.context).scope = after) (hpending : (f s.context).pending = s.context.pending) :
    Accounts start (past ++ [.replace after]) (s.go t next f) := by
  refine ⟨?_, ?_, h.recorded_go ?_ fun _ _ => ?_⟩
  · rw [List.foldl_concat]
    exact hscope
  · simpa [Deed.queued?, Deed.merged?, hpending] using h.calls
  · simpa [Deed.recordedBy?, Deed.queued?, hstage] using h.recorded t
  · simp [Deed.recordedBy?, Deed.queued?]

/-- A call has changes to defer. -/
theorem Accounts.record (h : Accounts start past s) {t : Nat} (es : List Entry)
    (hstage : (s.stages t).unqueued = []) :
    Accounts start (past ++ [.record t es]) (s.go t (.showing es) id) := by
  refine ⟨?_, ?_, h.recorded_go ?_ fun u hu => ?_⟩
  · rw [List.foldl_concat]
    exact h.scope
  · simpa [Deed.queued?, Deed.merged?] using h.calls
  · have hnext : (Stage.showing es).unqueued = [es] := rfl
    simp [Deed.recordedBy?, Deed.queued?, hnext, h.recorded t, hstage]
  · simp [Deed.recordedBy?, Deed.queued?, hu.symm]

/-- A call queues its changes: they are pending behind all others. -/
theorem Accounts.queue (h : Accounts start past s) {t : Nat} {es : List Entry}
    (hstage : s.stages t = .queueing es) :
    Accounts start (past ++ [.queue t es]) (s.go t .trying (·.queueChanges es)) := by
  refine ⟨?_, ?_, h.recorded_go ?_ fun u hu => ?_⟩
  · rw [List.foldl_concat]
    exact h.scope
  · obtain ⟨merges, waiting, hqueued, hmerged, hpending⟩ := h.calls
    refine ⟨merges, waiting ++ [(t, es)], ?_, ?_, ?_⟩
    · simp [hqueued, Deed.queued?]
    · simp [hmerged, Deed.merged?]
    · simp [State.queueChanges, hpending, entriesOf]
  · simp [Deed.recordedBy?, Deed.queued?, h.recorded t, hstage, callsOf, Stage.unqueued]
  · simp [Deed.recordedBy?, Deed.queued?, callsOf, hu.symm]

theorem accounts_advance (h : Accounts start past s) (t : Nat) :
    Accounts start (past ++ s.deeds (.advance t)) (s.advance t) := by
  have hunqueued : ∀ {stage next : Stage}, s.stages t = stage → next.unqueued = stage.unqueued →
      next.unqueued = (s.stages t).unqueued := fun hstage hnext => hstage ▸ hnext
  simp only [deeds, advance]
  -- One case for each stage; only four of them do something to changes or to the variables.
  cases hstage : s.stages t with
  | resting | running | copied => rwa [List.append_nil]
  | opening edit =>
    cases edit with
    | none => exact h.merge (hunqueued hstage rfl)
    | some e => exact h.merge (hunqueued hstage rfl)
  | closing => exact h.merge (hunqueued hstage rfl)
  | editing e => exact h.replace _ (hunqueued hstage rfl) rfl rfl
  | publishing => exact h.go (hunqueued hstage rfl) rfl rfl
  | leaving => exact h.go (hunqueued hstage rfl) rfl rfl
  | showing es => exact h.go (hunqueued hstage rfl) rfl rfl
  | queueing es => exact h.queue hstage
  | trying =>
    show Accounts start (past ++ []) (if _ then _ else _)
    split <;> exact h.go (hunqueued hstage rfl) rfl rfl

theorem accounts_step (h : Accounts start past s) (e : Event) :
    Accounts start (past ++ s.deeds e) (s.step e) := by
  have hsame : Accounts start (past ++ []) s := by rwa [List.append_nil]
  have hunqueued : ∀ {t : Nat} {stage next : Stage}, s.stages t = stage →
      next.unqueued = stage.unqueued → next.unqueued = (s.stages t).unqueued :=
    fun hstage hnext => hstage ▸ hnext
  cases e with
  | evaluate t =>
    show Accounts start (past ++ []) (s.step (.evaluate t))
    rw [step]
    split
    · rename_i hstage _
      exact h.go (hunqueued hstage rfl) rfl rfl
    · rwa [List.append_nil]
  | edit t e =>
    show Accounts start (past ++ []) (s.step (.edit t e))
    rw [step]
    split
    · rename_i hstage _
      exact h.go (hunqueued hstage rfl) rfl rfl
    · rwa [List.append_nil]
  | evaluateBeside t =>
    show Accounts start (past ++ []) (s.step (.evaluateBeside t))
    rw [step]
    split
    · rename_i hstage
      exact h.go (hunqueued hstage rfl) rfl rfl
    · rwa [List.append_nil]
  | bindBeside t name v =>
    simp only [deeds, step]
    cases hstage : s.stages t with
    | resting => exact h.record _ (by rw [hstage]; rfl)
    | _ => rwa [List.append_nil]
  | script t after =>
    -- The holder puts its variables back, an evaluation on a copy has changes to defer.
    simp only [deeds, step]
    cases hstage : s.stages t with
    | running => exact h.replace after (hunqueued hstage rfl) rfl rfl
    | copied before => exact h.record _ (by rw [hstage]; rfl)
    | _ => rwa [List.append_nil]
  | advance t => exact accounts_advance h t

theorem accounts_run {c : State} (h : c.pending = []) (events : List Event) :
    Accounts c.scope (history c events) (run c events) :=
  noted_keeps (accounts_new h) (fun _ _ e hpast => accounts_step hpast e) events

end

/-! ## What calls have to defer -/

/-- The changes come from an evaluation on a copy, in the order of its own variables, or from a
variable that is set. -/
def Arises (events : List Event) (t : Nat) (es : List Entry) : Prop :=
  (∃ before after, .script t after ∈ events ∧ es = changes before after ∧
    es.Sublist after.oldestFirst) ∨
  ∃ name v, .bindBeside t name v ∈ events ∧ es = [Entry.variable_ name v]

theorem arises_of_mem_deeds {s : Sharing} {e : Event} {events : List Event} {t : Nat}
    {es : List Entry} (he : e ∈ events) (h : Deed.record t es ∈ s.deeds e) :
    Arises events t es := by
  cases e with
  | bindBeside u name v =>
    simp only [deeds] at h
    split at h
    · cases List.mem_singleton.mp h
      exact .inr ⟨name, v, he, rfl⟩
    · cases h
  | script u after =>
    simp only [deeds] at h
    split at h
    · cases List.mem_singleton.mp h
    · rename_i before _
      cases List.mem_singleton.mp h
      exact .inl ⟨before, after, he, rfl, changes_sublist before after⟩
    · cases h
  | advance u =>
    simp only [deeds] at h
    split at h <;> simp at h
  | evaluate | edit | evaluateBeside => cases h

theorem arises_of_recordedBy {c : State} {events : List Event} {t : Nat} {es : List Entry}
    (h : es ∈ recordedBy t (history c events)) : Arises events t es := by
  obtain ⟨d, hmem, hd⟩ := List.mem_filterMap.mp h
  obtain ⟨past, e, hfollows, hdeed⟩ := Concurrency.mem_noted hmem
  cases d with
  | record u es' =>
    rw [Deed.recordedBy?, Option.ite_none_right_eq_some] at hd
    obtain ⟨rfl, hes⟩ := hd
    cases hes
    exact arises_of_mem_deeds hfollows.mem hdeed
  | queue | merge | replace => cases hd

/-! ## Main statement -/

/-- Every change is delivered once. -/
structure DeliversOnce (start : Scope) (events : List Event) (past : List Deed) (s : Sharing) :
    Prop where
  /-- The variables are what the merges and their holders have made of them. -/
  scope : s.context.scope = past.foldl Deed.run start
  /-- What was queued was merged, one after the other, or is pending. -/
  once : entriesOf (queued past) = (merged past).flatten ++ s.context.pending
  /-- A merge is one of all changes of some calls, and so is what is pending. -/
  together : ∃ (merges : List (List (Nat × List Entry))) (waiting : List (Nat × List Entry)),
    queued past = merges.flatten ++ waiting ∧ merged past = merges.map entriesOf ∧
      s.context.pending = entriesOf waiting
  /-- What a thread had to defer it has queued, or it is about to. -/
  recorded : ∀ t, recordedBy t past = callsOf t (queued past) ++ (s.stages t).unqueued
  arises : ∀ t, ∀ es ∈ recordedBy t past, Arises events t es

end Sharing
end Context
end ScriptSession
