import ScriptSession.Proofs.Session.Resolving
import ScriptSession.Proofs.Task.Traffic

/-!
# Incidental changes

Changes of a world that do not touch which contexts there are, which one is current and what is
published last. Of the admission they change what a task notes about itself and nothing else. Main
statement: what scripts and the tasks around them change in passing is incidental
(`Passing.incidental`), so an evaluation makes no other changes, whatever its script is
(`harmless_evaluateIn`).
-/

namespace ScriptSession
namespace Session

open Concurrency (Protocol Thread)
open Report (TestCase)
open Script (Value)
open ScriptSession.Task (Admission Note)

/-! ## Changes of worlds -/

/-- A change that leaves it at the same contexts, the same current one, and the same rebuilds. -/
structure SameContexts (w w' : World) : Prop where
  generations : w'.contexts.map (·.generation) = w.contexts.map (·.generation)
  context : w'.session.context = w.session.context
  generation : w'.session.generation = w.session.generation
  isRebuilding : w'.session.isRebuilding = w.session.isRebuilding

theorem SameContexts.length {w w' : World} (h : SameContexts w w') :
    w'.contexts.length = w.contexts.length := by
  have hlength := congrArg List.length h.generations
  rwa [List.length_map, List.length_map] at hlength

theorem SameContexts.of_eq {w w' : World} (hcontexts : w'.contexts = w.contexts)
    (hcontext : w'.session.context = w.session.context)
    (hgeneration : w'.session.generation = w.session.generation)
    (hrebuilding : w'.session.isRebuilding = w.session.isRebuilding) : SameContexts w w' :=
  ⟨by rw [hcontexts], hcontext, hgeneration, hrebuilding⟩

/-- A change that is incidental to the contexts of a session and to what is published. -/
structure Incidental (w w' : World) : Prop extends SameContexts w w' where
  latest : w'.session.reporter.latest = w.session.reporter.latest
  notes : ∃ notes : List (Nat × Note),
    w'.admission = notes.foldl (fun a n => a.note n.1 n.2) w.admission

namespace Incidental

variable {w w' w'' : World}

theorem of_eq (hcontexts : w'.contexts = w.contexts) (hsession : w'.session = w.session)
    (hadmission : w'.admission = w.admission) : Incidental w w' := by
  refine ⟨.of_eq hcontexts ?_ ?_ ?_, ?_, [], hadmission⟩ <;> rw [hsession]

theorem refl (w : World) : Incidental w w := of_eq rfl rfl rfl

theorem trans (h : Incidental w w') (h' : Incidental w' w'') : Incidental w w'' := by
  obtain ⟨notes, hnotes⟩ := h.notes
  obtain ⟨notes', hnotes'⟩ := h'.notes
  refine ⟨⟨h'.generations.trans h.generations, h'.context.trans h.context,
    h'.generation.trans h.generation, h'.isRebuilding.trans h.isRebuilding⟩,
    h'.latest.trans h.latest, notes ++ notes', ?_⟩
  rw [List.foldl_append, ← hnotes, hnotes']

end Incidental

namespace World

variable (w : World)

theorem incidental_record (e : Event) : Incidental w (w.record e) := by
  rw [record]
  split
  · exact .refl w
  · exact .of_eq rfl rfl rfl

theorem incidental_writeEntry (e : Report.Entry) : Incidental w (w.writeEntry e) := by
  rw [writeEntry]
  split
  · have hkept : Incidental w { w with transcript := w.transcript.write e } := .of_eq rfl rfl rfl
    exact hkept.trans (incidental_record _ _)
  · exact .of_eq rfl rfl rfl

theorem incidental_writeOut (sink : Sink) (text : String) :
    Incidental w (w.writeOut sink text) := by
  cases sink with
  | transcript => exact w.incidental_writeEntry _
  | process => exact .of_eq rfl rfl rfl
  | buffer i hasGates => exact .of_eq rfl rfl rfl

theorem incidental_writeErr (sink : Sink) (text : String) :
    Incidental w (w.writeErr sink text) := by
  cases sink with
  | transcript => exact w.incidental_writeEntry _
  | process => exact .of_eq rfl rfl rfl
  | buffer i hasGates => exact .of_eq rfl rfl rfl

/-- A change of a context that keeps its generation. -/
theorem incidental_alterContext (i : Nat) {f : Context.State → Context.State}
    (hf : (f (w.context i)).generation = (w.context i).generation) :
    Incidental w (w.alterContext i f) := by
  refine ⟨⟨?_, rfl, rfl, rfl⟩, rfl, [], rfl⟩
  refine List.ext_getElem? fun j => ?_
  rw [alterContext, List.getElem?_map, List.getElem?_modify, List.getElem?_map]
  cases hj : w.contexts[j]? with
  | none => rfl
  | some c =>
    show some (if i = j then f c else c).generation = some c.generation
    split
    · rename_i hij
      rw [hij, context, List.getD_eq_getElem?_getD, hj, Option.getD_some] at hf
      rw [hf]
    · rfl

theorem incidental_note (id : Nat) (n : Note) :
    Incidental w { w with admission := w.admission.note id n } :=
  ⟨.of_eq rfl rfl rfl rfl, rfl, [(id, n)], rfl⟩

/-- A change of the control of an owner, for a task one that it notes. -/
theorem incidental_alterControl (o : Owner) {f : Task.Control → Task.Control} (n : Note)
    (hf : ∀ id, w.admission.alterControl id f = w.admission.note id n) :
    Incidental w (w.alterControl o f) := by
  cases o with
  | task id =>
    rw [alterControl, hf]
    exact w.incidental_note id n
  | loose i => exact .of_eq rfl rfl rfl

/-- To publish a snapshot changes what is published and the chronicle. -/
theorem session_publish (shot : Report.Snapshot) :
    (w.publish shot).session =
        { w.session with reporter := { w.session.reporter with latest := some shot } } ∧
      (w.publish shot).contexts = w.contexts ∧ (w.publish shot).admission = w.admission := by
  refine publish_records (R := fun v v' => v'.session = v.session ∧ v'.contexts = v.contexts ∧
    v'.admission = v.admission) ⟨fun _ => ⟨rfl, rfl, rfl⟩, fun h h' => ?_⟩ (fun v e => ?_) w shot
  · exact ⟨h'.1.trans h.1, h'.2.1.trans h.2.1, h'.2.2.trans h.2.2⟩
  · rw [record]
    split <;> exact ⟨rfl, rfl, rfl⟩

theorem sameContexts_publish (shot : Report.Snapshot) : SameContexts w (w.publish shot) := by
  obtain ⟨hsession, hcontexts, -⟩ := w.session_publish shot
  refine .of_eq hcontexts ?_ ?_ ?_ <;> rw [hsession]

end World

/-- What is changed in passing is incidental. -/
theorem Passing.incidental {w w' : World} (h : Passing w w') : Incidental w w' := by
  cases h with
  | host | atGate | loose | buffer => exact .of_eq rfl rfl rfl
  | record e => exact w.incidental_record e
  | entry e => exact w.incidental_writeEntry e
  | out sink text => exact w.incidental_writeOut sink text
  | err sink text => exact w.incidental_writeErr sink text
  | enterWait o => exact w.incidental_alterControl o .blocks fun _ => rfl
  | leaveWait o => exact w.incidental_alterControl o .goesOn fun _ => rfl
  | context i f hf => exact w.incidental_alterContext i hf

/-! ## Harmless threads -/

/-- The thread makes only incidental changes, whatever happens while it waits. -/
def Harmless {α : Type} (t : Act α) : Prop :=
  ∀ w, t.Heeds (fun (_ : Unit) w _ w' => Incidental w w') (fun _ _ => True) () w

namespace Harmless

variable {α β : Type} {t : Act α}

theorem pure (a : α) : Harmless (pure a : Act α) := fun _ => trivial

theorem bind {f : α → Act β} (h : Harmless t) (hf : ∀ a, Harmless (f a)) : Harmless (t >>= f) :=
  fun w => (h w).bind fun _ a w _ => hf a w

theorem modify {f : World → World} (hf : ∀ w, Incidental w (f w)) :
    Harmless (modifyThe World f) := fun w => ⟨(), .refl w, (), hf w, trivial⟩

theorem now : Harmless Thread.now := fun _ _ => trivial

theorem awaitFor (limit : Nat) (isReady : World → Bool) :
    Harmless (Thread.awaitFor limit isReady) :=
  fun _ => ⟨fun _ _ => trivial, fun _ _ => trivial⟩

/-- A harmless thread heeds every protocol that allows incidental changes, in one stage. -/
theorem heeds {γ : Type} {P : Protocol γ World} (h : Harmless t) {g : γ}
    (hP : ∀ w w', Incidental w w' → P g w g w') (w : World) :
    t.Heeds P (fun g' _ => g' = g) g w := by
  refine (h w).mono (fun _ g' => g' = g) ?_ (fun _ _ _ hg _ => hg) rfl
  rintro _ w _ w' _ rfl hw
  exact ⟨_, rfl, hP w w' hw⟩

end Harmless

/-- A quiet thread is harmless. -/
theorem Quiet.harmless {α : Type} {t : Act α} (h : Quiet t) : Harmless t := by
  intro w
  have hheeds : t.Heeds (fun (_ : Unit) w _ w' => Incidental w w') (fun g' _ => g' = () ∧ True)
      () w := (h.only w).heeds .refl fun _ _ => Passing.incidental
  exact hheeds.mono (fun _ _ => True) (fun _ hw => ⟨(), trivial, hw⟩) (fun _ _ _ _ _ => trivial)
    trivial

theorem harmless_write (e : Report.Entry) : Harmless (write e) := (quiet_write e).harmless

/-- An evaluation makes only incidental changes, whatever its script is. -/
theorem harmless_evaluateIn (r : Running) (script : String) (bindings : Context.Bindings)
    (extra : List (String × Value)) : Harmless (evaluateIn r script bindings extra) :=
  (quiet_evaluateIn r script bindings extra).harmless

theorem harmless_setVariable (i : Nat) (name : String) (v : Value) :
    Harmless (setVariable i name v) := (quiet_setVariable i name v).harmless

theorem harmless_withDependencies (owner : Owner) (project : Path) (m : Artifact.Manifest)
    (scope : Context.LoadingScope) : Harmless (withDependencies owner project m scope) :=
  (quiet_withDependencies owner project m scope).harmless

theorem harmless_runCases (id i : Nat) (hasSummary : Bool) (cases : List TestCase) :
    Harmless (runCases id i hasSummary cases) := (quiet_runCases id i hasSummary cases).harmless

theorem harmless_runAutorun (i : Nat) : Harmless (runAutorun i) := (quiet_runAutorun i).harmless

theorem harmless_planTask (id : Nat) (plan : Plan) : Harmless (planTask id plan) :=
  (quiet_planTask id plan).harmless

theorem harmless_forM {α : Type} {f : α → Act Unit} (hf : ∀ a, Harmless (f a)) (as : List α) :
    Harmless (as.forM f) := by
  induction as with
  | nil => exact .pure _
  | cons a rest ih => exact .bind (hf a) fun _ => ih

/-- To tell a listener of the end is harmless too, though it takes two looks at the admission. -/
theorem harmless_notifyEnded (id : Nat) : Harmless (notifyEnded id) := by
  refine fun w => ⟨(), .refl w, (), .refl w, (), w.incidental_note id .tellsEnd, ?_⟩
  split
  · exact Harmless.modify (fun w => w.incidental_record _) _
  · trivial

end Session
end ScriptSession
