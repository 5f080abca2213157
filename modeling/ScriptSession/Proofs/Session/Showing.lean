import ScriptSession.Proofs.Concurrency.Calls
import ScriptSession.Proofs.Session.Trials
import ScriptSession.Proofs.Session.Undisturbed

/-!
# What a task shows

What the transcript of a session shows more than before, whether it is kept or shown on a terminal
(`World.Shows`), and the parts of a task's thread that wait for nothing: they write entries and keep
the record of the task, and they leave everything alone that scripts work with (`Tells`). Main
statement: at the end of a batch its task has come to its end, and there is a prompt
(`tells_endBatch`).
-/

namespace ScriptSession
namespace Session

open Report (Entry)
open ScriptSession.Task (Admission)

/-! ## What is shown -/

namespace World

/-- Where a world is shown, `w'` shows what `w` has shown and then some entries. -/
structure Shows (entries : List Entry) (w w' : World) : Prop where
  display : w'.display = w.display
  shown : match w.display with
    | .kept => w'.transcript.entries = w.transcript.entries ++ entries ∧ w'.streams = w.streams
    | .terminal color => w'.transcript = w.transcript ∧
        w'.streams = entries.foldl (fun s e => e.show color s) w.streams

namespace Shows

variable {w w' w'' : World} {es es' : List Entry}

theorem of_eq (hdisplay : w'.display = w.display) (htranscript : w'.transcript = w.transcript)
    (hstreams : w'.streams = w.streams) : Shows [] w w' := by
  refine ⟨hdisplay, ?_⟩
  cases w.display with
  | kept => exact ⟨by rw [htranscript, List.append_nil], hstreams⟩
  | terminal color => exact ⟨htranscript, hstreams⟩

theorem refl (w : World) : Shows [] w w := of_eq rfl rfl rfl

theorem trans (h : Shows es w w') (h' : Shows es' w' w'') : Shows (es ++ es') w w'' := by
  obtain ⟨hdisplay, hshown⟩ := h
  obtain ⟨hdisplay', hshown'⟩ := h'
  rw [hdisplay] at hdisplay' hshown'
  refine ⟨hdisplay', ?_⟩
  cases hw : w.display with
  | kept =>
    rw [hw] at hshown hshown'
    exact ⟨by rw [hshown'.1, hshown.1, List.append_assoc], hshown'.2.trans hshown.2⟩
  | terminal color =>
    rw [hw] at hshown hshown'
    exact ⟨hshown'.1.trans hshown.1, by rw [hshown'.2, hshown.2, List.foldl_append]⟩

end Shows

end World

/-! ## Writing and keeping records -/

/-- A change that shows some entries and makes `f` of the record of a task, but leaves the contexts
and the recorded runs alone. -/
structure Writes (id : Nat) (entries : List Entry) (f : Task.Record → Task.Record) (w w' : World) :
    Prop where
  shows : w.Shows entries w'
  contexts : w'.contexts = w.contexts
  batches : w'.batches = w.batches
  buffers : w'.buffers = w.buffers
  task : w'.admission.task? id = (w.admission.task? id).map f

namespace Writes

variable {id : Nat} {es es' : List Entry} {f f' : Task.Record → Task.Record} {w w' w'' : World}

/-- A change that leaves the admission alone. -/
theorem of_shows (h : w.Shows es w') (hcontexts : w'.contexts = w.contexts)
    (hbatches : w'.batches = w.batches) (hbuffers : w'.buffers = w.buffers)
    (hadmission : w'.admission = w.admission) : Writes id es (fun t => t) w w' := by
  refine ⟨h, hcontexts, hbatches, hbuffers, ?_⟩
  rw [hadmission]
  exact (congrFun Option.map_id _).symm

theorem refl (w : World) : Writes id [] (fun t => t) w w := .of_shows (.refl w) rfl rfl rfl rfl

theorem trans (h : Writes id es f w w') (h' : Writes id es' f' w' w'') :
    Writes id (es ++ es') (fun t => f' (f t)) w w'' where
  shows := h.shows.trans h'.shows
  contexts := h'.contexts.trans h.contexts
  batches := h'.batches.trans h.batches
  buffers := h'.buffers.trans h.buffers
  task := by rw [h'.task, h.task, Option.map_map]; rfl

/-- A change of the admission. -/
theorem admission {a : Admission} (ha : a.task? id = (w.admission.task? id).map f) :
    Writes id [] f w { w with admission := a } :=
  ⟨.of_eq rfl rfl rfl, rfl, rfl, rfl, ha⟩

theorem alterTask (hf : ∀ t, (f t).control.id = t.control.id) :
    Writes id [] f w { w with admission := w.admission.alterTask id f } :=
  .admission (w.admission.task?_alterTask_self id hf)

end Writes

section

variable (id : Nat) (w : World)

theorem writes_record (e : Event) : Writes id [] (fun t => t) w (w.record e) := by
  rw [World.record]
  split
  · exact .refl w
  · exact .of_shows (.of_eq rfl rfl rfl) rfl rfl rfl rfl

theorem writes_writeEntry (e : Entry) : Writes id [e] (fun t => t) w (w.writeEntry e) := by
  rw [World.writeEntry]
  split
  · rename_i hdisplay
    have hkept : Writes id [e] (fun t => t) w { w with transcript := w.transcript.write e } := by
      refine .of_shows ⟨rfl, ?_⟩ rfl rfl rfl rfl
      rw [hdisplay]
      exact ⟨rfl, rfl⟩
    have hwrites := hkept.trans (writes_record id _ (.entry e))
    rwa [List.append_nil] at hwrites
  · rename_i color hdisplay
    refine .of_shows ⟨rfl, ?_⟩ rfl rfl rfl rfl
    rw [hdisplay]
    exact ⟨rfl, rfl⟩

theorem writes_publish (shot : Report.Snapshot) : Writes id [] (fun t => t) w (w.publish shot) := by
  have hreporter : ∀ c : Core, Writes id [] (fun t => t) w { w with session := c } :=
    fun _ => .of_shows (.of_eq rfl rfl rfl) rfl rfl rfl rfl
  exact (hreporter _).trans (w.publish_records ⟨.refl, .trans⟩ (writes_record id) shot)

end

/-- The thread shows some entries and makes `f` of the record of a task, and it never waits. -/
structure Tells (id : Nat) (entries : List Entry) (f : Task.Record → Task.Record) (t : Act Unit) :
    Prop where
  proceeds : ∀ (R : World → World → Prop) (P : World → Prop) (ends : Prop) (w : World),
    t.Proceeds R P ends w fun _ => Writes id entries f w

namespace Tells

variable {id : Nat} {es es' : List Entry} {f f' : Task.Record → Task.Record}

theorem pure : Tells id [] (fun t => t) (pure ()) := ⟨fun _ _ _ => .refl⟩

theorem modify {g : World → World} (hg : ∀ w, Writes id es f w (g w)) :
    Tells id es f (modifyThe World g) := ⟨fun _ _ _ => hg⟩

theorem get_bind {g : World → Act Unit} (hg : ∀ w, Tells id es f (g w)) :
    Tells id es f (getThe World >>= g) := ⟨fun R P ends w => (hg w).proceeds R P ends w⟩

/-- One thread after the other, with all that the two of them show and make of the record. -/
theorem bind {all : List Entry} {made : Task.Record → Task.Record} {t : Act Unit}
    {g : Unit → Act Unit} (ht : Tells id es f t) (hg : Tells id es' f' (g ()))
    (hall : all = es ++ es') (hmade : made = fun r => f' (f r)) : Tells id all made (t >>= g) := by
  subst hall hmade
  exact ⟨fun R P ends w => .bind ((ht.proceeds R P ends w).mono (fun _ h => h) fun _ w₁ hw₁ =>
    (hg.proceeds R P ends w₁).mono (fun _ h => h) fun _ _ hw₂ => hw₁.trans hw₂)⟩

theorem write (e : Entry) : Tells id [e] (fun t => t) (write e) :=
  .modify fun w => writes_writeEntry id w e

theorem writes (es : List Entry) : Tells id es (fun t => t) (es.forM Session.write) := by
  induction es with
  | nil => exact .pure
  | cons e rest ih => exact .bind (.write e) ih rfl rfl

theorem alterAdmission {g : Admission → Admission}
    (hg : ∀ a, (g a).task? id = (a.task? id).map f) : Tells id [] f (alterAdmission g) :=
  .modify fun w => .admission (hg w.admission)

end Tells

/-! ## The end of a task -/

/-- The listener of a task has been told of the end. -/
def tellEnd (t : Task.Record) : Task.Record := { t with control := t.control.takeListener.2 }

/-- A task has come to its end, with a value that says nothing. -/
def conclude (t : Task.Record) : Task.Record :=
  { t with control := (t.control.finish .completed).2, outcome := some (.ok .unit) }

section

variable (id : Nat)

theorem tells_notifyStarted : Tells id [] (fun t => t) (notifyStarted id) := by
  refine .get_bind fun w => ?_
  split
  · exact .modify fun w => writes_record id w _
  · exact .pure

theorem tells_begin :
    Tells id [] (fun t => { t with hasBegun := true }) (alterAdmission (·.begin id)) :=
  .alterAdmission fun a => a.task?_alterTask_self id fun _ => rfl

theorem tells_tellEnded (listener : Option Task.Listener) :
    Tells id [] (fun t => t) (tellEnded listener) := by
  cases listener with
  | some l => exact .modify fun w => writes_record id w _
  | none => exact .pure

theorem tells_notifyEnded : Tells id [] tellEnd (notifyEnded id) := by
  refine ⟨fun R P ends w => ?_⟩
  have htake : Writes id [] tellEnd w { w with admission := (w.admission.takeListener id).2 } :=
    .alterTask fun _ => rfl
  exact ((tells_tellEnded id _).proceeds R P ends _).mono (fun _ h => h) fun _ _ hw =>
    htake.trans hw

theorem tells_complete (i : Nat) : Tells id [.prompt] tellEnd (complete i id) :=
  .bind (tells_notifyEnded id)
    (.bind (.modify fun w => writes_publish id w _) (.write .prompt) rfl rfl) rfl rfl

theorem task?_release (a : Admission) :
    (a.release id).task? id = (a.task? id).map fun t => { t with hasLeft := true } := by
  rw [← a.task?_alterTask_self id (f := fun t => { t with hasLeft := true }) fun _ => rfl,
    Admission.task?, Admission.task?, (a.tasks_release id).1]

/-- At the end of a batch its task comes to its end. -/
theorem tells_endBatch (i : Nat) : Tells id [.prompt]
    (fun t => { tellEnd (conclude (tellEnd t)) with hasLeft := true }) (endBatch id i) := by
  have hkeep : Tells id [] (fun t => { t with outcome := some (.ok .unit) })
      (alterAdmission (·.keep id (.ok .unit))) :=
    .alterAdmission fun a => a.task?_alterTask_self id fun _ => rfl
  have hfinish : Tells id [] (fun t => { t with control := (t.control.finish .completed).2 })
      (alterAdmission fun a => (a.finish id .completed).2) :=
    .alterAdmission fun a => a.task?_alterTask_self id fun t =>
      (Task.Record.becomes_finish t .completed).id
  have hleave : Tells id [] (fun t => { t with hasLeft := true }) (alterAdmission (·.release id)) :=
    .alterAdmission (task?_release id)
  have hend :=
    Tells.bind (g := fun _ => alterAdmission (·.release id)) (tells_notifyEnded id) hleave
    rfl rfl
  exact .bind (tells_complete id i) (.bind hkeep (.bind hfinish hend rfl rfl) rfl rfl) rfl rfl

end

end Session
end ScriptSession
