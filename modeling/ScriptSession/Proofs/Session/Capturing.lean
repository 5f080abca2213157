import ScriptSession.Proofs.Concurrency.Outcomes
import ScriptSession.Proofs.Session.Overlapping
import ScriptSession.Proofs.Session.Passing

/-!
# Captured output

Tests evaluate their scripts with a buffer of their own and give back what it holds, while other
threads evaluate on the same engine or on others. What the session's own evaluations do are steps of
such threads (`Overlap.does_evaluateIn`, `Overlap.exists_step_of_does`). Main statement: every line
reaches the sink of the innermost evaluation of its thread, every answer is what its owner says, a
thread without an evaluation has no entry in the maps, and a test gives back what its own script has
printed (`Overlap.apart`).
-/

namespace ScriptSession
namespace Session

open Concurrency (noted_keeps)
open Report (Streams)

/-! ## Lines -/

/-- Streams with one line more. -/
def Line.appendTo (l : Line) (s : Streams) : Streams :=
  if l.isError then s.errLine l.text else s.outLine l.text

theorem World.buffers_writeEntry (w : World) (e : Report.Entry) :
    (w.writeEntry e).buffers = w.buffers := by
  rw [writeEntry]
  split
  · rw [record]
    split <;> rfl
  · rfl

/-- A line that goes elsewhere leaves a buffer alone. -/
theorem World.buffer_writeLine_of_ne (w : World) {sink : Sink} {n : Nat}
    (h : ∀ hasGates, sink ≠ .buffer n hasGates) (l : Line) :
    (w.writeLine sink l).buffers[n]? = w.buffers[n]? := by
  cases sink with
  | transcript =>
    rw [writeLine]
    split <;> exact congrArg (·[n]?) (w.buffers_writeEntry _)
  | process =>
    rw [writeLine]
    split <;> rfl
  | buffer m hasGates =>
    have hne : m ≠ n := fun heq => h hasGates (heq ▸ rfl)
    rw [writeLine]
    split <;> exact List.getElem?_modify_ne _ _ hne

theorem World.buffer_writeLine (w : World) (n : Nat) (hasGates : Bool) (l : Line) :
    (w.writeLine (.buffer n hasGates) l).buffers[n]? = w.buffers[n]?.map l.appendTo := by
  rw [writeLine]
  unfold Line.appendTo
  split <;> exact List.getElem?_modify_eq ..

theorem World.length_buffers_writeLine (w : World) (sink : Sink) (l : Line) :
    (w.writeLine sink l).buffers.length = w.buffers.length := by
  cases sink with
  | transcript =>
    rw [writeLine]
    split <;> exact congrArg List.length (w.buffers_writeEntry _)
  | process =>
    rw [writeLine]
    split <;> rfl
  | buffer m hasGates =>
    rw [writeLine]
    split <;> exact List.length_modify ..

namespace Overlap

/-! ## Buffers of tests -/

/-- The line that the script of a test has printed. -/
def Note.lineOf? (n : Nat) : Note → Option Line
  | .line test l => if test = some n then some l else none
  | .answer _ => none

/-- What the script of a test has printed. -/
def written (n : Nat) (past : List Note) : Streams :=
  (past.filterMap (Note.lineOf? n)).foldl (fun s l => l.appendTo s) .empty

theorem written_concat (n : Nat) (past : List Note) (note : Note) :
    written n (past ++ [note]) =
      (note.lineOf? n).elim (written n past) fun l => l.appendTo (written n past) := by
  rw [written, List.filterMap_append, List.foldl_append, ← written, filterMap_cons_eq]
  cases note.lineOf? n <;> rfl

/-- The evaluation of a test writes to the buffer of the test, and no other evaluation does. -/
structure Frame.Fits (s : Overlap) (f : Frame) : Prop where
  own : ∀ n, f.test = some n → n ∈ s.tests ∧ f.running.sink = .buffer n false
  only : ∀ n hasGates, f.running.sink = .buffer n hasGates →
    n < s.world.buffers.length ∧ (n ∈ s.tests → f.test = some n)

/-- The buffer of every test holds what its own script has printed. -/
structure Captures (past : List Note) (s : Overlap) : Prop where
  frames : ∀ t, ∀ f ∈ s.frames t, f.Fits s
  content : ∀ n ∈ s.tests, s.world.buffers[n]? = some (written n past)
  fresh : ∀ n, n ∉ s.tests → written n past = .empty

theorem captures_new (w : World) : Captures [] (new w) := ⟨nofun, nofun, fun _ _ => rfl⟩

section
variable {s s' : Overlap} {past : List Note}

theorem Captures.test_lt (h : Captures past s) {n : Nat} (hn : n ∈ s.tests) :
    n < s.world.buffers.length := by
  have hsome := h.content n hn
  by_contra hlt
  rw [List.getElem?_eq_none (Nat.le_of_not_lt hlt)] at hsome
  cases hsome

/-- Where tests and buffers are as before, an evaluation fits as it did. -/
theorem Frame.Fits.of_eq {f : Frame} (h : f.Fits s) (htests : s'.tests = s.tests)
    (hlength : s'.world.buffers.length = s.world.buffers.length) : f.Fits s' := by
  constructor
  · rw [htests]
    exact h.own
  · rw [htests, hlength]
    exact h.only

/-- Tests and buffers are as before, and the evaluations of a thread change. -/
theorem Captures.go (h : Captures past s) {t i : Nat} {e : Engine} {fs : List Frame}
    (hfs : ∀ f ∈ fs, f.Fits s) : Captures past (s.go t i e fs) := by
  refine ⟨fun u f hf => ?_, h.content, h.fresh⟩
  refine Frame.Fits.of_eq (s := s) ?_ rfl rfl
  have hf : f ∈ Function.update s.frames t fs u := hf
  by_cases hu : u = t
  · rw [hu, Function.update_self] at hf
    exact hfs f hf
  · rw [Function.update_of_ne hu] at hf
    exact h.frames u f hf

theorem Captures.begin (h : Captures past s) (t : Nat) {r : Running} {test : Option Nat}
    (hfits : ∀ owner stage, (Frame.mk r test owner stage).Fits s) :
    Captures past (s.begin t r test) := by
  refine h.go fun f hf => ?_
  obtain rfl | hf := List.mem_cons.mp hf
  · exact hfits _ _
  · exact h.frames t f hf

/-- A new buffer is no test's. -/
theorem Captures.addBuffer (h : Captures past s) : Captures past s.addBuffer := by
  have hlength : s.addBuffer.world.buffers.length = s.world.buffers.length + 1 :=
    List.length_append ..
  refine ⟨fun t f hf => ⟨(h.frames t f hf).own, fun n hasGates hsink => ?_⟩, fun n hn => ?_,
    h.fresh⟩
  · obtain ⟨hlt, htest⟩ := (h.frames t f hf).only n hasGates hsink
    exact ⟨hlength ▸ Nat.lt_succ_of_lt hlt, htest⟩
  · exact (List.getElem?_append_left (h.test_lt hn)).trans (h.content n hn)

/-- The new buffer of a test is empty, and no evaluation writes to it yet. -/
theorem Captures.addTest (h : Captures past s) : Captures past s.addTest := by
  have hnew : s.world.addBuffer.1 ∉ s.tests := fun hmem => Nat.lt_irrefl _ (h.test_lt hmem)
  refine ⟨fun t f hf => ⟨fun n hn => ?_, fun n hasGates hsink => ?_⟩, fun n hn => ?_,
    fun n hn => ?_⟩
  · obtain ⟨hmem, hsink⟩ := (h.frames t f hf).own n hn
    exact ⟨List.mem_cons_of_mem _ hmem, hsink⟩
  · obtain ⟨hlt, htest⟩ := (h.frames t f hf).only n hasGates hsink
    refine ⟨((h.addBuffer.frames t f hf).only n hasGates hsink).1, fun hmem => ?_⟩
    obtain rfl | hmem := List.mem_cons.mp hmem
    · exact absurd hlt (Nat.lt_irrefl _)
    · exact htest hmem
  · obtain rfl | hmem := List.mem_cons.mp hn
    · rw [h.fresh _ hnew]
      exact List.getElem?_concat_length ..
    · exact h.addBuffer.content n hmem
  · exact h.fresh n fun hmem => hn (List.mem_cons_of_mem _ hmem)

theorem Captures.beginTest (h : Captures past s) (t context id : Nat) :
    Captures past (s.beginTest t context id) := by
  refine h.addTest.begin t fun owner stage => ⟨fun n hn => ?_, fun n hasGates hsink => ?_⟩
  · cases hn
    exact ⟨List.mem_cons_self .., rfl⟩
  · cases hsink
    refine ⟨?_, fun _ => rfl⟩
    exact (List.length_append ..).symm ▸ Nat.lt_succ_self _

theorem Captures.advance (h : Captures past s) (t : Nat) : Captures past (s.advance t) := by
  rw [Overlap.advance]
  split
  · exact h
  · rename_i f rest hframes
    have hfits : ∀ g ∈ f :: rest, g.Fits s := fun g hg => h.frames t g (hframes ▸ hg)
    have hrest : ∀ g ∈ rest, g.Fits s := fun g hg => hfits g (List.mem_cons_of_mem _ hg)
    -- How far an evaluation has come does not matter.
    have hself : ∀ stage, Frame.Fits s { f with stage := stage } := fun stage =>
      ⟨(hfits f (List.mem_cons_self ..)).own, (hfits f (List.mem_cons_self ..)).only⟩
    have hnext : ∀ stage, ∀ g ∈ { f with stage := stage } :: rest, g.Fits s := by
      intro stage g hg
      obtain rfl | hg := List.mem_cons.mp hg
      · exact hself stage
      · exact hrest g hg
    split
    · exact h.go (hnext _)
    · exact h.go (hnext _)
    · exact h.go hrest

/-- Output of a thread goes to the buffer of a test exactly if it is the test's own script that runs
there. -/
theorem Captures.sink_of_test (h : Captures past s) {t n : Nat} (i : Nat)
    (htest : s.testOn? t = some n) : n ∈ s.tests ∧ (byFrames s t i).1 = .buffer n false := by
  rw [testOn?] at htest
  rw [byFrames]
  cases hframes : s.frames t with
  | nil =>
    rw [hframes] at htest
    cases htest
  | cons f rest =>
    rw [hframes] at htest
    exact (h.frames t f (hframes ▸ List.mem_cons_self ..)).own n htest

theorem Captures.sink_of_no_test (h : Captures past s) {t n : Nat} (i : Nat) (hn : n ∈ s.tests)
    (htest : s.testOn? t ≠ some n) (hasGates : Bool) :
    (byFrames s t i).1 ≠ .buffer n hasGates := by
  rw [testOn?] at htest
  rw [byFrames]
  cases hframes : s.frames t with
  | nil => exact Sink.noConfusion
  | cons f rest =>
    rw [hframes] at htest
    exact fun hsink =>
      htest (((h.frames t f (hframes ▸ List.mem_cons_self ..)).only n hasGates hsink).2 hn)

theorem Captures.print (h : Captures past s) (t i : Nat) (l : Line) :
    Captures (past ++ [.line (s.testOn? t) l])
      { s with world := s.world.writeLine (byFrames s t i).1 l } := by
  have hlength := s.world.length_buffers_writeLine (byFrames s t i).1 l
  refine ⟨fun u f hf => (h.frames u f hf).of_eq rfl hlength, fun n hn => ?_, fun n hn => ?_⟩
  · rw [written_concat, Note.lineOf?]
    split
    · rename_i htest
      rw [(h.sink_of_test i htest).2, World.buffer_writeLine, h.content n hn]
      rfl
    · rename_i htest
      exact (s.world.buffer_writeLine_of_ne (h.sink_of_no_test i hn htest) l).trans (h.content n hn)
  · rw [written_concat, Note.lineOf?, if_neg fun htest => hn (h.sink_of_test i htest).1]
    exact h.fresh n hn

theorem captures_step (h : Captures past s) (e : Event) :
    Captures (past ++ s.notes byFrames e) (s.step byFrames e) := by
  -- An event that is not taken notes nothing.
  have hsame : Captures (past ++ []) s := by rwa [List.append_nil]
  cases e with
  | evaluate t r =>
    rw [step, notes, List.append_nil]
    split
    · rename_i hmay
      rw [Bool.and_eq_true] at hmay
      refine h.begin t fun owner stage => ⟨fun n htest => ?_, fun n hasGates hsink => ?_⟩
      · -- An evaluation has no test, and its buffer is one that nobody else has.
        cases htest
      · have hoffers : s.offers (.buffer n hasGates) := hsink ▸ hmay.2
        simp only [offers, Bool.and_eq_true, decide_eq_true_eq, Bool.not_eq_true',
          List.contains_eq_mem, decide_eq_false_iff_not] at hoffers
        exact ⟨hoffers.1, fun hmem => absurd hmem hoffers.2⟩
    · exact h
  | test t context id =>
    rw [step, notes, List.append_nil]
    split
    · exact h.beginTest t context id
    · exact h
  | buffer =>
    rw [step, notes, List.append_nil]
    exact h.addBuffer
  | advance t =>
    rw [step, notes, List.append_nil]
    exact h.advance t
  | print t i l =>
    rw [step, notes]
    split
    · exact h.print t i l
    · exact hsame
  | check t i =>
    rw [step, notes]
    split
    · refine ⟨h.frames, fun n hn => ?_, fun n hn => ?_⟩ <;> rw [written_concat]
      · exact h.content n hn
      · exact h.fresh n hn
    · exact hsame
  | other f =>
    rw [step, notes, List.append_nil]
    exact ⟨fun t f hf => (h.frames t f hf).of_eq rfl rfl, h.content, h.fresh⟩

end

theorem captures_run (w : World) (events : List Event) :
    Captures (history byFrames w events) (run byFrames w events) :=
  noted_keeps (P := Captures) (captures_new w) (fun _ _ e h => captures_step h e) events

/-! ## The session's evaluations -/

/-- What an evaluation does: a line of its script, or something that leaves the buffers alone. -/
inductive Does (r : Running) (w : World) : World → Prop where
  | print (l : Line) : Does r w (w.writeLine r.sink l)
  | other (w' : World) (h : w'.buffers = w.buffers) : Does r w w'

/-- An evaluation does nothing else, whatever its script is and whatever others do meanwhile. -/
theorem does_evaluateIn (r : Running) (script : String) (bindings : Context.Bindings)
    (extra : List (String × Script.Value)) :
    Makes (Does r) (fun _ => True) (evaluateIn r script bindings extra) := by
  have hcontrol : ∀ (w : World) (f : Task.Control → Task.Control),
      (w.alterControl r.owner f).buffers = w.buffers := by
    intro w f
    cases r.owner <;> rfl
  refine makes_evaluateIn ⟨⟨⟨fun w _ => .other _ rfl, fun w text => .print ⟨false, text⟩,
    fun w text => .print ⟨true, text⟩, fun w => .other _ (hcontrol w _),
    fun w => .other _ (hcontrol w _)⟩, fun w _ _ => .other _ rfl⟩, fun w f _ => .other _ rfl⟩
    script bindings extra

section
variable {s : Overlap} {t : Nat} {f : Frame} {rest : List Frame}

theorem mayUse_of_inside (hframes : s.frames t = f :: rest)
    (hinside : (f.sinkIn? f.running.context).isSome) : s.mayUse t f.running.context := by
  rw [mayUse, hframes]
  exact hinside

/-- What the innermost evaluation of a thread does is a step. -/
theorem exists_step_of_does (h : s.Sound) (hframes : s.frames t = f :: rest)
    (hinside : (f.sinkIn? f.running.context).isSome) {w : World} (hw : Does f.running s.world w) :
    ∃ e, s.step byMaps e = { s with world := w } := by
  cases hw with
  | print l =>
    have hmay := mayUse_of_inside hframes hinside
    refine ⟨.print t f.running.context l, ?_⟩
    rw [step, if_pos hmay, byMaps_eq h hmay, byFrames, hframes]
  | other w hbuffers =>
    refine ⟨.other fun _ => w, ?_⟩
    rw [step, ← hbuffers]

end

/-- A test evaluates its script with a buffer of its own, and then reads the buffer. -/
theorem runCase_eq (id i : Nat) (case : Report.TestCase) :
    runCase id i case = (do
      let (buffer, w) := (← getThe World).addBuffer
      set w
      let result ←
        evaluateIn ⟨i, .buffer buffer false, .task id⟩ case.script w.session.bindings []
      endCase case buffer result) := rfl

/-! ## Main statement -/

/-- Evaluations keep their output and their cancellation apart. -/
structure Apart (w : World) (events : List Event) : Prop where
  /-- What the maps say is what the innermost evaluation of the thread runs with. -/
  inForce : ∀ t i, (run byMaps w events).mayUse t i →
    byMaps (run byMaps w events) t i = byFrames (run byMaps w events) t i
  /-- Every line reaches the sink of the innermost evaluation, in the order of printing. -/
  reaches : run byMaps w events = run byFrames w events
  /-- Every answer is what the owner of the innermost evaluation says. -/
  answers : history byMaps w events = history byFrames w events
  /-- A thread without an evaluation has no entry. -/
  unused : ∀ t, (run byMaps w events).frames t = [] → ∀ i,
    (∀ e ∈ ((run byMaps w events).engines i).sinks.entries, e.1 ≠ t) ∧
      ∀ e ∈ ((run byMaps w events).engines i).owners.entries, e.1 ≠ t
  /-- A test gives back what its own script has printed. -/
  captured : ∀ n ∈ (run byMaps w events).tests, ∀ R case result r w',
    (endCase case n result).Ends R (run byMaps w events).world r w' →
      r.out = (written n (history byMaps w events)).out ∧
        r.err = (written n (history byMaps w events)).err

/-- Whatever threads evaluate, nested and in any order of their steps, is kept apart. -/
theorem apart (w : World) (events : List Event) : Apart w events := by
  have hsound := sound_run byMaps w events
  refine ⟨fun t i => byMaps_eq hsound, run_eq w events, history_eq w events, fun t ht i => ?_,
    fun n hn R case result r w' hends => ?_⟩
  · have hsinks : sinksOf i ((run byMaps w events).frames t) = [] := by rw [ht]; rfl
    have howners : ownersOf i ((run byMaps w events).frames t) = [] := by rw [ht]; rfl
    exact ⟨(hsound.sinks i).unused hsinks, (hsound.owners i).unused howners⟩
  · rw [run_eq] at hn hends
    have hbuffer : (run byFrames w events).world.buffers.getD n .empty =
        written n (history byMaps w events) := by
      rw [List.getD_eq_getElem?_getD, (captures_run w events).content n hn, history_eq]
      rfl
    obtain ⟨rfl, -⟩ := hends
    rw [← hbuffer]
    exact ⟨rfl, rfl⟩

end Overlap
end Session
end ScriptSession
