import Mathlib.Logic.Relation
import ScriptSession.Proofs.Concurrency.Outcomes
import ScriptSession.Proofs.Session.Passing

/-!
# Journals of imports

What an import comes to, together with a journal of it: the imports that found a file, those that
are made while a module file runs included, in the order in which they end. A journal says of each
of them whether the file was read and run and what the context keeps afterwards. The rules follow
the resolving of imports (`Running.Imports`), and what they derive is what imports come to, no less
and no more (`ends_iff_imports`).

While a file runs, each of its imports is in the journal before its own. So if the imports of a
journal go along the edges of a graph without circles, no file is found by an import that is made
while the file runs (`not_same_of_goesAlong`).
-/

namespace ScriptSession
namespace Session

open Concurrency (Thread)
open Script (Module Run)

/-- An import that has found a file and has ended. -/
structure Import where
  /-- The files that were being run, the innermost one first. -/
  running : List Path
  file : Path
  /-- Whether the file was read and run. -/
  isRun : Bool
  result : Except Script.Fault Module
  /-- The modules that the context keeps when the import has ended. -/
  modules : List (Path × Module)

namespace Running

/-- What the imports of names come to, and their journals. -/
abbrev Records := String → Script.Position → World → Except Script.Fault Module → World →
  List Import → Prop

section

variable (r : Running) (R : World → World → Prop) (load : Loader)

/-- What a script comes to whose imports are recorded, and their journals in a row. -/
inductive Interprets (records : Records) {α : Type} :
    Nat → Run α → World → α → World → List Import → Prop
  | done {asked : Nat} {a : α} {w : World} : Interprets records asked (.done a) w a w []
  | load {asked : Nat} {name : String} {p : Script.Position}
    {k : (Script.Request.load name p).Reply → Run α} {w w₁ w' : World}
    {x : Except Script.Fault Module} {a : α} {front back : List Import}
    (hload : records name p w x w₁ front)
    (hrest : Interprets records (asked + 1) (k x) w₁ a w' back) :
    Interprets records asked (.ask (.load name p) k) w a w' (front ++ back)
  | other {asked : Nat} {q : Script.Request} {k : q.Reply → Run α} {w w₁ w' : World} {x : q.Reply}
    {a : α} {js : List Import} (hq : ∀ name p, q ≠ .load name p)
    (hanswer : (r.answer load asked q).Ends R w x w₁)
    (hrest : Interprets records (asked + 1) (k x) w₁ a w' js) :
    Interprets records asked (.ask q k) w a w' js

/-- What a module file comes to. -/
def RunsFile (records : Records) (file : Path) (w : World) (a : Except Script.Fault Module)
    (w' : World) (js : List Import) : Prop :=
  match moduleText w.host file with
  | .error e =>
    a = .error (.system ("Cannot read script file '" ++ file.text ++ "'") (.io e)) ∧ w' = w ∧
      js = []
  | .ok text => r.Interprets R load records 0 (Script.runModule text file.text) w a w' js

/-- What the import of a name comes to while some files are being run. -/
inductive Resolves (records : List Path → Records) (running : List Path) : String →
    Script.Position → World → Except Script.Fault Module → World → List Import → Prop
  | missing {name : String} {p : Script.Position} {w : World}
    (hfind : (w.context r.context).loading.findModule w.host name = none) :
    Resolves records running name p w (.error (.moduleNotFound name (some p))) w []
  | kept {name : String} {p : Script.Position} {w : World} {file : Path} {m : Module}
    (hfind : (w.context r.context).loading.findModule w.host name = some file)
    (hkept : (w.context r.context).module? file = some m) :
    Resolves records running name p w (.ok m) w
      [⟨running, file, false, .ok m, (w.context r.context).modules⟩]
  | failed {name : String} {p : Script.Position} {w w₁ : World} {file : Path} {f : Script.Fault}
    {js : List Import} (hfind : (w.context r.context).loading.findModule w.host name = some file)
    (hkept : (w.context r.context).module? file = none)
    (hrun : r.RunsFile R load (records (file :: running)) file w (.error f) w₁ js) :
    Resolves records running name p w (.error (.inModule name f (some p))) w₁
      (js ++ [⟨running, file, true, .error (.inModule name f (some p)),
        (w₁.context r.context).modules⟩])
  | fresh {name : String} {p : Script.Position} {w w₁ : World} {file : Path} {m : Module}
    {js : List Import} (hfind : (w.context r.context).loading.findModule w.host name = some file)
    (hkept : (w.context r.context).module? file = none)
    (hrun : r.RunsFile R load (records (file :: running)) file w (.ok m) w₁ js) :
    Resolves records running name p w (.ok m)
      (w₁.alterContext r.context (·.keepModule file m))
      (js ++ [⟨running, file, true, .ok m,
        ((w₁.alterContext r.context (·.keepModule file m)).context r.context).modules⟩])

end

/-- What an import comes to with room for some nested imports, while some files are being run. -/
def Imports (r : Running) (R : World → World → Prop) : Nat → List Path → Records
  | 0, _ => fun _ _ _ _ _ _ => False
  | room + 1, running =>
    r.Resolves R (r.resolveWithin room) (r.Imports R room) running

/-! ## What imports come to -/

section

variable {r : Running} {R : World → World → Prop} {load : Loader} {records : Records}
  {w w' : World}

theorem ends_interpret_iff {α : Type}
    (hload : ∀ name p w x w', (load name p).Ends R w x w' ↔ ∃ js, records name p w x w' js)
    (asked : Nat) (run : Run α) {a : α} :
    (r.interpret load asked run).Ends R w a w' ↔
      ∃ js, r.Interprets R load records asked run w a w' js := by
  induction run generalizing asked w with
  | done b =>
    rw [interpret, Thread.ends_pure]
    constructor
    · rintro ⟨rfl, rfl⟩
      exact ⟨[], .done⟩
    · rintro ⟨js, h⟩
      cases h
      exact ⟨rfl, rfl⟩
  | ask q k ih =>
    rw [interpret, Thread.ends_bind']
    constructor
    · rintro ⟨x, w₁, hanswer, hrest⟩
      obtain ⟨back, hback⟩ := (ih x (asked + 1)).mp hrest
      -- Only the question for a module leaves something in the journal.
      cases q with
      | load name p =>
        obtain ⟨front, hfront⟩ := (hload name p w x w₁).mp hanswer
        exact ⟨front ++ back, .load hfront hback⟩
      | print text => exact ⟨back, .other nofun hanswer hback⟩
      | complain text => exact ⟨back, .other nofun hanswer hback⟩
      | sleep millis => exact ⟨back, .other nofun hanswer hback⟩
      | readText path => exact ⟨back, .other nofun hanswer hback⟩
      | proceed => exact ⟨back, .other nofun hanswer hback⟩
    · rintro ⟨js, h⟩
      cases h with
      | load hfront hback =>
        exact ⟨_, _, (hload _ _ _ _ _).mpr ⟨_, hfront⟩, (ih _ _).mpr ⟨_, hback⟩⟩
      | other hq hanswer hback => exact ⟨_, _, hanswer, (ih _ _).mpr ⟨_, hback⟩⟩

theorem ends_runFile_iff
    (hload : ∀ name p w x w', (load name p).Ends R w x w' ↔ ∃ js, records name p w x w' js)
    (file : Path) {a : Except Script.Fault Module} :
    (r.runFile load file).Ends R w a w' ↔ ∃ js, r.RunsFile R load records file w a w' js := by
  rw [runFile, Thread.ends_get_bind]
  unfold RunsFile
  cases moduleText w.host file with
  | error e =>
    simp only [Thread.ends_pure]
    constructor
    · rintro ⟨rfl, rfl⟩
      exact ⟨[], rfl, rfl, rfl⟩
    · rintro ⟨js, ha, hw, -⟩
      exact ⟨ha, hw⟩
  | ok text => exact ends_interpret_iff hload 0 _

theorem ends_resolve_iff {records : List Path → Records} (running : List Path)
    (hload : ∀ file name p w x w', (load name p).Ends R w x w' ↔
      ∃ js, records (file :: running) name p w x w' js)
    (name : String) (p : Script.Position) {a : Except Script.Fault Module} :
    (r.resolve load name p).Ends R w a w' ↔
      ∃ js, r.Resolves R load records running name p w a w' js := by
  rw [resolve, Thread.ends_get_bind]
  cases hfind : (w.context r.context).loading.findModule w.host name with
  | none =>
    dsimp only
    rw [Thread.ends_pure]
    constructor
    · rintro ⟨rfl, rfl⟩
      exact ⟨[], .missing hfind⟩
    · rintro ⟨js, h⟩
      cases h <;> simp_all
  | some file =>
    dsimp only
    cases hkept : (w.context r.context).module? file with
    | some m =>
      dsimp only
      rw [Thread.ends_pure]
      constructor
      · rintro ⟨rfl, rfl⟩
        exact ⟨_, .kept hfind hkept⟩
      · rintro ⟨js, h⟩
        cases h <;> simp_all
    | none =>
      dsimp only
      rw [Thread.ends_bind']
      -- The file is run, and the module is kept unless that fails.
      constructor
      · rintro ⟨outcome, w₁, hrun, hrest⟩
        obtain ⟨js, hjs⟩ := (ends_runFile_iff (hload file) file).mp hrun
        cases outcome with
        | error f =>
          obtain ⟨rfl, rfl⟩ := hrest
          exact ⟨_, .failed hfind hkept hjs⟩
        | ok m =>
          obtain ⟨rfl, rfl⟩ := hrest
          exact ⟨_, .fresh hfind hkept hjs⟩
      · rintro ⟨js, h⟩
        cases h with
        | missing hfind' => simp_all
        | kept hfind' hkept' => simp_all
        | failed hfind' hkept' hrun =>
          obtain rfl := Option.some.inj (hfind.symm.trans hfind')
          exact ⟨_, _, (ends_runFile_iff (hload _) _).mpr ⟨_, hrun⟩, rfl, rfl⟩
        | fresh hfind' hkept' hrun =>
          obtain rfl := Option.some.inj (hfind.symm.trans hfind')
          exact ⟨_, _, (ends_runFile_iff (hload _) _).mpr ⟨_, hrun⟩, rfl, rfl⟩

/-- The journals tell what imports come to, no less and no more. The induction is on the room. -/
theorem ends_iff_imports (room : Nat) (running : List Path) (name : String) (p : Script.Position)
    {a : Except Script.Fault Module} :
    (r.resolveWithin room name p).Ends R w a w' ↔
      ∃ js, r.Imports R room running name p w a w' js := by
  induction room generalizing running name p w a w' with
  | zero =>
    -- Without room an import waits for something that never comes.
    refine iff_of_false ?_ (by rintro ⟨js, h⟩; exact h)
    intro h
    rw [resolveWithin] at h
    obtain ⟨_, w₁, hwait, -⟩ := Thread.ends_bind'.mp h
    cases (Thread.ends_await.mp hwait).1
  | succ room ih =>
    exact ends_resolve_iff running (fun file name p w x w' => ih (file :: running) name p) name p

end

end Running

/-! ## Nested imports -/

/-- The imports of the journal are made while some files are being run, and that of every further
file which is being run is in the journal too. -/
def IsNested (running : List Path) (js : List Import) : Prop :=
  ∀ e ∈ js, running <:+ e.running ∧ ∀ front file back, e.running = front ++ file :: back →
    running <:+ back → ∃ e' ∈ js, e'.file = file ∧ e'.running = back

namespace IsNested

variable {running : List Path} {js js' : List Import}

theorem append (h : IsNested running js) (h' : IsNested running js') :
    IsNested running (js ++ js') := by
  intro e he
  rcases List.mem_append.mp he with he | he
  · refine ⟨(h e he).1, fun front file back hsplit hback => ?_⟩
    obtain ⟨e', he', hfound⟩ := (h e he).2 front file back hsplit hback
    exact ⟨e', List.mem_append_left js' he', hfound⟩
  · refine ⟨(h' e he).1, fun front file back hsplit hback => ?_⟩
    obtain ⟨e', he', hfound⟩ := (h' e he).2 front file back hsplit hback
    exact ⟨e', List.mem_append_right js he', hfound⟩

/-- The import of a file, behind those that are made while the file runs. -/
theorem concat {e : Import} (h : IsNested (e.file :: running) js) (he : e.running = running) :
    IsNested running (js ++ [e]) := by
  intro e₁ he₁
  rcases List.mem_append.mp he₁ with hinner | hself
  · obtain ⟨hsuffix, hfound⟩ := h e₁ hinner
    have hrunning : running <:+ e₁.running := (List.suffix_cons e.file running).trans hsuffix
    refine ⟨hrunning, fun front file back hsplit hback => ?_⟩
    have hrest : file :: back <:+ e₁.running := ⟨front, hsplit.symm⟩
    rcases List.suffix_or_suffix_of_suffix hsuffix ((List.suffix_cons file back).trans hrest) with
      hdeep | hshallow
    · obtain ⟨e', he', hnamed⟩ := hfound front file back hsplit hdeep
      exact ⟨e', List.mem_append_left [e] he', hnamed⟩
    · -- The file is the one whose imports these are, or it is one of the files around it.
      obtain hback' | hback' := List.suffix_cons_iff.mp hshallow
      · obtain ⟨e', he', hnamed⟩ := hfound front file back hsplit (hback' ▸ List.suffix_refl _)
        exact ⟨e', List.mem_append_left [e] he', hnamed⟩
      · obtain rfl : back = running := hback'.eq_of_length_le hback.length_le
        have hsame : file :: back = e.file :: back := by
          apply (List.suffix_of_suffix_length_le hrest hsuffix (by simp)).eq_of_length
          rw [List.length_cons, List.length_cons]
        rw [List.cons.injEq] at hsame
        exact ⟨e, List.mem_append_right js (List.mem_singleton_self e), hsame.1.symm, he⟩
  · rw [List.mem_singleton] at hself
    subst hself
    refine ⟨he ▸ List.suffix_refl _, fun front file back hsplit hback => ?_⟩
    -- No file stands before this one in what was being run: it is all of it.
    have hlength := hback.length_le
    rw [← he, hsplit, List.length_append, List.length_cons] at hlength
    omega

theorem nil (running : List Path) : IsNested running [] := fun _ he => absurd he List.not_mem_nil

end IsNested

namespace Running

variable {r : Running} {R : World → World → Prop} {load : Loader} {records : Records}

/-- What is so of the journals of the imports of a script is so of these in a row. -/
theorem Interprets.collect {Q : List Import → Prop} (hnil : Q [])
    (happend : ∀ js js', Q js → Q js' → Q (js ++ js'))
    (hrecords : ∀ name p w x w' js, records name p w x w' js → Q js) {α : Type} {asked : Nat}
    {run : Run α} {w w' : World} {a : α} {js : List Import}
    (h : r.Interprets R load records asked run w a w' js) : Q js := by
  induction h with
  | done => exact hnil
  | load hload _ ih => exact happend _ _ (hrecords _ _ _ _ _ _ hload) ih
  | other _ _ _ ih => exact ih

theorem RunsFile.collect {Q : List Import → Prop} (hnil : Q [])
    (happend : ∀ js js', Q js → Q js' → Q (js ++ js'))
    (hrecords : ∀ name p w x w' js, records name p w x w' js → Q js) {file : Path}
    {w w' : World} {a : Except Script.Fault Module} {js : List Import}
    (h : r.RunsFile R load records file w a w' js) : Q js := by
  unfold RunsFile at h
  split at h
  · obtain ⟨-, -, rfl⟩ := h
    exact hnil
  · exact Interprets.collect hnil happend hrecords h

/-- The induction is on the room that is left. -/
theorem isNested_of_imports {room : Nat} {running : List Path} {name : String}
    {p : Script.Position} {w w' : World} {a : Except Script.Fault Module} {js : List Import}
    (h : r.Imports R room running name p w a w' js) : IsNested running js := by
  induction room generalizing running name p w a w' js with
  | zero => exact h.elim
  | succ room ih =>
    have hinner : ∀ {file : Path} {w w' : World} {a : Except Script.Fault Module}
        {js : List Import}, r.RunsFile R (r.resolveWithin room)
          (r.Imports R room (file :: running)) file w a w' js → IsNested (file :: running) js :=
      fun {file} _ _ _ _ hrun =>
        hrun.collect (Q := IsNested (file :: running)) (.nil _) (fun _ _ h h' => h.append h')
          fun _ _ _ _ _ _ => ih
    cases h with
    | missing hfind => exact .nil running
    | kept hfind hkept => exact (IsNested.nil (_ :: running)).concat rfl
    | failed hfind hkept hrun => exact .concat (hinner hrun) rfl
    | fresh hfind hkept hrun => exact .concat (hinner hrun) rfl

end Running

/-! ## Imports along a graph -/

/-- What a file that is being run imports is joined to it by an edge of the graph. -/
def GoesAlong (G : List Path.Component → List Path.Component → Prop) (js : List Import) : Prop :=
  ∀ e ∈ js, ∀ g ∈ e.running.head?, G g.components e.file.components

section

variable {G : List Path.Component → List Path.Component → Prop} {js : List Import}

/-- A path in the graph leads from every file that is being run to the one that is found. -/
theorem transGen_of_running (hnested : IsNested [] js) (halong : GoesAlong G js) {e : Import}
    (he : e ∈ js) {g : Path} (hg : g ∈ e.running) :
    Relation.TransGen G g.components e.file.components := by
  obtain ⟨front, back, hsplit⟩ := List.append_of_mem hg
  induction front generalizing e with
  | nil => exact .single (halong e he g (by rw [hsplit]; rfl))
  | cons inner front ih =>
    -- The innermost file was imported itself while the others were being run.
    obtain ⟨e', he', rfl, hrunning⟩ :=
      (hnested e he).2 [] inner (front ++ g :: back) hsplit List.nil_suffix
    have hbefore := ih he' (by rw [hrunning]; simp) hrunning
    exact hbefore.tail (halong e he _ (by rw [hsplit]; rfl))

/-- Without circles in the graph, no import finds a file that is being run. -/
theorem not_same_of_goesAlong (hacyclic : ∀ c, ¬ Relation.TransGen G c c)
    (hnested : IsNested [] js) (halong : GoesAlong G js) {e : Import} (he : e ∈ js) {g : Path}
    (hg : g ∈ e.running) : e.file.same g = false := by
  rw [← Bool.not_eq_true, Path.same, beq_iff_eq]
  intro hsame
  have hcircle := transGen_of_running hnested halong he hg
  rw [hsame] at hcircle
  exact hacyclic _ hcircle

end

end Session
end ScriptSession
