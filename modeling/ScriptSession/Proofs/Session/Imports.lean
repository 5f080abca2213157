import Mathlib.Data.Finset.Card
import Mathlib.Logic.Relation
import ScriptSession.Proofs.Concurrency.Endings
import ScriptSession.Proofs.Files.Places
import ScriptSession.Proofs.Files.Trees
import ScriptSession.Proofs.Script.Stopping
import ScriptSession.Proofs.Session.Building

/-!
# Imports

Whether an import comes to an end. A file may import another one if some answers to its questions
make it ask for that module (`Library.Imports`); this is the import graph of a library. If no file
that an import leads to imports itself, be it through others, the import ends with a module or a
fault, in whatever way other threads change what is shared, so long as the library stays
(`import_ends`). The files that are being run are different ones then, so there are never more of
them than there are files.

Nothing keeps files from importing one another in a circle, for a module is kept only after its file
has run. An import that leads into a circle never ends (`not_ends_of_circle`).
-/

namespace ScriptSession

namespace Script

/-- The run may ask for a module: some replies to its questions lead there. -/
def Run.Asks (name : String) {α : Type} (run : Run α) : Prop :=
  ∃ p k, run.Reaches (.ask (.load name p) k)

/-- The import that a run begins with. -/
def Run.opening? {α : Type} : Run α → Option (String × Position)
  | .ask (.load name p) _ => some (name, p)
  | _ => none

theorem Run.eq_ask_of_opening? {α : Type} {run : Run α} {name : String} {p : Position}
    (h : run.opening? = some (name, p)) : ∃ k, run = .ask (.load name p) k := by
  unfold opening? at h
  split at h
  · cases h
    exact ⟨_, rfl⟩
  · cases h

/-- An empty file asks for no module. -/
theorem not_asks_of_empty {file name : String} : ¬ (runModule "" file).Asks name := by
  have hparse : parse "" = .ok ⟨[], []⟩ := rfl
  rw [runModule, hparse]
  rintro ⟨p, k, hreaches⟩
  cases hreaches

/-- The text is the import of a module and nothing else. -/
def isImportOf (name text : String) : Bool :=
  match parse text with
  | .ok ⟨[.load (.literal (.text n) _) _ _], []⟩ => n == name
  | _ => false

/-- A file that holds an import and nothing else asks for this module only. -/
theorem eq_of_asks {text file name name' : String} (h : isImportOf name text = true)
    (hasks : (runModule text file).Asks name') : name' = name := by
  obtain ⟨p, k, hreaches⟩ := hasks
  unfold isImportOf at h
  split at h
  · rename_i n at_ localName p₀ hparse
    obtain rfl := beq_iff_eq.mp h
    have hrun : ∃ k₀, runModule text file = .ask (.load n at_) k₀ ∧
        ∀ x, ∃ found, k₀ x = .done found := by
      rw [runModule, hparse]
      refine ⟨_, rfl, fun x => ?_⟩
      -- Whatever comes of the import, there is nothing behind it.
      cases x with
      | error f => exact ⟨_, rfl⟩
      | ok m => cases localName <;> exact ⟨_, rfl⟩
    obtain ⟨k₀, hrun, hdone⟩ := hrun
    rw [hrun] at hreaches
    cases hreaches with
    | here => rfl
    | later x hlater =>
      obtain ⟨found, hfound⟩ := hdone x
      rw [hfound] at hlater
      cases hlater
  · cases h

end Script

namespace Session

open Concurrency (Thread)
open Script (Run)

/-! ## Libraries -/

/-- Where modules come from: the files of a host and the scope they are looked up in. -/
structure Library where
  host : Host
  loading : Context.LoadingScope

/-- The library that a context imports from. -/
def World.library (w : World) (i : Nat) : Library := ⟨w.host, (w.context i).loading⟩

namespace Library

variable {L : Library} {name : String} {q : Files.Place}

/-- The module of a name is the file at a place. -/
def Finds (L : Library) (name : String) (q : Files.Place) : Prop :=
  ∃ file, L.loading.findModule L.host name = some file ∧ q = Files.placeOf L.host.cwd file

/-- The file at a place may import the file at another one. -/
def Imports (L : Library) (q q' : Files.Place) : Prop :=
  ∃ file text name, q = Files.placeOf L.host.cwd file ∧
    Running.moduleText L.host file = .ok text ∧ (Script.runModule text file.text).Asks name ∧
      L.Finds name q'

/-- No file that the import of a name leads to imports itself, be it through others. -/
def IsAcyclic (L : Library) (name : String) : Prop :=
  ∀ q₀ q, L.Finds name q₀ → Relation.ReflTransGen L.Imports q₀ q →
    ¬ Relation.TransGen L.Imports q q

/-- The places of the files of a library. -/
def places (L : Library) : Finset Files.Place := (L.host.files.files.map Prod.fst).toFinset

theorem isFile_of_findModule {s : Context.LoadingScope} {host : Host} {file : Path}
    (h : s.findModule host name = some file) : host.isFile file = true := by
  obtain ⟨l, -, hl⟩ := List.exists_of_findSome?_eq_some h
  cases l with
  | directory dir =>
    rw [Context.LoadingScope.findIn] at hl
    split at hl
    · rename_i hfile
      cases hl
      exact (Bool.and_eq_true_iff.mp hfile).2
    · cases hl
  | artifact c path =>
    rw [Context.LoadingScope.findIn] at hl
    split at hl
    · rename_i hfile
      cases hl
      exact hfile.2
    · cases hl

theorem Finds.mem_places (h : L.Finds name q) : q ∈ L.places := by
  obtain ⟨file, hfind, rfl⟩ := h
  obtain ⟨-, content, hget⟩ := Files.isFile_iff.mp (isFile_of_findModule hfind)
  rw [places, List.mem_toFinset, List.mem_map]
  exact ⟨_, Files.Tree.mem_files_of_get? hget, rfl⟩

theorem card_places_le (L : Library) : L.places.card ≤ L.host.files.files.length := by
  refine (List.toFinset_card_le _).trans (Nat.le_of_eq ?_)
  rw [List.length_map]

theorem exists_read_of_moduleText {host : Host} {file : Path} {text : String}
    (h : Running.moduleText host file = .ok text) :
    ∃ content, Files.read host.files host.cwd file = .ok content := by
  rw [Running.moduleText, Host.readText, Files.readText] at h
  cases hread : Files.read host.files host.cwd file with
  | ok content => exact ⟨content, rfl⟩
  | error e =>
    rw [hread] at h
    cases h

/-- A file has one text, whatever path it is read through. -/
theorem moduleText_unique {host : Host} {file file' : Path} {text text' : String}
    (hplace : Files.placeOf host.cwd file = Files.placeOf host.cwd file')
    (h : Running.moduleText host file = .ok text) (h' : Running.moduleText host file' = .ok text') :
    text' = text := by
  obtain ⟨content, hread⟩ := exists_read_of_moduleText h
  obtain ⟨content', hread'⟩ := exists_read_of_moduleText h'
  have hcontent : content' = content := by
    have hget := (Files.read_eq_ok.mp hread).2
    rw [hplace, (Files.read_eq_ok.mp hread').2] at hget
    cases hget
    rfl
  have hsame : Running.moduleText host file' = Running.moduleText host file := by
    rw [Running.moduleText, Running.moduleText, Host.readText, Host.readText, Files.readText,
      Files.readText, hread, hread', hcontent]
  rw [hsame, h] at h'
  cases h'
  rfl

/-- What a file imports leads nowhere the file itself does not lead to. -/
theorem IsAcyclic.of_imports {name' : String} (h : L.IsAcyclic name) (hq : L.Finds name q)
    (himports : ∀ q₀, L.Finds name' q₀ → L.Imports q q₀) : L.IsAcyclic name' :=
  fun q₀ q₁ h₀ h₁ => h q q₁ hq (.head (himports q₀ h₀) h₁)

end Library

/-! ## Imports without circles -/

/-- The library that a script imports from is as it was, and nobody keeps its output from going
on. -/
structure Running.Serves (r : Running) (L : Library) (w : World) : Prop where
  library : w.library r.context = L
  flows : sinkHasGates w r.sink = false

section

variable {L : Library} {R : World → World → Prop} {r : Running}

theorem Running.Serves.of_eq {w w' : World} (hw : r.Serves L w)
    (hlibrary : w'.library r.context = w.library r.context) (hgates : w'.hasGates = w.hasGates) :
    r.Serves L w' := by
  refine ⟨hlibrary.trans hw.library, ?_⟩
  rw [← hw.flows]
  cases r.sink with
  | transcript => exact hgates
  | process => rfl
  | buffer index hasGates => rfl

theorem Running.Serves.alterControl {w : World} (hw : r.Serves L w) (o : Owner)
    (f : Task.Control → Task.Control) : r.Serves L (w.alterControl o f) := by
  cases o with
  | task id => exact hw.of_eq rfl rfl
  | loose j => exact hw.of_eq rfl rfl

theorem Running.Serves.writeEntry {w : World} (hw : r.Serves L w) (e : Report.Entry) :
    r.Serves L (w.writeEntry e) := by
  obtain ⟨chronicle, streams, transcript, heq⟩ := w.reports_writeEntry e
  rw [heq]
  exact hw.of_eq rfl rfl

theorem Running.Serves.writeOut {w : World} (hw : r.Serves L w) (sink : Sink) (text : String) :
    r.Serves L (w.writeOut sink text) := by
  cases sink with
  | transcript => exact hw.writeEntry _
  | process => exact hw.of_eq rfl rfl
  | buffer index hasGates => exact hw.of_eq rfl rfl

theorem Running.Serves.writeErr {w : World} (hw : r.Serves L w) (sink : Sink) (text : String) :
    r.Serves L (w.writeErr sink text) := by
  cases sink with
  | transcript => exact hw.writeEntry _
  | process => exact hw.of_eq rfl rfl
  | buffer index hasGates => exact hw.of_eq rfl rfl

/-- A module that is kept changes nothing about where modules come from. -/
theorem World.library_keepModule (w : World) (i : Nat) (file : Path) (m : Script.Module) :
    (w.alterContext i (·.keepModule file m)).library i = w.library i := by
  rw [World.library, World.library, World.context, World.context, World.alterContext]
  by_cases hi : i < w.contexts.length
  · simp [hi, Context.State.keepModule]
  · simp [hi]

theorem Running.Serves.keepModule {w : World} (hw : r.Serves L w) (file : Path)
    (m : Script.Module) :
    r.Serves L (w.alterContext r.context (·.keepModule file m)) :=
  hw.of_eq (w.library_keepModule r.context file m) rfl

/-- Where the library stays as it is, the thread ends, and it leaves the library as it is. -/
def Running.Concludes (r : Running) (L : Library) (R : World → World → Prop) {α : Type}
    (t : Act α) : Prop :=
  ∀ w, r.Serves L w → t.Finishes R w fun _ w' => r.Serves L w'

namespace Running.Concludes

variable {α β : Type} {t : Act α}

theorem pure (a : α) : r.Concludes L R (pure a : Act α) := fun _ hw => hw

theorem bind {f : α → Act β} (h : r.Concludes L R t) (hf : ∀ a, r.Concludes L R (f a)) :
    r.Concludes L R (t >>= f) := fun w hw => .bind ((h w hw).mono fun a w₁ hw₁ => hf a w₁ hw₁)

theorem get_bind {f : World → Act α}
    (hf : ∀ w, r.Serves L w → r.Concludes L R (f w)) :
    r.Concludes L R (getThe World >>= f) := fun w hw => hf w hw w hw

theorem modify {f : World → World} (hf : ∀ w, r.Serves L w → r.Serves L (f w)) :
    r.Concludes L R (modifyThe World f : Act Unit) := fun w hw => hf w hw

end Running.Concludes

/-- What other threads may do while an import goes on: anything that leaves the library as it is
and keeps no output from going on. -/
def Running.Spares (r : Running) (R : World → World → Prop) : Prop :=
  ∀ w w', R w w' → w'.library r.context = w.library r.context ∧ w'.hasGates = w.hasGates

variable (hR : r.Spares R)
include hR

theorem Running.Spares.serves {w w' : World} (hw : r.Serves L w) (hw' : R w w') :
    r.Serves L w' := hw.of_eq (hR w w' hw').1 (hR w w' hw').2

theorem Running.Concludes.awaitFor (limit : Nat) (isReady : World → Bool) :
    r.Concludes L R (Thread.awaitFor limit isReady) := fun _ hw =>
  .awaitFor (fun _ => hw) fun _ _ hw' => hR.serves hw hw'

theorem Running.concludes_sleep (millis : Nat) : r.Concludes L R (r.sleep millis) :=
  .bind (.modify fun _ hw => hw.alterControl _ _) fun _ => .bind (.awaitFor hR _ _) fun _ =>
    .bind (.modify fun _ hw => hw.alterControl _ _) fun _ => .pure _

theorem Running.concludes_proceed (asked : Nat) : r.Concludes L R (r.proceed asked) := by
  have hend : r.Concludes L R (do return !r.isCancelled (← getThe World)) :=
    .get_bind fun _ _ => .pure _
  rw [proceed]
  split
  · exact .bind (.awaitFor hR _ _) fun _ => hend
  · exact hend

omit hR in
theorem Running.concludes_printLine (text : String) :
    r.Concludes L R (printLine r.sink r.owner text) := by
  refine .get_bind fun w hw => ?_
  rw [hw.flows]
  exact .modify fun _ hw => hw.writeOut _ _

section

variable {load : Running.Loader}

theorem Running.concludes_answer (asked : Nat) (q : Script.Request)
    (hload : ∀ name p, q = .load name p → r.Concludes L R (load name p)) :
    r.Concludes L R (r.answer load asked q) := by
  cases q with
  | print text => exact r.concludes_printLine text
  | complain text => exact .modify fun _ hw => hw.writeErr _ _
  | sleep millis => exact r.concludes_sleep hR millis
  | proceed => exact r.concludes_proceed hR asked
  | readText path => exact .get_bind fun _ _ => .pure _
  | load name p => exact hload name p rfl

/-- A script ends if the imports that it may ask for do. The induction is on its questions. -/
theorem Running.concludes_interpret {α : Type} (asked : Nat) (run : Run α)
    (hload : ∀ name p, run.Asks name → r.Concludes L R (load name p)) :
    r.Concludes L R (r.interpret load asked run) := by
  induction run generalizing asked with
  | done a => exact .pure a
  | ask q k ih =>
    refine .bind (r.concludes_answer hR asked q ?_) fun x => ?_
    · rintro name p rfl
      exact hload name p ⟨p, k, .here _⟩
    · refine ih x (asked + 1) fun name p hasks => hload name p ?_
      obtain ⟨p', k', hreaches⟩ := hasks
      exact ⟨p', k', .later x hreaches⟩

theorem Running.concludes_runFile {file : Path}
    (hload : ∀ text, Running.moduleText L.host file = .ok text → ∀ name,
      (Script.runModule text file.text).Asks name → ∀ p, r.Concludes L R (load name p)) :
    r.Concludes L R (r.runFile load file) := by
  refine .get_bind fun w hw => ?_
  rw [(Library.mk.inj hw.library).1]
  split
  · exact .pure _
  · rename_i text htext
    exact r.concludes_interpret hR 0 _ fun name p hasks => hload text htext name hasks p

end

/-- The files that are being run are different ones, so one more finds room as long as there are not
as many of them as there are files. The induction is on the room that is left. -/
theorem concludes_resolveWithin (room : Nat) {running : Finset Files.Place}
    (hrunning : running ⊆ L.places) (hroom : L.places.card < running.card + room) {name : String}
    (hacyclic : L.IsAcyclic name)
    (hleads : ∀ q, L.Finds name q → ∀ q' ∈ running, Relation.TransGen L.Imports q' q)
    (p : Script.Position) : r.Concludes L R (r.resolveWithin room name p) := by
  induction room generalizing running name p with
  | zero => exact absurd (Finset.card_le_card hrunning) (Nat.not_le.mpr hroom)
  | succ room ih =>
    refine .get_bind fun w hw => ?_
    obtain ⟨hhost, hloading⟩ := Library.mk.inj hw.library
    rw [hhost, hloading]
    split
    · exact .pure _
    · rename_i file hfind
      split
      · exact .pure _
      · have hfound : L.Finds name (Files.placeOf L.host.cwd file) := ⟨file, hfind, rfl⟩
        -- It is not among those that are being run, since these lead to it: that would be a circle.
        have hfresh : Files.placeOf L.host.cwd file ∉ running := fun h =>
          hacyclic _ _ hfound .refl (hleads _ hfound _ h)
        refine .bind (r.concludes_runFile hR fun text htext name' hasks p' => ?_) fun found => ?_
        · have himports : ∀ q, L.Finds name' q →
              L.Imports (Files.placeOf L.host.cwd file) q := fun q hq =>
            ⟨file, text, name', rfl, htext, hasks, hq⟩
          refine ih (Finset.insert_subset hfound.mem_places hrunning) ?_
            (hacyclic.of_imports hfound himports) ?_ p'
          · rw [Finset.card_insert_of_notMem hfresh]
            omega
          · intro q hq q' hq'
            -- Every file that is being run, this one included, leads to what it imports.
            obtain rfl | hq' := Finset.mem_insert.mp hq'
            · exact .single (himports q hq)
            · exact .tail (hleads _ hfound q' hq') (himports q hq)
        · split
          · exact .pure _
          · exact .bind (.modify fun _ hw => hw.keepModule file _) fun _ => .pure _

/-- **Imports end**, with a module or a fault, unless they lead to a file that imports itself, be
it through others. Others may change anything meanwhile except the files and where they are looked
for, and there has to be room for as many nested imports as there are files. -/
theorem import_ends (room : Nat) (name : String) (p : Script.Position) {w : World}
    (hflows : sinkHasGates w r.sink = false) (hroom : w.host.files.files.length < room)
    (hacyclic : (w.library r.context).IsAcyclic name) :
    (r.resolveWithin room name p).Finishes R w fun _ _ => True := by
  have hcard : (w.library r.context).places.card < (∅ : Finset Files.Place).card + room := by
    rw [Finset.card_empty, Nat.zero_add]
    exact Nat.lt_of_le_of_lt (w.library r.context).card_places_le hroom
  have hconcludes : r.Concludes (w.library r.context) R (r.resolveWithin room name p) :=
    concludes_resolveWithin hR room (Finset.empty_subset _) hcard hacyclic
      (fun q _ q' hq' => absurd hq' (Finset.notMem_empty q')) p
  exact (hconcludes w ⟨rfl, hflows⟩).mono fun _ _ _ => trivial

end

/-- A library of three module files: one imports itself, one imports the third one, and this one is
empty. -/
@[irreducible] def selfImport : World :=
  let host := (((Host.empty ["w"]).put ⟨"mods/m.rhai"⟩ "import \"m\" as m;".toUTF8).put
    ⟨"mods/outer.rhai"⟩ "import \"plain\" as p;".toUTF8).put ⟨"mods/plain.rhai"⟩ "".toUTF8
  { World.new host with contexts := [.new 1 (.ofDirectories [⟨"mods"⟩]) .empty] }

section

variable {q q' : Files.Place}

/-- The empty file imports nothing. -/
theorem not_imports_plain :
    ¬ (selfImport.library 0).Imports
      (Files.placeOf (selfImport.library 0).host.cwd ⟨"mods/plain.rhai"⟩) q := by
  rintro ⟨file, text, name, hplace, hread, hasks, -⟩
  have htext : Running.moduleText (selfImport.library 0).host ⟨"mods/plain.rhai"⟩ = .ok "" := by
    decide +kernel
  obtain rfl := Library.moduleText_unique hplace htext hread
  exact Script.not_asks_of_empty hasks

/-- The file with an import leads to the empty one. -/
theorem eq_of_imports_outer
    (h : (selfImport.library 0).Imports
      (Files.placeOf (selfImport.library 0).host.cwd ⟨"mods/outer.rhai"⟩) q) :
    q = Files.placeOf (selfImport.library 0).host.cwd ⟨"mods/plain.rhai"⟩ := by
  obtain ⟨file, text, name, hplace, hread, hasks, found, hfind, rfl⟩ := h
  have htext : Running.moduleText (selfImport.library 0).host ⟨"mods/outer.rhai"⟩ =
      .ok "import \"plain\" as p;" := by decide +kernel
  have himport : Script.isImportOf "plain" "import \"plain\" as p;" = true := by decide +kernel
  have hplain : (selfImport.library 0).loading.findModule (selfImport.library 0).host "plain" =
      some ⟨"mods/plain.rhai"⟩ := by decide +kernel
  obtain rfl := Library.moduleText_unique hplace htext hread
  obtain rfl := Script.eq_of_asks himport hasks
  rw [Option.some.inj (hfind.symm.trans hplain)]

end

/-- An import of the file that imports the empty one ends. -/
theorem nested_import_ends :
    Running.Spares ⟨0, .process, .loose 0⟩ Eq ∧ sinkHasGates selfImport .process = false ∧
      selfImport.host.files.files.length < 4 ∧ (selfImport.library 0).IsAcyclic "outer" ∧
        (Running.resolveWithin ⟨0, .process, .loose 0⟩ 4 "outer" ⟨1, 1⟩).Finishes Eq selfImport
          fun _ _ => True := by
  have hspares : Running.Spares ⟨0, .process, .loose 0⟩ Eq := by
    rintro w _ rfl
    exact ⟨rfl, rfl⟩
  have hlength : selfImport.host.files.files.length < 4 := by decide +kernel
  have hacyclic : (selfImport.library 0).IsAcyclic "outer" := by
    have houter : (selfImport.library 0).loading.findModule (selfImport.library 0).host "outer" =
        some ⟨"mods/outer.rhai"⟩ := by decide +kernel
    have hplain : ∀ q, ¬ Relation.TransGen (selfImport.library 0).Imports
        (Files.placeOf (selfImport.library 0).host.cwd ⟨"mods/plain.rhai"⟩) q := by
      intro q h
      obtain ⟨q', hq', -⟩ := Relation.TransGen.head'_iff.mp h
      exact not_imports_plain hq'
    rintro q₀ q ⟨file, hfile, rfl⟩ hleads hcircle
    obtain rfl : file = ⟨"mods/outer.rhai"⟩ := Option.some.inj (hfile.symm.trans houter)
    -- Whether it begins at the file with the import or behind it, the way leads through the empty
    -- file, and from there no further.
    obtain rfl | ⟨q₁, hq₁, hrest⟩ := Relation.ReflTransGen.cases_head hleads
    · obtain ⟨q₁, hq₁, hrest⟩ := Relation.TransGen.head'_iff.mp hcircle
      have hback := hcircle
      rw [eq_of_imports_outer hq₁] at hrest
      obtain hsame | ⟨q₂, hq₂, -⟩ := Relation.ReflTransGen.cases_head hrest
      · rw [← hsame] at hback
        exact hplain _ hback
      · exact not_imports_plain hq₂
    · rw [eq_of_imports_outer hq₁] at hrest
      obtain rfl | ⟨q₂, hq₂, -⟩ := Relation.ReflTransGen.cases_head hrest
      · exact hplain _ hcircle
      · exact not_imports_plain hq₂
  have hends := import_ends hspares 4 "outer" ⟨1, 1⟩ rfl hlength hacyclic
  exact ⟨hspares, rfl, hlength, hacyclic, hends⟩

/-! ## Imports in a circle -/

/-- Each of the files begins with the import of one of them. -/
def Library.IsCircle (L : Library) (S : Path → Prop) : Prop :=
  ∀ file, S file → ∃ text name p next, Running.moduleText L.host file = .ok text ∧
    (Script.runModule text file.text).opening? = some (name, p) ∧
    L.loading.findModule L.host name = some next ∧ S next

/-- An import that leads into a circle has no outcome, however much room there is, unless one of the
files has been kept before. The induction is on the room that is left. -/
theorem not_ends_of_circle {S : Path → Prop} {R : World → World → Prop} {r : Running} {w : World}
    (hcircle : (w.library r.context).IsCircle S)
    (hfresh : ∀ file, S file → (w.context r.context).module? file = none) (room : Nat)
    {name : String} {file : Path}
    (hfind : (w.context r.context).loading.findModule w.host name = some file) (hfile : S file)
    (p : Script.Position) :
    ¬ ∃ a w', (r.resolveWithin room name p).Ends R w a w' := by
  induction room generalizing name file p with
  | zero =>
    rintro ⟨a, w', h⟩
    rw [Running.resolveWithin] at h
    obtain ⟨_, w₁, hwait, -⟩ := Thread.ends_bind'.mp h
    -- Without room it waits for a gate that never opens.
    cases (Thread.ends_await.mp hwait).1
  | succ room ih =>
    rintro ⟨a, w', h⟩
    rw [Running.resolveWithin, Running.resolve, Thread.ends_get_bind, hfind] at h
    dsimp only at h
    rw [hfresh file hfile] at h
    obtain ⟨_, _, hrun, -⟩ := Thread.ends_bind'.mp h
    -- Running the file comes to the import of the next one of the circle before anything else, with
    -- less room.
    obtain ⟨text, name', p', next, htext, hopens, hnext, hS⟩ := hcircle file hfile
    obtain ⟨k, hk⟩ := Script.Run.eq_ask_of_opening? hopens
    rw [Running.runFile, Thread.ends_get_bind, show Running.moduleText w.host file = _ from htext]
      at hrun
    dsimp only at hrun
    rw [hk] at hrun
    obtain ⟨x, w₁, hload, -⟩ := Thread.ends_bind'.mp hrun
    exact ih hnext hS p' ⟨x, w₁, hload⟩

/-- Not every import ends: that of a file which imports itself does not, though nobody else does
anything. -/
theorem self_import_never_ends :
    ¬ ∀ (w : World) (r : Running) (name : String) (p : Script.Position),
      sinkHasGates w r.sink = false →
        ∃ room, (r.resolveWithin room name p).Finishes Eq w fun _ _ => True := by
  intro h
  obtain ⟨room, hfinish⟩ := h selfImport ⟨0, .process, .loose 0⟩ "m" ⟨1, 1⟩ rfl
  obtain ⟨a, w', hends, -⟩ := hfinish.exists_ends fun _ => rfl
  have hfind : (selfImport.context 0).loading.findModule selfImport.host "m" =
      some ⟨"mods/m.rhai"⟩ := by decide +kernel
  have htext : Running.moduleText selfImport.host ⟨"mods/m.rhai"⟩ =
      .ok "import \"m\" as m;" := by decide +kernel
  have hopens : (Script.runModule "import \"m\" as m;" "mods/m.rhai").opening? =
      some ("m", ⟨1, 8⟩) := by decide +kernel
  have hcircle : (selfImport.library 0).IsCircle (· = ⟨"mods/m.rhai"⟩) := by
    rintro _ rfl
    exact ⟨_, "m", ⟨1, 8⟩, _, htext, hopens, hfind, rfl⟩
  have hfresh : ∀ file, file = ⟨"mods/m.rhai"⟩ → (selfImport.context 0).module? file = none := by
    rintro _ rfl
    exact Option.isNone_iff_eq_none.mp (by decide +kernel)
  exact not_ends_of_circle (r := ⟨0, .process, .loose 0⟩) hcircle hfresh room hfind rfl ⟨1, 1⟩
    ⟨a, w', hends⟩

end Session
end ScriptSession
