import ScriptSession.Proofs.Files.Spellings
import ScriptSession.Proofs.Session.Imports
import ScriptSession.Proofs.Session.Journals

/-!
# Modules of a context

A context keeps what a module file has come to. An import looks for the file among what is kept,
runs the file if it is not there, and only then keeps the module, so that other imports come in
between: those of the file itself. What is kept changes with every import in a way that depends on
nothing but the import and what was kept before (`Import.Fits`), for as long as no file is found
while it is being run. Main statement: through all imports on a context, one after the other, a file
is run until it has come to a module, and never again (`run_until_kept`).
-/

namespace ScriptSession
namespace Session

open Concurrency (IsKept Thread)
open Script (Module Run)

/-! ## What is kept -/

/-- The module that is kept for a file. -/
def kept? (modules : List (Path × Module)) (file : Path) : Option Module :=
  (modules.find? fun m => m.1.same file).map (·.2)

section

variable {modules : List (Path × Module)} {file file' : Path} {m : Module}

/-- It does not matter how the path of the file is spelled. -/
theorem kept?_of_same (h : file.same file' = true) : kept? modules file = kept? modules file' := by
  have hcongr : ∀ f : Path, f.same file = f.same file' := by
    intro f
    rw [Bool.eq_iff_iff]
    exact ⟨fun hf => Path.same_trans hf h,
      fun hf => Path.same_trans hf ((Path.same_comm _ _).trans h)⟩
  unfold kept?
  simp only [hcongr]

theorem kept?_cons_of_same (h : file.same file' = true) :
    kept? ((file, m) :: modules) file' = some m := by
  rw [kept?, List.find?_cons]
  simp only [h, Option.map_some]

theorem kept?_cons_of_not_same (h : file.same file' = false) :
    kept? ((file, m) :: modules) file' = kept? modules file' := by
  rw [kept?, List.find?_cons]
  simp only [h, kept?]

end

/-! ## One import -/

/-- What an import does with what was kept before. -/
inductive Import.Fits (e : Import) (before : List (Path × Module)) : Prop where
  | kept (m : Module) (hrun : e.isRun = false) (hresult : e.result = .ok m)
    (hbefore : kept? before e.file = some m) (hafter : e.modules = before)
  | failed (f : Script.Fault) (hrun : e.isRun = true) (hresult : e.result = .error f)
    (hbefore : kept? before e.file = none) (hafter : e.modules = before)
  | fresh (m : Module) (hrun : e.isRun = true) (hresult : e.result = .ok m)
    (hbefore : kept? before e.file = none) (hafter : e.modules = (e.file, m) :: before)

namespace Import.Fits

variable {e : Import} {before : List (Path × Module)} {file : Path} {m : Module}

/-- What is kept stays. -/
theorem stays (h : e.Fits before) (hthere : kept? before file = some m) :
    kept? e.modules file = some m := by
  cases h with
  | kept _ _ _ _ hafter => rwa [hafter]
  | failed _ _ _ _ hafter => rwa [hafter]
  | fresh m' _ _ hbefore hafter =>
    rw [hafter, kept?_cons_of_not_same, hthere]
    -- Nothing was kept for the file of the import, so it is another one.
    rw [← Bool.not_eq_true]
    intro hsame
    rw [kept?_of_same hsame, hthere] at hbefore
    cases hbefore

theorem absent (h : e.Fits before) (hnone : kept? before file = none)
    (hother : e.file.same file = false) : kept? e.modules file = none := by
  cases h with
  | kept _ _ _ _ hafter => rwa [hafter]
  | failed _ _ _ _ hafter => rwa [hafter]
  | fresh m' _ _ _ hafter => rwa [hafter, kept?_cons_of_not_same hother]

theorem of_ok (h : e.Fits before) (hresult : e.result = .ok m) :
    kept? e.modules e.file = some m := by
  cases h with
  | kept m' _ hresult' hbefore hafter =>
    rw [hresult] at hresult'
    cases hresult'
    rwa [hafter]
  | failed _ _ hresult' _ _ =>
    rw [hresult] at hresult'
    cases hresult'
  | fresh m' _ hresult' _ hafter =>
    rw [hresult] at hresult'
    cases hresult'
    rw [hafter, kept?_cons_of_same e.file.same_refl]

theorem of_error {f : Script.Fault} (h : e.Fits before) (hresult : e.result = .error f) :
    e.isRun = true ∧ kept? e.modules e.file = none := by
  cases h with
  | kept _ _ hresult' _ _ =>
    rw [hresult] at hresult'
    cases hresult'
  | failed _ hrun _ hbefore hafter => exact ⟨hrun, hafter ▸ hbefore⟩
  | fresh _ _ hresult' _ _ =>
    rw [hresult] at hresult'
    cases hresult'

/-- A file whose module is kept is not run. -/
theorem again (h : e.Fits before) (hsame : e.file.same file = true)
    (hthere : kept? before file = some m) : e.isRun = false ∧ e.result = .ok m := by
  rw [← kept?_of_same hsame] at hthere
  cases h with
  | kept m' hrun hresult hbefore _ =>
    rw [hthere] at hbefore
    cases hbefore
    exact ⟨hrun, hresult⟩
  | failed _ _ _ hbefore _ =>
    rw [hthere] at hbefore
    cases hbefore
  | fresh _ _ _ hbefore _ =>
    rw [hthere] at hbefore
    cases hbefore

theorem retried (h : e.Fits before) (hsame : e.file.same file = true)
    (hnone : kept? before file = none) : e.isRun = true := by
  rw [← kept?_of_same hsame] at hnone
  cases h with
  | kept _ _ _ hbefore _ =>
    rw [hnone] at hbefore
    cases hbefore
  | failed _ hrun _ _ _ => exact hrun
  | fresh _ hrun _ _ _ => exact hrun

end Import.Fits

/-! ## Imports in a row -/

/-- The journal explains how what is kept has changed. -/
def Explains : List (Path × Module) → List Import → List (Path × Module) → Prop
  | before, [], after => after = before
  | before, e :: js, after => e.Fits before ∧ Explains e.modules js after

namespace Explains

variable {before after : List (Path × Module)} {js js' : List Import} {file : Path} {m : Module}

theorem append_iff : Explains before (js ++ js') after ↔
    ∃ middle, Explains before js middle ∧ Explains middle js' after := by
  induction js generalizing before with
  | nil =>
    constructor
    · exact fun h => ⟨before, rfl, h⟩
    · rintro ⟨middle, rfl, h⟩
      exact h
  | cons e js ih =>
    rw [List.cons_append, Explains, ih]
    constructor
    · rintro ⟨hfits, middle, hfront, hback⟩
      exact ⟨middle, ⟨hfits, hfront⟩, hback⟩
    · rintro ⟨middle, ⟨hfits, hfront⟩, hback⟩
      exact ⟨hfits, middle, hfront, hback⟩

/-- A file whose module is kept is not run any more, and its module stays. -/
theorem stays (h : Explains before js after) (hthere : kept? before file = some m) :
    (∀ e ∈ js, (e.file.same file = true → e.isRun = false ∧ e.result = .ok m) ∧
      kept? e.modules file = some m) ∧ kept? after file = some m := by
  induction js generalizing before with
  | nil =>
    obtain rfl : after = before := h
    exact ⟨fun _ he => absurd he List.not_mem_nil, hthere⟩
  | cons e js ih =>
    obtain ⟨hfits, hrest⟩ := h
    have hafter := hfits.stays hthere
    obtain ⟨hjs, hend⟩ := ih hrest hafter
    refine ⟨fun e' he' => ?_, hend⟩
    rcases List.mem_cons.mp he' with rfl | he'
    · exact ⟨fun hsame => hfits.again hsame hthere, hafter⟩
    · exact hjs e' he'

/-- The first import that finds a file without a module runs it. As long as there is none, there is
no module for the file. -/
theorem absent (h : Explains before js after) (hnone : kept? before file = none) :
    (∀ e, js.find? (·.file.same file) = some e → e.isRun = true) ∧
      (js.find? (·.file.same file) = none → kept? after file = none) := by
  induction js generalizing before with
  | nil =>
    obtain rfl : after = before := h
    exact ⟨nofun, fun _ => hnone⟩
  | cons e js ih =>
    obtain ⟨hfits, hrest⟩ := h
    rw [List.find?_cons]
    cases hsame : e.file.same file with
    | true =>
      refine ⟨fun e' hfirst => ?_, nofun⟩
      cases hfirst
      exact hfits.retried hsame hnone
    | false => exact ih hrest (hfits.absent hnone hsame)

end Explains

/-! ## Imports on a context -/

/-- A change that takes no context away and leaves the modules of a context alone. -/
structure SparesModules (i : Nat) (w w' : World) : Prop where
  length : w.contexts.length ≤ w'.contexts.length
  modules : (w'.context i).modules = (w.context i).modules

theorem isKept_sparesModules (i : Nat) : IsKept (SparesModules i) where
  refl _ := ⟨Nat.le_refl _, rfl⟩
  trans h h' := ⟨h.length.trans h'.length, h'.modules.trans h.modules⟩

theorem SparesModules.of_contexts {i : Nat} {w w' : World} (h : w'.contexts = w.contexts) :
    SparesModules i w w' :=
  ⟨Nat.le_of_eq (congrArg List.length h).symm, by rw [World.context, World.context, h]⟩

/-- Whatever happens to the files, and whatever else happens to the context. -/
theorem sparesModules_alterContext (i : Nat) (w : World) (host : Host)
    {f : Context.State → Context.State} (hf : ∀ c, (f c).modules = c.modules) :
    SparesModules i w ({ w with host := host }.alterContext i f) := by
  constructor
  · rw [World.alterContext, List.length_modify]
  · rw [World.context, World.context, World.alterContext, List.getD_eq_getElem?_getD,
      List.getD_eq_getElem?_getD, List.getElem?_modify_eq]
    cases w.contexts[i]? with
    | none => rfl
    | some c => exact hf c

theorem context_keepModule {i : Nat} {w : World} (h : i < w.contexts.length) (file : Path)
    (m : Module) : ((w.alterContext i (·.keepModule file m)).context i).modules =
      (file, m) :: (w.context i).modules := by
  rw [World.context, World.context, World.alterContext, List.getD_eq_getElem?_getD,
    List.getD_eq_getElem?_getD, List.getElem?_modify_eq, List.getElem?_eq_getElem h]
  rfl

/-- A script that speaks and sleeps leaves the host and the contexts alone. -/
theorem speaks_apart (r : Running) :
    r.Speaks fun w w' => w'.host = w.host ∧ w'.contexts = w.contexts := by
  -- An entry changes reports only, and a wait only the control of its owner.
  have hentry : ∀ (w : World) (e : Report.Entry),
      (w.writeEntry e).host = w.host ∧ (w.writeEntry e).contexts = w.contexts := by
    intro w e
    obtain ⟨chronicle, streams, transcript, heq⟩ := w.reports_writeEntry e
    rw [heq]
    exact ⟨rfl, rfl⟩
  have hcontrol : ∀ (w : World) (o : Owner) (f : Task.Control → Task.Control),
      (w.alterControl o f).host = w.host ∧ (w.alterControl o f).contexts = w.contexts := by
    intro w o f
    cases o with
    | task id => exact ⟨rfl, rfl⟩
    | loose j => exact ⟨rfl, rfl⟩
  refine ⟨fun _ _ => ⟨rfl, rfl⟩, fun w text => ?_, fun w text => ?_, fun w => hcontrol w _ _,
    fun w => hcontrol w _ _⟩
  · cases r.sink with
    | transcript => exact hentry w _
    | process => exact ⟨rfl, rfl⟩
    | buffer index hasGates => exact ⟨rfl, rfl⟩
  · cases r.sink with
    | transcript => exact hentry w _
    | process => exact ⟨rfl, rfl⟩
    | buffer index hasGates => exact ⟨rfl, rfl⟩

/-- What depends on the host and the contexts alone is kept by what a script asks for besides
imports, as long as the others keep it. -/
theorem Running.kept_of_answer {r : Running} {R P : World → World → Prop} (hP : IsKept P)
    (hsame : ∀ w w' : World, w'.host = w.host → w'.contexts = w.contexts → P w w')
    (hR : ∀ w w', R w w' → P w w') {load : Loader} {asked : Nat} {q : Script.Request}
    {x : q.Reply} {w w' : World} (hq : ∀ name p, q ≠ .load name p)
    (h : (r.answer load asked q).Ends R w x w') : P w w' := by
  have hmakes : Makes _ (fun _ => True) (r.answer load asked q) :=
    makes_answer (speaks_apart r) asked q fun name p hload => absurd hload (hq name p)
  exact ((hmakes.only w).of_ends h hP (fun w w' hw => hsame w w' hw.1 hw.2) hR).2

/-- The journal explains how the modules of a context have changed from world to world. -/
def Relates (i : Nat) (w : World) (js : List Import) (w' : World) : Prop :=
  i < w.contexts.length →
    i < w'.contexts.length ∧ Explains (w.context i).modules js (w'.context i).modules

namespace Relates

variable {i : Nat} {w w₁ w' : World} {js js' : List Import}

theorem append (h : Relates i w js w₁) (h' : Relates i w₁ js' w') :
    Relates i w (js ++ js') w' := by
  intro hi
  obtain ⟨hi₁, hfront⟩ := h hi
  obtain ⟨hi', hback⟩ := h' hi₁
  exact ⟨hi', Explains.append_iff.mpr ⟨_, hfront, hback⟩⟩

theorem of_spares (h : SparesModules i w w') : Relates i w [] w' :=
  fun hi => ⟨Nat.lt_of_lt_of_le hi h.length, h.modules⟩

end Relates

/-- No import of the journal finds a file that is being run. -/
def IsFresh (js : List Import) : Prop := ∀ e ∈ js, ∀ g ∈ e.running, e.file.same g = false

theorem isFresh_append {js js' : List Import} : IsFresh (js ++ js') ↔ IsFresh js ∧ IsFresh js' :=
  List.forall_mem_append

namespace Running

variable {r : Running} {R : World → World → Prop} {load : Loader} {records : Records}
  {w w' : World} {js : List Import} (hR : ∀ w w', R w w' → SparesModules r.context w w')
include hR

/-- The induction is on the questions of the script. -/
theorem Interprets.relates
    (hrecords : ∀ name p w x w' js, records name p w x w' js → IsFresh js →
      Relates r.context w js w') {α : Type} {asked : Nat} {run : Run α} {a : α}
    (h : r.Interprets R load records asked run w a w' js) (hfresh : IsFresh js) :
    Relates r.context w js w' := by
  induction h with
  | done => exact fun hi => ⟨hi, rfl⟩
  | load hload _ ih =>
    obtain ⟨hfront, hback⟩ := isFresh_append.mp hfresh
    exact (hrecords _ _ _ _ _ _ hload hfront).append (ih hback)
  | other hq hanswer _ ih =>
    have hspares := kept_of_answer (isKept_sparesModules r.context)
      (fun _ _ _ => SparesModules.of_contexts) hR hq hanswer
    exact (Relates.of_spares hspares).append (ih hfresh)

theorem RunsFile.relates
    (hrecords : ∀ name p w x w' js, records name p w x w' js → IsFresh js →
      Relates r.context w js w') {file : Path} {a : Except Script.Fault Module}
    (h : r.RunsFile R load records file w a w' js) (hfresh : IsFresh js) :
    Relates r.context w js w' := by
  unfold RunsFile at h
  split at h
  · obtain ⟨-, rfl, rfl⟩ := h
    exact fun hi => ⟨hi, rfl⟩
  · exact Interprets.relates hR hrecords h hfresh

/-- What a file imports are other files, so there is still no module for it when it has run. -/
theorem RunsFile.explains {running : List Path} {file : Path}
    (hrecords : ∀ name p w x w' js, records name p w x w' js → IsFresh js →
      Relates r.context w js w')
    (hnested : ∀ name p w x w' js, records name p w x w' js → IsNested (file :: running) js)
    {a : Except Script.Fault Module} (h : r.RunsFile R load records file w a w' js)
    (hfresh : IsFresh js) (hi : r.context < w.contexts.length)
    (hkept : (w.context r.context).module? file = none) :
    r.context < w'.contexts.length ∧
      Explains (w.context r.context).modules js (w'.context r.context).modules ∧
        kept? (w'.context r.context).modules file = none := by
  obtain ⟨hi', hexplains⟩ := h.relates hR hrecords hfresh hi
  refine ⟨hi', hexplains, (hexplains.absent hkept).2 ?_⟩
  have hinside : IsNested (file :: running) js :=
    h.collect (Q := IsNested (file :: running)) (.nil _) (fun _ _ h h' => h.append h') hnested
  rw [List.find?_eq_none]
  intro e he
  rw [hfresh e he file ((hinside e he).1.subset List.mem_cons_self)]
  exact Bool.false_ne_true

/-- A journal without imports of files that are being run explains what is kept. The induction is on
the room that is left. -/
theorem relates_of_imports {room : Nat} {running : List Path} {name : String}
    {p : Script.Position} {a : Except Script.Fault Module}
    (h : r.Imports R room running name p w a w' js) (hfresh : IsFresh js) :
    Relates r.context w js w' := by
  induction room generalizing running name p w a w' js with
  | zero => exact h.elim
  | succ room ih =>
    intro hi
    cases h with
    | missing hfind => exact ⟨hi, rfl⟩
    -- Only a file that is run has a journal before its own import, and running it explains that.
    | kept hfind hkept => exact ⟨hi, .kept _ rfl rfl hkept rfl, rfl⟩
    | failed hfind hkept hrun =>
      obtain ⟨hi₁, hexplains, hnone⟩ := hrun.explains hR (fun _ _ _ _ _ _ h => ih h)
        (fun _ _ _ _ _ _ => isNested_of_imports) (isFresh_append.mp hfresh).1 hi hkept
      exact ⟨hi₁, Explains.append_iff.mpr ⟨_, hexplains, .failed _ rfl rfl hnone rfl, rfl⟩⟩
    | fresh hfind hkept hrun =>
      obtain ⟨hi₁, hexplains, hnone⟩ := hrun.explains hR (fun _ _ _ _ _ _ h => ih h)
        (fun _ _ _ _ _ _ => isNested_of_imports) (isFresh_append.mp hfresh).1 hi hkept
      have hafter := context_keepModule hi₁
      refine ⟨?_, Explains.append_iff.mpr
        ⟨_, hexplains, .fresh _ rfl rfl hnone (hafter _ _), rfl⟩⟩
      rwa [World.alterContext, List.length_modify]

end Running

/-! ## Main statement -/

/-- Imports on a context one after the other, and their journals in a row. In between there may be
any changes that leave the modules of the context alone. The imports of a journal go along the edges
of some graph without circles. -/
inductive History (i : Nat) (w₀ : World) : World → List Import → Prop
  | start (hi : i < w₀.contexts.length) : History i w₀ w₀ []
  | change {w w' : World} {js : List Import} (h : History i w₀ w js)
    (hspares : SparesModules i w w') : History i w₀ w' js
  | resolve {w w' : World} {js more : List Import} {r : Running} {R : World → World → Prop}
    {room : Nat} {name : String} {p : Script.Position} {a : Except Script.Fault Module}
    {G : List Path.Component → List Path.Component → Prop} (h : History i w₀ w js)
    (hr : r.context = i) (hR : ∀ w w', R w w' → SparesModules i w w')
    (himport : r.Imports R room [] name p w a w' more)
    (hacyclic : ∀ c, ¬ Relation.TransGen G c c) (halong : GoesAlong G more) :
    History i w₀ w' (js ++ more)

section

variable {i : Nat} {w₀ w : World} {js : List Import}

theorem History.explains (h : History i w₀ w js) :
    i < w.contexts.length ∧ Explains (w₀.context i).modules js (w.context i).modules := by
  induction h with
  | start hi => exact ⟨hi, rfl⟩
  | change _ hspares ih =>
    obtain ⟨hi, hexplains⟩ := ih
    refine ⟨Nat.lt_of_lt_of_le hi hspares.length, ?_⟩
    rwa [hspares.modules]
  | resolve _ hr hR himport hacyclic halong ih =>
    subst hr
    obtain ⟨hi, hexplains⟩ := ih
    have hfresh : IsFresh _ := fun _ he _ hg =>
      not_same_of_goesAlong hacyclic (Running.isNested_of_imports himport) halong he hg
    obtain ⟨hi', hmore⟩ := Running.relates_of_imports hR himport hfresh hi
    exact ⟨hi', Explains.append_iff.mpr ⟨_, hexplains, hmore⟩⟩

/-- The journal of an import ends with the import itself, if it finds a file. -/
theorem Running.last_of_imports {r : Running} {R : World → World → Prop} {room : Nat}
    {running : List Path} {name : String} {p : Script.Position} {w' : World}
    {a : Except Script.Fault Module} (h : r.Imports R room running name p w a w' js) :
    js.getLast?.map (fun e => (e.file, e.result)) =
      ((w.context r.context).loading.findModule w.host name).map fun file => (file, a) := by
  cases room with
  | zero => exact h.elim
  | succ room =>
    cases h with
    | missing hfind =>
      rw [hfind]
      rfl
    | kept hfind hkept =>
      rw [hfind]
      rfl
    | failed hfind hkept hrun =>
      rw [hfind, List.getLast?_concat]
      rfl
    | fresh hfind hkept hrun =>
      rw [hfind, List.getLast?_concat]
      rfl

/-- **A file is run until it has come to a module**, and from then on the context keeps this module
for it: no import that finds the file runs it again, by whichever name and from whichever file, and
each of them comes to this module. An import that fails has run the file and leaves no module for
it, so the next one that finds the file runs it; what other files have come to meanwhile stays.
Whatever the next import comes to, there is a journal of it that ends with the file that it finds
and with what it comes to. -/
theorem run_until_kept (h : History i w₀ w js) :
    (∀ front e back m, js = front ++ e :: back → e.result = .ok m →
      (∀ e' ∈ back, e'.file.same e.file = true → e'.isRun = false ∧ e'.result = .ok m) ∧
      (∀ e' ∈ e :: back, kept? e'.modules e.file = some m) ∧
      (w.context i).module? e.file = some m) ∧
    (∀ front e back f, js = front ++ e :: back → e.result = .error f →
      e.isRun = true ∧ kept? e.modules e.file = none ∧
      (∀ e', back.find? (·.file.same e.file) = some e' → e'.isRun = true) ∧
      (back.find? (·.file.same e.file) = none → (w.context i).module? e.file = none)) ∧
    ∀ (r : Running) R room name p a w', r.context = i →
      (r.resolveWithin room name p).Ends R w a w' →
      ∃ more, r.Imports R room [] name p w a w' more ∧
        more.getLast?.map (fun e => (e.file, e.result)) =
          ((w.context i).loading.findModule w.host name).map fun file => (file, a) := by
  obtain ⟨-, hexplains⟩ := h.explains
  refine ⟨?_, ?_, ?_⟩
  · rintro front e back m rfl hresult
    -- The module is kept from this import on, and what is kept stays kept.
    obtain ⟨before, -, hfits, hback⟩ := Explains.append_iff.mp hexplains
    obtain ⟨hlater, hend⟩ := hback.stays (hfits.of_ok hresult)
    refine ⟨fun e' he' => (hlater e' he').1, ?_, hend⟩
    intro e' he'
    rcases List.mem_cons.mp he' with rfl | he'
    · exact hfits.of_ok hresult
    · exact (hlater e' he').2
  · rintro front e back f rfl hresult
    obtain ⟨before, -, hfits, hback⟩ := Explains.append_iff.mp hexplains
    -- After the failure nothing is kept for the file, so the next one that finds it runs it.
    obtain ⟨hrun, hnone⟩ := hfits.of_error hresult
    obtain ⟨hnext, hend⟩ := hback.absent hnone
    exact ⟨hrun, hnone, hnext, hend⟩
  · rintro r R room name p a w' rfl hends
    obtain ⟨more, himport⟩ := (Running.ends_iff_imports room [] name p).mp hends
    exact ⟨more, himport, Running.last_of_imports himport⟩

end

/-! ### A file that is replaced after it was kept -/

/-- Whether a script begins with an import, and fails if it gets the module. -/
def failsWith (m : Module) : Run (Except Script.Fault Module) → Bool
  | .ask (.load _ _) k =>
    match k (.ok m) with
    | .done (.error _) => true
    | _ => false
  | _ => false

/-- An empty module file, and one that imports it and then fails. -/
def plainFile : Path := ⟨"mods/plain.rhai"⟩

def brokenFile : Path := ⟨"mods/broken.rhai"⟩

def brokenText : String := "import \"plain\"; throw 1"

/-- What the empty file comes to. -/
def plainModule : Module := ⟨[], [], [], plainFile.text⟩

@[irreducible] def brokenLibrary : World :=
  let host := ((Host.empty ["w"]).put brokenFile brokenText.toUTF8).put plainFile "".toUTF8
  { World.new host with contexts := [.new 1 (.ofDirectories [⟨"mods"⟩]) .empty] }

/-- An evaluation in the context of the library. -/
def libraryScript : Running := ⟨0, .process, .loose 0⟩

/-- The library when the module of the empty file is kept. -/
def keptLibrary : World := brokenLibrary.alterContext 0 (·.keepModule plainFile plainModule)

/-- Then the empty file is replaced by one that cannot be parsed, and a directory is added. -/
def changedLibrary : World :=
  { keptLibrary with host := keptLibrary.host.put plainFile "(".toUTF8 }.alterContext 0
    fun c => (c.augment? [.directory ⟨"more"⟩]).getD c

theorem module?_brokenLibrary (file : Path) : (brokenLibrary.context 0).module? file = none := by
  have hmodules : (brokenLibrary.context 0).modules.isEmpty = true := by decide +kernel
  rw [Context.State.module?, List.isEmpty_iff.mp hmodules]
  rfl

theorem runModule_plain : Script.runModule "" plainFile.text = .done (.ok plainModule) := by
  have hparse : Script.parse "" = .ok ⟨[], []⟩ := rfl
  rw [Script.runModule, hparse]
  rfl

theorem exists_runModule_broken : ∃ p k f,
    Script.runModule brokenText brokenFile.text = .ask (.load "plain" p) k ∧
      k (.ok plainModule) = .done (.error f) := by
  have hopens : (Script.runModule brokenText brokenFile.text).opening? =
      some ("plain", ⟨1, 8⟩) := by decide +kernel
  have hfails : failsWith plainModule (Script.runModule brokenText brokenFile.text) = true := by
    decide +kernel
  obtain ⟨k, hk⟩ := Script.Run.eq_ask_of_opening? hopens
  rw [hk, failsWith] at hfails
  split at hfails
  · rename_i f hend
    exact ⟨_, k, f, hk, hend⟩
  · cases hfails

/-- The import of the empty file by the other one. -/
def plainImport : Import :=
  ⟨[brokenFile], plainFile, true, .ok plainModule, (keptLibrary.context 0).modules⟩

theorem imports_plain (p : Script.Position) :
    libraryScript.Imports Eq 1 [brokenFile] "plain" p brokenLibrary (.ok plainModule) keptLibrary
      [plainImport] := by
  have hfind : (brokenLibrary.context 0).loading.findModule brokenLibrary.host "plain" =
      some plainFile := by decide +kernel
  have htext : Running.moduleText brokenLibrary.host plainFile = .ok "" := by decide +kernel
  have hrun : libraryScript.RunsFile Eq (libraryScript.resolveWithin 0)
      (libraryScript.Imports Eq 0 [plainFile, brokenFile]) plainFile brokenLibrary
      (.ok plainModule) brokenLibrary [] := by
    unfold Running.RunsFile
    rw [htext]
    dsimp only
    rw [runModule_plain]
    exact .done
  exact .fresh hfind (module?_brokenLibrary plainFile) hrun

theorem exists_imports_broken : ∃ f e, e.running = [] ∧ e.file = brokenFile ∧ e.isRun = true ∧
    libraryScript.Imports Eq 2 [] "broken" ⟨1, 1⟩ brokenLibrary (.error f) keptLibrary
      [plainImport, e] := by
  have hfind : (brokenLibrary.context 0).loading.findModule brokenLibrary.host "broken" =
      some brokenFile := by decide +kernel
  have htext : Running.moduleText brokenLibrary.host brokenFile = .ok brokenText := by
    decide +kernel
  obtain ⟨p, k, f, hrun, hend⟩ := exists_runModule_broken
  have hfile : libraryScript.RunsFile Eq (libraryScript.resolveWithin 1)
      (libraryScript.Imports Eq 1 [brokenFile]) brokenFile brokenLibrary (.error f) keptLibrary
      ([plainImport] ++ []) := by
    unfold Running.RunsFile
    rw [htext]
    dsimp only
    rw [hrun]
    refine .load (imports_plain p) ?_
    rw [hend]
    exact .done
  exact ⟨_, _, rfl, rfl, rfl, .failed hfind (module?_brokenLibrary brokenFile) hfile⟩

/-- What the empty file came to stays though the file that imported it failed, and though it has
been replaced, and the import by another name comes to it. -/
theorem plain_run_once : ∃ js, History 0 brokenLibrary changedLibrary js ∧
    js.map (fun e => (e.file, e.isRun)) =
      [(plainFile, true), (brokenFile, true), (plainFile, false)] ∧
    (changedLibrary.context 0).module? plainFile = some plainModule := by
  obtain ⟨f, e, hrunning, hfile, hrun, himports⟩ := exists_imports_broken
  have hspares : ∀ w w' : World, w = w' → SparesModules 0 w w' := by
    rintro w _ rfl
    exact (isKept_sparesModules 0).refl w
  have hfirst : History 0 brokenLibrary keptLibrary [plainImport, e] := by
    refine (History.start (by decide +kernel)).resolve (r := libraryScript)
      (G := fun a b => a = brokenFile.components ∧ b = plainFile.components) rfl hspares
      himports ?_ ?_
    · -- No circle: the broken file imports the plain one, and that is another.
      intro c hcircle
      obtain ⟨-, ⟨hc, -⟩, -⟩ := Relation.TransGen.head'_iff.mp hcircle
      obtain ⟨-, -, -, hc'⟩ := Relation.TransGen.tail'_iff.mp hcircle
      rw [hc] at hc'
      revert hc'
      decide +kernel
    · intro e' he' g hg
      rcases List.mem_cons.mp he' with rfl | he'
      · cases hg
        exact ⟨rfl, rfl⟩
      · rw [List.mem_singleton.mp he', hrunning] at hg
        cases hg
  have hchanged : History 0 brokenLibrary changedLibrary [plainImport, e] := by
    refine hfirst.change (sparesModules_alterContext 0 keptLibrary _ fun c => ?_)
    rw [Context.State.augment?]
    split <;> rfl
  have hkept := ((run_until_kept hchanged).1 [] plainImport [e] plainModule rfl rfl).2.2
  have hfind : (changedLibrary.context 0).loading.findModule changedLibrary.host "./plain" =
      some plainFile := by decide +kernel
  -- The other name leads to the same file, and the module for it is still there.
  have hagain : libraryScript.Imports Eq 1 [] "./plain" ⟨1, 1⟩ changedLibrary (.ok plainModule)
      changedLibrary
      [⟨[], plainFile, false, .ok plainModule, (changedLibrary.context 0).modules⟩] :=
    .kept hfind hkept
  have hlast := hchanged.resolve (G := fun _ _ => False) rfl hspares hagain
    (fun c hcircle => by
      obtain ⟨b, hb, -⟩ := Relation.TransGen.head'_iff.mp hcircle
      exact hb)
    (fun e' he' g hg => by
      rw [List.mem_singleton.mp he'] at hg
      cases hg)
  refine ⟨_, hlast, ?_, hkept⟩
  rw [List.map_append, List.map_cons, List.map_singleton, hfile, hrun]
  rfl

end Session
end ScriptSession
