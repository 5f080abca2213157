import ScriptSession.Proofs.Session.Modules

/-!
# Import graphs of libraries

The files that the import of a name leads to, and which of them may import which, with a path for
each place in all its spellings. If no file of the library imports itself, be it through others,
there are no circles in this graph (`Library.not_transGen_graph`), and an import goes along it as
long as the library stays meanwhile. So such an import may be part of any history
(`History.resolve_of_isAcyclic`).
-/

namespace ScriptSession
namespace Session

open Concurrency (IsKept)
open Script (Module Run)

/-! ## Graphs -/

namespace Library

variable {L : Library} {name : String} {f g : Path}

/-- The file may import the other one. -/
def Leads (L : Library) (g f : Path) : Prop :=
  ∃ text name, Running.moduleText L.host g = .ok text ∧
    (Script.runModule text g.text).Asks name ∧ L.loading.findModule L.host name = some f

/-- The import of a name leads to the file. -/
def Reaches (L : Library) (name : String) (f : Path) : Prop :=
  L.host.isFile f = true ∧ ∃ q, L.Finds name q ∧
    Relation.ReflTransGen L.Imports q (Files.placeOf L.host.cwd f)

/-- The import graph behind a name, with paths by their components. -/
def graph (L : Library) (name : String) (a b : List Path.Component) : Prop :=
  ∃ g f, L.Reaches name g ∧ L.Reaches name f ∧ L.Leads g f ∧ a = g.components ∧ b = f.components

theorem Leads.imports (h : L.Leads g f) :
    L.Imports (Files.placeOf L.host.cwd g) (Files.placeOf L.host.cwd f) := by
  obtain ⟨text, name, htext, hasks, hfind⟩ := h
  exact ⟨g, text, name, rfl, htext, hasks, f, hfind, rfl⟩

theorem reaches_of_findModule (h : L.loading.findModule L.host name = some f) :
    L.Reaches name f :=
  ⟨isFile_of_findModule h, _, ⟨f, h, rfl⟩, .refl⟩

theorem Reaches.leads (h : L.Reaches name g) (hleads : L.Leads g f) : L.Reaches name f := by
  obtain ⟨-, q, hfinds, hpath⟩ := h
  refine ⟨?_, q, hfinds, hpath.tail hleads.imports⟩
  obtain ⟨text, name', -, -, hfind⟩ := hleads
  exact isFile_of_findModule hfind

/-- Files whose paths have the same components are at one place. -/
theorem Reaches.placeOf_eq (h : L.Reaches name f) (h' : L.Reaches name g)
    (hsame : f.components = g.components) :
    Files.placeOf L.host.cwd f = Files.placeOf L.host.cwd g := by
  have hpaths : g.same f = true := by rw [Path.same, hsame, beq_self_eq_true]
  exact (Files.isFile_of_same hpaths (Files.endsInStep_of_isFile h'.1)
    (Files.endsInStep_of_isFile h.1) h'.1).2

/-- The graph has no circles if no file imports itself, be it through others. -/
theorem not_transGen_graph (hacyclic : L.IsAcyclic name) (c : List Path.Component) :
    ¬ Relation.TransGen (L.graph name) c c := by
  -- A path in the graph goes through files that are reached, and these import each other in turn.
  have hplaces : ∀ a b, Relation.TransGen (L.graph name) a b →
      ∃ g f, L.Reaches name g ∧ L.Reaches name f ∧ a = g.components ∧ b = f.components ∧
        Relation.TransGen L.Imports (Files.placeOf L.host.cwd g)
          (Files.placeOf L.host.cwd f) := by
    intro a b hpath
    induction hpath with
    | single hedge =>
      obtain ⟨g, f, hg, hf, hleads, ha, hb⟩ := hedge
      exact ⟨g, f, hg, hf, ha, hb, .single hleads.imports⟩
    | tail _ hedge ih =>
      obtain ⟨g, f, hg, hf, ha, hb, hpath⟩ := ih
      obtain ⟨g', f', hg', hf', hleads, hb', hc⟩ := hedge
      refine ⟨g, f', hg, hf', ha, hc, hpath.tail ?_⟩
      rw [hf.placeOf_eq hg' (hb.symm.trans hb')]
      exact hleads.imports
  intro hcircle
  obtain ⟨g, f, hg, hf, ha, hb, hpath⟩ := hplaces c c hcircle
  -- The circle ends in the file it began with: a place is told by its components.
  rw [hf.placeOf_eq hg (hb.symm.trans ha)] at hpath
  obtain ⟨-, q, hfinds, hreach⟩ := hg
  exact hacyclic q _ hfinds hreach hpath

end Library

/-! ## Imports along the graph -/

namespace Running

variable {r : Running} {R : World → World → Prop} {L : Library}
  (hR : ∀ w w', R w w' → w'.library r.context = w.library r.context)
include hR

/-- What is so of the imports of a script as long as the library stays. The induction is on the
questions of the script. -/
theorem Interprets.visits {load : Loader} {records : Records} {Q : Import → Prop} {α : Type}
    {asked : Nat} {run : Run α} {w w' : World} {a : α} {js : List Import}
    (h : r.Interprets R load records asked run w a w' js)
    (hrecords : ∀ name, run.Asks name → ∀ p w x w' js, w.library r.context = L →
      records name p w x w' js → w'.library r.context = L ∧ ∀ e ∈ js, Q e)
    (hL : w.library r.context = L) : w'.library r.context = L ∧ ∀ e ∈ js, Q e := by
  induction h with
  | done => exact ⟨hL, fun _ he => absurd he List.not_mem_nil⟩
  | @load asked name p k w w₁ w' x a front back hload _ ih =>
    obtain ⟨hL₁, hfront⟩ := hrecords name ⟨p, k, .here _⟩ _ _ _ _ _ hL hload
    obtain ⟨hL', hback⟩ := ih (fun name' hasks => by
      obtain ⟨p', k', hreaches⟩ := hasks
      exact hrecords name' ⟨p', k', .later x hreaches⟩) hL₁
    exact ⟨hL', List.forall_mem_append.mpr ⟨hfront, hback⟩⟩
  | @other asked q k w w₁ w' x a js hq hanswer _ ih =>
    -- Any other answer leaves the library alone, so the rest is asked of the same one.
    have hkeeps : IsKept fun w w' : World => w'.library r.context = w.library r.context :=
      ⟨fun _ => rfl, fun h h' => h'.trans h⟩
    have hsame : w₁.library r.context = w.library r.context := kept_of_answer hkeeps
      (fun w w' hhost hcontexts => by
        rw [World.library, World.library, World.context, World.context, hhost, hcontexts])
      hR hq hanswer
    refine ih (fun name' hasks => ?_) (hsame.trans hL)
    obtain ⟨p', k', hreaches⟩ := hasks
    exact hrecords name' ⟨p', k', .later x hreaches⟩

theorem RunsFile.visits {load : Loader} {records : Records} {Q : Import → Prop} {file : Path}
    {w w' : World} {a : Except Script.Fault Module} {js : List Import}
    (h : r.RunsFile R load records file w a w' js)
    (hrecords : ∀ text name, moduleText L.host file = .ok text →
      (Script.runModule text file.text).Asks name → ∀ p w x w' js, w.library r.context = L →
        records name p w x w' js → w'.library r.context = L ∧ ∀ e ∈ js, Q e)
    (hL : w.library r.context = L) : w'.library r.context = L ∧ ∀ e ∈ js, Q e := by
  unfold RunsFile at h
  split at h
  · obtain ⟨-, rfl, rfl⟩ := h
    exact ⟨hL, fun _ he => absurd he List.not_mem_nil⟩
  · rename_i text htext
    rw [(Library.mk.inj hL).1] at htext
    exact h.visits hR (fun name => hrecords text name htext) hL

/-- An import of a library goes along the import graph. The induction is on the room that is
left. -/
theorem visits_of_imports {start : String} {room : Nat} {running : List Path} {name : String}
    {p : Script.Position} {w w' : World} {a : Except Script.Fault Module} {js : List Import}
    (h : r.Imports R room running name p w a w' js) (hL : w.library r.context = L)
    (hreach : ∀ f, L.loading.findModule L.host name = some f → L.Reaches start f) :
    w'.library r.context = L ∧ ∀ e ∈ js,
      e.running = running ∧ L.loading.findModule L.host name = some e.file ∨
        ∃ g, e.running.head? = some g ∧ L.graph start g.components e.file.components := by
  induction room generalizing running name p w a w' js with
  | zero => exact h.elim
  | succ room ih =>
    obtain ⟨hhost, hloading⟩ := Library.mk.inj hL
    have hinner : ∀ {file : Path} {a : Except Script.Fault Module} {w₁ : World}
        {js : List Import}, L.loading.findModule L.host name = some file →
          r.RunsFile R (r.resolveWithin room) (r.Imports R room (file :: running)) file w a w₁ js →
          w₁.library r.context = L ∧ ∀ e ∈ js, ∃ g, e.running.head? = some g ∧
            L.graph start g.components e.file.components := by
      intro file a w₁ js hfind hrun
      refine hrun.visits hR (fun text name' htext hasks p' w x w' js hL himport => ?_) hL
      have hleads : ∀ f, L.loading.findModule L.host name' = some f → L.Leads file f :=
        fun f hf => ⟨text, name', htext, hasks, hf⟩
      obtain ⟨hL', hvisits⟩ := ih himport hL fun f hf => (hreach file hfind).leads (hleads f hf)
      refine ⟨hL', fun e he => ?_⟩
      -- An import that the file makes itself is an edge from the file.
      rcases hvisits e he with ⟨hrunning, hfile⟩ | hdeep
      · refine ⟨file, by rw [hrunning]; rfl, file, e.file, hreach file hfind, ?_, ?_, rfl, rfl⟩
        · exact (hreach file hfind).leads (hleads e.file hfile)
        · exact hleads e.file hfile
      · exact hdeep
    cases h with
    | missing hfind => exact ⟨hL, fun _ he => absurd he List.not_mem_nil⟩
    | kept hfind hkept =>
      rw [hhost, hloading] at hfind
      refine ⟨hL, fun e he => .inl ?_⟩
      rw [List.mem_singleton.mp he]
      exact ⟨rfl, hfind⟩
    | failed hfind hkept hrun =>
      rw [hhost, hloading] at hfind
      obtain ⟨hL₁, hvisits⟩ := hinner hfind hrun
      refine ⟨hL₁, List.forall_mem_append.mpr
        ⟨fun e he => .inr (hvisits e he), fun e he => .inl ?_⟩⟩
      rw [List.mem_singleton.mp he]
      exact ⟨rfl, hfind⟩
    | fresh hfind hkept hrun =>
      rw [hhost, hloading] at hfind
      obtain ⟨hL₁, hvisits⟩ := hinner hfind hrun
      refine ⟨(World.library_keepModule _ _ _ _).trans hL₁,
        List.forall_mem_append.mpr ⟨fun e he => .inr (hvisits e he), fun e he => .inl ?_⟩⟩
      rw [List.mem_singleton.mp he]
      exact ⟨rfl, hfind⟩

end Running

/-- As long as the library stays during an import, its graph is one along which the import goes. -/
theorem History.resolve_of_isAcyclic {i : Nat} {w₀ w w' : World} {js more : List Import}
    {r : Running} {R : World → World → Prop} {room : Nat} {name : String} {p : Script.Position}
    {a : Except Script.Fault Module} (h : History i w₀ w js) (hr : r.context = i)
    (hR : ∀ w w', R w w' → SparesModules i w w' ∧ w'.library i = w.library i)
    (himport : r.Imports R room [] name p w a w' more)
    (hacyclic : (w.library i).IsAcyclic name) : History i w₀ w' (js ++ more) := by
  subst hr
  refine h.resolve rfl (fun w w' hw => (hR w w' hw).1) himport
    (Library.not_transGen_graph hacyclic) ?_
  obtain ⟨-, hvisits⟩ := Running.visits_of_imports (fun w w' hw => (hR w w' hw).2) himport rfl
    fun f hf => Library.reaches_of_findModule hf
  intro e he g hg
  rcases hvisits e he with ⟨hrunning, -⟩ | ⟨g', hg', hedge⟩
  · rw [hrunning] at hg
    cases hg
  · rw [hg'] at hg
    cases hg
    exact hedge

end Session
end ScriptSession
