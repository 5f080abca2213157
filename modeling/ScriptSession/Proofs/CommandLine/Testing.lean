import ScriptSession.CommandLine.Execution
import ScriptSession.Proofs.Session.Undisturbed
import ScriptSession.Session.Milestones

/-!
# Testing from the command line

The command that runs tests opens a session of its own, in which it rebuilds once and submits one
batch. Nothing in it cancels a task before the batch has ended, so the command succeeds only if
every file has been read and the tests in all of them have succeeded (`complete_of_runTestFiles`).
-/

namespace ScriptSession
namespace CommandLine

open Concurrency (IsKept Pool Thread runFrom)
open Config (Settings)
open Report (TestCase TestRun)
open Session

/-! ## Opening a session -/

theorem quiet_onFiles {α : Type} (op : Artifact.FileOperation α) : Quiet (onFiles op) :=
  .getHost_bind fun _ => .bind (.setHost _) fun _ => .pure _

theorem quiet_repositoriesOf (s : Config.SessionSettings) : Quiet (repositoriesOf s) := by
  refine .getHost_bind fun host => ?_
  split
  · exact .pure _
  · split
    · exact quiet_onFiles _
    · exact .pure _

variable {J : Job → Prop}

theorem gentle_openSession (s : Settings) : Gentle J (openSession s) := by
  refine .bind (.modify fun _ => ⟨rfl, fun h => h⟩) fun _ =>
    .bind (.of_quiet (quiet_repositoriesOf s.session)) fun repositories => ?_
  cases repositories with
  | error e => exact .pure _
  | ok rs =>
    exact ⟨fun _ => ⟨⟨rfl, fun h => h⟩, trivial⟩⟩

theorem gentle_openWithContext (hJ : ∀ id, J (.task id .rebuild)) (s : Settings) :
    Gentle J (openWithContext s).run := by
  refine .bind (gentle_openSession s) fun opened => ?_
  cases opened with
  | error e => exact .pure _
  | ok u =>
    refine .bind (gentle_rebuildBlocking hJ) fun built => ?_
    cases built <;> exact .pure _

/-! ## Reading the tests -/

/-- The test in a file of a host, or why there is none. -/
def testIn (host : Host) (file : Path) : Except Failure TestCase :=
  match host.readText file with
  | .ok script => .ok ⟨file.stem?.getD file.text, script⟩
  | .error e => .error (.io e)

theorem run_testOfFile (file : Path) :
    (testOfFile file).run = Thread.get fun w => .done (testIn w.host file) := by
  refine congrArg Thread.get (funext fun w => ?_)
  show Thread.bind (match w.host.readText file with | .ok text => _ | .error e => _) _ = _
  rw [testIn]
  cases w.host.readText file <;> rfl

/-- Reading the tests changes nothing. -/
theorem behaves_readTests (files : List Path) (w : World) :
    (files.mapM testOfFile).run.Behaves Mild J
      (fun r w' => r = files.mapM (testIn w.host) ∧ w' = w) w := by
  induction files with
  | nil => exact ⟨rfl, rfl⟩
  | cons file rest ih =>
    rw [List.mapM_cons, List.mapM_cons]
    have hfile : (testOfFile file).run.Behaves Mild J
        (fun r w' => r = testIn w.host file ∧ w' = w) w := by
      rw [run_testOfFile]
      exact ⟨rfl, rfl⟩
    refine hfile.bindExcept ?_ ?_
    · rintro case _ ⟨hcase, rfl⟩
      refine ih.bindExcept ?_ ?_
      · rintro cases _ ⟨hcases, rfl⟩
        rw [← hcase, ← hcases]
        exact ⟨rfl, rfl⟩
      · rintro e _ ⟨he, rfl⟩
        rw [← hcase, ← he]
        exact ⟨rfl, rfl⟩
    · rintro e _ ⟨he, rfl⟩
      rw [← he]
      exact ⟨rfl, rfl⟩

/-! ## The command -/

/-- What the command does before its session is shut down. -/
def tryTests (s : Settings) (files : List Path) :
    ExceptT Failure Act (Except Failure TestRun) := do
  let cases ← files.mapM testOfFile
  openWithContext s
  ExceptT.lift (runTests cases)

/-- What the command says of a run of tests. -/
def judge : Except Failure TestRun → Except Failure String
  | .ok run => if run.allPassed then .ok "" else .error (.taskFailed run.summaryLine)
  | .error e => .error e

/-- What the command does when its tests are over. -/
def close (result : Except Failure TestRun) : ExceptT Failure Act String := do
  shutdown
  ExceptT.mk (pure (judge result))

theorem runTestFiles_eq (s : Settings) (files : List Path) :
    runTestFiles s files = tryTests s files >>= close := by
  simp only [runTestFiles, tryTests, bind_assoc]
  refine bind_congr fun cases => bind_congr fun _ => bind_congr fun result =>
    bind_congr fun _ => ?_
  cases result with
  | error e => rfl
  | ok run =>
    show (if run.allPassed then pure "" else throw (.taskFailed run.summaryLine) :
      ExceptT Failure Act String) = _
    rw [judge]
    split <;> rfl

/-- What the command starts: rebuilds and batches of its tests. -/
inductive Starts (cases : List TestCase) : Job → Prop
  | rebuild (id : Nat) : Starts cases (.task id .rebuild)
  | batch (id i : Nat) : Starts cases (.task id (.batch i cases true))

variable {cases : List TestCase} {s : Settings} {files : List Path} {w : World}

theorem behaves_starts {job : Job} (hjob : Starts cases job) (w : World) :
    (body job).Behaves (KeepsOrder cases) (Starts cases) (fun _ _ => True) w := by
  cases hjob with
  | rebuild id => exact (gentle_rebuild id).keepsOrder w
  | batch id i => exact behaves_batch id i cases w

/-- If the tests have been run, they were the ones in the files, and the run has been recorded. -/
def Recorded (host : Host) (files : List Path) (cases : List TestCase)
    (r : Except Failure (Except Failure TestRun)) (w : World) : Prop :=
  ∀ result, r = .ok result → files.mapM (testIn host) = .ok cases ∧
    ∀ run, result = .ok run → ∃ id, (id, run) ∈ w.batches

theorem behaves_tryTests (hcases : ∀ cs, files.mapM (testIn w.host) = .ok cs → cs = cases) :
    (tryTests s files).run.Behaves (KeepsOrder cases) (Starts cases)
      (Recorded w.host files cases) w := by
  have hread : (files.mapM testOfFile).run.Behaves (KeepsOrder cases) (Starts cases)
      (fun r w' => r = files.mapM (testIn w.host) ∧ w' = w) w :=
    (behaves_readTests files w).mono (fun _ _ => Mild.keepsOrder) (fun _ h => h) fun _ _ h => h
  refine hread.bindExcept ?_ fun _ _ _ => nofun
  rintro cs _ ⟨hcs, rfl⟩
  obtain rfl := hcases cs hcs.symm
  refine ((gentle_openWithContext .rebuild s).keepsOrder _).bindExcept (fun _ w' _ => ?_)
    fun _ _ _ => nofun
  refine ((behaves_runTests .batch w').liftExcept Failure).mono (fun _ _ => Mild.keepsOrder)
    (fun _ h => h) ?_
  rintro _ w'' ⟨result, rfl, hresult⟩ _ ⟨⟩
  exact ⟨hcs.symm, hresult⟩

/-- No run that has been recorded is lost. -/
def KeepsRuns (w w' : World) : Prop := ∀ b ∈ w.batches, b ∈ w'.batches

theorem isKept_keepsRuns : IsKept KeepsRuns :=
  ⟨fun _ _ hb => hb, fun h h' b hb => h' b (h b hb)⟩

theorem eq_ok_of_judge {result : Except Failure TestRun} {text : String}
    (h : judge result = .ok text) : ∃ run, result = .ok run ∧ run.allPassed = true := by
  cases result with
  | error e => cases h
  | ok run =>
    refine ⟨run, rfl, ?_⟩
    rw [judge] at h
    split at h
    · assumption
    · cases h

/-- Shutting the session down loses no run, and then the command succeeds only for a passed one. -/
theorem behaves_close (result : Except Failure TestRun) (w : World) :
    (close result).run.Behaves KeepsRuns J
      (fun r _ => ∀ text, r = .ok text → ∃ run, result = .ok run ∧ run.allPassed = true) w := by
  have hshutdown : shutdown.Behaves KeepsRuns J (fun _ _ => True) w :=
    (sparesRuns_shutdown.only w).behaves fun w w' h b hb => h ▸ hb
  refine (hshutdown.liftExcept Failure).bindExcept (fun _ _ _ text => eq_ok_of_judge) ?_
  rintro e _ ⟨_, he, -⟩
  cases he

/-- If all is in order when the tests are over, the command succeeds only for a complete run. -/
theorem Recorded.behaves_close {host : Host} {r : Except Failure (Except Failure TestRun)}
    (hr : Recorded host files cases r w) (hw : InOrder cases w) :
    (ExceptT.bindCont close r).Behaves KeepsRuns J
      (fun out _ => ∀ text, out = .ok text → files.mapM (testIn host) = .ok cases ∧
        ∃ b ∈ w.batches, Trial.IsComplete cases b.2) w := by
  cases r with
  | error e => exact nofun
  | ok result =>
    obtain ⟨hread, hrecorded⟩ := hr result rfl
    refine (CommandLine.behaves_close result w).mono (fun _ _ h => h) (fun _ h => h) ?_
    intro out _ hout text htext
    obtain ⟨run, rfl, hpassed⟩ := hout text htext
    obtain ⟨id, hid⟩ := hrecorded run rfl
    exact ⟨hread, (id, run), hid, hw.complete _ hid hpassed⟩

/-- A command that succeeds has read every file, and a run has been recorded in which the tests in
all of them have succeeded. -/
theorem complete_of_runTestFiles (hcalm : w.admission.Calm) (hnew : w.batches = []) {n : Nat}
    {text : String}
    (hend : (Pool.run body n (.ofThread (runTestFiles s files).run w)).result? =
      some (.ok text)) :
    ∃ cases id run, files.mapM (testIn w.host) = .ok cases ∧
      (id, run) ∈ (Pool.run body n (.ofThread (runTestFiles s files).run w)).shared.batches ∧
      Trial.IsComplete cases run := by
  obtain ⟨cases, hcases⟩ :
      ∃ cases, ∀ cs, files.mapM (testIn w.host) = .ok cs → cs = cases := by
    cases hread : files.mapM (testIn w.host) with
    | ok cases => exact ⟨cases, fun cs hcs => (Except.ok.inj hcs).symm⟩
    | error e => exact ⟨[], nofun⟩
  have hinOrder : InOrder cases w := ⟨hcalm, by rw [hnew]; exact nofun⟩
  -- What is known from where the tests are over: the runs that have been recorded until then.
  let K := fun (runs : List (Nat × TestRun)) (w : World) => ∀ b ∈ runs, b ∈ w.batches
  let P := fun (runs : List (Nat × TestRun)) (out : Except Failure String) => ∀ text,
    out = .ok text → files.mapM (testIn w.host) = .ok cases ∧
      ∃ b ∈ runs, Trial.IsComplete cases b.2
  rw [runTestFiles_eq] at hend ⊢
  obtain ⟨runs, hkept, hout⟩ := Pool.run_bind (K := K) (P := P) (isKept_keepsOrder cases)
    isKept_keepsRuns (fun job hjob => behaves_starts hjob) (fun w w' h => h.inOrder)
    (fun runs w w' h hruns b hb => h b (hruns b hb))
    (fun r w' hw' hr => ⟨w'.batches, fun _ hb => hb, hr.behaves_close hw'⟩)
    (fun w w' h => h.keeps) (behaves_tryTests hcases) hinOrder hend
  obtain ⟨hread, ⟨id, run⟩, hrun, hcomplete⟩ := hout text rfl
  exact ⟨cases, id, run, hread, hkept _ hrun, hcomplete⟩

/-- A run that `runTests` returns as passed is complete if and only if its batch has not found
itself cancelled before a test, at whatever point it is cancelled. When the command succeeds, which
cancels nothing before, a complete run of the tests in all its files has been recorded. -/
theorem complete_unless_cut_short (w : World) :
    (w.RunsNumbered → ∀ (cases : List TestCase) (turns : List Trial.Turn) (run : TestRun),
      (runFrom Trial.step (.start cases w) turns).result? = some (.ok run) →
      run.allPassed = true →
      (Trial.IsComplete cases run ↔ ¬Trial.IsCutShort cases w turns)) ∧
    (w.admission.Calm → w.batches = [] →
      ∀ (s : Settings) (files : List Path) (n : Nat) (text : String),
      (Pool.run body n (.ofThread (runTestFiles s files).run w)).result? = some (.ok text) →
      ∃ cases id run, files.mapM (testIn w.host) = .ok cases ∧
        (id, run) ∈ (Pool.run body n (.ofThread (runTestFiles s files).run w)).shared.batches ∧
        Trial.IsComplete cases run) := by
  constructor
  · intro hw cases turns run hrun hpassed
    exact Trial.complete_iff hw turns hrun hpassed
  · intro hcalm hnew s files n text hend
    exact complete_of_runTestFiles hcalm hnew hend

/-- Two tests. -/
def twoTests : List TestCase := [⟨"one", "1"⟩, ⟨"two", "2"⟩]

/-- A host with the files of two tests. -/
def twoFiles : Host :=
  ⟨⟨[(["one.rhai"], .file "1".toUTF8), (["two.rhai"], .file "2".toUTF8)]⟩, [], [], []⟩

/-- A world with a context, whose variables may be in use. -/
def readyWorld (isHeld : Bool) : World :=
  { World.new twoFiles with
    contexts := [{ Context.State.new 1 .empty .empty with isHeld := isHeld }]
    session := { (default : Core) with context := some 0 } }

/-- The turns of a run in which nobody interferes. -/
def quietTurns : List Trial.Turn :=
  .caller 0 :: List.replicate 100 (.batch 0 false) ++ [.caller 0]

/-- A checked result is there. -/
theorem exists_of_any {ε α : Type} {r : Option (Except ε α)} {p : α → Bool}
    (h : r.any (fun x => x.toOption.any p) = true) : ∃ a, r = some (.ok a) ∧ p a = true := by
  rcases r with - | (e | a)
  · cases h
  · cases h
  · exact ⟨a, rfl, h⟩

/-- Both tests of two succeed, with nobody in the way and from the command line. -/
theorem complete_two_tests :
    ¬Trial.IsCutShort twoTests (readyWorld false) quietTurns ∧
      ∃ cases id run, [Path.mk "one.rhai", ⟨"two.rhai"⟩].mapM (testIn twoFiles) = .ok cases ∧
        (id, run) ∈ (Pool.run body stepSupply (.ofThread (runTestFiles (.default twoFiles)
          [⟨"one.rhai"⟩, ⟨"two.rhai"⟩]).run (World.new twoFiles))).shared.batches ∧
        Trial.IsComplete cases run := by
  constructor
  · have hchecked :
        (runFrom Trial.step (.start twoTests (readyWorld false)) quietTurns).result?.any (fun r =>
          r.toOption.any fun run => run.allPassed &&
            run.results.map (·.title) == twoTests.map (·.title)) = true := by
      decide +kernel
    obtain ⟨run, hrun, hchecks⟩ := exists_of_any hchecked
    obtain ⟨hpassed, htitles⟩ := Bool.and_eq_true_iff.mp hchecks
    have hiff := (complete_unless_cut_short (readyWorld false)).1 nofun twoTests quietTurns run hrun
      hpassed
    exact hiff.mp ((Trial.isComplete_iff hpassed).mpr (eq_of_beq htitles))
  · have hchecked : (Pool.run body stepSupply (.ofThread (runTestFiles (.default twoFiles)
          [⟨"one.rhai"⟩, ⟨"two.rhai"⟩]).run (World.new twoFiles))).result?.any (fun r =>
        r.toOption.any fun _ => true) = true := by decide +kernel
    obtain ⟨text, hend, -⟩ := exists_of_any hchecked
    have hcalm : (World.new twoFiles).admission.Calm := fun t ht => by cases ht
    exact (complete_unless_cut_short (World.new twoFiles)).2 hcalm rfl (.default twoFiles)
      [⟨"one.rhai"⟩, ⟨"two.rhai"⟩] stepSupply text hend

/-- A run can be passed without being complete: a batch that is interrupted in the first of two
tests, which goes on to its end, returns the result of that test alone. -/
theorem passed_but_cut_short :
    ∃ run, (runAct (interruptDuring "tests" "one" twoTests) (readyWorld true)).1 =
        some (.cooperative, .ok run) ∧
      run.allPassed = true ∧ ¬Trial.IsComplete twoTests run := by
  have hchecked : (runAct (interruptDuring "tests" "one" twoTests) (readyWorld true)).1.any
      (fun r => r.1 = .cooperative && r.2.toOption.any fun run => run.allPassed &&
        run.results.length == 1) = true := by decide +kernel
  obtain ⟨⟨outcome, r⟩, hr, hchecks⟩ := (Option.any_eq_true _ _).mp hchecked
  obtain ⟨houtcome, hrun⟩ := Bool.and_eq_true_iff.mp hchecks
  obtain rfl : outcome = .cooperative := of_decide_eq_true houtcome
  cases r with
  | error e => cases hrun
  | ok run =>
    obtain ⟨hpassed, hlength⟩ := Bool.and_eq_true_iff.mp hrun
    refine ⟨run, hr, hpassed, fun hcomplete => ?_⟩
    have htwo := congrArg List.length hcomplete
    rw [List.length_map, eq_of_beq hlength] at htwo
    cases htwo

end CommandLine
end ScriptSession
