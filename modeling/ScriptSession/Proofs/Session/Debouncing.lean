import ScriptSession.Proofs.Session.Watching

/-!
# Changes that come in bursts

A watcher asks for a rebuild once the manifest has been left alone for a while. Its rounds, which
are those of its loop (`Watch.watchLoop_eq`), write down what they do with the times that they read
(`Watch.timeline`). Two facts carry the rest: a change that waits is the last entry of the timeline
(`Watch.shows_run`), and after a change the rounds that take in no further one add at most one
entry, in the first of them that finds the time to be over (`Watch.timeline_lull`). Main statement:
`Watch.debounces_changes`.
-/

namespace ScriptSession
namespace Session
namespace Watch

open Concurrency (Follows exists_of_noted_eq noted noted_append noted_concat noted_keeps
  runFrom_concat)

/-! ## Times -/

/-- What rounds read off the clock, in order. -/
def readings (rounds : List Round) : List Nat := rounds.flatMap fun r => [r.taken, r.now]

/-- The clock does not go back. -/
def IsOrdered (rounds : List Round) : Prop := (readings rounds).Pairwise (· ≤ ·)

instance (rounds : List Round) : Decidable (IsOrdered rounds) :=
  inferInstanceAs (Decidable ((readings rounds).Pairwise (· ≤ ·)))

/-- When the changes of a manifest were taken in. -/
def changeTimes (manifest : Path) (rounds : List Round) : List Nat :=
  (rounds.filter fun r => r.received.isChange manifest).map (·.taken)

namespace IsOrdered

variable {rounds before rest : List Round} {r r' : Round}

theorem of_prefix {past : List Round} (h : IsOrdered rounds) (hpast : past <+: rounds) :
    IsOrdered past := by
  obtain ⟨more, rfl⟩ := hpast
  rw [IsOrdered, readings, List.flatMap_append] at h
  exact (List.pairwise_append.mp h).1

/-- No clock reading behind a round is earlier than it. -/
theorem taken_le (h : IsOrdered (before ++ r :: rest)) (hr : r' ∈ r :: rest) :
    r.taken ≤ r'.now := by
  rw [IsOrdered, readings, List.flatMap_append, List.flatMap_cons] at h
  have hfirst := (List.pairwise_cons.mp (List.pairwise_append.mp h).2.1).1
  obtain rfl | hr := List.mem_cons.mp hr
  · exact hfirst _ List.mem_cons_self
  · exact hfirst _ (List.mem_cons_of_mem _ (List.mem_flatMap.mpr ⟨r', hr, by simp⟩))

/-- No clock reading before a round is later than it. -/
theorem now_le (h : IsOrdered (before ++ r :: rest)) (hr : r' ∈ before) : r'.now ≤ r.taken := by
  rw [IsOrdered, readings, List.flatMap_append] at h
  exact (List.pairwise_append.mp h).2.2 _ (List.mem_flatMap.mpr ⟨r', hr, by simp⟩) _
    List.mem_cons_self

end IsOrdered

section
variable {manifest : Path} {r : Round}

theorem changeTimes_cons_of_isChange (h : r.received.isChange manifest = true)
    (rest : List Round) :
    changeTimes manifest (r :: rest) = r.taken :: changeTimes manifest rest := by
  simp [changeTimes, h]

theorem changeTimes_cons_of_not_isChange (h : r.received.isChange manifest = false)
    (rest : List Round) : changeTimes manifest (r :: rest) = changeTimes manifest rest := by
  simp [changeTimes, h]

end

/-! ## What rounds do, and when -/

/-- Whether a deed is to ask for a rebuild. -/
def Deed.isAsk : Deed → Bool
  | .change => false
  | .ask _ => true

section
variable (manifest : Path) (debounce : Nat)

/-- The change that a round takes in, if it takes one in. -/
def changeIn (r : Round) : List (Nat × Deed) :=
  if r.received.isChange manifest then [(r.taken, .change)] else []

/-- What a round does, with the times at which it does it. -/
def entries (w : Watch) (r : Round) : List (Nat × Deed) :=
  changeIn manifest r ++
    if (w.round manifest debounce r.taken r.now r.received).2 then [(r.now, .ask r.isAccepted)]
    else []

/-- What the rounds of a new watcher did, and when. -/
def timeline (rounds : List Round) : List (Nat × Deed) :=
  noted (step manifest debounce) (entries manifest debounce) idle rounds

/-- How many rebuilds the rounds of a new watcher asked for. -/
def askCount (rounds : List Round) : Nat := (history manifest debounce rounds).countP Deed.isAsk

theorem map_snd_entries (w : Watch) (r : Round) :
    (entries manifest debounce w r).map Prod.snd = deeds manifest debounce w r := by
  rw [entries, deeds, changeIn, List.map_append, apply_ite (List.map Prod.snd),
    apply_ite (List.map Prod.snd)]
  rfl

/-- Without its times, a timeline is the history. -/
theorem map_snd_timeline (rounds : List Round) :
    (timeline manifest debounce rounds).map Prod.snd = history manifest debounce rounds := by
  induction rounds using List.reverseRecOn with
  | nil => rfl
  | append_singleton past r ih =>
    rw [timeline, noted_concat, List.map_append, map_snd_entries, history, noted_concat]
    exact congrArg (· ++ _) ih

theorem askCount_eq (rounds : List Round) :
    askCount manifest debounce rounds =
      (timeline manifest debounce rounds).countP fun e => e.2.isAsk := by
  rw [askCount, ← map_snd_timeline, List.countP_map]
  rfl

/-- The times of a timeline are read off the clock, in this order. -/
theorem times_sublist (w : Watch) (rounds : List Round) :
    ((noted (step manifest debounce) (entries manifest debounce) w rounds).map Prod.fst).Sublist
      (readings rounds) := by
  induction rounds generalizing w with
  | nil => exact .refl []
  | cons r rest ih =>
    rw [noted, List.map_append, readings, List.flatMap_cons]
    refine .append ?_ (ih _)
    have hchange : ((changeIn manifest r).map Prod.fst).Sublist [r.taken] := by
      rw [changeIn]
      split <;> simp
    rw [entries, List.map_append]
    exact hchange.append (by split <;> simp)

end

section
variable {manifest : Path} {debounce : Nat} {w : Watch} {r : Round}

/-! ## Single rounds -/

/-- A change starts the time anew. -/
theorem receive_of_isChange (h : r.received.isChange manifest = true) :
    w.receive manifest r.taken r.received = ⟨some r.taken⟩ := by
  revert h
  cases r.received with
  | event kind paths => exact fun h => if_pos h
  | problem | quiet => exact nofun

/-- Whatever else is received leaves the time alone. -/
theorem receive_of_not_isChange (h : r.received.isChange manifest = false) :
    w.receive manifest r.taken r.received = w := by
  revert h
  cases r.received with
  | event kind paths => exact fun h => if_neg (ne_true_of_eq_false h)
  | problem | quiet => exact fun _ => rfl

theorem changeIn_of_isChange (h : r.received.isChange manifest = true) :
    changeIn manifest r = [(r.taken, .change)] := if_pos h

theorem changeIn_of_not_isChange (h : r.received.isChange manifest = false) :
    changeIn manifest r = [] := if_neg (ne_true_of_eq_false h)

/-- A rebuild takes away what waits. -/
theorem step_eq : step manifest debounce w r =
    if (w.receive manifest r.taken r.received).isDue debounce r.now then idle
    else w.receive manifest r.taken r.received := by
  rw [step, round]
  exact apply_ite Prod.fst ..

theorem entries_eq : entries manifest debounce w r = changeIn manifest r ++
    if (w.receive manifest r.taken r.received).isDue debounce r.now then
      [(r.now, .ask r.isAccepted)]
    else [] := by
  rw [entries, round]
  cases (w.receive manifest r.taken r.received).isDue debounce r.now <;> rfl

theorem isDue_iff {since now : Nat} (h : since ≤ now) :
    (Watch.mk (some since)).isDue debounce now = true ↔ since + debounce ≤ now := by
  rw [isDue, Option.any_some, decide_eq_true_iff]
  omega

/-- A rebuild is due only for a change that waits. -/
theorem exists_of_isDue {now : Nat} (h : w.isDue debounce now = true) :
    ∃ since, w.pendingSince = some since ∧ debounce ≤ now - since := by
  rw [isDue, Option.any_eq_true] at h
  obtain ⟨since, hsince, hdue⟩ := h
  exact ⟨since, hsince, of_decide_eq_true hdue⟩

/-- Only a change starts the time. -/
theorem pendingSince_step_of_not_isChange (h : r.received.isChange manifest = false) {since : Nat}
    (hsince : (step manifest debounce w r).pendingSince = some since) :
    w.pendingSince = some since := by
  rw [step_eq, receive_of_not_isChange h] at hsince
  split at hsince
  case isTrue => cases hsince
  case isFalse => exact hsince

/-! ## What waits -/

/-- What waits is the change that was taken in last, and nothing has been done since. -/
def Shows (w : Watch) (past : List (Nat × Deed)) : Prop :=
  ∀ since, w.pendingSince = some since → past.getLast? = some (since, .change)

variable {past : List (Nat × Deed)}

theorem Shows.receive (h : w.Shows past) (r : Round) :
    (w.receive manifest r.taken r.received).Shows (past ++ changeIn manifest r) := by
  intro since hsince
  cases hchange : r.received.isChange manifest with
  | true =>
    rw [receive_of_isChange hchange] at hsince
    obtain rfl : r.taken = since := Option.some.inj hsince
    rw [changeIn_of_isChange hchange]
    exact List.getLast?_concat
  | false =>
    rw [receive_of_not_isChange hchange] at hsince
    rw [changeIn_of_not_isChange hchange, List.append_nil]
    exact h since hsince

theorem Shows.step (h : w.Shows past) (r : Round) :
    (step manifest debounce w r).Shows (past ++ entries manifest debounce w r) := by
  rw [step_eq, entries_eq, ← List.append_assoc]
  split
  case isTrue => exact nofun
  case isFalse =>
    rw [List.append_nil]
    exact h.receive r

theorem shows_run (rounds : List Round) :
    (run manifest debounce rounds).Shows (timeline manifest debounce rounds) := by
  have hidle : idle.Shows [] := nofun
  exact noted_keeps (P := fun past (w : Watch) => w.Shows past) hidle
    (fun _ _ r hpast => hpast.step r) rounds

/-! ## What a rebuild is asked for -/

/-- What stands in a list that has at most one member. -/
theorem eq_of_ite_eq_append {α : Type} {p : Prop} [Decidable p] {a b : α} {before after : List α}
    (h : (if p then [a] else []) = before ++ b :: after) : p ∧ a = b ∧ before = [] := by
  split at h
  case isTrue hp =>
    cases before with
    | nil => exact ⟨hp, (List.cons.inj h).1, rfl⟩
    | cons _ _ => simp at h
  case isFalse => simp at h

/-- A round asks for a rebuild when it has taken in what it receives. -/
theorem isDue_of_entries_eq {earlier later : List (Nat × Deed)} {now : Nat} {isAccepted : Bool}
    (h : entries manifest debounce w r = earlier ++ (now, .ask isAccepted) :: later) :
    (w.receive manifest r.taken r.received).isDue debounce r.now = true ∧ r.now = now ∧
      earlier = changeIn manifest r := by
  rw [entries_eq] at h
  cases hchange : r.received.isChange manifest with
  | true =>
    rw [changeIn_of_isChange hchange] at h ⊢
    cases earlier with
    | nil => cases h
    | cons e earlier =>
      rw [List.singleton_append, List.cons_append] at h
      obtain ⟨rfl, hrest⟩ := List.cons.inj h
      obtain ⟨hdue, hask, rfl⟩ := eq_of_ite_eq_append hrest
      exact ⟨hdue, (Prod.mk.inj hask).1, rfl⟩
  | false =>
    rw [changeIn_of_not_isChange hchange] at h ⊢
    obtain ⟨hdue, hask, rfl⟩ := eq_of_ite_eq_append h
    exact ⟨hdue, (Prod.mk.inj hask).1, rfl⟩

variable {rounds before rest lull : List Round} {first : Round}

/-- A rebuild is asked for right after a change that has been left alone for long enough. -/
theorem exists_change_of_ask (hclock : IsOrdered rounds) {before after : List (Nat × Deed)}
    {now : Nat} {isAccepted : Bool}
    (h : timeline manifest debounce rounds = before ++ (now, .ask isAccepted) :: after) :
    ∃ taken, before.getLast? = some (taken, .change) ∧ taken + debounce ≤ now := by
  have htimes : ((before ++ (now, Deed.ask isAccepted) :: after).map Prod.fst).Pairwise (· ≤ ·) :=
    hclock.sublist (h ▸ times_sublist manifest debounce idle rounds)
  obtain ⟨past, r, earlier, later, -, hentries, rfl⟩ := exists_of_noted_eq h
  obtain ⟨hdue, rfl, rfl⟩ := isDue_of_entries_eq hentries
  obtain ⟨since, hsince, hlong⟩ := exists_of_isDue hdue
  have hlast := (shows_run past).receive r since hsince
  -- Differences of times are cut off at zero, so the debounce time has passed only because the
  -- clock does not go back.
  have hle : since ≤ r.now := by
    rw [List.map_append, List.pairwise_append] at htimes
    exact htimes.2.2 _ (List.mem_map_of_mem (List.mem_of_getLast? hlast)) _ List.mem_cons_self
  exact ⟨since, hlast, by omega⟩

/-! ## Changes that are left alone -/

/-- The entry of the first round that finds a time to be over. -/
def firstAsk? (debounce since : Nat) (rounds : List Round) : Option (Nat × Deed) :=
  (rounds.find? fun r => since + debounce ≤ r.now).map fun r => (r.now, .ask r.isAccepted)

theorem firstAsk?_eq_none {since : Nat} (h : ∀ r ∈ rounds, r.now < since + debounce) :
    firstAsk? debounce since rounds = none := by
  rw [firstAsk?, Option.map_eq_none_iff, List.find?_eq_none]
  intro r hr hover
  have hbefore := h r hr
  have hafter := of_decide_eq_true hover
  omega

/-- When nothing waits, nothing is done without a change. -/
theorem noted_idle (hlull : ∀ r ∈ lull, r.received.isChange manifest = false) :
    noted (step manifest debounce) (entries manifest debounce) idle lull = [] := by
  induction lull with
  | nil => rfl
  | cons r lull ih =>
    obtain ⟨hr, hlull⟩ := List.forall_mem_cons.mp hlull
    rw [noted, step_eq, entries_eq, receive_of_not_isChange hr, changeIn_of_not_isChange hr]
    exact ih hlull

/-- A round in which a time runs asks for a rebuild if it finds that time to be over, and leaves it
to the rounds behind it otherwise. -/
theorem noted_cons_of_receive {since : Nat}
    (hr : w.receive manifest r.taken r.received = ⟨some since⟩) (hnow : since ≤ r.now)
    (hlull : ∀ r ∈ lull, r.received.isChange manifest = false)
    (hrest : noted (step manifest debounce) (entries manifest debounce) ⟨some since⟩ lull =
      (firstAsk? debounce since lull).toList) :
    noted (step manifest debounce) (entries manifest debounce) w (r :: lull) =
      changeIn manifest r ++ (firstAsk? debounce since (r :: lull)).toList := by
  rw [noted, step_eq, entries_eq, hr, List.append_assoc, firstAsk?, List.find?_cons]
  by_cases hover : since + debounce ≤ r.now
  · rw [if_pos ((isDue_iff hnow).mpr hover), if_pos ((isDue_iff hnow).mpr hover),
      noted_idle hlull, decide_eq_true hover]
    rfl
  · rw [if_neg (mt (isDue_iff hnow).mp hover), if_neg (mt (isDue_iff hnow).mp hover), hrest,
      decide_eq_false hover]
    rfl

/-- When a change waits and no other one comes, the first round that finds the time to be over asks
for a rebuild. -/
theorem noted_waiting {since : Nat} (hlull : ∀ r ∈ lull, r.received.isChange manifest = false)
    (hlater : ∀ r ∈ lull, since ≤ r.now) :
    noted (step manifest debounce) (entries manifest debounce) ⟨some since⟩ lull =
      (firstAsk? debounce since lull).toList := by
  induction lull with
  | nil => rfl
  | cons r lull ih =>
    obtain ⟨hr, hlull⟩ := List.forall_mem_cons.mp hlull
    obtain ⟨hnow, hlater⟩ := List.forall_mem_cons.mp hlater
    rw [noted_cons_of_receive (receive_of_not_isChange hr) hnow hlull (ih hlull hlater),
      changeIn_of_not_isChange hr, List.nil_append]

/-- A change that is left alone is followed by the first round that finds its time to be over, and
by nothing else. -/
theorem timeline_lull (hclock : IsOrdered (before ++ first :: lull))
    (hfirst : first.received.isChange manifest = true)
    (hlull : ∀ r ∈ lull, r.received.isChange manifest = false) :
    timeline manifest debounce (before ++ first :: lull) = timeline manifest debounce before ++
      (first.taken, .change) :: (firstAsk? debounce first.taken (first :: lull)).toList := by
  have hlater : ∀ r ∈ first :: lull, first.taken ≤ r.now := fun r hr => hclock.taken_le hr
  obtain ⟨hnow, hlater⟩ := List.forall_mem_cons.mp hlater
  rw [timeline, noted_append, noted_cons_of_receive (receive_of_isChange hfirst) hnow hlull
    (noted_waiting hlull hlater), changeIn_of_isChange hfirst]
  rfl

theorem askCount_lull (hclock : IsOrdered (before ++ first :: lull))
    (hfirst : first.received.isChange manifest = true)
    (hlull : ∀ r ∈ lull, r.received.isChange manifest = false) :
    askCount manifest debounce (before ++ first :: lull) = askCount manifest debounce before +
      (firstAsk? debounce first.taken (first :: lull)).toList.length := by
  rw [askCount_eq, askCount_eq, timeline_lull hclock hfirst hlull, List.countP_append]
  cases h : firstAsk? debounce first.taken (first :: lull) with
  | none => rfl
  | some e =>
    obtain ⟨r, -, rfl⟩ := Option.map_eq_some_iff.mp h
    rfl

/-! ## Bursts -/

/-- After a change and what has come since, further changes that follow closely lead to one rebuild
at most. -/
theorem askCount_burst (hclock : IsOrdered (before ++ first :: lull ++ rest))
    (hfirst : first.received.isChange manifest = true)
    (hlull : ∀ r ∈ lull, r.received.isChange manifest = false)
    (hnear : (first.taken :: changeTimes manifest rest).IsChain fun t u => u < t + debounce) :
    askCount manifest debounce (before ++ first :: lull ++ rest) ≤
      askCount manifest debounce before + 1 := by
  -- The induction is on what is still to come; what has come since the last change is the lull.
  induction rest generalizing before first lull with
  | nil =>
    rw [List.append_nil] at hclock ⊢
    rw [askCount_lull hclock hfirst hlull]
    cases firstAsk? debounce first.taken (first :: lull) with
    | none => exact Nat.le_succ _
    | some e => exact le_rfl
  | cons r rest ih =>
    cases hchange : r.received.isChange manifest with
    | true =>
      rw [changeTimes_cons_of_isChange hchange, List.isChain_cons_cons] at hnear
      obtain ⟨hsoon, hnear⟩ := hnear
      -- Before the next change comes, no round has found the time to be over.
      have hnone : firstAsk? debounce first.taken (first :: lull) = none :=
        firstAsk?_eq_none fun x hx =>
          (hclock.now_le (List.mem_append_right before hx)).trans_lt hsoon
      have hcount : askCount manifest debounce (before ++ first :: lull) =
          askCount manifest debounce before := by
        rw [askCount_lull (hclock.of_prefix (List.prefix_append ..)) hfirst hlull, hnone]
        rfl
      have hrest : askCount manifest debounce (before ++ first :: lull ++ r :: [] ++ rest) ≤
          askCount manifest debounce (before ++ first :: lull) + 1 :=
        ih (by simpa using hclock) hchange (List.forall_mem_nil _) hnear
      simpa [hcount] using hrest
    | false =>
      rw [changeTimes_cons_of_not_isChange hchange] at hnear
      have hrest : askCount manifest debounce (before ++ first :: (lull ++ [r]) ++ rest) ≤
          askCount manifest debounce before + 1 :=
        ih (by simpa using hclock) hfirst
          (by simpa [or_imp, forall_and] using ⟨hlull, hchange⟩) hnear
      simpa using hrest

end

/-! ## Main statement -/

/-- Whatever a watcher receives while its clock does not go back:

* right before a rebuild is asked for, a change has been taken in, at least the debounce time ago;
* of rounds that begin with a change and whose changes come less than the debounce time after one
  another, one asks for a rebuild at most;
* when a change waits after a round that takes none in, it has been waiting since the same time
  before;
* when a change is followed by rounds that take none in, however many they are, the first round that
  finds the debounce time to be over asks for a rebuild, and nothing else is done. -/
theorem debounces_changes (manifest : Path) (debounce : Nat) {rounds : List Round}
    (hclock : IsOrdered rounds) :
    (∀ before now isAccepted after,
      timeline manifest debounce rounds = before ++ (now, .ask isAccepted) :: after →
        ∃ taken, before.getLast? = some (taken, .change) ∧ taken + debounce ≤ now) ∧
    (∀ before first rest, before ++ first :: rest <+: rounds →
      first.received.isChange manifest = true →
      ((changeTimes manifest (first :: rest)).IsChain fun t u => u < t + debounce) →
        askCount manifest debounce (before ++ first :: rest) ≤
          askCount manifest debounce before + 1) ∧
    (∀ past r, Follows past r rounds → r.received.isChange manifest = false → ∀ since,
      (run manifest debounce (past ++ [r])).pendingSince = some since →
        (run manifest debounce past).pendingSince = some since) ∧
    (∀ before first lull, before ++ first :: lull <+: rounds →
      first.received.isChange manifest = true →
      (∀ r ∈ lull, r.received.isChange manifest = false) →
        timeline manifest debounce (before ++ first :: lull) =
          timeline manifest debounce before ++ (first.taken, .change) ::
            (firstAsk? debounce first.taken (first :: lull)).toList) := by
  refine ⟨fun before now isAccepted after => exists_change_of_ask hclock, ?_, ?_, ?_⟩
  · intro before first rest hprefix hfirst hnear
    rw [changeTimes_cons_of_isChange hfirst] at hnear
    -- The burst begins with this change, so nothing before it counts.
    have hcount : askCount manifest debounce (before ++ first :: [] ++ rest) ≤
        askCount manifest debounce before + 1 :=
      askCount_burst (by simpa using hclock.of_prefix hprefix) hfirst (List.forall_mem_nil _) hnear
    simpa using hcount
  · intro past r _ hr since hsince
    rw [run, runFrom_concat] at hsince
    exact pendingSince_step_of_not_isChange hr hsince
  · intro before first lull hprefix hfirst hlull
    exact timeline_lull (hclock.of_prefix hprefix) hfirst hlull

/-- Three changes in a second, with other files and problems between and behind them, lead to one
rebuild, half a second after the last one. -/
theorem burst_rebuilt_once :
    let manifest : Path := ⟨"proj/rivet.toml"⟩
    let notes : Path := ⟨"proj/notes.txt"⟩
    let first : Round := ⟨.event .create [manifest], 10, 10, true⟩
    let more : List Round :=
      [⟨.event .modify [notes], 200, 201, true⟩, ⟨.event .modify [manifest], 450, 450, true⟩,
        ⟨.problem, 500, 500, true⟩]
    let last : Round := ⟨.event .modify [notes, manifest], 949, 949, true⟩
    let look : Round := ⟨.event .access [manifest], 1000, 1000, true⟩
    let lull : List Round :=
      [look, ⟨.event .modify [notes], 1448, 1449, true⟩, ⟨.quiet, 1549, 1549, true⟩]
    let burst := first :: more
    let rounds := burst ++ last :: lull
    IsOrdered rounds ∧
      (∃ taken, [(10, .change), (450, .change), (949, .change)].getLast? =
        some (taken, Deed.change) ∧ taken + 500 ≤ 1449) ∧
      askCount manifest 500 rounds ≤ 1 ∧
      (run manifest 500 (burst ++ [last])).pendingSince = some 949 ∧
      timeline manifest 500 rounds =
        timeline manifest 500 burst ++ [(949, .change), (1449, .ask true)] := by
  intro manifest notes first more last look lull burst rounds
  have hclock : IsOrdered rounds := by decide
  obtain ⟨hrested, hburst, hquiet, hlull⟩ := debounces_changes manifest 500 hclock
  -- The last change is where the lull begins; what it leads to is found by running it.
  have htimeline := hlull burst last lull (List.prefix_refl rounds) (by decide) (by decide)
  have hask : firstAsk? 500 last.taken (last :: lull) = some (1449, .ask true) := by decide
  rw [hask] at htimeline
  refine ⟨hclock, hrested _ 1449 true [] (by decide), ?_, ?_, htimeline⟩
  · exact hburst [] first (more ++ last :: lull) (List.prefix_refl rounds) (by decide) (by decide)
  · exact hquiet (burst ++ [last]) look ⟨lull.tail, rfl⟩ (by decide) 949 (by decide)

end Watch
end Session
end ScriptSession
