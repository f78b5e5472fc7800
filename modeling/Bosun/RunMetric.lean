import Bosun.DryRun
import Bosun.FaultyEntries
import Bosun.Run

/-!
# The metric of a run

`run.rs` and `metric.rs`: whichever way a run ends, it writes a metric file with the number of
files still pending in the journal and with the counters of the replay.  The counters come from
the reports of the phase before the evaluation and of the phase after the apply.

A phase that ends with an error returns no report, and a run that cannot be evaluated, planned or
applied writes zeros.  What the run has really done is told without the reports, by the entries
that its phases reached (`replayedEntries`), and `truthful_iff` says when the file agrees with it.

Version, times and the states of the facts are left out of the snapshot.
-/

namespace Bosun

/-! ## The entries a phase reaches -/

/-- An entry that a phase has been through. -/
structure ReplayedEntry where
  entry : DeferEntry
  fate : Fate
  /-- the journal has carried out what the fate asks for -/
  settled : Bool
deriving DecidableEq

/-- What the metric counts. -/
inductive ReplayResult
  | ok
  | failed
  | clientUnavailable
  | manualClear
deriving DecidableEq, Repr

/-- An entry has been put aside for the operator when it has spent its last attempt and the
    journal has moved its file. -/
def ReplayedEntry.result (p : ReplayedEntry) : Option ReplayResult :=
  match p.fate with
  | .executed => some .ok
  | .unavailable => some .clientUnavailable
  | .healthCheckCancelled | .notReached => none
  | .actionFailed _ | .healthCheckFailed _ =>
    if p.entry.exhausted && p.settled then some .manualClear else some .failed

/-- How many of the entries came to this. -/
def tally (result : ReplayResult) (entries : List ReplayedEntry) : Nat :=
  entries.countP (·.result = some result)

namespace ReplayArgs

variable {W : Type} (args : ReplayArgs W)

/-- The entries of a list up to a cancelled token or a file operation that fails. -/
def reached : List DeferEntry → Fs → W → List ReplayedEntry
  | [], _, _ => []
  | e :: entries, fs, w =>
    let (cancelled, w) := args.platform.isCancelled w
    if cancelled then []
    else
      let (fate, w) := args.outcome e w
      match Journal.fileWork e fate fs with
      | .ok () fs => ⟨e, fate, true⟩ :: reached entries fs w
      | .error _ _ => [⟨e, fate, false⟩]

/-- The entries a phase reaches. -/
def phaseEntries (m : Machine W) : List ReplayedEntry :=
  match m.journal Journal.listSorted with
  | (.error _, _) => []
  | (.ok entries, m) => args.reached entries m.fs m.world

/-- The work on a file fails only when there is some. -/
theorem result_of_fileWork_error {e : DeferEntry} {fate : Fate} {fs fs' : Fs} {err : DeferError}
    (h : Journal.fileWork e fate fs = .error err fs') :
    ∃ result, (⟨e, fate, false⟩ : ReplayedEntry).result = some result := by
  cases fate with
  | executed => exact ⟨.ok, rfl⟩
  | actionFailed message => exact ⟨.failed, by simp [ReplayedEntry.result]⟩
  | healthCheckFailed err => exact ⟨.failed, by simp [ReplayedEntry.result]⟩
  | unavailable => cases h
  | healthCheckCancelled => cases h
  | notReached => cases h

/-- A loop that goes through counts all the entries it has reached; one that does not has
    reached the entry it failed at. -/
theorem replayEntries_reached (entries : List DeferEntry) (report : ReplayReport)
    (m : Machine W) :
    (∃ m', args.replayEntries entries report m = (.ok (report.countAll
        ((args.reached entries m.fs m.world).map fun p => (p.entry, p.fate))), m') ∧
      ∀ p ∈ args.reached entries m.fs m.world, p.settled = true) ∨
    ∃ err m' p result, args.replayEntries entries report m = (.error err, m') ∧
      p ∈ args.reached entries m.fs m.world ∧ p.result = some result := by
  induction entries generalizing report m with
  | nil => exact .inl ⟨m, rfl, by simp [reached]⟩
  | cons e entries ih =>
    rcases hpoll : args.platform.isCancelled m.world with ⟨cancelled, w⟩
    cases cancelled with
    | true =>
      refine .inl ⟨{ m with world := w }, ?_, by simp [reached, hpoll]⟩
      simp [replayEntries, reached, hpoll, ReplayReport.countAll]
    | false =>
      have hentry := args.replayEntry_eq e report { m with world := w }
      unfold settle at hentry
      simp only [Machine.log] at hentry
      cases hwork : Journal.fileWork e (args.outcome e w).1 m.fs with
      | error err fs =>
        rw [hwork] at hentry
        obtain ⟨result, hresult⟩ := result_of_fileWork_error hwork
        have hloop : args.replayEntries (e :: entries) report m = (.error err,
            ⟨fs, (args.outcome e w).2, m.trace ++ (args.outcome e w).1.events e⟩) := by
          simp only [replayEntries, hpoll, Bool.false_eq_true, if_false, hentry]
        have hreached : args.reached (e :: entries) m.fs m.world =
            [⟨e, (args.outcome e w).1, false⟩] := by
          simp [reached, hpoll, hwork]
        refine .inr ⟨err, _, ⟨e, (args.outcome e w).1, false⟩, result, hloop, ?_, hresult⟩
        rw [hreached]
        exact List.mem_singleton_self _
      | ok a fs =>
        rw [hwork] at hentry
        have hreached : args.reached (e :: entries) m.fs m.world =
            ⟨e, (args.outcome e w).1, true⟩ :: args.reached entries fs (args.outcome e w).2 := by
          simp [reached, hpoll, hwork]
        have hloop : args.replayEntries (e :: entries) report m =
            args.replayEntries entries (report.count e (args.outcome e w).1)
              ⟨fs, (args.outcome e w).2, m.trace ++ (args.outcome e w).1.events e⟩ := by
          simp only [replayEntries, hpoll, Bool.false_eq_true, if_false, hentry]
        rw [hreached, hloop]
        rcases ih (report.count e (args.outcome e w).1)
          ⟨fs, (args.outcome e w).2, m.trace ++ (args.outcome e w).1.events e⟩ with
          ⟨m', hrun, hsettled⟩ | ⟨err, m', p, result, hrun, hp, hresult⟩
        · exact .inl ⟨m', hrun, List.forall_mem_cons.mpr ⟨rfl, hsettled⟩⟩
        · exact .inr ⟨err, m', p, result, hrun, List.mem_cons_of_mem _ hp, hresult⟩

/-- The same of a phase; one that cannot list the journal reaches nothing. -/
theorem replay_phaseEntries (m : Machine W) :
    (∃ m', args.replayWithHealthCheck m = (.ok (ReplayReport.zero.countAll
        ((args.phaseEntries m).map fun p => (p.entry, p.fate))), m') ∧
      ∀ p ∈ args.phaseEntries m, p.settled = true) ∨
    ∃ err m', args.replayWithHealthCheck m = (.error err, m') ∧
      (args.phaseEntries m = [] ∨ ∃ p ∈ args.phaseEntries m, ∃ result, p.result = some result) := by
  unfold replayWithHealthCheck phaseEntries
  rcases m.journal Journal.listSorted with ⟨err | entries, m₁⟩
  · exact .inr ⟨err, m₁, rfl, .inl rfl⟩
  · rcases args.replayEntries_reached entries .zero m₁ with h | ⟨err, m', p, result, hrun, hp, hr⟩
    · exact .inl h
    · exact .inr ⟨err, m', hrun, .inr ⟨p, hp, result, hr⟩⟩

end ReplayArgs

/-! ## The counters of the metric -/

def U32.saturatingAdd (a b : U32) : U32 :=
  if h : a.val + b.val < 4294967296 then ⟨a.val + b.val, h⟩ else 4294967295

theorem U32.val_saturatingAdd (a b : U32) :
    (a.saturatingAdd b).val = min (a.val + b.val) 4294967295 := by
  unfold saturatingAdd
  split
  · rename_i h
    show a.val + b.val = _
    omega
  · rename_i h
    show 4294967295 = _
    omega

structure DeferReplayStats where
  executedOk : U32
  executedFailed : U32
  clientUnavailable : U32
  promotedManualClear : U32
deriving DecidableEq, Repr

namespace DeferReplayStats

def zero : DeferReplayStats := ⟨0, 0, 0, 0⟩

def get (stats : DeferReplayStats) : ReplayResult → U32
  | .ok => stats.executedOk
  | .failed => stats.executedFailed
  | .clientUnavailable => stats.clientUnavailable
  | .manualClear => stats.promotedManualClear

/-- `accumulate_replay_stats` -/
def accumulate (stats : DeferReplayStats) (report : ReplayReport) : DeferReplayStats where
  executedOk := stats.executedOk.saturatingAdd report.executed
  executedFailed :=
    (stats.executedFailed.saturatingAdd report.failed).saturatingAdd report.healthCheckFailed
  clientUnavailable := stats.clientUnavailable.saturatingAdd report.skippedUnavailable
  promotedManualClear := stats.promotedManualClear.saturatingAdd report.promotedToManualClear

end DeferReplayStats

theorem tally_eq_countP {entries : List ReplayedEntry} (hsettled : ∀ p ∈ entries, p.settled = true)
    (result : ReplayResult) (counted : DeferEntry × Fate → Bool)
    (h : ∀ e fate, (⟨e, fate, true⟩ : ReplayedEntry).result = some result ↔
      counted (e, fate) = true) :
    tally result entries = (entries.map fun p => (p.entry, p.fate)).countP counted := by
  rw [tally, List.countP_map]
  apply List.countP_congr
  rintro ⟨e, fate, settled⟩ hp
  obtain rfl : settled = true := hsettled _ hp
  rw [decide_eq_true_iff, h]
  rfl

/-- The two counters of failures together. -/
theorem countP_failed (fates : List (DeferEntry × Fate)) :
    fates.countP (fun p => p.2.isFailure && !p.1.exhausted) =
      fates.countP (fun p => p.2.isActionFailed && !p.1.exhausted) +
      fates.countP (fun p => p.2.isHealthCheckFailed && !p.1.exhausted) := by
  induction fates with
  | nil => rfl
  | cons p fates ih =>
    obtain ⟨e, fate⟩ := p
    simp only [List.countP_cons, ih]
    cases fate <;> cases e.exhausted <;>
      simp [Fate.isFailure, Fate.isActionFailed, Fate.isHealthCheckFailed] <;> omega

/-- What the report of a phase adds to the metric. -/
theorem DeferReplayStats.get_accumulate (stats : DeferReplayStats) {entries : List ReplayedEntry}
    (hsettled : ∀ p ∈ entries, p.settled = true) (result : ReplayResult) :
    ((stats.accumulate (ReplayReport.zero.countAll
      (entries.map fun p => (p.entry, p.fate)))).get result).val =
      min ((stats.get result).val + tally result entries) 4294967295 := by
  have hcounts := ReplayReport.counts_countAll (entries.map fun p => (p.entry, p.fate))
  cases result with
  | ok =>
    rw [tally_eq_countP hsettled .ok (fun p => p.2.isExecuted) (by
      intro e fate
      cases fate <;> cases hx : e.exhausted <;> simp [ReplayedEntry.result, Fate.isExecuted, hx])]
    show (U32.saturatingAdd _ _).val = _
    rw [U32.val_saturatingAdd, hcounts.executed]
    simp only [get]
    omega
  | failed =>
    rw [tally_eq_countP hsettled .failed (fun p => p.2.isFailure && !p.1.exhausted) (by
      intro e fate
      cases fate <;> cases hx : e.exhausted <;> simp [ReplayedEntry.result, Fate.isFailure, hx]),
      countP_failed]
    show (U32.saturatingAdd (U32.saturatingAdd _ _) _).val = _
    rw [U32.val_saturatingAdd, U32.val_saturatingAdd, hcounts.failed, hcounts.healthCheckFailed]
    simp only [get]
    omega
  | clientUnavailable =>
    rw [tally_eq_countP hsettled .clientUnavailable (fun p => p.2.isUnavailable) (by
      intro e fate
      cases fate <;> cases hx : e.exhausted <;>
        simp [ReplayedEntry.result, Fate.isUnavailable, hx])]
    show (U32.saturatingAdd _ _).val = _
    rw [U32.val_saturatingAdd, hcounts.skippedUnavailable]
    simp only [get]
    omega
  | manualClear =>
    rw [tally_eq_countP hsettled .manualClear (fun p => p.2.isFailure && p.1.exhausted) (by
      intro e fate
      cases fate <;> cases hx : e.exhausted <;> simp [ReplayedEntry.result, Fate.isFailure, hx])]
    show (U32.saturatingAdd _ _).val = _
    rw [U32.val_saturatingAdd, hcounts.promotedToManualClear]
    simp only [get]
    omega

/-! ## Counting what is pending -/

/-- A name of the directory; `none` is a name with the extension of a pending entry that is not
    valid UTF-8.  Every reader of the journal passes over such a file. -/
abbrev DirName := Option String

def DirName.isDeferred : DirName → Bool
  | some name => Journal.isDeferred name
  | none => true

/-- The order in which `read_dir` gives the names. -/
structure ReadDir where
  names : List DirName → List DirName
  perm : ∀ listing, (names listing).Perm listing

/-- What stands in the directory, with so many files that no reader looks at. -/
def Dir.listing (dir : Dir) (strays : Nat) : List DirName :=
  dir.keys.map some ++ List.replicate strays none

/-- The number of `.deferred` files. -/
def Dir.deferredFiles (dir : Dir) (strays : Nat) : Nat :=
  (dir.listing strays).countP DirName.isDeferred

namespace ReadDir

/-- `dir.flatten()`: an error is passed over, and there is nothing behind it. -/
def flatten (fault : Nat → Option IoError) : Nat → List DirName → List DirName
  | _, [] => []
  | ops, name :: names =>
    match fault ops with
    | some _ => []
    | none => name :: flatten fault (ops + 1) names

/-- The names behind the first error. -/
def unread (fault : Nat → Option IoError) : Nat → List DirName → List DirName
  | _, [] => []
  | ops, name :: names =>
    match fault ops with
    | some _ => name :: names
    | none => unread fault (ops + 1) names

theorem flatten_append_unread (fault : Nat → Option IoError) (ops : Nat) (names : List DirName) :
    flatten fault ops names ++ unread fault ops names = names := by
  induction names generalizing ops with
  | nil => rfl
  | cons name names ih =>
    unfold flatten unread
    cases fault ops with
    | some err => rfl
    | none => exact congrArg (name :: ·) (ih (ops + 1))

variable (readDir : ReadDir) (strays : Nat) (fs : Fs)

/-- `count_pending_defers` -/
def countPendingDefers : U32 :=
  match fs.fault fs.ops with
  | some _ => 0
  | none =>
    (flatten fs.fault (fs.ops + 1) (readDir.names (fs.dir.listing strays))).foldl
      (fun n name => if name.isDeferred then n.saturatingSucc else n) 0

/-- The names that the count does not come to. -/
def missed : List DirName :=
  match fs.fault fs.ops with
  | some _ => fs.dir.listing strays
  | none => unread fs.fault (fs.ops + 1) (readDir.names (fs.dir.listing strays))

theorem val_foldl_isDeferred (n : U32) (names : List DirName) :
    (names.foldl (fun n name => if name.isDeferred then n.saturatingSucc else n) n).val =
      min (n.val + names.countP DirName.isDeferred) 4294967295 := by
  induction names generalizing n with
  | nil =>
    have hn := n.isLt
    simp only [List.foldl_nil, List.countP_nil]
    omega
  | cons name names ih =>
    rw [List.foldl_cons, ih, List.countP_cons]
    cases name.isDeferred with
    | true =>
      simp only [if_true, U32.val_saturatingSucc]
      omega
    | false => simp

/-- The count and what it misses make up the directory. -/
theorem val_countPendingDefers : ∃ n, (readDir.countPendingDefers strays fs).val =
    min n 4294967295 ∧
    n + (readDir.missed strays fs).countP DirName.isDeferred = fs.dir.deferredFiles strays := by
  unfold countPendingDefers missed
  cases fs.fault fs.ops with
  | some err => exact ⟨0, rfl, Nat.zero_add _⟩
  | none =>
    refine ⟨_, (val_foldl_isDeferred 0 _).trans (by rw [Fin.val_zero, Nat.zero_add]), ?_⟩
    rw [← List.countP_append, flatten_append_unread]
    exact (readDir.perm _).countP_eq _

/-- The count is right when nothing pending is missed and a `u32` holds it. -/
theorem countPendingDefers_exact_iff :
    (readDir.countPendingDefers strays fs).val = fs.dir.deferredFiles strays ↔
      (∀ name ∈ readDir.missed strays fs, name.isDeferred = false) ∧
      fs.dir.deferredFiles strays ≤ 4294967295 := by
  obtain ⟨n, hcount, hall⟩ := readDir.val_countPendingDefers strays fs
  have hmissed : (∀ name ∈ readDir.missed strays fs, name.isDeferred = false) ↔
      (readDir.missed strays fs).countP DirName.isDeferred = 0 := by
    simp [List.countP_eq_zero]
  rw [hcount, hmissed]
  omega

end ReadDir

/-! ## The run and its snapshot -/

structure MetricSnapshot where
  exitCode : Nat
  resourcesChanged : Nat
  resourcesUnchanged : Nat
  resourcesFailed : Nat
  resourcesDeferred : Nat
  resourcesInterrupted : Nat
  defersPending : U32
  defersReplayStats : DeferReplayStats
  /-- at most two -/
  defersReplayRuns : Nat
  runrReachable : Option Bool
  systemdReachable : Option Bool
deriving DecidableEq, Repr

/-- `write_failure_metric` -/
def MetricSnapshot.failure (exit : Nat) : MetricSnapshot where
  exitCode := exit
  resourcesChanged := 0
  resourcesUnchanged := 0
  resourcesFailed := 0
  resourcesDeferred := 0
  resourcesInterrupted := 0
  defersPending := 0
  defersReplayStats := .zero
  defersReplayRuns := 0
  runrReachable := none
  systemdReachable := none

/-- The tuple that a plan or an apply comes to. -/
structure RunCounts where
  exit : Nat
  changed : Nat
  unchanged : Nat
  failed : Nat
  deferred : Nat
  interrupted : Nat

/-- `bosun run`, from the opened journal on. -/
structure CliArgs (P V : Type) extends RunArgs P V where
  dryRun : Bool
  /-- the init system asks for a connection to systemd, which may fail -/
  needsSystemd : Bool
  strays : Nat
  readDir : ReadDir

namespace CliArgs

variable {P V : Type} (args : CliArgs P V)

/-- `maybe_run_replay_phase` -/
def maybeRunReplayPhase (m : Machine (World V)) : Option ReplayReport × Machine (World V) :=
  if args.dryRun then (none, m)
  else
    match args.backends.replayArgs.replayWithHealthCheck m with
    | (.ok report, m) => (some report, m)
    | (.error _, m) => (none, m)

/-- Plan or apply; `none` when that fails. -/
def planOrApply (registry : Registry P) (m : Machine (World V)) :
    Option RunCounts × Machine (World V) :=
  if args.dryRun then
    match registry.topologicalOrder args.hashIter with
    | .error _ => (none, m)
    | .ok order =>
      let (report, state) := (args.applyArgs registry).planLoop order ⟨[], .zero, []⟩
        (RunArgs.applyCtx m).state
      (some ⟨if report.hasDrift then DRY_RUN_DRIFT else SUCCESS,
        report.summary.add + report.summary.update, report.summary.noChange,
        report.errors.length, 0, 0⟩, state.machine)
  else
    match (args.applyArgs registry).apply args.hashIter (RunArgs.applyCtx m) with
    | .error _ => (none, m)
    | .ok (report, ctx) =>
      (some ⟨report.exitCode, report.summary.changed, report.summary.noChange,
        report.summary.failed, report.summary.deferred, report.summary.interrupted⟩,
        ctx.state.machine)

/-- Between the two phases. -/
def perform (m : Machine (World V)) : Option RunCounts × Machine (World V) :=
  let (answer, v) := args.evaluate m.world.outside
  let m := { m with world := { m.world with outside := v } }
  match answer with
  | .error _ => (none, m)
  | .ok registry => args.planOrApply registry m

def accumulate (totals : Nat × DeferReplayStats) : Option ReplayReport → Nat × DeferReplayStats
  | none => totals
  | some report => (totals.1 + 1, totals.2.accumulate report)

/-- What the run writes into the metric file, and what it leaves behind. -/
def execute (m : Machine (World V)) : MetricSnapshot × Machine (World V) :=
  let (report, m) := args.maybeRunReplayPhase m
  let totals := accumulate (0, .zero) report
  match args.perform m with
  | (none, m) => (.failure EVAL_ERROR, m)
  | (some counts, m) =>
    let (report, m) := args.maybeRunReplayPhase m
    let totals := accumulate totals report
    ({ exitCode := counts.exit
       resourcesChanged := counts.changed
       resourcesUnchanged := counts.unchanged
       resourcesFailed := counts.failed
       resourcesDeferred := counts.deferred
       resourcesInterrupted := counts.interrupted
       defersPending := args.readDir.countPendingDefers args.strays m.fs
       defersReplayStats := totals.2
       defersReplayRuns := totals.1
       runrReachable := args.services.runr.map fun _ => true
       systemdReachable := if args.needsSystemd then some args.services.systemd.isSome else none },
      m)

/-- A run that replays is the run of which the journal is followed elsewhere. -/
theorem execute_snd (m : Machine (World V)) (hdry : args.dryRun = false) :
    (args.execute m).2 = args.finish m := by
  have hphase : ∀ m, (args.maybeRunReplayPhase m).2 = args.replay m := by
    intro m
    simp only [maybeRunReplayPhase, hdry, Bool.false_eq_true, if_false, RunArgs.replay]
    rcases args.backends.replayArgs.replayWithHealthCheck m with ⟨_ | _, m'⟩ <;> rfl
  simp only [execute, perform, planOrApply, hphase, hdry, Bool.false_eq_true, if_false,
    RunArgs.finish, RunArgs.prepare]
  cases (args.evaluate (args.replay m).world.outside).1 with
  | error err => rfl
  | ok registry =>
    dsimp only
    rcases (args.applyArgs registry).apply args.hashIter _ with _ | ⟨report, ctx⟩
    · rfl
    · rfl

/-! ## What there is to tell -/

/-- The entries that a phase of this run reaches. -/
def phaseEntries (m : Machine (World V)) : List ReplayedEntry :=
  if args.dryRun then [] else args.backends.replayArgs.phaseEntries m

/-- All entries that the run reaches; the second phase is for runs that came so far. -/
def replayedEntries (m : Machine (World V)) : List ReplayedEntry :=
  args.phaseEntries m ++
    match args.perform (args.maybeRunReplayPhase m).2 with
    | (none, _) => []
    | (some _, m') => args.phaseEntries m'

/-- The snapshot agrees with the journal and with what the phases have done. -/
structure Truthful (m : Machine (World V)) : Prop where
  pending : (args.execute m).1.defersPending.val =
    (args.execute m).2.fs.dir.deferredFiles args.strays
  counters : ∀ result, ((args.execute m).1.defersReplayStats.get result).val =
    tally result (args.replayedEntries m)

/-- The phase comes to its end, unless it does not come to any entry. -/
def Counted (m : Machine (World V)) : Prop :=
  (args.maybeRunReplayPhase m).1.isSome = true ∨ args.phaseEntries m = []

/-- A run that was cut short has nothing to tell. -/
structure Blank (m m' : Machine (World V)) : Prop where
  pending : m'.fs.dir.deferredFiles args.strays = 0
  entries : ∀ p ∈ args.phaseEntries m, p.result = none

/-- A complete run, with its phases at `m` and at `m'`, loses nothing on the way to its
    snapshot. -/
structure Reported (m m' : Machine (World V)) : Prop where
  pre : args.Counted m
  post : args.Counted m'
  read : ∀ name ∈ args.readDir.missed args.strays (args.maybeRunReplayPhase m').2.fs,
    name.isDeferred = false
  pendingFits : (args.maybeRunReplayPhase m').2.fs.dir.deferredFiles args.strays ≤ 4294967295
  countersFit : ∀ result,
    tally result (args.phaseEntries m) + tally result (args.phaseEntries m') ≤ 4294967295

def NothingLost (m : Machine (World V)) : Prop :=
  match args.perform (args.maybeRunReplayPhase m).2 with
  | (none, m') => args.Blank m m'
  | (some _, m') => args.Reported m m'

/-- What a phase adds to the counters. -/
def counted (m : Machine (World V)) (result : ReplayResult) : Nat :=
  if (args.maybeRunReplayPhase m).1.isSome then tally result (args.phaseEntries m) else 0

theorem val_accumulate (totals : Nat × DeferReplayStats) (m : Machine (World V))
    (result : ReplayResult) :
    ((accumulate totals (args.maybeRunReplayPhase m).1).2.get result).val =
      min ((totals.2.get result).val + args.counted m result) 4294967295 := by
  have hbound := (totals.2.get result).isLt
  unfold counted phaseEntries maybeRunReplayPhase
  cases args.dryRun with
  | true =>
    simp only [if_true, Option.isSome_none, Bool.false_eq_true, if_false, accumulate]
    omega
  | false =>
    simp only [Bool.false_eq_true, if_false]
    rcases args.backends.replayArgs.replay_phaseEntries m with
      ⟨m', hrun, hsettled⟩ | ⟨err, m', hrun, -⟩
    · rw [hrun]
      exact totals.2.get_accumulate hsettled result
    · rw [hrun]
      simp only [Option.isSome_none, Bool.false_eq_true, if_false, accumulate]
      omega

/-- A phase that is not counted has lost the entry it failed at. -/
theorem counted_iff (m : Machine (World V)) : args.Counted m ↔
    ∀ result, args.counted m result = tally result (args.phaseEntries m) := by
  unfold counted Counted
  cases hsome : (args.maybeRunReplayPhase m).1.isSome with
  | true => simp
  | false =>
    simp only [Bool.false_eq_true, false_or, if_false]
    constructor
    · intro hnone result
      rw [hnone]
      rfl
    · intro hzero
      unfold maybeRunReplayPhase at hsome
      unfold phaseEntries at hzero ⊢
      cases hdry : args.dryRun with
      | true => rfl
      | false =>
        simp only [hdry, Bool.false_eq_true, if_false] at hsome hzero ⊢
        rcases args.backends.replayArgs.replay_phaseEntries m with
          ⟨m', hrun, -⟩ | ⟨err, m', -, hnone | ⟨p, hp, result, hresult⟩⟩
        · rw [hrun] at hsome
          cases hsome
        · exact hnone
        · have hpos : 0 < tally result (args.backends.replayArgs.phaseEntries m) :=
            List.countP_pos_iff.mpr ⟨p, hp, by rw [hresult, decide_eq_true rfl]⟩
          exact absurd (hzero result) (by omega)

theorem counted_le (m : Machine (World V)) (result : ReplayResult) :
    args.counted m result ≤ tally result (args.phaseEntries m) := by
  unfold counted
  split <;> omega

theorem result_none_iff {entries : List ReplayedEntry} : (∀ p ∈ entries, p.result = none) ↔
    ∀ result, tally result entries = 0 := by
  constructor
  · intro h result
    refine List.countP_eq_zero.mpr fun p hp => ?_
    simp [h p hp]
  · intro h p hp
    by_contra hsome
    obtain ⟨result, hresult⟩ := Option.ne_none_iff_exists'.mp hsome
    have hp' := List.countP_eq_zero.mp (h result) p hp
    simp [hresult] at hp'

theorem val_get_zero (result : ReplayResult) : (DeferReplayStats.zero.get result).val = 0 := by
  cases result <;> rfl

theorem truthful_of_cut {m m' : Machine (World V)}
    (hperform : args.perform (args.maybeRunReplayPhase m).2 = (none, m')) :
    args.Truthful m ↔ args.Blank m m' := by
  have hexecute : args.execute m = (.failure EVAL_ERROR, m') := by
    simp only [execute, hperform]
  have hentries : args.replayedEntries m = args.phaseEntries m := by
    simp only [replayedEntries, hperform, List.append_nil]
  constructor
  · intro h
    have hpending := h.pending
    have hcounters := h.counters
    rw [hexecute] at hpending hcounters
    refine ⟨hpending.symm, result_none_iff.mpr fun result => ?_⟩
    rw [← hentries, ← hcounters result]
    exact val_get_zero result
  · intro h
    refine ⟨?_, fun result => ?_⟩
    · rw [hexecute]
      exact h.pending.symm
    · rw [hexecute, hentries, result_none_iff.mp h.entries result]
      exact val_get_zero result

theorem truthful_of_complete {m m' : Machine (World V)} {counts : RunCounts}
    (hperform : args.perform (args.maybeRunReplayPhase m).2 = (some counts, m')) :
    args.Truthful m ↔ args.Reported m m' := by
  have hcount := args.readDir.countPendingDefers_exact_iff args.strays
    (args.maybeRunReplayPhase m').2.fs
  have hpending : (args.execute m).1.defersPending =
      args.readDir.countPendingDefers args.strays (args.maybeRunReplayPhase m').2.fs := by
    simp only [execute, hperform]
  have hend : (args.execute m).2 = (args.maybeRunReplayPhase m').2 := by
    simp only [execute, hperform]
  have hcounter : ∀ result, ((args.execute m).1.defersReplayStats.get result).val =
      min (args.counted m result + args.counted m' result) 4294967295 := by
    intro result
    simp only [execute, hperform]
    rw [args.val_accumulate _ m', args.val_accumulate (0, .zero) m, val_get_zero]
    omega
  have hentries : ∀ result, tally result (args.replayedEntries m) =
      tally result (args.phaseEntries m) + tally result (args.phaseEntries m') := by
    intro result
    simp only [replayedEntries, hperform]
    exact List.countP_append
  rw [← hpending, ← hend] at hcount
  constructor
  · intro h
    obtain ⟨hread, hfits⟩ := hcount.mp h.pending
    -- no phase counts more than it has reached, so none can make up for another
    have heach : ∀ result, args.counted m result = tally result (args.phaseEntries m) ∧
        args.counted m' result = tally result (args.phaseEntries m') ∧
        tally result (args.phaseEntries m) + tally result (args.phaseEntries m') ≤
          4294967295 := by
      intro result
      have htrue := h.counters result
      rw [hcounter, hentries] at htrue
      have hle := args.counted_le m result
      have hle' := args.counted_le m' result
      omega
    rw [hend] at hread hfits
    exact ⟨(args.counted_iff m).mpr fun result => (heach result).1,
      (args.counted_iff m').mpr fun result => (heach result).2.1, hread, hfits,
      fun result => (heach result).2.2⟩
  · intro h
    have hread := h.read
    have hfits := h.pendingFits
    rw [← hend] at hread hfits
    refine ⟨hcount.mpr ⟨hread, hfits⟩, fun result => ?_⟩
    have hfit := h.countersFit result
    rw [hcounter, hentries, (args.counted_iff m).mp h.pre result,
      (args.counted_iff m').mp h.post result]
    omega

/-- **The metric of a run tells the truth** exactly if the run was cut short with nothing to
    tell, or was complete and lost nothing on the way. -/
theorem truthful_iff (m : Machine (World V)) : args.Truthful m ↔ args.NothingLost m := by
  unfold NothingLost
  rcases hperform : args.perform (args.maybeRunReplayPhase m).2 with ⟨_ | counts, m'⟩
  · exact args.truthful_of_cut hperform
  · exact args.truthful_of_complete hperform

end CliArgs

/-! ### A manifest that cannot be evaluated -/

def brokenManifest : CliArgs ServiceSpec Nat where
  toRunArgs := { RunArgs.plain none .empty with
    evaluate := fun v => (.error "manifest.star: undefined: inv", v) }
  dryRun := false
  needsSystemd := true
  strays := 0
  readDir := ⟨id, fun _ => .rfl⟩

/-- The restart of nginx waits for systemd, which does not answer. -/
def waitingHost : Machine (World Nat) :=
  ⟨{ Journal.emptyFs with
      dir := (∅ : Dir).insert (Journal.plainEntry "systemd" .restart "nginx").filename
        (.entry (Journal.plainEntry "systemd" .restart "nginx")) }, ⟨0, []⟩, []⟩

/-- The metric says that nothing waits, and that nobody has tried. -/
theorem waiting_restart_not_reported :
    (brokenManifest.execute waitingHost).1.defersPending = 0 ∧
    (brokenManifest.execute waitingHost).2.fs.dir.deferredFiles 0 = 1 ∧
    tally .clientUnavailable (brokenManifest.replayedEntries waitingHost) = 1 ∧
    ¬ brokenManifest.Truthful waitingHost := by
  have hpending : (brokenManifest.execute waitingHost).1.defersPending = 0 := by decide +kernel
  have hfiles : (brokenManifest.execute waitingHost).2.fs.dir.deferredFiles 0 = 1 := by
    decide +kernel
  refine ⟨hpending, hfiles, by decide +kernel, ?_⟩
  intro h
  have htrue := h.pending
  rw [hpending, show brokenManifest.strays = 0 from rfl, hfiles] at htrue
  cases htrue

end Bosun
