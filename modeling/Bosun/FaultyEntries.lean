import Bosun.ReplayFaults

/-!
# Entries whose files fail in a replay

A cycle hands one entry after the other to the client and then deletes, rewrites or
renames the file of the entry.  What client and health check answer does not depend
on the journal, so what comes of each entry can be told without it (`outcomes`);
what its file then has to go through is `fileWork`.

The first file operation that fails ends the cycle.  The entries behind it are not
dispatched, and there is no report of those before it (`unblocked_iff`).
-/

namespace Bosun

/-- What the journal does about an entry with this fate. -/
def Journal.fileWork (e : DeferEntry) : Fate → FsM Unit
  | .executed => remove e
  | .actionFailed _ | .healthCheckFailed _ => do
    let updated ← bumpAttempt e
    if e.exhausted then moveToManualClear updated
  | .unavailable | .healthCheckCancelled | .notReached => pure ()

/-- No file operation fails. -/
def FilesHold : List (DeferEntry × Fate) → Fs → Prop
  | [], _ => True
  | (e, fate) :: rest, fs => ∃ fs', Journal.fileWork e fate fs = .ok () fs' ∧ FilesHold rest fs'

namespace ReplayArgs

variable {W : Type} (args : ReplayArgs W)

/-! ## What client and health check say -/

/-- The outcomes of the entries, one after the other. -/
def outcomes : List DeferEntry → W → List (DeferEntry × Fate)
  | [], _ => []
  | e :: entries, w =>
    let (fate, w) := args.outcome e (args.platform.isCancelled w).2
    (e, fate) :: outcomes entries w

/-- The token has not fired at any entry. -/
def Uncancelled : List DeferEntry → W → Prop
  | [], _ => True
  | e :: entries, w => (args.platform.isCancelled w).1 = false ∧
      Uncancelled entries (args.outcome e (args.platform.isCancelled w).2).2

/-! ## One entry -/

/-- Once the outcome is known, only the file is left to be dealt with. -/
def settle (e : DeferEntry) (fate : Fate) (report : ReplayReport) (m : Machine W) :
    Except DeferError ReplayReport × Machine W :=
  match Journal.fileWork e fate m.fs with
  | .ok () fs => (.ok (report.count e fate), { m with fs := fs })
  | .error err fs => (.error err, { m with fs := fs })

theorem removeExecuted_eq (e : DeferEntry) (report : ReplayReport) (m : Machine W) :
    removeExecuted e report m = settle e .executed report m := by
  unfold removeExecuted Machine.journal settle
  simp only [Journal.fileWork]
  cases Journal.remove e m.fs <;> rfl

theorem spendAttempt_eq (count : ReplayReport → ReplayReport) (e : DeferEntry) (fate : Fate)
    (report : ReplayReport) (m : Machine W) (hfate : fate.isFailure = true)
    (hcount : report.count e fate = if e.exhausted then
      { report with promotedToManualClear := report.promotedToManualClear.saturatingSucc }
      else count report) :
    spendAttempt count e report m = settle e fate report m := by
  have hwork : Journal.fileWork e fate = (do
      let updated ← Journal.bumpAttempt e
      if e.exhausted then Journal.moveToManualClear updated) := by
    cases fate <;> simp [Fate.isFailure] at hfate <;> rfl
  have hbumped := Journal.bumpAttempt_triple m.fs.dir e m.fs rfl
  unfold spendAttempt Machine.journal settle
  rw [hwork, hcount]
  simp only [bind, EStateM.bind]
  cases hbump : Journal.bumpAttempt e m.fs with
  | error err fs => rfl
  | ok updated fs =>
    rw [hbump] at hbumped
    obtain rfl := hbumped.1
    by_cases hexhausted : e.exhausted = true
    · have hmax : e.bumped.maxAttempts ≤ e.bumped.attemptCount := by
        simpa [DeferEntry.exhausted] using hexhausted
      simp only [if_pos hmax, if_pos hexhausted]
      cases Journal.moveToManualClear e.bumped fs <;> rfl
    · have hmax : ¬ e.bumped.maxAttempts ≤ e.bumped.attemptCount := by
        simpa [DeferEntry.exhausted] using hexhausted
      simp only [if_neg hmax, if_neg hexhausted]
      rfl

theorem checkHealth_eq (e : DeferEntry) (report : ReplayReport) {m : Machine W}
    {check : HealthCheck} (hcheck : e.healthCheck = some check)
    {verdict : Except HealthCheckError Unit} {w : W}
    (hrunner : args.healthCheckRunner check m.world = (verdict, w)) :
    args.checkHealth e report m = settle e (.ofVerdict verdict) report
      ({ m with world := w }.log [.healthChecked e verdict]) := by
  unfold checkHealth
  simp only [hcheck, hrunner]
  match verdict with
  | .ok () => exact removeExecuted_eq e report _
  | .error .cancelled => rfl
  | .error (.cmdExitNonZero _ _ _) => exact spendAttempt_eq _ e _ report _ rfl rfl
  | .error (.cmdTimeout _ _) => exact spendAttempt_eq _ e _ report _ rfl rfl
  | .error (.cmdSpawnError _) => exact spendAttempt_eq _ e _ report _ rfl rfl
  | .error (.urlBadStatus _ _ _ _) => exact spendAttempt_eq _ e _ report _ rfl rfl
  | .error (.urlTransport _ _ _) => exact spendAttempt_eq _ e _ report _ rfl rfl

/-- **One entry is its outcome and the work on its file.** -/
theorem replayEntry_eq (e : DeferEntry) (report : ReplayReport) (m : Machine W) :
    args.replayEntry e report m = settle e (args.outcome e m.world).1 report
      ({ m with world := (args.outcome e m.world).2 }.log
        ((args.outcome e m.world).1.events e)) := by
  rcases hclient : args.client e m.world with ⟨answer, w⟩
  unfold replayEntry
  rcases answer with (_ | message) | _
  · have houtcome : args.outcome e m.world = (.unavailable, w) := by simp only [outcome, hclient]
    simp only [hclient, houtcome]
    rfl
  · have houtcome : args.outcome e m.world = (.actionFailed message, w) := by
      simp only [outcome, hclient]
    simp only [hclient, houtcome]
    exact spendAttempt_eq countFailed e _ report _ rfl rfl
  · cases hcheck : e.healthCheck with
    | none =>
      have houtcome : args.outcome e m.world = (.executed, w) := by
        simp only [outcome, hclient, hcheck]
      simp only [hclient, houtcome, checkHealth, hcheck, Fate.events]
      exact removeExecuted_eq e report _
    | some check =>
      rcases hrunner : args.healthCheckRunner check w with ⟨verdict, w'⟩
      have houtcome : args.outcome e m.world = (.ofVerdict verdict, w') := by
        simp only [outcome, hclient, hcheck, hrunner]
      have hevents : (Fate.ofVerdict verdict).events e =
          [.dispatched e (.ok ()), .healthChecked e verdict] := by
        cases verdict with
        | ok _ => simp [Fate.ofVerdict, Fate.events, hcheck]
        | error err => cases err <;> rfl
      simp only [hclient, houtcome, hevents]
      rw [args.checkHealth_eq e report hcheck hrunner, Machine.log, Machine.log, Machine.log,
        List.append_assoc]
      rfl

/-! ## The cycle -/

/-- The loop goes through as long as the file operations do. -/
theorem replayEntries_of_filesHold (entries : List DeferEntry) (report : ReplayReport)
    (m : Machine W) (huncancelled : args.Uncancelled entries m.world)
    (hfiles : FilesHold (args.outcomes entries m.world) m.fs) :
    ∃ m', args.replayEntries entries report m =
        (.ok (report.countAll (args.outcomes entries m.world)), m') ∧
      m'.trace = m.trace ++ (args.outcomes entries m.world).flatMap fun p => p.2.events p.1 := by
  induction entries generalizing report m with
  | nil => exact ⟨m, rfl, by simp [outcomes]⟩
  | cons e entries ih =>
    obtain ⟨hcancelled, huncancelled⟩ := huncancelled
    simp only [outcomes, FilesHold] at hfiles
    rcases hpoll : args.platform.isCancelled m.world with ⟨cancelled, w⟩
    rw [hpoll] at hcancelled huncancelled hfiles
    obtain rfl : cancelled = false := hcancelled
    obtain ⟨fs, hwork, hfiles⟩ := hfiles
    obtain ⟨m', hrun, htrace⟩ := ih (report.count e (args.outcome e w).1)
      ⟨fs, (args.outcome e w).2, m.trace ++ (args.outcome e w).1.events e⟩ huncancelled hfiles
    have hentry : args.replayEntry e report { m with world := w } =
        (.ok (report.count e (args.outcome e w).1),
          ⟨fs, (args.outcome e w).2, m.trace ++ (args.outcome e w).1.events e⟩) := by
      rw [replayEntry_eq]
      unfold settle
      simp only [Machine.log, hwork]
    refine ⟨m', ?_, ?_⟩
    · unfold replayEntries outcomes
      simp only [hpoll, Bool.false_eq_true, if_false, hentry]
      exact hrun
    · rw [htrace, List.append_assoc]
      simp only [outcomes, hpoll, List.flatMap_cons]

/-- When a file operation fails, that is the end of it. -/
theorem replayEntries_of_not_filesHold (entries : List DeferEntry) (report : ReplayReport)
    (m : Machine W) (huncancelled : args.Uncancelled entries m.world)
    (hfiles : ¬ FilesHold (args.outcomes entries m.world) m.fs) :
    ∃ err m', args.replayEntries entries report m = (.error err, m') := by
  induction entries generalizing report m with
  | nil => exact absurd trivial hfiles
  | cons e entries ih =>
    obtain ⟨hcancelled, huncancelled⟩ := huncancelled
    rcases hpoll : args.platform.isCancelled m.world with ⟨cancelled, w⟩
    simp only [outcomes, FilesHold] at hfiles
    rw [hpoll] at hcancelled huncancelled hfiles
    obtain rfl : cancelled = false := hcancelled
    unfold replayEntries
    simp only [hpoll, Bool.false_eq_true, if_false]
    have hentry := args.replayEntry_eq e report { m with world := w }
    unfold settle at hentry
    simp only [Machine.log] at hentry
    cases hwork : Journal.fileWork e (args.outcome e w).1 m.fs with
    | error err fs =>
      rw [hwork] at hentry
      exact ⟨err, _, by rw [hentry]⟩
    | ok a fs =>
      rw [hwork] at hentry
      obtain ⟨err, m', hrun⟩ := ih (report.count e (args.outcome e w).1)
        ⟨fs, (args.outcome e w).2, m.trace ++ (args.outcome e w).1.events e⟩ huncancelled
        fun hrest => hfiles ⟨fs, hwork, hrest⟩
      exact ⟨err, m', by rw [hentry]; exact hrun⟩

theorem dispatchedEntries_outcomes (entries : List DeferEntry) (w : W) :
    dispatchedEntries ((args.outcomes entries w).flatMap fun p => p.2.events p.1) = entries := by
  induction entries generalizing w with
  | nil => rfl
  | cons e entries ih =>
    have hhead := dispatchedEntries_events e
      (args.outcome e (args.platform.isCancelled w).2).1
    rw [if_neg (args.outcome_ne_notReached e _)] at hhead
    unfold dispatchedEntries at hhead ih ⊢
    simp only [outcomes, List.flatMap_cons, List.filterMap_append, hhead, ih]
    rfl

/-- Every pending entry was dispatched once, and the report counts those that were
    executed. -/
def Unblocked (m : Machine W) : Prop :=
  ∃ report m' events, args.replayWithHealthCheck m = (.ok report, m') ∧
    m'.trace = m.trace ++ events ∧ dispatchedEntries events = Journal.pending m.fs.dir ∧
    report.executed.val = min
      ((args.outcomes (Journal.pending m.fs.dir) m.world).countP (·.2.isExecuted)) 4294967295

/-- **A cycle that could read the journal and is not cancelled is blocked by the first
    file operation that fails**, and by nothing else. -/
theorem unblocked_iff {m : Machine W} {fs : Fs}
    (hlisted : Journal.listSorted m.fs = .ok (Journal.pending m.fs.dir) fs)
    (huncancelled : args.Uncancelled (Journal.pending m.fs.dir) m.world) :
    args.Unblocked m ↔ FilesHold (args.outcomes (Journal.pending m.fs.dir) m.world) fs := by
  have hcycle : args.replayWithHealthCheck m =
      args.replayEntries (Journal.pending m.fs.dir) .zero { m with fs := fs } := by
    simp only [replayWithHealthCheck, Machine.journal, hlisted]
  constructor
  · rintro ⟨report, m', events, hrun, -⟩
    by_contra hfiles
    obtain ⟨err, m'', herr⟩ := args.replayEntries_of_not_filesHold _ .zero { m with fs := fs }
      huncancelled hfiles
    rw [hcycle, herr] at hrun
    cases hrun
  · intro hfiles
    obtain ⟨m', hrun, htrace⟩ := args.replayEntries_of_filesHold _ .zero { m with fs := fs }
      huncancelled hfiles
    refine ⟨_, m', _, hcycle.trans hrun, htrace, args.dispatchedEntries_outcomes _ _, ?_⟩
    exact (ReplayReport.counts_countAll _).executed

/-! ### Two entries -/

/-- One file is removed and one rewritten. -/
theorem unblocked_iff_nginx :
    withoutRedis.Unblocked ⟨bothOnDisk nginxReload redisReload, 0, []⟩ := by
  have hlisted : Journal.listSorted (bothOnDisk nginxReload redisReload) =
      .ok (Journal.pending (bothOnDisk nginxReload redisReload).dir)
        { bothOnDisk nginxReload redisReload with ops := 3 } := rfl
  exact (withoutRedis.unblocked_iff (m := ⟨bothOnDisk nginxReload redisReload, 0, []⟩) hlisted
    ⟨rfl, rfl, trivial⟩).mpr ⟨_, rfl, _, rfl, trivial⟩

/-- A client that carries everything out. -/
def obedient : ReplayArgs Nat := ⟨fun _ w => (.ok (), w), fun _ w => (.ok (), w), .quiet⟩

/-- The file of the first one cannot be deleted. -/
def stuckFs : Fs where
  dir := ((∅ : Dir).insert (Journal.plainEntry "runr" .restart "nginx").filename
    (.entry (Journal.plainEntry "runr" .restart "nginx"))).insert
    (Journal.plainEntry "runr" .restart "redis").filename
    (.entry (Journal.plainEntry "runr" .restart "redis"))
  ops := 0
  fault i := if i = 3 then some (.other "Operation not permitted (os error 1)") else none
  wallClock _ := some 0

/-- The second one is not dispatched. -/
theorem second_not_dispatched :
    (∃ fs, Journal.listSorted stuckFs = .ok (Journal.pending stuckFs.dir) fs) ∧
    obedient.Uncancelled (Journal.pending stuckFs.dir) 0 ∧
    ¬ obedient.Unblocked ⟨stuckFs, 0, []⟩ := by
  refine ⟨⟨_, rfl⟩, ⟨rfl, rfl, trivial⟩, ?_⟩
  rintro ⟨report, m', events, hrun, htrace, hdispatched, -⟩
  have hevents : events = [.dispatched (Journal.plainEntry "runr" .restart "nginx") (.ok ())] := by
    have hend := congrArg (fun result => result.2.trace) hrun
    exact ((List.nil_append events).symm.trans htrace.symm).trans hend.symm
  rw [hevents] at hdispatched
  exact absurd hdispatched (by decide)

end ReplayArgs

end Bosun
