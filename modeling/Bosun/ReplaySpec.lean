import Bosun.JournalFamily
import Bosun.Replay

/-!
# What a replay cycle does to the journal

Every entry that was pending meets one of six fates in a cycle (`Fate`), and its
fate decides what the record says about it, what becomes of its file and which
counter goes up.  `replayEntry_fate` gives the fate of one entry, and
`replay_conserves` puts them together: no entry gets lost, none is dispatched
twice, and no other file is touched.
-/

namespace Bosun

/-- What a cycle came to for one entry. -/
inductive Fate
  | executed
  | unavailable
  /-- the action succeeded, the health check was cancelled -/
  | healthCheckCancelled
  /-- the cycle was cancelled before -/
  | notReached
  | actionFailed (message : String)
  | healthCheckFailed (err : HealthCheckError)
deriving DecidableEq

namespace Fate

/-- An attempt is spent. -/
def isFailure : Fate → Bool
  | actionFailed _ | healthCheckFailed _ => true
  | _ => false

/-- The health check has a say only when there is one, and a cancelled check is
    not a failure. -/
def Possible (e : DeferEntry) : Fate → Prop
  | healthCheckCancelled => e.healthCheck.isSome = true
  | healthCheckFailed err => e.healthCheck.isSome = true ∧ err ≠ .cancelled
  | _ => True

/-- What the record says about the entry. -/
def events (e : DeferEntry) : Fate → List Event
  | executed => .dispatched e (.ok ()) ::
      (if e.healthCheck.isSome then [.healthChecked e (.ok ())] else [])
  | unavailable => [.dispatched e (.error .clientUnavailable)]
  | healthCheckCancelled => [.dispatched e (.ok ()), .healthChecked e (.error .cancelled)]
  | notReached => []
  | actionFailed message => [.dispatched e (.error (.action message))]
  | healthCheckFailed err => [.dispatched e (.ok ()), .healthChecked e (.error err)]

end Fate

namespace DeferEntry

/-- The attempt that is being spent is the last one. -/
def exhausted (e : DeferEntry) : Bool := e.bumped.maxAttempts ≤ e.bumped.attemptCount

end DeferEntry

/-- What has become of the file of `e`. -/
def Placed (e : DeferEntry) (fate : Fate) (dir : Dir) : Prop :=
  match fate with
  | .executed => dir.lookup e.filename = none
  | .unavailable | .healthCheckCancelled | .notReached =>
    dir.lookup e.filename = some (.entry e)
  | .actionFailed _ | .healthCheckFailed _ =>
    if e.exhausted then dir.lookup e.filename = none ∧
      dir.lookup e.manualClearFilename = some (.entry e.bumped)
    else dir.lookup e.filename = some (.entry e.bumped)

/-- What has become of the files that none of these entries is about: only a
    spent attempt touches any, and it leaves nothing under the name it stages. -/
def Spared (fates : List (DeferEntry × Fate)) (dir dir' : Dir) : Prop :=
  ∀ name, (∀ p ∈ fates, name ≠ p.1.filename ∧
      ¬ (p.2.isFailure = true ∧ p.1.exhausted = true ∧ name = p.1.manualClearFilename)) →
    dir'.lookup name = dir.lookup name ∨
      ((∃ p ∈ fates, p.2.isFailure = true ∧ ∃ nanos, name = Journal.stagingName p.1 nanos) ∧
        dir'.lookup name = none)

theorem Spared.refl (fates : List (DeferEntry × Fate)) (dir : Dir) : Spared fates dir dir :=
  fun _ _ => .inl rfl

theorem Spared.cons {p : DeferEntry × Fate} {fates : List (DeferEntry × Fate)}
    {dir mid dir' : Dir} (h : Spared [p] dir mid) (hrest : Spared fates mid dir') :
    Spared (p :: fates) dir dir' := by
  intro name hname
  obtain ⟨hown, hothers⟩ := List.forall_mem_cons.mp hname
  rcases hrest name hothers with heq | ⟨⟨q, hq, hstaging⟩, hnone⟩
  · rw [heq]
    rcases h name (by simpa using hown) with heq' | ⟨⟨q, hq, hstaging⟩, hnone⟩
    · exact .inl heq'
    · obtain rfl : q = p := by simpa using hq
      exact .inr ⟨⟨q, List.mem_cons_self, hstaging⟩, hnone⟩
  · exact .inr ⟨⟨q, List.mem_cons_of_mem _ hq, hstaging⟩, hnone⟩

section Spared

variable {fates : List (DeferEntry × Fate)} {dir dir' : Dir} {p : DeferEntry}
  (h : Spared fates dir dir') (hne : ∀ q ∈ fates, p.filename ≠ q.1.filename)
include h hne

theorem Spared.lookup_filename : dir'.lookup p.filename = dir.lookup p.filename := by
  have hother : ∀ q ∈ fates, p.filename ≠ q.1.filename ∧
      ¬ (q.2.isFailure = true ∧ q.1.exhausted = true ∧ p.filename = q.1.manualClearFilename) := by
    intro q hq
    refine ⟨hne q hq, ?_⟩
    rintro ⟨-, -, hmanual⟩
    exact Journal.manualClearFilename_ne_filename q.1 p hmanual.symm
  rcases h p.filename hother with heq | ⟨⟨q, -, -, nanos, hstaging⟩, -⟩
  · exact heq
  · have hdeferred := Journal.isDeferred_filename p
    rw [hstaging, Journal.not_isDeferred_stagingName] at hdeferred
    cases hdeferred

theorem Spared.lookup_manualClearFilename :
    dir'.lookup p.manualClearFilename = dir.lookup p.manualClearFilename := by
  have hother : ∀ q ∈ fates, p.manualClearFilename ≠ q.1.filename ∧
      ¬ (q.2.isFailure = true ∧ q.1.exhausted = true ∧
        p.manualClearFilename = q.1.manualClearFilename) := by
    intro q hq
    refine ⟨Journal.manualClearFilename_ne_filename p q.1, ?_⟩
    rintro ⟨-, -, hmanual⟩
    exact hne q hq (DeferEntry.manualClearFilename_inj hmanual)
  rcases h p.manualClearFilename hother with heq | ⟨⟨q, -, -, nanos, hstaging⟩, -⟩
  · exact heq
  · exact absurd hstaging (Journal.manualClearFilename_ne_stagingName p q.1 nanos)

/-- A file stays where the fate of its entry has put it while other entries meet
    theirs. -/
theorem Placed.spared {fate : Fate} (hp : Placed p fate dir) : Placed p fate dir' := by
  have hfile := h.lookup_filename hne
  have hmanual := h.lookup_manualClearFilename hne
  cases fate <;> simp only [Placed, hfile, hmanual] at hp ⊢ <;> exact hp

end Spared

/-- The counter that goes with a fate. -/
def ReplayReport.count (report : ReplayReport) (e : DeferEntry) : Fate → ReplayReport
  | .executed => { report with executed := report.executed.saturatingSucc }
  | .unavailable => { report with skippedUnavailable := report.skippedUnavailable.saturatingSucc }
  | .healthCheckCancelled | .notReached => report
  | .actionFailed _ =>
    if e.exhausted then
      { report with promotedToManualClear := report.promotedToManualClear.saturatingSucc }
    else { report with failed := report.failed.saturatingSucc }
  | .healthCheckFailed _ =>
    if e.exhausted then
      { report with promotedToManualClear := report.promotedToManualClear.saturatingSucc }
    else { report with healthCheckFailed := report.healthCheckFailed.saturatingSucc }

/-! ## What client and health check say -/

/-- The fate of an entry whose action has succeeded. -/
def Fate.ofVerdict : Except HealthCheckError Unit → Fate
  | .ok () => executed
  | .error .cancelled => healthCheckCancelled
  | .error err => healthCheckFailed err

/-- A cycle that was cancelled at its next entry. -/
def unreached (entries : List DeferEntry) : List (DeferEntry × Fate) :=
  entries.map fun e => (e, .notReached)

namespace ReplayArgs

variable {W : Type} (args : ReplayArgs W)

/-- The fate that client and health check give an entry. -/
def outcome (e : DeferEntry) (w : W) : Fate × W :=
  match args.client e w with
  | (.error .clientUnavailable, w) => (.unavailable, w)
  | (.error (.action message), w) => (.actionFailed message, w)
  | (.ok (), w) =>
    match e.healthCheck with
    | none => (.executed, w)
    | some check =>
      (.ofVerdict (args.healthCheckRunner check w).1, (args.healthCheckRunner check w).2)

theorem outcome_ne_notReached (e : DeferEntry) (w : W) : (args.outcome e w).1 ≠ .notReached := by
  unfold outcome
  match args.client e w with
  | (.error .clientUnavailable, w) => simp
  | (.error (.action message), w) => simp
  | (.ok (), w) =>
    cases e.healthCheck with
    | none => simp
    | some check =>
      dsimp only
      match (args.healthCheckRunner check w).1 with
      | .ok () => simp [Fate.ofVerdict]
      | .error err => cases err <;> simp [Fate.ofVerdict]

/-- The fates of the entries, one after the other, until the token is seen to have fired. -/
def fates : List DeferEntry → W → List (DeferEntry × Fate) × W
  | [], w => ([], w)
  | e :: entries, w =>
    match args.platform.isCancelled w with
    | (true, w) => (unreached (e :: entries), w)
    | (false, w) =>
      let (fate, w) := args.outcome e w
      let (rest, w) := fates entries w
      ((e, fate) :: rest, w)

end ReplayArgs

/-! ## One entry -/

theorem Machine.journal_of_settles {W α : Type} {x : FsM α} {m : Machine W} {a : α} {dir : Dir}
    (h : Settles x m.fs a dir) :
    ∃ ops, m.journal x = (.ok a, { m with fs := m.fs.withDir dir ops }) := by
  obtain ⟨ops, hops⟩ := h
  exact ⟨ops, by rw [Machine.journal, hops]⟩

namespace ReplayArgs

variable {W : Type} (args : ReplayArgs W)

/-- `m'` is what `m` has become when the entry met its fate. -/
structure Met (e : DeferEntry) (fate : Fate) (m m' : Machine W) : Prop where
  healthy : m'.fs.Healthy
  placed : Placed e fate m'.fs.dir
  spared : Spared [(e, fate)] m.fs.dir m'.fs.dir

theorem removeExecuted_met {e : DeferEntry} (report : ReplayReport) {m : Machine W}
    (hfs : m.fs.Healthy) :
    ∃ m', removeExecuted e report m = (.ok (report.count e .executed), m') ∧
      m'.trace = m.trace ∧ m'.world = m.world ∧ Met e .executed m m' := by
  obtain ⟨dir, hremove, hgone, hothers⟩ := Journal.remove_settles hfs e
  obtain ⟨ops, hops⟩ := Machine.journal_of_settles hremove
  refine ⟨{ m with fs := m.fs.withDir dir ops }, ?_, rfl, rfl, hfs.withDir dir ops, hgone, ?_⟩
  · rw [removeExecuted, hops]
    rfl
  · intro name hname
    exact .inl (hothers name (hname _ List.mem_cons_self).1)

/-- A spent attempt, with the counter and the fate it goes with. -/
theorem spendAttempt_met {e : DeferEntry} (fate : Fate) (count : ReplayReport → ReplayReport)
    (report : ReplayReport) {m : Machine W} (hfs : m.fs.Healthy) (hfate : fate.isFailure = true)
    (hcount : report.count e fate = if e.exhausted then
      { report with promotedToManualClear := report.promotedToManualClear.saturatingSucc }
      else count report) :
    ∃ m', spendAttempt count e report m = (.ok (report.count e fate), m') ∧
      m'.trace = m.trace ∧ m'.world = m.world ∧ Met e fate m m' := by
  obtain ⟨nanos, mid, hbump, hwritten⟩ := Journal.bumpAttempt_settles hfs e
  obtain ⟨ops, hops⟩ := Machine.journal_of_settles hbump
  have hmid : (m.fs.withDir mid ops).Healthy := hfs.withDir mid ops
  have hplaced : Placed e fate = Placed e (.actionFailed "") := by
    cases fate <;> simp [Fate.isFailure] at hfate <;> rfl
  by_cases hexhausted : e.exhausted = true
  · have hmax : e.bumped.maxAttempts ≤ e.bumped.attemptCount := by
      simpa [DeferEntry.exhausted] using hexhausted
    have hstored : (m.fs.withDir mid ops).dir.lookup e.bumped.filename = some (.entry e.bumped) :=
      hwritten.final
    obtain ⟨dir, hmove, hgone, hquarantined, hothers⟩ :=
      Journal.moveToManualClear_settles hmid hstored
    obtain ⟨ops', hops'⟩ := Machine.journal_of_settles
      (m := { m with fs := m.fs.withDir mid ops }) hmove
    refine ⟨{ m with fs := (m.fs.withDir mid ops).withDir dir ops' }, ?_, rfl, rfl,
      hmid.withDir dir ops', ?_, ?_⟩
    · rw [spendAttempt, hops]
      simp only [if_pos hmax, hops', hcount, if_pos hexhausted]
    · rw [hplaced, Placed, if_pos hexhausted]
      exact ⟨hgone, hquarantined⟩
    · intro name hspared
      obtain ⟨hname, hmanual⟩ := hspared _ List.mem_cons_self
      have hmanual' : name ≠ e.manualClearFilename := fun h => hmanual ⟨hfate, hexhausted, h⟩
      simp only [Fs.withDir_dir] at hothers ⊢
      rw [hothers name hname hmanual']
      by_cases hstaging : name = Journal.stagingName e.bumped nanos
      · exact .inr ⟨⟨_, List.mem_cons_self, hfate, nanos, hstaging⟩,
          hstaging ▸ hwritten.staging⟩
      · exact .inl (hwritten.others name hname hstaging)
  · have hmax : ¬ e.bumped.maxAttempts ≤ e.bumped.attemptCount := by
      simpa [DeferEntry.exhausted] using hexhausted
    refine ⟨{ m with fs := m.fs.withDir mid ops }, ?_, rfl, rfl, hmid, ?_, ?_⟩
    · rw [spendAttempt, hops]
      simp only [if_neg hmax, hcount, if_neg hexhausted]
    · rw [hplaced, Placed, if_neg hexhausted]
      exact hwritten.final
    · intro name hspared
      obtain ⟨hname, -⟩ := hspared _ List.mem_cons_self
      by_cases hstaging : name = Journal.stagingName e.bumped nanos
      · exact .inr ⟨⟨_, List.mem_cons_self, hfate, nanos, hstaging⟩,
          hstaging ▸ hwritten.staging⟩
      · exact .inl (hwritten.others name hname hstaging)

/-- The entry stays as it is. -/
theorem Met.kept {e : DeferEntry} {fate : Fate} {m m' : Machine W} (hfs : m.fs.Healthy)
    (hl : m.fs.dir.lookup e.filename = some (.entry e)) (hm : m'.fs = m.fs)
    (hplaced : Placed e fate = Placed e .notReached) : Met e fate m m' := by
  refine ⟨hm ▸ hfs, ?_, hm ▸ Spared.refl _ _⟩
  rw [hplaced, hm]
  exact hl

/-- **One entry meets one fate**, the one that client and health check give it. -/
theorem replayEntry_fate {e : DeferEntry} (report : ReplayReport) {m : Machine W}
    (hfs : m.fs.Healthy) (hl : m.fs.dir.lookup e.filename = some (.entry e)) {fate : Fate} {w : W}
    (houtcome : args.outcome e m.world = (fate, w)) :
    ∃ m', args.replayEntry e report m = (.ok (report.count e fate), m') ∧
      m'.trace = m.trace ++ fate.events e ∧ m'.world = w ∧ Met e fate m m' ∧
      fate.Possible e := by
  rcases hclient : args.client e m.world with ⟨answer, world⟩
  match answer with
  | .error .clientUnavailable =>
    obtain ⟨rfl, rfl⟩ : Fate.unavailable = fate ∧ world = w := by
      simpa only [outcome, hclient, Prod.mk.injEq] using houtcome
    refine ⟨{ m with world := world }.log [.dispatched e (.error .clientUnavailable)], ?_, rfl,
      rfl, Met.kept hfs hl rfl rfl, trivial⟩
    simp only [replayEntry, hclient]
    rfl
  | .error (.action message) =>
    obtain ⟨rfl, rfl⟩ : Fate.actionFailed message = fate ∧ world = w := by
      simpa only [outcome, hclient, Prod.mk.injEq] using houtcome
    obtain ⟨m', hrun, htrace, hworld, hmet⟩ := spendAttempt_met (e := e) (.actionFailed message)
      countFailed report
      (m := { m with world := world }.log [.dispatched e (.error (.action message))]) hfs rfl rfl
    refine ⟨m', ?_, htrace, hworld, ⟨hmet.healthy, hmet.placed, hmet.spared⟩, trivial⟩
    simp only [replayEntry, hclient]
    exact hrun
  | .ok () =>
    simp only [replayEntry, hclient]
    cases hcheck : e.healthCheck with
    | none =>
      obtain ⟨rfl, rfl⟩ : Fate.executed = fate ∧ world = w := by
        simpa only [outcome, hclient, hcheck, Prod.mk.injEq] using houtcome
      obtain ⟨m', hrun, htrace, hworld, hmet⟩ := removeExecuted_met (e := e) report
        (m := { m with world := world }.log [.dispatched e (.ok ())]) hfs
      refine ⟨m', ?_, ?_, hworld, ⟨hmet.healthy, hmet.placed, hmet.spared⟩, trivial⟩
      · simp only [checkHealth, hcheck]
        exact hrun
      · rw [htrace, Fate.events, hcheck]
        rfl
    | some check =>
      rcases hrunner : args.healthCheckRunner check world with ⟨verdict, world'⟩
      have hstart : ({ m with world := world }.log [.dispatched e (.ok ())]).world = world := rfl
      obtain ⟨rfl, rfl⟩ : Fate.ofVerdict verdict = fate ∧ world' = w := by
        simpa only [outcome, hclient, hcheck, hrunner, Prod.mk.injEq] using houtcome
      simp only [checkHealth, hcheck, hstart, hrunner]
      match verdict with
      | .ok () =>
        obtain ⟨m', hrun, htrace, hworld, hmet⟩ := removeExecuted_met (e := e) report
          (m := { ({ m with world := world }.log [.dispatched e (.ok ())]) with
            world := world' }.log [.healthChecked e (.ok ())]) hfs
        refine ⟨m', hrun, ?_, hworld, ⟨hmet.healthy, hmet.placed, hmet.spared⟩, trivial⟩
        rw [htrace, Fate.ofVerdict, Fate.events, hcheck]
        simp [Machine.log]
      | .error err =>
        by_cases hcancelled : err = .cancelled
        · subst hcancelled
          refine ⟨{ ({ m with world := world }.log
            [.dispatched e (.ok ())]) with world := world' }.log
            [.healthChecked e (.error .cancelled)], rfl, ?_, rfl, Met.kept hfs hl rfl rfl, ?_⟩
          · simp [Machine.log, Fate.ofVerdict, Fate.events]
          · simp [Fate.ofVerdict, Fate.Possible, hcheck]
        · have hfate : Fate.ofVerdict (.error err) = .healthCheckFailed err := by
            cases err <;> first | rfl | exact absurd rfl hcancelled
          obtain ⟨m', hrun, htrace, hworld, hmet⟩ := spendAttempt_met (e := e)
            (.healthCheckFailed err) countHealthCheckFailed report
            (m := { ({ m with world := world }.log [.dispatched e (.ok ())]) with
              world := world' }.log [.healthChecked e (.error err)]) hfs rfl rfl
          rw [hfate]
          refine ⟨m', ?_, ?_, hworld, ⟨hmet.healthy, hmet.placed, hmet.spared⟩,
            ⟨by simp [hcheck], hcancelled⟩⟩
          · rw [← hrun]
            cases err <;> first | rfl | exact absurd rfl hcancelled
          · rw [htrace, Fate.events]
            simp [Machine.log]

end ReplayArgs

/-! ## The loop -/

/-- The report after the entries of `fates`. -/
def ReplayReport.countAll (report : ReplayReport) (fates : List (DeferEntry × Fate)) :
    ReplayReport :=
  fates.foldl (fun report p => report.count p.1 p.2) report

theorem mem_unreached {entries : List DeferEntry} {p : DeferEntry × Fate} :
    p ∈ unreached entries ↔ p.1 ∈ entries ∧ p.2 = .notReached := by
  simp [unreached, Prod.ext_iff, eq_comm]

theorem ReplayReport.countAll_unreached (report : ReplayReport) (entries : List DeferEntry) :
    report.countAll (unreached entries) = report := by
  induction entries with
  | nil => rfl
  | cons e entries ih => exact ih

theorem flatMap_events_unreached (entries : List DeferEntry) :
    (unreached entries).flatMap (fun p => p.2.events p.1) = [] := by
  rw [List.flatMap_eq_nil_iff]
  intro p hp
  rw [(mem_unreached.mp hp).2]
  rfl

/-- The entries of a cycle with their fates: those it reached, and the rest it
    left out because the token had fired. -/
structure Course (cancelled : Bool) (entries : List DeferEntry)
    (fates : List (DeferEntry × Fate)) : Prop where
  entries : fates.map Prod.fst = entries
  possible : ∀ p ∈ fates, p.2.Possible p.1
  split : ∃ reached rest, fates = reached ++ rest ∧ (∀ p ∈ reached, p.2 ≠ .notReached) ∧
    (∀ p ∈ rest, p.2 = .notReached) ∧ (rest ≠ [] → cancelled = true)

namespace ReplayArgs

variable {W : Type} (args : ReplayArgs W)

theorem replayEntries_fates (entries : List DeferEntry) (report : ReplayReport) {m : Machine W}
    (hfs : m.fs.Healthy) (hdistinct : entries.Pairwise fun p q => p.filename ≠ q.filename)
    (hpending : ∀ e ∈ entries, m.fs.dir.lookup e.filename = some (.entry e)) :
    ∃ fates m', args.replayEntries entries report m = (.ok (report.countAll fates), m') ∧
      args.fates entries m.world = (fates, m'.world) ∧ m'.fs.Healthy ∧
      m'.trace = m.trace ++ fates.flatMap (fun p => p.2.events p.1) ∧
      Course (args.platform.cancelled m'.world) entries fates ∧
      (∀ p ∈ fates, Placed p.1 p.2 m'.fs.dir) ∧ Spared fates m.fs.dir m'.fs.dir := by
  induction entries generalizing report m with
  | nil =>
    refine ⟨[], m, rfl, rfl, hfs, by simp, ⟨rfl, by simp, [], [], by simp⟩, by simp,
      Spared.refl _ _⟩
  | cons e entries ih =>
    obtain ⟨hne, hdistinct⟩ := List.pairwise_cons.mp hdistinct
    cases hcancelled : args.platform.cancelled (args.platform.tick m.world) with
    | true =>
      refine ⟨unreached (e :: entries), { m with world := args.platform.tick m.world }, ?_, ?_,
        hfs, ?_, ⟨?_, ?_, [], unreached (e :: entries), rfl, by simp, ?_, fun _ => hcancelled⟩, ?_,
        Spared.refl _ _⟩
      · simp only [replayEntries, Platform.isCancelled, hcancelled, if_true,
          ReplayReport.countAll_unreached]
      · simp only [fates, Platform.isCancelled, hcancelled]
      · rw [flatMap_events_unreached, List.append_nil]
      · simp [unreached, Function.comp_def]
      · intro p hp
        rw [(mem_unreached.mp hp).2]
        trivial
      · exact fun p hp => (mem_unreached.mp hp).2
      · intro p hp
        obtain ⟨hentry, hfate⟩ := mem_unreached.mp hp
        rw [hfate]
        exact hpending p.1 hentry
    | false =>
      rcases houtcome : args.outcome e (args.platform.tick m.world) with ⟨fate, w⟩
      have hreached : fate ≠ .notReached := by
        have hne := args.outcome_ne_notReached e (args.platform.tick m.world)
        rwa [houtcome] at hne
      obtain ⟨m₁, hentry, htrace, rfl, hmet, hpossible⟩ := args.replayEntry_fate report
        (m := { m with world := args.platform.tick m.world }) hfs
        (hpending e List.mem_cons_self) houtcome
      have hpending' : ∀ p ∈ entries, m₁.fs.dir.lookup p.filename = some (.entry p) := by
        intro p hp
        rw [hmet.spared.lookup_filename (by simpa using (hne p hp).symm)]
        exact hpending p (List.mem_cons_of_mem _ hp)
      obtain ⟨fates, m', hrun, htold, hhealthy, htrace', hcourse, hplaced, hspared⟩ :=
        ih (report.count e fate) hmet.healthy hdistinct hpending'
      obtain ⟨reached, rest, hsplit, hr, hrest, hc⟩ := hcourse.split
      refine ⟨(e, fate) :: fates, m', ?_, ?_, hhealthy, ?_, ⟨?_, ?_, (e, fate) :: reached, rest,
        ?_, ?_, hrest, hc⟩, ?_, hmet.spared.cons hspared⟩
      · simp only [replayEntries, Platform.isCancelled, hcancelled, Bool.false_eq_true, if_false,
          hentry, hrun]
        rfl
      · simp only [ReplayArgs.fates, Platform.isCancelled, hcancelled, houtcome, htold]
      · rw [htrace', htrace]
        simp
      · rw [List.map_cons, hcourse.entries]
      · exact List.forall_mem_cons.mpr ⟨hpossible, hcourse.possible⟩
      · rw [hsplit]
        rfl
      · exact List.forall_mem_cons.mpr ⟨hreached, hr⟩
      · refine List.forall_mem_cons.mpr ⟨?_, hplaced⟩
        refine hmet.placed.spared hspared fun q hq => hne q.1 ?_
        rw [← hcourse.entries]
        exact List.mem_map_of_mem hq

end ReplayArgs

/-! ## The counters -/

theorem ReplayReport.val_countAll (counter : ReplayReport → U32)
    (counted : DeferEntry × Fate → Bool)
    (h : ∀ report p, counter (report.count p.1 p.2) =
      if counted p then (counter report).saturatingSucc else counter report)
    (report : ReplayReport) (fates : List (DeferEntry × Fate)) :
    (counter (report.countAll fates)).val =
      min ((counter report).val + fates.countP counted) 4294967295 := by
  induction fates generalizing report with
  | nil =>
    have := (counter report).isLt
    simp only [countAll, List.foldl_nil, List.countP_nil]
    omega
  | cons p fates ih =>
    have hstep := ih (report.count p.1 p.2)
    rw [h, List.countP_cons] at *
    show (counter ((report.count p.1 p.2).countAll fates)).val = _
    rw [hstep]
    cases counted p with
    | true =>
      simp only [if_true, U32.val_saturatingSucc]
      omega
    | false => simp

namespace Fate

def isExecuted : Fate → Bool
  | executed => true
  | _ => false

def isUnavailable : Fate → Bool
  | unavailable => true
  | _ => false

def isActionFailed : Fate → Bool
  | actionFailed _ => true
  | _ => false

def isHealthCheckFailed : Fate → Bool
  | healthCheckFailed _ => true
  | _ => false

end Fate

/-- Each counter is the number of entries with the fate it stands for; the
    counters stop at the largest `u32`. -/
structure ReplayReport.Counts (report : ReplayReport) (fates : List (DeferEntry × Fate)) :
    Prop where
  executed : report.executed.val = min (fates.countP (·.2.isExecuted)) 4294967295
  skippedUnavailable :
    report.skippedUnavailable.val = min (fates.countP (·.2.isUnavailable)) 4294967295
  failed : report.failed.val =
    min (fates.countP fun p => p.2.isActionFailed && !p.1.exhausted) 4294967295
  healthCheckFailed : report.healthCheckFailed.val =
    min (fates.countP fun p => p.2.isHealthCheckFailed && !p.1.exhausted) 4294967295
  promotedToManualClear : report.promotedToManualClear.val =
    min (fates.countP fun p => p.2.isFailure && p.1.exhausted) 4294967295

/-- A report that starts from zero. -/
theorem ReplayReport.val_countAll_zero (counter : ReplayReport → U32)
    (counted : DeferEntry × Fate → Bool) (hzero : counter .zero = 0)
    (h : ∀ report e fate, counter (report.count e fate) =
      if counted (e, fate) then (counter report).saturatingSucc else counter report)
    (fates : List (DeferEntry × Fate)) :
    (counter (ReplayReport.zero.countAll fates)).val =
      min (fates.countP counted) 4294967295 := by
  rw [val_countAll counter counted (fun report p => h report p.1 p.2), hzero]
  simp

theorem ReplayReport.counts_countAll (fates : List (DeferEntry × Fate)) :
    (ReplayReport.zero.countAll fates).Counts fates := by
  constructor
  · refine val_countAll_zero ReplayReport.executed _ rfl (fun report e fate => ?_) fates
    cases fate <;> cases hx : e.exhausted <;> simp [count, Fate.isExecuted, hx]
  · refine val_countAll_zero ReplayReport.skippedUnavailable _ rfl (fun report e fate => ?_) fates
    cases fate <;> cases hx : e.exhausted <;> simp [count, Fate.isUnavailable, hx]
  · refine val_countAll_zero ReplayReport.failed _ rfl (fun report e fate => ?_) fates
    cases fate <;> cases hx : e.exhausted <;> simp [count, Fate.isActionFailed, hx]
  · refine val_countAll_zero ReplayReport.healthCheckFailed _ rfl (fun report e fate => ?_) fates
    cases fate <;> cases hx : e.exhausted <;> simp [count, Fate.isHealthCheckFailed, hx]
  · refine val_countAll_zero ReplayReport.promotedToManualClear _ rfl (fun report e fate => ?_)
      fates
    cases fate <;> cases hx : e.exhausted <;> simp [count, Fate.isFailure, hx]

/-! ## A whole cycle -/

/-- Every pending entry is in the file that carries its name. -/
def OwnNames (dir : Dir) : Prop :=
  ∀ name e, Journal.isDeferred name = true → dir.lookup name = some (.entry e) →
    name = e.filename

theorem OwnNames.lookup {dir : Dir} (h : OwnNames dir) {e : DeferEntry}
    (he : e ∈ Journal.pending dir) : dir.lookup e.filename = some (.entry e) := by
  obtain ⟨name, hname, hl⟩ := Journal.mem_pending.mp he
  rwa [← h name e hname hl]

/-- The entries come in the order of their file names, each name once. -/
theorem OwnNames.pairwise_pending {dir : Dir} (h : OwnNames dir) :
    (Journal.pending dir).Pairwise fun p q => p.filename < q.filename := by
  unfold Journal.pending
  have hkeys : ((dir.keys.filter Journal.isDeferred).insertionSort (· ≤ ·)).Pairwise (· < ·) := by
    have hle := List.pairwise_insertionSort (· ≤ ·) (dir.keys.filter Journal.isDeferred)
    have hnodup : ((dir.keys.filter Journal.isDeferred).insertionSort (· ≤ ·)).Nodup :=
      (List.perm_insertionSort _ _).nodup_iff.mpr (dir.nodupKeys.filter _)
    exact (hle.and hnodup).imp fun hpq => lt_of_le_of_ne hpq.1 hpq.2
  have hdeferred : ∀ name ∈ (dir.keys.filter Journal.isDeferred).insertionSort (· ≤ ·),
      Journal.isDeferred name = true := by
    intro name hname
    rw [List.mem_insertionSort, List.mem_filter] at hname
    exact hname.2
  rw [List.pairwise_filterMap]
  refine hkeys.imp_of_mem fun {a b} ha hb hlt p hp q hq => ?_
  split at hp
  · rename_i hread
    obtain rfl := Option.some.inj hp
    split at hq
    · rename_i hread'
      obtain rfl := Option.some.inj hq
      rw [← h a _ (hdeferred a ha) hread, ← h b _ (hdeferred b hb) hread']
      exact hlt
    · cases hq
  · cases hp

/-- A disk without faults, with one entry in its own file. -/
def onDisk (e : DeferEntry) : Fs :=
  ⟨AList.singleton e.filename (.entry e), 0, fun _ => none, fun _ => some 0⟩

/-- A disk without faults, with two entries in files of their own. -/
def bothOnDisk (e e' : DeferEntry) : Fs :=
  ⟨((∅ : Dir).insert e.filename (.entry e)).insert e'.filename (.entry e'), 0, fun _ => none,
    fun _ => some 0⟩

theorem ownNames_bothOnDisk (e e' : DeferEntry) : OwnNames (bothOnDisk e e').dir := by
  intro name p _ hl
  unfold bothOnDisk at hl
  by_cases hname' : name = e'.filename
  · rw [hname', AList.lookup_insert] at hl
    obtain rfl : e' = p := by simpa using hl
    exact hname'
  · rw [AList.lookup_insert_ne hname'] at hl
    by_cases hname : name = e.filename
    · rw [hname, AList.lookup_insert] at hl
      obtain rfl : e = p := by simpa using hl
      exact hname
    · rw [AList.lookup_insert_ne hname] at hl
      cases hl

/-- The four ways in which a cycle can leave an entry. -/
inductive Standing
  | removed
  | kept
  | retried
  | quarantined
deriving DecidableEq, Repr

/-- What each of them says about the fate of the entry and about its file. -/
def Standing.Holds (e : DeferEntry) (fate : Fate) (dir : Dir) : Standing → Prop
  | removed => fate = .executed ∧ dir.lookup e.filename = none
  | kept => (fate = .unavailable ∨ fate = .healthCheckCancelled ∨ fate = .notReached) ∧
      dir.lookup e.filename = some (.entry e)
  | retried => fate.isFailure = true ∧ ∃ count : U32, count.val = e.attemptCount.val + 1 ∧
      count < e.maxAttempts ∧
      dir.lookup e.filename = some (.entry { e with attemptCount := count })
  | quarantined => fate.isFailure = true ∧ e.maxAttempts ≤ e.attemptCount.saturatingSucc ∧
      dir.lookup e.filename = none ∧ dir.lookup e.manualClearFilename = some (.entry e.bumped)

/-- The place of the file after the cycle settles which of the four it is. -/
theorem Placed.existsUnique_standing {e : DeferEntry} {fate : Fate} {dir : Dir}
    (h : Placed e fate dir) : ∃! standing : Standing, standing.Holds e fate dir := by
  have hfailure : fate.isFailure = true → ∃! standing : Standing, standing.Holds e fate dir := by
    intro hfate
    have hplaced : Placed e fate = Placed e (.actionFailed "") := by
      cases fate <;> simp [Fate.isFailure] at hfate <;> rfl
    rw [hplaced] at h
    by_cases hexhausted : e.exhausted = true
    · rw [Placed, if_pos hexhausted] at h
      refine ⟨.quarantined, ⟨hfate, of_decide_eq_true hexhausted, h⟩, ?_⟩
      intro standing hstanding
      cases standing with
      | quarantined => rfl
      | removed => simp [hstanding.1, Fate.isFailure] at hfate
      | kept => simp [hstanding.2] at h
      | retried =>
        obtain ⟨-, count, -, -, hl⟩ := hstanding
        simp [hl] at h
    · rw [Placed, if_neg hexhausted] at h
      have hlt : e.attemptCount.saturatingSucc < e.maxAttempts :=
        lt_of_not_ge fun hmax => hexhausted (decide_eq_true hmax)
      -- the count is below the maximum, so that it has not stopped at the largest `u32`
      have hcount : e.attemptCount.saturatingSucc.val = e.attemptCount.val + 1 := by
        have hval := U32.val_saturatingSucc e.attemptCount
        have hmax := e.maxAttempts.isLt
        have hlt' : e.attemptCount.saturatingSucc.val < e.maxAttempts.val := hlt
        omega
      refine ⟨.retried, ⟨hfate, e.attemptCount.saturatingSucc, hcount, hlt, h⟩, ?_⟩
      intro standing hstanding
      cases standing with
      | retried => rfl
      | removed => simp [hstanding.1, Fate.isFailure] at hfate
      | kept =>
        rcases hstanding.1 with hkept | hkept | hkept <;> simp [hkept, Fate.isFailure] at hfate
      | quarantined => simp [hstanding.2.2.1] at h
  cases fate with
  | actionFailed message => exact hfailure rfl
  | healthCheckFailed err => exact hfailure rfl
  | executed =>
    refine ⟨.removed, ⟨rfl, h⟩, fun standing hstanding => ?_⟩
    cases standing <;> simp [Standing.Holds, Fate.isFailure] at hstanding ⊢
  | unavailable | healthCheckCancelled | notReached =>
    refine ⟨.kept, ⟨by simp, h⟩, fun standing hstanding => ?_⟩
    cases standing <;> simp [Standing.Holds, Fate.isFailure] at hstanding ⊢

/-- The entries that were dispatched, in order. -/
def dispatchedEntries (events : List Event) : List DeferEntry :=
  events.filterMap fun
    | .dispatched e _ => some e
    | .healthChecked _ _ => none

theorem dispatchedEntries_events (e : DeferEntry) (fate : Fate) :
    dispatchedEntries (fate.events e) = if fate = .notReached then [] else [e] := by
  cases fate <;> simp [dispatchedEntries, Fate.events]

theorem dispatchedEntries_flatMap (fates : List (DeferEntry × Fate)) :
    (dispatchedEntries (fates.flatMap fun p => p.2.events p.1)).Sublist
      (fates.map Prod.fst) := by
  induction fates with
  | nil => exact List.Sublist.slnil
  | cons p fates ih =>
    rw [List.flatMap_cons, dispatchedEntries, List.filterMap_append, List.map_cons]
    have hhead := dispatchedEntries_events p.1 p.2
    unfold dispatchedEntries at hhead ih
    rw [hhead]
    split
    · exact ih.cons p.1
    · exact ih.cons_cons p.1

/-- What one cycle does, told by the fates of the entries that were pending. -/
structure Conserved (fates : List (DeferEntry × Fate)) (dir dir' : Dir) (events : List Event)
    (report : ReplayReport) (cancelled : Bool) : Prop where
  course : Course cancelled (Journal.pending dir) fates
  standing : ∀ p ∈ fates, ∃! standing : Standing, standing.Holds p.1 p.2 dir'
  record : events = fates.flatMap fun p => p.2.events p.1
  once : (dispatchedEntries events).Nodup
  inOrder : (dispatchedEntries events).Pairwise fun p q => p.priority.rank ≤ q.priority.rank
  counts : report.Counts fates
  spared : Spared fates dir dir'

namespace ReplayArgs

variable {W : Type} (args : ReplayArgs W)

/-- **Replay conserves the journal.**  Whatever the client, the runner and the
    token do, a cycle on a working disk ends well, and every entry that was pending
    ends in exactly one of four states, in line with what client and health check said; no
    entry is dispatched twice or out of order, the counters are the numbers of
    entries, and files of no entry stay as they were. -/
theorem replay_conserves {m : Machine W} (hfs : m.fs.Healthy) (hown : OwnNames m.fs.dir) :
    ∃ fates report m' events, args.replayWithHealthCheck m = (.ok report, m') ∧
      m'.trace = m.trace ++ events ∧
      args.fates (Journal.pending m.fs.dir) m.world = (fates, m'.world) ∧
      Conserved fates m.fs.dir m'.fs.dir events report (args.platform.cancelled m'.world) := by
  obtain ⟨ops, hops⟩ := Machine.journal_of_settles (Journal.listSorted_settles hfs)
  have hsorted := hown.pairwise_pending
  obtain ⟨fates, m', hrun, htold, -, htrace, hcourse, hplaced, hspared⟩ :=
    args.replayEntries_fates (Journal.pending m.fs.dir) .zero
      (m := { m with fs := m.fs.withDir m.fs.dir ops }) (hfs.withDir _ ops)
      (hsorted.imp fun hlt => ne_of_lt hlt) (fun e he => hown.lookup he)
  have hsub := dispatchedEntries_flatMap fates
  rw [hcourse.entries] at hsub
  refine ⟨fates, _, m', _, ?_, htrace, htold, hcourse, ?_, rfl, ?_, ?_,
    ReplayReport.counts_countAll fates, hspared⟩
  · rw [replayWithHealthCheck, hops]
    exact hrun
  · exact fun p hp => (hplaced p hp).existsUnique_standing
  · refine (hsorted.imp fun {p q} hlt heq => ?_).sublist hsub
    exact absurd (heq ▸ hlt) (lt_irrefl _)
  · exact (hsorted.imp fun hlt => rank_le_of_filename_le hlt.le).sublist hsub

def nginxReload : DeferEntry := Journal.plainEntry "runr" .reload "nginx"
def redisReload : DeferEntry := Journal.plainEntry "runr" .reload "redis"

/-- A client that cannot reload redis. -/
def withoutRedis : ReplayArgs Nat where
  client e s := (if e.target = "redis" then .error (.action "exit status 1") else .ok (), s)
  healthCheckRunner _ s := (.ok (), s)
  platform := .quiet

theorem replay_conserves_nginx :
    ∃ report m' events,
      withoutRedis.replayWithHealthCheck ⟨bothOnDisk nginxReload redisReload, 0, []⟩ =
        (.ok report, m') ∧
      Conserved [(nginxReload, .executed), (redisReload, .actionFailed "exit status 1")]
        (bothOnDisk nginxReload redisReload).dir m'.fs.dir events report false := by
  obtain ⟨fates, report, m', events, hrun, -, htold, hconserved⟩ :=
    withoutRedis.replay_conserves (m := ⟨bothOnDisk nginxReload redisReload, 0, []⟩)
      ⟨fun _ => rfl, fun _ => rfl⟩ (ownNames_bothOnDisk _ _)
  have hfates : withoutRedis.fates (Journal.pending (bothOnDisk nginxReload redisReload).dir) 0 =
      ([(nginxReload, .executed), (redisReload, .actionFailed "exit status 1")], 0) := by
    decide +kernel
  obtain ⟨rfl, -⟩ := Prod.mk.inj (hfates.symm.trans htold)
  exact ⟨report, m', events, hrun, hconserved⟩

end ReplayArgs

end Bosun
