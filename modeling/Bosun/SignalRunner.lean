import Bosun.FaultyEntries
import Bosun.ProcessSignal
import Bosun.ReplayValidation

/-!
# A signal now and a signal later

`process.signal` runs `pkill` at once, or leaves it to the replay, where the
dispatcher runs it.  Both wait for the child in the same way, but not for the same
time, and they do not read its exit status alike: to `process.signal` status 1 means
that there was no process to send the signal to, and is a success.

`signals_agree_iff` says at which dispatches the two agree, over any number of cycles.
-/

namespace Bosun

/-- 5 s. -/
def SYNC_TIMEOUT : Nat := 5 * 1000000000

/-- `debug` is how an exit status is printed. -/
structure RealProcessSignalRunner (V : Type) where
  platform : Platform V
  processes : Processes platform
  debug : ExitStatus → String

/-- `RealProcessSignalRunner::run` -/
def RealProcessSignalRunner.run {V : Type} (runner : RealProcessSignalRunner V)
    (argv : List String) : ClientCall V String Unit := fun s =>
  match argv with
  | [] => (.error "process.signal: empty argv", s)
  | cmd :: rest =>
    match runner.processes.spawn cmd rest s with
    | (.error e, s) => (.error ("process.signal: failed to spawn " ++ cmd ++ ": " ++ e), s)
    | (.ok (), s) =>
      let started := runner.platform.clock s
      let elapsed (s : V) := (decide (SYNC_TIMEOUT ≤ runner.platform.clock s - started), s)
      match runner.processes.wait (started + SYNC_TIMEOUT) elapsed s with
      | (.exited status, s) =>
        if status.success then (.ok (), s)
        -- no process was found
        else if status.code = some 1 then (.ok (), s)
        else (.error ("process.signal: " ++ cmd ++ " exited with status " ++
          runner.debug status), s)
      | (.givenUp, s) => (.error ("process.signal: " ++ cmd ++ " timed out after 5s"), s)
      | (.tryWaitFailed e, s) =>
        (.error ("process.signal: try_wait error for " ++ cmd ++ ": " ++ e), s)

/-! ## Watching a child -/

namespace Processes

variable {S : Type} {plat : Platform S} (procs : Processes plat)

/-- Who is patient for longer sees the same, unless the other gave up. -/
theorem waitLoop_patient (giveUp giveUp' : S → Bool × S) (hpure : ∀ s, (giveUp s).2 = s)
    (hpure' : ∀ s, (giveUp' s).2 = s) (hpatient : ∀ s, (giveUp' s).1 = true → (giveUp s).1 = true)
    (fuel more : Nat) {s s' : S} {outcome : WaitOutcome} (houtcome : outcome ≠ .givenUp)
    (hrun : procs.waitLoop giveUp fuel s = (outcome, s')) :
    procs.waitLoop giveUp' (fuel + more) s = (outcome, s') := by
  induction fuel generalizing s with
  | zero =>
    simp only [waitLoop, Prod.mk.injEq] at hrun
    exact absurd hrun.1.symm houtcome
  | succ fuel ih =>
    rw [Nat.add_right_comm]
    simp only [waitLoop, turn] at hrun ⊢
    rcases hpoll : procs.tryWait s with ⟨answer, s₁⟩
    simp only [hpoll] at hrun
    rcases answer with error | (_ | status)
    · exact hrun
    · have hs := hpure s₁
      have hs' := hpure' s₁
      have hboth := hpatient s₁
      rcases hhad : giveUp s₁ with ⟨had, t⟩
      rcases hhad' : giveUp' s₁ with ⟨had', t'⟩
      simp only [hhad] at hrun hs hboth
      simp only [hhad'] at hs' hboth
      obtain rfl : t = s₁ := hs
      obtain rfl : t' = t := hs'
      cases had with
      | true =>
        simp only [if_true, Prod.mk.injEq] at hrun
        exact absurd hrun.1.symm houtcome
      | false =>
        have hgoesOn : had' = false := by
          by_contra h
          exact absurd (hboth (by simpa using h)) (by simp)
        subst hgoesOn
        simp only [Bool.false_eq_true, if_false] at hrun
        simp only [hhad', Bool.false_eq_true, if_false]
        exact ih hrun
    · exact hrun

/-- What becomes of the child of a program that is watched for so long; nothing when
    it cannot be started. -/
def watch (timeout : Nat) (program : String) (args : List String) (s : S) :
    Option WaitOutcome :=
  match procs.spawn program args s with
  | (.error _, _) => none
  | (.ok (), s) => some (procs.wait (plat.clock s + timeout)
      (fun s' => (decide (timeout ≤ plat.clock s' - plat.clock s), s')) s).1

/-- A child that has ended before it is first looked at. -/
theorem watch_exited (timeout : Nat) {program : String} {args : List String} {s s₁ s₂ : S}
    {status : ExitStatus} (hspawn : procs.spawn program args s = (.ok (), s₁))
    (hended : procs.tryWait s₁ = (.ok (some status), s₂)) :
    procs.watch timeout program args s = some (.exited status) := by
  unfold watch wait
  simp only [hspawn]
  rw [waitLoop.eq_2]
  simp only [turn, hended]

/-- The child that is watched for longer has the same end, if it has had one before. -/
theorem watch_patient {timeout timeout' : Nat} (hle : timeout ≤ timeout') (program : String)
    (args : List String) (s : S) (hgivenUp : procs.watch timeout program args s ≠ some .givenUp) :
    procs.watch timeout' program args s = procs.watch timeout program args s := by
  unfold watch at hgivenUp ⊢
  rcases hspawn : procs.spawn program args s with ⟨_ | _, s₁⟩
  · rfl
  · simp only [hspawn] at hgivenUp ⊢
    rcases hwait : procs.wait (plat.clock s₁ + timeout)
      (fun s' => (decide (timeout ≤ plat.clock s' - plat.clock s₁), s')) s₁ with ⟨outcome, s'⟩
    rw [hwait] at hgivenUp
    obtain ⟨more, hmore⟩ : ∃ more,
        (plat.clock s₁ + timeout' - plat.clock s₁) / Platform.POLL + 2 =
          (plat.clock s₁ + timeout - plat.clock s₁) / Platform.POLL + 2 + more := by
      have hdiv : (plat.clock s₁ + timeout - plat.clock s₁) / Platform.POLL ≤
          (plat.clock s₁ + timeout' - plat.clock s₁) / Platform.POLL :=
        Nat.div_le_div_right (by omega)
      exact ⟨_, (Nat.add_sub_of_le (Nat.add_le_add_right hdiv 2)).symm⟩
    have hlonger := procs.waitLoop_patient _
      (fun s' => (decide (timeout' ≤ plat.clock s' - plat.clock s₁), s'))
      (fun _ => rfl) (fun _ => rfl)
      (fun s' h => by
        rw [decide_eq_true_iff] at h ⊢
        exact hle.trans h) _ more (fun h => hgivenUp (by rw [h])) hwait
    unfold wait
    rw [hmore, hlonger]

end Processes

/-! ## The two readings of an outcome -/

theorem RealProcessSignalRunner.run_ok_iff_of_timeout {V : Type}
    (runner : RealProcessSignalRunner V) (cmd : String) (rest : List String) (s : V)
    (timeout : Nat) (htimeout : SYNC_TIMEOUT = timeout) :
    (runner.run (cmd :: rest) s).1 = .ok () ↔
      runner.processes.watch timeout cmd rest s = some (.exited ⟨some 0⟩) ∨
      runner.processes.watch timeout cmd rest s = some (.exited ⟨some 1⟩) := by
  unfold run Processes.watch
  rw [htimeout]
  rcases hspawn : runner.processes.spawn cmd rest s with ⟨_ | _, s₁⟩
  · simp [hspawn]
  · rcases hwait : runner.processes.wait (runner.platform.clock s₁ + timeout)
      (fun s' => (decide (timeout ≤ runner.platform.clock s' - runner.platform.clock s₁), s'))
      s₁ with ⟨outcome, s'⟩
    simp only [hspawn, hwait]
    match outcome with
    | .exited ⟨code⟩ =>
      by_cases hzero : code = some 0
      · simp [ExitStatus.success, hzero]
      · by_cases hone : code = some 1
        · simp [ExitStatus.success, hone]
        · simp [ExitStatus.success, hzero, hone]
    | .givenUp => simp
    | .tryWaitFailed error => simp

/-- The runner is content with status 0 and with status 1. -/
theorem RealProcessSignalRunner.run_ok_iff {V : Type} (runner : RealProcessSignalRunner V)
    (cmd : String) (rest : List String) (s : V) :
    (runner.run (cmd :: rest) s).1 = .ok () ↔
      runner.processes.watch SYNC_TIMEOUT cmd rest s = some (.exited ⟨some 0⟩) ∨
      runner.processes.watch SYNC_TIMEOUT cmd rest s = some (.exited ⟨some 1⟩) :=
  runner.run_ok_iff_of_timeout cmd rest s SYNC_TIMEOUT rfl

namespace RealDispatchClient

variable {V : Type} (client : RealDispatchClient V)

theorem runWithTimeout_ok_iff (program : String) (args : List String) (timeout : Nat) (s : V) :
    (client.runWithTimeout program args timeout s).1 = .ok () ↔
      client.processes.watch timeout program args s = some (.exited ⟨some 0⟩) := by
  unfold runWithTimeout Processes.watch
  rcases hspawn : client.processes.spawn program args s with ⟨_ | _, s₁⟩
  · simp
  · rcases hwait : client.processes.wait (client.platform.clock s₁ + timeout)
      (fun s' => (decide (timeout ≤ client.platform.clock s' - client.platform.clock s₁), s'))
      s₁ with ⟨outcome, s'⟩
    simp only [hwait]
    match outcome with
    | .exited ⟨code⟩ =>
      by_cases hzero : code = some 0
      · simp [ExitStatus.success, hzero]
      · simp [ExitStatus.success, hzero]
    | .givenUp => simp
    | .tryWaitFailed error => simp

/-- The child does not end with status 1 in the 5 s of `process.signal`, and if they
    are too short for it, it does not end well in the 60 s of the dispatcher. -/
structure EndsAlike (program : String) (args : List String) (s : V) : Prop where
  found : client.processes.watch SYNC_TIMEOUT program args s ≠ some (.exited ⟨some 1⟩)
  inTime : client.processes.watch SYNC_TIMEOUT program args s = some .givenUp →
    client.processes.watch COMMAND_DISPATCH_TIMEOUT program args s ≠ some (.exited ⟨some 0⟩)

/-- **The two agree on a child exactly when it ends alike for both.** -/
theorem agree_iff (debug : ExitStatus → String) (program : String) (args : List String) (s : V) :
    ((client.runWithTimeout program args COMMAND_DISPATCH_TIMEOUT s).1 = .ok () ↔
      (RealProcessSignalRunner.run ⟨client.platform, client.processes, debug⟩
        (program :: args) s).1 = .ok ()) ↔ client.EndsAlike program args s := by
  rw [runWithTimeout_ok_iff, RealProcessSignalRunner.run_ok_iff]
  have hpatient := client.processes.watch_patient
    (show SYNC_TIMEOUT ≤ COMMAND_DISPATCH_TIMEOUT by decide) program args s
  by_cases hgivenUp : client.processes.watch SYNC_TIMEOUT program args s = some .givenUp
  · constructor
    · intro h
      refine ⟨by simp [hgivenUp], fun _ hzero => ?_⟩
      simpa [hgivenUp] using h.mp hzero
    · intro h
      simp [hgivenUp, h.inTime hgivenUp]
  · rw [hpatient hgivenUp]
    constructor
    · intro h
      refine ⟨fun hone => ?_, fun h => absurd h hgivenUp⟩
      simpa [hone] using h.mpr (.inr hone)
    · intro h
      simp [h.found]

end RealDispatchClient

/-! ## Signals in the journal -/

/-- The entry has been put there for this signal, however often it was tried since. -/
def SignalOf (spec : ProcessSignalSpec) (argv : List String) (e : DeferEntry) : Prop :=
  buildSignalArgv spec = .ok argv ∧ ∃ now attempts,
    e = { SignalEnv.signalEntry spec argv now with attemptCount := attempts }

theorem buildSignalArgv_pkill {spec : ProcessSignalSpec} {argv : List String}
    (h : buildSignalArgv spec = .ok argv) : ∃ args, argv = "pkill" :: args := by
  unfold buildSignalArgv at h
  rcases hnormalized : normalizeSignal spec.signal with error | normalized
  · simp [hnormalized, bind, Except.bind] at h
  · simp only [hnormalized, bind, Except.bind] at h
    match hname : spec.processName, huser : spec.processUser with
    | some name, none => exact ⟨_, by simpa [hname, huser] using h.symm⟩
    | none, some user => exact ⟨_, by simpa [hname, huser] using h.symm⟩
    | some name, some user => simp [hname, huser] at h
    | none, none => simp [hname, huser] at h

/-- What `process.signal` would say about the same `pkill` at the same time. -/
def Backends.syncRun {V : Type} (backends : Backends V) (debug : ExitStatus → String)
    (argv : List String) (m : Machine (World V)) : Except String Unit :=
  (RealProcessSignalRunner.run ⟨backends.client.platform, backends.client.processes, debug⟩
    argv m.world.outside).1

theorem Backends.syncRun_of_status_one {V : Type} (backends : Backends V)
    (debug : ExitStatus → String) (args : List String) {m : Machine (World V)}
    (hended : backends.client.processes.watch SYNC_TIMEOUT "pkill" args m.world.outside =
      some (.exited ⟨some 1⟩)) : backends.syncRun debug ("pkill" :: args) m = .ok () := by
  unfold Backends.syncRun
  rw [RealProcessSignalRunner.run_ok_iff]
  exact .inr hended

/-- The replay comes to a signal, and does with it what `process.signal` would have done. -/
structure SignalAgrees {V : Type} (backends : Backends V) (debug : ExitStatus → String)
    (argv : List String) (e : DeferEntry) (m : Machine (World V)) : Prop where
  alike : (backends.client.dispatch e m.world).1 = .ok () ↔
    backends.syncRun debug argv m = .ok ()
  /-- Once it is done, its file is gone; no attempt is written down, nothing goes to
      `manual_clear`. -/
  removed : backends.syncRun debug argv m = .ok () → ∀ report,
    (m.fs.Healthy →
      (backends.replayArgs.replayEntry e report m).2.fs.dir.lookup e.filename = none) ∧
    Touched (· = e.filename) nothing nothing m.fs.dir
      (backends.replayArgs.replayEntry e report m).2.fs.dir

namespace SignalOf

variable {V : Type} {spec : ProcessSignalSpec} {e : DeferEntry} {args : List String}

theorem dispatch_fst (h : SignalOf spec ("pkill" :: args) e) (client : RealDispatchClient V)
    (w : World V) : (client.dispatch e w).1 =
      (client.runWithTimeout "pkill" args COMMAND_DISPATCH_TIMEOUT w.outside).1 := by
  obtain ⟨-, now, attempts, rfl⟩ := h
  rfl

theorem outcome_of_dispatch {argv : List String} (h : SignalOf spec argv e)
    (backends : Backends V) {w : World V} (hok : (backends.client.dispatch e w).1 = .ok ()) :
    (backends.replayArgs.outcome e w).1 = .executed := by
  obtain ⟨-, now, attempts, rfl⟩ := h
  unfold ReplayArgs.outcome
  rcases hclient : backends.replayArgs.client
    { SignalEnv.signalEntry spec argv now with attemptCount := attempts } w with ⟨answer, w'⟩
  obtain rfl : answer = .ok () := by
    rw [← hok]
    exact (congrArg Prod.fst hclient).symm
  rfl

/-- A signal that is sent leaves the journal at once. -/
theorem removed {argv : List String} (h : SignalOf spec argv e) (backends : Backends V)
    {m : Machine (World V)} (hok : (backends.client.dispatch e m.world).1 = .ok ())
    (report : ReplayReport) :
    (m.fs.Healthy →
      (backends.replayArgs.replayEntry e report m).2.fs.dir.lookup e.filename = none) ∧
    Touched (· = e.filename) nothing nothing m.fs.dir
      (backends.replayArgs.replayEntry e report m).2.fs.dir := by
  rw [backends.replayArgs.replayEntry_eq, h.outcome_of_dispatch backends hok]
  unfold ReplayArgs.settle
  simp only [Journal.fileWork, Machine.log]
  have htouches := Journal.remove_touches e
  constructor
  · intro hhealthy
    obtain ⟨dir, ⟨ops, hremove⟩, hnone, -⟩ := Journal.remove_settles hhealthy e
    simpa only [hremove, Fs.withDir_dir] using hnone
  · cases hremove : Journal.remove e m.fs with
    | ok _ fs => exact htouches.ok hremove
    | error err fs => exact htouches.error hremove

theorem agrees_iff (h : SignalOf spec ("pkill" :: args) e) (backends : Backends V)
    (debug : ExitStatus → String) (m : Machine (World V)) :
    SignalAgrees backends debug ("pkill" :: args) e m ↔
      backends.client.EndsAlike "pkill" args m.world.outside := by
  rw [← backends.client.agree_iff debug, ← h.dispatch_fst]
  constructor
  · exact fun hagrees => hagrees.alike
  · exact fun halike => ⟨halike, fun hsync => h.removed backends (halike.mpr hsync)⟩

end SignalOf

/-- **The replay agrees with `process.signal`, over a run of cycles, exactly when every
    `pkill` it starts ends alike for both.** -/
theorem signals_agree_iff {V : Type} (debug : ExitStatus → String) (cycles : List (Cycle V))
    (m : Machine (World V)) :
    (∀ step ∈ steps cycles m, ∀ p ∈ step.1.passes step.2, ∀ spec argv,
      SignalOf spec argv p.1 → SignalAgrees step.1.backends debug argv p.1 p.2) ↔
    ∀ step ∈ steps cycles m, ∀ p ∈ step.1.passes step.2, ∀ spec args,
      SignalOf spec ("pkill" :: args) p.1 →
        step.1.backends.client.EndsAlike "pkill" args p.2.world.outside := by
  constructor
  · intro h step hstep p hp spec args hsignal
    exact (hsignal.agrees_iff _ debug p.2).mp (h step hstep p hp spec _ hsignal)
  · intro h step hstep p hp spec argv hsignal
    obtain ⟨args, rfl⟩ := buildSignalArgv_pkill hsignal.1
    exact (hsignal.agrees_iff _ debug p.2).mpr (h step hstep p hp spec args hsignal)

/-! ### Nobody to send it to -/

/-- A machine on which every program ends at once with status 1. -/
def Processes.notFound : Processes Platform.quiet where
  spawn _ _ s := (.ok (), s)
  tryWait s := (.ok (some ⟨some 1⟩), s)
  kill s := s
  stdout _ := ""
  stderr _ := ""
  stderrExcerpt _ _ := ""
  clock_le_spawn := Platform.quiet_clock_le_spawn
  clock_le_tryWait := Platform.quiet_clock_le
  clock_le_kill := Platform.quiet_clock_le
  cancelled_spawn _ _ _ h := h
  cancelled_tryWait _ h := h
  cancelled_kill _ h := h

def notFoundCycle : Cycle Nat :=
  ⟨⟨⟨none, none, Platform.quiet, Processes.notFound⟩, fun _ v => (.ok (), v)⟩, fun m => m⟩

def hupNginx : ProcessSignalSpec := ⟨"nginx", "HUP", some "nginx", none, true⟩

def hupEntry : DeferEntry :=
  SignalEnv.signalEntry hupNginx ["pkill", "--signal", "HUP", "nginx"] 0

def hupMachine : Machine (World Nat) := ⟨onDisk hupEntry, ⟨0, []⟩, []⟩

theorem notFound_watch (timeout : Nat) (args : List String) (s : Nat) :
    Processes.notFound.watch timeout "pkill" args s = some (.exited ⟨some 1⟩) :=
  Processes.notFound.watch_exited timeout rfl rfl

/-- `process.signal` would be content each time, but the replay is not, and after three
    cycles the signal lies in `manual_clear`. -/
theorem hup_quarantined :
    (∀ m, notFoundCycle.backends.syncRun (fun _ => "") ["pkill", "--signal", "HUP", "nginx"] m =
      .ok ()) ∧
    (runCycles [notFoundCycle, notFoundCycle, notFoundCycle] hupMachine).fs.dir.lookup
      hupEntry.manualClearFilename = some (.entry { hupEntry with attemptCount := 3 }) ∧
    ¬ ∀ step ∈ steps [notFoundCycle] hupMachine, ∀ p ∈ step.1.passes step.2, ∀ spec argv,
      SignalOf spec argv p.1 → SignalAgrees step.1.backends (fun _ => "") argv p.1 p.2 := by
  refine ⟨fun m => notFoundCycle.backends.syncRun_of_status_one _ _ (notFound_watch _ _ _), by rfl,
    fun h => ?_⟩
  have hsignal : SignalOf hupNginx ["pkill", "--signal", "HUP", "nginx"] hupEntry :=
    ⟨rfl, 0, 0, rfl⟩
  have hagrees := h (notFoundCycle, hupMachine) List.mem_cons_self
    (hupEntry, { hupMachine with fs := { hupMachine.fs with ops := 2 } }) List.mem_cons_self
    hupNginx _ hsignal
  exact ((hsignal.agrees_iff _ _ _).mp hagrees).found (notFound_watch _ _ _)

end Bosun
