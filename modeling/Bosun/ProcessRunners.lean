import Bosun.AptPackage
import Bosun.ChildPipes
import Bosun.Dispatch

/-!
# The runners of commands

Four loops wait for a child: `RealValidateRunner::run`, `run_once` of the health checks and
`run_with_timeout` of the dispatcher read the first bytes of stderr after the exit, and
`RealCommandRunner::run` of `apt.package` has two threads read both streams all along.

`runners_iff` says for which children each of them does what it should: come back at the look
at which the child has exited or had its time, with an answer that the exit status alone decides.
-/

namespace Bosun

/-! ## Three runners -/

/-- What the three runners do not have in common. -/
structure ExcerptRunner (α : Type) where
  /-- so many bytes of stderr at most -/
  limit : Nat
  /-- whether stderr is read after this exit -/
  reads : ExitStatus → Bool
  onExit : ExitStatus → String → α
  onTimeout : α
  onSpawnError : String → α
  onTryWaitError : String → α
  timeoutShown : ∀ status excerpt, onExit status excerpt ≠ onTimeout

/-- stdout goes nowhere, stderr to a pipe. -/
def stderrPiped : Stream → Sink
  | .stdout => .null
  | .stderr => .piped

namespace Host

variable (host : Host)

/-- Start the child, look until it has exited or had its time, then read. -/
def runOnce {α : Type} (runner : ExcerptRunner α) (timeout : Nat) (cmd : String)
    (args : List String) (s : ChildState) : Option (α × ChildState) :=
  let procs := host.processes stderrPiped .child
  match procs.spawn cmd args s with
  | (.error e, s) => some (runner.onSpawnError e, s)
  | (.ok (), s) =>
    let started := s.now
    let elapsed (s : ChildState) := (decide (timeout ≤ s.now - started), s)
    match procs.wait (started + timeout) elapsed s with
    | (.exited status, s) =>
      if runner.reads status then
        (host.readExcerpt runner.limit s).map fun (excerpt, s) => (runner.onExit status excerpt, s)
      else some (runner.onExit status "", s)
    | (.givenUp, s) => some (runner.onTimeout, s)
    | (.tryWaitFailed e, s) => some (runner.onTryWaitError e, s)

end Host

/-- `validate::STDERR_EXCERPT_LIMIT` and `health_check::EXCERPT_LIMIT` -/
def EXCERPT_LIMIT : Nat := 4096

def validateRunner (host : Host) (timeout : Nat) : ExcerptRunner (Except ValidateError Unit) where
  limit := EXCERPT_LIMIT
  reads _ := true
  onExit status excerpt :=
    if status.success then .ok () else .error (.exitNonZero (status.code.getD (-1)) excerpt)
  onTimeout := .error (.timeout (host.debugDuration timeout))
  onSpawnError e := .error (.spawn e)
  onTryWaitError e := .error (.spawn e)
  timeoutShown status excerpt := by split <;> simp

/-- `RealValidateRunner::run` -/
def Host.validate (host : Host) (argv : List String) (timeout : Nat) (s : ChildState) :
    Option (Except ValidateError Unit × ChildState) :=
  match argv with
  | [] => some (.error (.spawn "validate runner: empty argv"), s)
  | cmd :: rest => host.runOnce (validateRunner host timeout) timeout cmd rest s

def cmdRunner : ExcerptRunner CmdAttempt where
  limit := EXCERPT_LIMIT
  reads _ := true
  onExit status excerpt :=
    if status.success then .success else .exitNonZero (status.code.getD (-1)) excerpt
  onTimeout := .timeout
  onSpawnError := .spawnError
  onTryWaitError := .spawnError
  timeoutShown status excerpt := by split <;> simp

/-- `cmd::run_once` -/
def Host.cmdOnce (host : Host) (argv : List String) (timeout : Nat) (s : ChildState) :
    Option (CmdAttempt × ChildState) :=
  match argv with
  | [] => some (.spawnError "health_check cmd: empty argv", s)
  | cmd :: rest => host.runOnce cmdRunner timeout cmd rest s

def dispatchRunner (program : String) (timeout : Nat) :
    ExcerptRunner (Except DispatchError Unit) where
  limit := STDERR_EXCERPT_LIMIT
  reads status := !status.success
  onExit status excerpt :=
    if status.success then .ok ()
    else
      let code := match status.code with
        | some code => toString code
        | none => "signal"
      .error (.action ("command " ++ program ++ " exited with " ++ code ++ ": " ++ excerpt))
  onTimeout := .error (.action ("command " ++ program ++ " timed out after " ++
    toString (timeout / 1000000000) ++ "s"))
  onSpawnError e := .error (.action ("failed to spawn command " ++ program ++ ": " ++ e))
  onTryWaitError e := .error (.action ("try_wait error for command " ++ program ++ ": " ++ e))
  timeoutShown status excerpt := by
    split
    · simp
    · -- the two texts differ behind the program
      intro heq
      injection heq with heq
      injection heq with heq
      have hchars := congrArg String.toList heq
      simp only [String.toList_append, List.append_assoc, List.append_cancel_left_eq] at hchars
      have hstart := congrArg (List.take 2) hchars
      rw [List.take_append_of_le_length (by decide +kernel),
        List.take_append_of_le_length (by decide +kernel)] at hstart
      exact absurd hstart (by decide +kernel)

/-- `run_with_timeout` -/
def Host.runWithTimeout (host : Host) (program : String) (args : List String) (timeout : Nat)
    (s : ChildState) : Option (Except DispatchError Unit × ChildState) :=
  host.runOnce (dispatchRunner program timeout) timeout program args s

/-! ## The runner of `apt.package` -/

def bothDrained : Stream → Sink := fun _ => .drained

/-- `RealCommandRunner::run` -/
def Host.runCommand (host : Host) (cmd : String) (args : List String) (deadline : Nat)
    (s : ChildState) : Option (Except PrimitiveError CommandResult × ChildState) :=
  let (had, s) := host.platform.cancelledOrPastDeadline deadline s
  -- nothing is started then
  if had then some (.error .cancelled, s)
  else
    let procs := host.processes bothDrained .group
    match procs.spawn cmd args s with
    | (.error e, s) => some (.error (.io ("spawn " ++ cmd) e), s)
    | (.ok (), s) =>
      let (outcome, s) := procs.wait deadline (host.platform.cancelledOrPastDeadline deadline) s
      (host.joinDrains s).map fun (stdout, stderr, s) =>
        match outcome with
        | .exited status => (.ok ⟨status.code, stdout, stderr⟩, s)
        | .givenUp => (.error .cancelled, s)
        | .tryWaitFailed e => (.error (.io ("try_wait " ++ cmd) e), s)

/-! ## What a runner should do -/

namespace Host

variable (host : Host)

/-- The child has just been started. -/
def spawned (s : ChildState) : ChildState := { s with started := s.now, groupKilled := false }

/-- The answer reports what the loop finds when the output of the child is discarded, and it is
    there as soon as that loop ends. -/
def ByStatus {α : Type} (had : Nat → Bool) (kill : Kill) (s : ChildState)
    (reports : WaitOutcome → α → Prop) (run : Option (α × ChildState)) : Prop :=
  ∃ a s', run = some (a, s') ∧ ∀ k, host.EndsAtLook host.child.exitsAt had s k →
    reports (host.ending host.child.exitsAt kill s k).1 a ∧
      s'.now = (host.ending host.child.exitsAt kill s k).2.now

/-- The time-out is over. -/
def elapsedAt (timeout : Nat) (s : ChildState) (t : Nat) : Bool := timeout ≤ t - s.started

theorem elapsedAt_of_le {timeout : Nat} {s : ChildState} (t : Nat)
    (h : (spawned s).now + timeout ≤ t) : elapsedAt timeout (spawned s) t = true := by
  have hstarted : (spawned s).started = (spawned s).now := rfl
  unfold elapsedAt
  rw [hstarted]
  exact decide_eq_true (by omega)

/-- The token has fired or the deadline is over. -/
def interruptedAt (deadline t : Nat) : Bool := host.cancelledAt.any (· ≤ t) || deadline ≤ t

/-- The loop sees at its `k`th look that the child, its output discarded, has exited. -/
def SeenAt (had : Nat → Bool) (s : ChildState) (k : Nat) : Prop :=
  host.EndsAtLook host.child.exitsAt had s k ∧
    exited host.child.exitsAt s (host.look s k) = true

/-- A child that exits before the time-out is seen to have exited. -/
theorem seenAt_of_lt {timeout e k : Nat} {s : ChildState} (hexit : host.child.exitsAt = some e)
    (hlt : e < timeout) (hk : host.EndsAtLook host.child.exitsAt (elapsedAt timeout s) s k) :
    host.SeenAt (elapsedAt timeout s) s k := by
  refine ⟨hk, ?_⟩
  rcases hk.ends with h | h
  · exact h
  · have htime : timeout ≤ host.look s k - s.started := by simpa [elapsedAt] using h
    simp only [exited, hexit, Option.any_some, decide_eq_true_eq]
    omega

end Host

/-- An answer that the outcome alone decides, but for the texts. -/
def ExcerptRunner.Reports {α : Type} (runner : ExcerptRunner α) : WaitOutcome → α → Prop
  | .exited status, a => ∃ excerpt, a = runner.onExit status excerpt
  | .givenUp, a => a = runner.onTimeout
  | .tryWaitFailed e, a => a = runner.onTryWaitError e

namespace Host

variable {host : Host}

theorem stuck_stderrPiped : host.stuck stderrPiped = true ↔
    host.capacity < (host.child.output .stderr).length := by
  simp [stuck, stderrPiped]

theorem runOnce_eq {α : Type} (runner : ExcerptRunner α) {timeout : Nat} (cmd : String)
    (args : List String) {s : ChildState} {k : Nat}
    (hk : host.EndsAtLook (host.exitTime stderrPiped) (elapsedAt timeout (spawned s))
      (spawned s) k) :
    host.runOnce runner timeout cmd args s =
      match host.ending (host.exitTime stderrPiped) .child (spawned s) k with
      | (.exited status, s) =>
        if runner.reads status then
          (host.readExcerpt runner.limit s).map fun (excerpt, s) =>
            (runner.onExit status excerpt, s)
        else some (runner.onExit status "", s)
      | (.givenUp, s) => some (runner.onTimeout, s)
      | (.tryWaitFailed e, s) => some (runner.onTryWaitError e, s) := by
  have hspawn : (host.processes stderrPiped .child).spawn cmd args s = (.ok (), spawned s) := rfl
  have hwait : (host.processes stderrPiped .child).wait ((spawned s).now + timeout)
      (fun s' => (decide (timeout ≤ s'.now - (spawned s).now), s')) (spawned s) =
        host.ending (host.exitTime stderrPiped) .child (spawned s) k :=
    host.wait_eq (fun _ => rfl) elapsedAt_of_le hk
  simp only [runOnce, hspawn, hwait]

section Look

variable {had : Nat → Bool} {kill : Kill} {s : ChildState} {k : Nat}
  (hk : host.EndsAtLook host.child.exitsAt had s k)
include hk

/-- There is one look at which the loop ends. -/
theorem byStatus_iff_at {α : Type} {reports : WaitOutcome → α → Prop}
    {run : Option (α × ChildState)} :
    host.ByStatus had kill s reports run ↔ ∃ a s', run = some (a, s') ∧
      reports (host.ending host.child.exitsAt kill s k).1 a ∧
      s'.now = (host.ending host.child.exitsAt kill s k).2.now := by
  constructor
  · rintro ⟨a, s', hrun, hall⟩
    exact ⟨a, s', hrun, hall k hk⟩
  · rintro ⟨a, s', hrun, hat⟩
    exact ⟨a, s', hrun, fun j hj => (hj.unique hk) ▸ hat⟩

theorem forall_seenAt_iff {Q : Nat → Prop} :
    (∀ j, host.SeenAt had s j → Q j) ↔ (exited host.child.exitsAt s (host.look s k) = true → Q k) :=
  ⟨fun h hexit => h k ⟨hk, hexit⟩, fun h j hj => by
    obtain rfl := hj.1.unique hk
    exact h hj.2⟩

/-- A child that has not exited by then has not exited when it is stuck either. -/
theorem endsAtLook_exitTime {sinks : Stream → Sink}
    (hexit : exited host.child.exitsAt s (host.look s k) = false) :
    host.EndsAtLook (host.exitTime sinks) had s k ∧
      exited (host.exitTime sinks) s (host.look s k) = false := by
  unfold exitTime
  split
  · refine ⟨⟨fun j hj => ⟨rfl, (hk.before j hj).2⟩, .inr ?_⟩, rfl⟩
    exact hk.ends.resolve_left (by simp [hexit])
  · exact ⟨hk, hexit⟩

end Look

/-- A child that is stuck is killed in the end. -/
theorem runOnce_of_full {α : Type} (runner : ExcerptRunner α) (timeout : Nat) (cmd : String)
    (args : List String) (s : ChildState)
    (hfull : host.capacity < (host.child.output .stderr).length) :
    ∃ s', host.runOnce runner timeout cmd args s = some (runner.onTimeout, s') := by
  obtain ⟨j, hj⟩ : ∃ j, host.EndsAtLook none (elapsedAt timeout (spawned s)) (spawned s) j :=
    exists_endsAtLook elapsedAt_of_le none (spawned s)
  have hstuck : host.exitTime stderrPiped = none := if_pos (stuck_stderrPiped.mpr hfull)
  have hrun := runOnce_eq runner cmd args (hstuck ▸ hj)
  simp only [ending, hstuck, exited, Option.any_none, Bool.false_eq_true, if_false] at hrun
  exact ⟨_, hrun⟩

/-- **The three runners.**  What it takes is that stderr fits into the pipe, and, where the runner
    reads it, that the limit is reached or the pipe closed, if the child exits in time at all. -/
theorem runOnce_byStatus_iff {α : Type} (runner : ExcerptRunner α) (timeout : Nat) (cmd : String)
    (args : List String) (s : ChildState) :
    host.ByStatus (elapsedAt timeout (spawned s)) .child (spawned s) runner.Reports
        (host.runOnce runner timeout cmd args s) ↔
      ∀ k, host.SeenAt (elapsedAt timeout (spawned s)) (spawned s) k →
        (host.child.output .stderr).length ≤ host.capacity ∧
        (runner.reads host.child.status = true →
          runner.limit ≤ (host.child.output .stderr).length ∨
            host.ClosedBy .stderr (spawned s) (host.look (spawned s) k)) := by
  obtain ⟨k, hk⟩ : ∃ k, host.EndsAtLook host.child.exitsAt (elapsedAt timeout (spawned s))
      (spawned s) k := exists_endsAtLook elapsedAt_of_le _ _
  rw [byStatus_iff_at hk, forall_seenAt_iff hk]
  cases hexit : exited host.child.exitsAt (spawned s) (host.look (spawned s) k) with
  | false =>
    -- the child is killed
    obtain ⟨hends, hnot⟩ : host.EndsAtLook (host.exitTime stderrPiped) _ (spawned s) k ∧ _ :=
      endsAtLook_exitTime hk hexit
    have hrun := runOnce_eq runner cmd args hends
    simp only [ending, hnot, Bool.false_eq_true, if_false] at hrun
    simp only [ending, hexit, Bool.false_eq_true, if_false, false_implies, iff_true]
    exact ⟨_, _, hrun, rfl, rfl⟩
  | true =>
    simp only [ending, hexit, if_true, true_implies]
    by_cases hfull : host.capacity < (host.child.output .stderr).length
    · obtain ⟨s', hrun⟩ := runOnce_of_full runner timeout cmd args s hfull
      constructor
      · rintro ⟨a, s', hrun', ⟨excerpt, rfl⟩, -⟩
        rw [hrun] at hrun'
        have hanswer : runner.onTimeout = runner.onExit host.child.status excerpt :=
          congrArg Prod.fst (Option.some.inj hrun')
        exact absurd hanswer.symm (runner.timeoutShown _ _)
      · exact fun h => absurd h.1 (by omega)
    · have hfree : host.exitTime stderrPiped = host.child.exitsAt :=
        if_neg fun hstuck => hfull (stuck_stderrPiped.mp hstuck)
      have hrun := runOnce_eq runner cmd args (hfree ▸ hk)
      simp only [ending, hfree, hexit, if_true] at hrun
      have hfits : (host.child.output .stderr).length ≤ host.capacity := by omega
      simp only [hfits, true_and]
      cases hreads : runner.reads host.child.status with
      | false =>
        simp only [hreads, Bool.false_eq_true, if_false] at hrun
        simp only [Bool.false_eq_true, false_implies, iff_true]
        exact ⟨_, _, hrun, ⟨_, rfl⟩, rfl⟩
      | true =>
        simp only [hreads, if_true, readExcerpt] at hrun
        simp only [true_implies]
        by_cases hlimit : runner.limit ≤ (host.child.output .stderr).length
        · simp only [hlimit, if_true, Option.map_some] at hrun
          simp only [hlimit, true_or, iff_true]
          exact ⟨_, _, hrun, ⟨_, rfl⟩, rfl⟩
        · simp only [hlimit, if_false, Option.map_map] at hrun
          simp only [hlimit, false_or]
          refine Iff.trans ?_ (host.waitEof_now_iff .stderr
            { spawned s with now := host.look (spawned s) k })
          constructor
          · rintro ⟨a, s', hrun', -, hnow⟩
            rw [hrun] at hrun'
            obtain ⟨s'', heof, hs''⟩ := Option.map_eq_some_iff.mp hrun'
            obtain rfl : s'' = s' := congrArg Prod.snd hs''
            exact ⟨s'', heof, hnow⟩
          · rintro ⟨s', heof, hnow⟩
            rw [heof] at hrun
            exact ⟨_, _, hrun, ⟨_, rfl⟩, hnow⟩

end Host

/-- An answer that the outcome alone decides, but for the texts. -/
def ReportsCommand (cmd : String) : WaitOutcome → Except PrimitiveError CommandResult → Prop
  | .exited status, a => ∃ stdout stderr, a = .ok ⟨status.code, stdout, stderr⟩
  | .givenUp, a => a = .error .cancelled
  | .tryWaitFailed e, a => a = .error (.io ("try_wait " ++ cmd) e)

namespace Host

variable {host : Host}

/-- **The runner of `apt.package`.**  What it takes is that nobody keeps a stream open at the end:
    after the exit none of the processes that the child has started, and after a kill none of
    those that have left the group. -/
theorem runCommand_byStatus_iff (cmd : String) (args : List String) {deadline : Nat}
    {s : ChildState} (hgoes : host.interruptedAt deadline s.now = false) :
    host.ByStatus (host.interruptedAt deadline) .group (spawned s) (ReportsCommand cmd)
        (host.runCommand cmd args deadline s) ↔
      ∀ k, host.EndsAtLook host.child.exitsAt (host.interruptedAt deadline) (spawned s) k →
        ∀ stream, host.ClosedBy stream
          (host.ending host.child.exitsAt .group (spawned s) k).2
          (host.ending host.child.exitsAt .group (spawned s) k).2.now := by
  have hdeadline : ∀ t, deadline ≤ t → host.interruptedAt deadline t = true := by
    intro t ht
    simp [interruptedAt, ht]
  have hfree : host.exitTime bothDrained = host.child.exitsAt :=
    if_neg (by simp [stuck, bothDrained])
  obtain ⟨k, hk⟩ := exists_endsAtLook hdeadline host.child.exitsAt (spawned s)
  have hall : (∀ j, host.EndsAtLook host.child.exitsAt (host.interruptedAt deadline) (spawned s) j →
      ∀ stream, host.ClosedBy stream (host.ending host.child.exitsAt .group (spawned s) j).2
        (host.ending host.child.exitsAt .group (spawned s) j).2.now) ↔
      ∀ stream, host.ClosedBy stream (host.ending host.child.exitsAt .group (spawned s) k).2
        (host.ending host.child.exitsAt .group (spawned s) k).2.now :=
    ⟨fun h => h k hk, fun h j hj => (hj.unique hk) ▸ h⟩
  rw [byStatus_iff_at hk, hall]
  have hwait : (host.processes bothDrained .group).wait deadline
      (host.platform.cancelledOrPastDeadline deadline) (spawned s) =
        host.ending host.child.exitsAt .group (spawned s) k :=
    hfree ▸ host.wait_eq (fun _ => rfl) hdeadline (hfree.symm ▸ hk)
  have hstart : host.platform.cancelledOrPastDeadline deadline s = (false, s) :=
    congrArg (·, s) hgoes
  have hspawn : (host.processes bothDrained .group).spawn cmd args s = (.ok (), spawned s) := rfl
  have hrun : host.runCommand cmd args deadline s =
      (host.joinDrains (host.ending host.child.exitsAt .group (spawned s) k).2).map
        fun (stdout, stderr, s') =>
          match (host.ending host.child.exitsAt .group (spawned s) k).1 with
          | .exited status => (.ok ⟨status.code, stdout, stderr⟩, s')
          | .givenUp => (.error .cancelled, s')
          | .tryWaitFailed e => (.error (.io ("try_wait " ++ cmd) e), s') := by
    simp only [runCommand, hstart, Bool.false_eq_true, if_false, hspawn, hwait]
  rw [← joinDrains_now_iff]
  constructor
  · rintro ⟨a, s', hrun', -, hnow⟩
    rw [hrun] at hrun'
    obtain ⟨⟨stdout, stderr, s''⟩, hjoin, heq⟩ := Option.map_eq_some_iff.mp hrun'
    obtain rfl : s'' = s' := by
      revert heq
      cases (host.ending host.child.exitsAt .group (spawned s) k).1 <;> exact congrArg Prod.snd
    exact ⟨stdout, stderr, s'', hjoin, hnow⟩
  · rintro ⟨stdout, stderr, s', hjoin, hnow⟩
    rw [hrun, hjoin, Option.map_some]
    cases (host.ending host.child.exitsAt .group (spawned s) k).1 with
    | exited status => exact ⟨_, _, rfl, ⟨_, _, rfl⟩, hnow⟩
    | givenUp => exact ⟨_, _, rfl, rfl, hnow⟩
    | tryWaitFailed e => exact ⟨_, _, rfl, rfl, hnow⟩

/-- Where nobody else has stderr, the dispatcher is the one that never waits for a read. -/
theorem runWithTimeout_eq (h : ∀ d ∈ host.child.descendants, d.holds .stderr = false)
    (program : String) (args : List String) (timeout : Nat) (s : ChildState) :
    host.runWithTimeout program args timeout s = some (RealDispatchClient.runWithTimeout
      ⟨none, none, host.platform, host.processes stderrPiped .child⟩ program args timeout s) := by
  have hread : ∀ limit s, host.readExcerpt limit s =
      some (host.lossy ((host.child.output .stderr).take limit), s) := by
    intro limit s
    have hnone : host.holders .stderr s = [] := by
      rw [holders, List.filter_eq_nil_iff]
      intro d hd
      simp [h d hd]
    unfold readExcerpt
    split
    · rfl
    · rw [waitEof, hnone, waitFor, Option.map_some, List.take_of_length_le (by omega)]
  have hspawn : (host.processes stderrPiped .child).spawn program args s =
      (.ok (), spawned s) := rfl
  have hclock : host.platform.clock = ChildState.now := rfl
  simp only [runWithTimeout, runOnce, RealDispatchClient.runWithTimeout, hread, hspawn, hclock]
  rcases (host.processes stderrPiped .child).wait ((spawned s).now + timeout)
    (fun s' => (decide (timeout ≤ s'.now - (spawned s).now), s')) (spawned s) with ⟨outcome, s'⟩
  cases outcome with
  | givenUp => rfl
  | tryWaitFailed e => rfl
  | exited status =>
    cases hsuccess : status.success with
    | true => simp [dispatchRunner, hsuccess]
    | false => cases hcode : status.code <;> simp [dispatchRunner, hsuccess, hcode, processes]

/-- The excerpt is read without waiting: there is enough of it, or nobody has stderr open when the
    loop looks for the `k`th time. -/
def ExcerptReady (host : Host) (limit : Nat) (s : ChildState) (k : Nat) : Prop :=
  limit ≤ (host.child.output .stderr).length ∨ host.ClosedBy .stderr s (host.look s k)

end Host

/-- **When the runners give the verdict of the exit status, at once.**  The validator and the
    health check: if the child is seen to exit in time, stderr fits into the pipe and the excerpt
    can be read without waiting.  The dispatcher: the same, but it reads after a failure only.
    The runner of `apt.package`, which started the child: nobody keeps a stream open at the end. -/
theorem runners_iff (host : Host) (timeout : Nat) (s : ChildState) :
    (∀ cmd rest, host.ByStatus (Host.elapsedAt timeout (Host.spawned s)) .child (Host.spawned s)
        (validateRunner host timeout).Reports (host.validate (cmd :: rest) timeout s) ↔
      ∀ k, host.SeenAt (Host.elapsedAt timeout (Host.spawned s)) (Host.spawned s) k →
        (host.child.output .stderr).length ≤ host.capacity ∧
          host.ExcerptReady EXCERPT_LIMIT (Host.spawned s) k) ∧
    (∀ cmd rest, host.ByStatus (Host.elapsedAt timeout (Host.spawned s)) .child (Host.spawned s)
        cmdRunner.Reports (host.cmdOnce (cmd :: rest) timeout s) ↔
      ∀ k, host.SeenAt (Host.elapsedAt timeout (Host.spawned s)) (Host.spawned s) k →
        (host.child.output .stderr).length ≤ host.capacity ∧
          host.ExcerptReady EXCERPT_LIMIT (Host.spawned s) k) ∧
    (∀ program args, host.ByStatus (Host.elapsedAt timeout (Host.spawned s)) .child
        (Host.spawned s) (dispatchRunner program timeout).Reports
        (host.runWithTimeout program args timeout s) ↔
      ∀ k, host.SeenAt (Host.elapsedAt timeout (Host.spawned s)) (Host.spawned s) k →
        (host.child.output .stderr).length ≤ host.capacity ∧
          (host.child.status.success = false →
            host.ExcerptReady STDERR_EXCERPT_LIMIT (Host.spawned s) k)) ∧
    ∀ cmd args deadline, host.interruptedAt deadline s.now = false →
      (host.ByStatus (host.interruptedAt deadline) .group (Host.spawned s) (ReportsCommand cmd)
        (host.runCommand cmd args deadline s) ↔
      ∀ k, host.EndsAtLook host.child.exitsAt (host.interruptedAt deadline) (Host.spawned s) k →
        ∀ stream, host.ClosedBy stream
          (host.ending host.child.exitsAt .group (Host.spawned s) k).2
          (host.ending host.child.exitsAt .group (Host.spawned s) k).2.now) := by
  refine ⟨fun cmd rest => ?_, fun cmd rest => ?_, fun program args => ?_,
    fun cmd args deadline hgoes => Host.runCommand_byStatus_iff cmd args hgoes⟩
  · refine (Host.runOnce_byStatus_iff _ timeout cmd rest s).trans ?_
    simp [validateRunner, Host.ExcerptReady]
  · refine (Host.runOnce_byStatus_iff _ timeout cmd rest s).trans ?_
    simp [cmdRunner, Host.ExcerptReady]
  · refine (Host.runOnce_byStatus_iff _ timeout program args s).trans ?_
    simp [dispatchRunner, Host.ExcerptReady]

/-- It writes a byte more than the pipe holds and exits with 0 at once. -/
def chattyValidator : Host where
  child :=
    { output := fun
        | .stdout => []
        | .stderr => List.replicate 65537 46
      status := ⟨some 0⟩
      exitsAt := some 0
      descendants := [] }
  capacity := 65536
  oversleep _ := 0
  cancelledAt := none
  lossy bytes := String.ofList (bytes.map fun b => Char.ofNat b.toNat)
  debugDuration _ := "5s"

/-- It exits with 0 at once and leaves a daemon behind that keeps stdout open. -/
def daemonInstaller : Host :=
  { chattyValidator with
    child :=
      { output := fun _ => []
        status := ⟨some 0⟩
        exitsAt := some 0
        descendants := [⟨fun stream => stream = .stdout, none, true⟩] } }

/-- The validator that succeeds at once is reported as timed out, and the installation does not
    come back. -/
theorem silent_verdicts_differ :
    chattyValidator.SeenAt (Host.elapsedAt 5000000000 (Host.spawned ⟨0, 0, false⟩))
      (Host.spawned ⟨0, 0, false⟩) 0 ∧
    chattyValidator.child.status.success = true ∧
    (∃ s', chattyValidator.validate ["nginx", "-t"] 5000000000 ⟨0, 0, false⟩ =
      some (.error (.timeout "5s"), s')) ∧
    daemonInstaller.child.status.success = true ∧
    daemonInstaller.runCommand "apt-get" ["install", "nginx"] 1800000000000 ⟨0, 0, false⟩ =
      none := by
  have hfull : chattyValidator.capacity < (chattyValidator.child.output .stderr).length := by
    have hlength : (chattyValidator.child.output .stderr).length = 65537 := List.length_replicate
    rw [hlength]
    exact Nat.lt_succ_self 65536
  obtain ⟨s', hrun⟩ := Host.runOnce_of_full (validateRunner chattyValidator 5000000000) 5000000000
    "nginx" ["-t"] ⟨0, 0, false⟩ hfull
  refine ⟨chattyValidator.seenAt_of_lt rfl (by decide)
    ⟨fun j hj => absurd hj (Nat.not_lt_zero j), .inl rfl⟩, rfl, ⟨s', ?_⟩, rfl, rfl⟩
  rw [Host.validate, hrun]
  rfl

end Bosun
