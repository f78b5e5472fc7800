import Bosun.Journal
import Bosun.Platform

/-!
# Replaying the journal

`defers/replay.rs`: one cycle goes once through the entries that were pending at
its beginning, in the order of their file names, and hands each of them to a
client.  What the client and the health-check runner answer is up to them and to
the world `W` they act on; the cycle only looks at the class of the answer.

The journal can be reached by the cycle only, so client and runner are given the
world and not the whole machine.  `trace` records what happened; nothing reads it.
-/

namespace Bosun

/-- `defers/action.rs` -/
inductive DispatchError
  | clientUnavailable
  | action (message : String)
deriving DecidableEq, Repr

inductive HealthCheckError
  | cmdExitNonZero (exitCode : Int) (attempts : U32) (stderrExcerpt : String)
  | cmdTimeout (argv : List String) (attempts : U32)
  | cmdSpawnError (source : String)
  | urlBadStatus (url : String) (actual expected : Nat) (attempts : U32)
  | urlTransport (url : String) (attempts : U32) (reason : String)
  | cancelled
deriving DecidableEq, Repr

/-- What a run of bosun leaves a record of. -/
inductive Event
  /-- The replay handed the entry to the client, which gave this answer. -/
  | dispatched (e : DeferEntry) (answer : Except DispatchError Unit)
  /-- The replay ran the health check of the entry. -/
  | healthChecked (e : DeferEntry) (answer : Except HealthCheckError Unit)

/-- Journal, outside world and record. -/
structure Machine (W : Type) where
  fs : Fs
  world : W
  trace : List Event

namespace Machine

variable {W : Type}

def log (events : List Event) (m : Machine W) : Machine W :=
  { m with trace := m.trace ++ events }

/-- An operation of the journal. -/
def journal {α : Type} (x : FsM α) (m : Machine W) : Except DeferError α × Machine W :=
  match x m.fs with
  | .ok a fs => (.ok a, { m with fs := fs })
  | .error e fs => (.error e, { m with fs := fs })

end Machine

/-- Carries out the action of an entry. -/
abbrev DispatchClient (W : Type) := DeferEntry → W → Except DispatchError Unit × W

abbrev HealthCheckRunner (W : Type) := HealthCheck → W → Except HealthCheckError Unit × W

structure ReplayReport where
  executed : U32
  skippedUnavailable : U32
  failed : U32
  promotedToManualClear : U32
  healthCheckFailed : U32
deriving DecidableEq, Repr

def ReplayReport.zero : ReplayReport := ⟨0, 0, 0, 0, 0⟩

/-- The arguments of a cycle. -/
structure ReplayArgs (W : Type) where
  client : DispatchClient W
  healthCheckRunner : HealthCheckRunner W
  platform : Platform W

namespace ReplayArgs

variable {W : Type} (args : ReplayArgs W)

/-- The action has succeeded, and the health check, if there is one, has passed. -/
def removeExecuted (entry : DeferEntry) (report : ReplayReport) (m : Machine W) :
    Except DeferError ReplayReport × Machine W :=
  match m.journal (Journal.remove entry) with
  | (.ok (), m) => (.ok { report with executed := report.executed.saturatingSucc }, m)
  | (.error e, m) => (.error e, m)

/-- A failed action or health check costs an attempt; `count` is the counter of
    the two that goes up when there are attempts left. -/
def spendAttempt (count : ReplayReport → ReplayReport) (entry : DeferEntry)
    (report : ReplayReport) (m : Machine W) : Except DeferError ReplayReport × Machine W :=
  match m.journal (Journal.bumpAttempt entry) with
  | (.error e, m) => (.error e, m)
  | (.ok updated, m) =>
    if updated.maxAttempts ≤ updated.attemptCount then
      match m.journal (Journal.moveToManualClear updated) with
      | (.error e, m) => (.error e, m)
      | (.ok (), m) => (.ok { report with
          promotedToManualClear := report.promotedToManualClear.saturatingSucc }, m)
    else (.ok (count report), m)

def countFailed (report : ReplayReport) : ReplayReport :=
  { report with failed := report.failed.saturatingSucc }

def countHealthCheckFailed (report : ReplayReport) : ReplayReport :=
  { report with healthCheckFailed := report.healthCheckFailed.saturatingSucc }

/-- After a successful action. -/
def checkHealth (entry : DeferEntry) (report : ReplayReport) (m : Machine W) :
    Except DeferError ReplayReport × Machine W :=
  match entry.healthCheck with
  | none => removeExecuted entry report m
  | some check =>
    let (answer, world) := args.healthCheckRunner check m.world
    let m := { m with world := world }.log [.healthChecked entry answer]
    match answer with
    | .ok () => removeExecuted entry report m
    -- a signal to stop, not a failure: the entry stays as it is
    | .error .cancelled => (.ok report, m)
    | .error _ => spendAttempt countHealthCheckFailed entry report m

/-- The body of the loop. -/
def replayEntry (entry : DeferEntry) (report : ReplayReport) (m : Machine W) :
    Except DeferError ReplayReport × Machine W :=
  let (answer, world) := args.client entry m.world
  let m := { m with world := world }.log [.dispatched entry answer]
  match answer with
  | .ok () => args.checkHealth entry report m
  | .error .clientUnavailable =>
    (.ok { report with skippedUnavailable := report.skippedUnavailable.saturatingSucc }, m)
  | .error (.action _) => spendAttempt countFailed entry report m

/-- `for entry in entries`; a cancelled token ends the loop, an error of the
    journal ends the cycle. -/
def replayEntries : List DeferEntry → ReplayReport → Machine W →
    Except DeferError ReplayReport × Machine W
  | [], report, m => (.ok report, m)
  | entry :: entries, report, m =>
    let (cancelled, world) := args.platform.isCancelled m.world
    let m := { m with world := world }
    if cancelled then (.ok report, m)
    else
      match args.replayEntry entry report m with
      | (.ok report, m) => replayEntries entries report m
      | (.error e, m) => (.error e, m)

/-- One cycle. -/
def replayWithHealthCheck (m : Machine W) : Except DeferError ReplayReport × Machine W :=
  match m.journal Journal.listSorted with
  | (.error e, m) => (.error e, m)
  | (.ok entries, m) => args.replayEntries entries .zero m

end ReplayArgs

end Bosun
