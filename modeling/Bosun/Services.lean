import Bosun.Dispatch
import Bosun.JournalSpec
import Bosun.Orchestrator

/-!
# `runr.service` and `systemd.service`

The two primitives that bring a unit to its desired state.  A unit that should
run and does not is started at once, one that should not run and does is stopped
at once; a restart or a reload asked for by `restart_on` or `reload_on` goes into
the defer journal and is left to a replay.

The two differ in the questions they ask of their init system and in how they
sort its errors; what they share is written once, with the init system as a
parameter.
-/

namespace Bosun

structure ServiceSpec where
  name : String
  state : ServiceState
  enable : Bool
  healthCheck : Option HealthCheck
  validateWith : Option (List String)
deriving DecidableEq

/-- The duration of a timeout is its text. -/
inductive ValidateError
  | exitNonZero (exitCode : Int) (stderrExcerpt : String)
  | timeout (duration : String)
  | spawn (source : String)
deriving DecidableEq, Repr

/-- What the two primitives see of the context, and how they decode a payload.
    A payload without `enable` decodes differently in the two. -/
structure ServiceEnv (P V : Type) where
  runrSpec : P → Except String ServiceSpec
  systemdSpec : P → Except String ServiceSpec
  /-- `{"runr": "current state pending lookup"}` and its like -/
  pendingLookup : InitSystem → P
  runr : Option (RunrHandle V)
  systemd : Option (SystemdHandle V)
  validator : List String → ClientCall V ValidateError Unit
  healthCheckRunner : HealthCheckRunner V
  utcNow : V → Nat
  journalRoot : String

/-! ## The state of a run -/

/-- `runr_daemon_reload_done` and `systemd_daemon_reload_done` are new in every
    run. -/
structure RunState (V : Type) where
  machine : Machine (World V)
  runrDaemonReloadDone : Bool
  systemdDaemonReloadDone : Bool

abbrev ApplyM (V : Type) := EStateM PrimitiveError (RunState V)

namespace RunState

variable {V : Type}

def setWorld (w : World V) (s : RunState V) : RunState V :=
  { s with machine := { s.machine with world := w } }

@[simp] theorem world_setWorld (w : World V) (s : RunState V) :
    (s.setWorld w).machine.world = w := rfl

@[simp] theorem fs_setWorld (w : World V) (s : RunState V) :
    (s.setWorld w).machine.fs = s.machine.fs := rfl

end RunState

namespace ApplyM

variable {V ε α : Type}

def note (acts : List Act) : ApplyM V Unit :=
  modify fun s => s.setWorld (s.machine.world.note acts)

/-- For the record: the unit is stopped now, and this is what is pending. -/
def noteStopped (id : ResourceId) (init : InitSystem) (name : String) : ApplyM V Unit :=
  modify fun s => s.setWorld
    (s.machine.world.note [.stopped id init name (Journal.pending s.machine.fs.dir)])

/-- A call that answers; its error is a value here. -/
def ask (call : World V → Except ε α × World V) : ApplyM V (Except ε α) := fun s =>
  let (answer, w) := call s.machine.world
  .ok answer (s.setWorld w)

/-- Anything done outside that is not put on record. -/
def outside (call : V → α × V) : ApplyM V α := fun s =>
  let (answer, v) := call s.machine.world.outside
  .ok answer (s.setWorld { s.machine.world with outside := v })

def journal (x : FsM α) : ApplyM V (Except DeferError α) := fun s =>
  let (answer, machine) := s.machine.journal x
  .ok answer { s with machine := machine }

/-- `map_err(f)?` -/
def orThrow (f : ε → PrimitiveError) (answer : Except ε α) : ApplyM V α :=
  match answer with
  | .ok a => pure a
  | .error err => throw (f err)

end ApplyM

/-! ## Errors -/

/-- `map_runr_error`: what the transport reports is worth another cycle. -/
def mapRunrError (err : RunrError) (baseUrl op : String) : PrimitiveError :=
  match err with
  | .unavailable baseUrl source => .runrUnavailable baseUrl (op ++ ": " ++ source)
  | .notFound kind name =>
    .apply ("runr " ++ kind ++ " not found: " ++ name ++ " (during " ++ op ++ ")")
  | .apiError status body => .apply ("runr API error during " ++ op ++ ": status=" ++
      toString status ++ ", body=" ++ body)
  | .badResponse message =>
    .apply ("runr returned invalid JSON during " ++ op ++ ": " ++ message)
  | .restartNotObserved unit =>
    .apply ("runr restart of " ++ unit ++ " not observed (op=" ++ op ++ ")")
  | .startNotObserved unit lastState => .apply ("runr start of " ++ unit ++
      " did not reach Running (last=" ++ lastState ++ ", op=" ++ op ++ ")")
  | .serviceStartFailed unit =>
    .apply ("runr " ++ unit ++ " entered Failed after start (op=" ++ op ++ ")")
  | .io source => .runrUnavailable baseUrl (op ++ ": i/o error: " ++ source)

/-- `map_systemd_error`, with the table in its comment. -/
def mapSystemdError (err : SystemdError) (op : String) : PrimitiveError :=
  match err with
  | .busUnavailable reason => .systemdUnavailable (op ++ ": bus unavailable: " ++ reason)
  | .dbus source => .systemdUnavailable (op ++ ": dbus error: " ++ source)
  | .noSuchUnit name => .apply ("systemd unit not found: " ++ name ++ " (during " ++ op ++ ")")
  | .authorizationDenied action unit => .apply ("authorization denied for " ++ action ++ " on " ++
      unit ++ " (during " ++ op ++ "); run as root or add a polkit rule")
  | .jobFailed job result activeState => .apply ("systemd job " ++ job ++ " failed during " ++ op ++
      ": result=" ++ result ++ ", active_state=" ++ activeState)
  | .restartNotObserved unit =>
    .apply ("restart of " ++ unit ++ " not observed (op=" ++ op ++ ")")
  | .timeout duration =>
    .systemdUnavailable (op ++ ": timeout after " ++ duration ++ " waiting for job")
  | .io source => .io ("systemd " ++ op) source

def mapValidateError (err : ValidateError) (validator : String) : PrimitiveError :=
  .validation validator <|
    match err with
    | .exitNonZero _ stderrExcerpt => stderrExcerpt
    | .timeout duration => "timeout after " ++ duration
    | .spawn source => "failed to spawn: " ++ source

/-- The text of a failed health check. -/
def HealthCheckError.display : HealthCheckError → String
  | cmdExitNonZero exitCode attempts stderrExcerpt => "cmd health-check exited with code " ++
      toString exitCode ++ " after " ++ toString attempts.val ++ " attempts: " ++ stderrExcerpt
  | cmdTimeout argv attempts => "cmd health-check timed out on every attempt (" ++
      toString attempts.val ++ " total): [" ++ ", ".intercalate (argv.map String.quote) ++ "]"
  | cmdSpawnError source => "cmd health-check failed to spawn: " ++ source
  | urlBadStatus url actual expected attempts => "url health-check expected status " ++
      toString expected ++ " but got " ++ toString actual ++ " after " ++ toString attempts.val ++
      " attempts: " ++ url
  | urlTransport url attempts reason => "url health-check transport error after " ++
      toString attempts.val ++ " attempts on " ++ url ++ ": " ++ reason
  | cancelled => "health-check cancelled by deadline or signal"

def IoError.display : IoError → String
  | notFound => "No such file or directory (os error 2)"
  | other message => message

/-- The text of an error of the journal; what the JSON parser says is not kept. -/
def DeferError.display : DeferError → String
  | io path source => "defer journal i/o error at " ++ path ++ ": " ++ source.display
  | serde path => "defer journal serde error at " ++ path
  | clock => "system clock is before unix epoch"
  | unsafeRoot path reason => "defer journal root " ++ path ++ " is unsafe: " ++ reason

/-! ## Plan -/

/-- `Action` of the two `plan.rs`. -/
inductive ServiceAction
  | noChange
  | start
  | stop
  | restart
  | reload
deriving DecidableEq, Repr

/-- The table desired × current × notify. -/
def decideAction (spec : ServiceSpec) (isUp restartTriggered reloadTriggered : Bool) :
    ServiceAction :=
  match spec.state with
  | .running =>
    if isUp then
      if restartTriggered then .restart
      else if reloadTriggered then .reload
      else .noChange
    else .start
  | .stopped | .absent => if isUp then .stop else .noChange

def RUNNING_STATE : String := "Running"

def ACTIVE_STATE : String := "active"

def decideActionRunr (spec : ServiceSpec) (current : Option ServiceStatus) :
    Bool → Bool → ServiceAction :=
  decideAction spec ((current.map fun s => decide (s.state = RUNNING_STATE)).getD false)

def decideActionSystemd (spec : ServiceSpec) (current : Option UnitInfo) :
    Bool → Bool → ServiceAction :=
  decideAction spec ((current.map fun u => decide (u.activeState = ACTIVE_STATE)).getD false)

/-- `runr.service:nginx`, as messages name a unit. -/
def serviceLabel (init : InitSystem) (name : String) : String :=
  init.tag ++ ".service:" ++ name

namespace ServiceEnv

variable {P V : Type} (env : ServiceEnv P V)

def decode (init : InitSystem) (payload : P) : Except PrimitiveError ServiceSpec :=
  let spec := match init with
    | .runr => env.runrSpec payload
    | .systemd => env.systemdSpec payload
  match spec with
  | .ok spec => .ok spec
  | .error e => .error (.invalidPayload (init.tag ++ ".service payload: " ++ e))

/-- Whether there is anything to do is found out by the apply. -/
def computeDiff (init : InitSystem) (r : Resource P) : Except PrimitiveError (Diff P) :=
  match env.decode init r.payload with
  | .ok spec => .ok (.update (env.pendingLookup init) r.payload
      ("converge " ++ serviceLabel init spec.name))
  | .error err => .error err

/-! ## Apply: the parts both share -/

/-- An empty `validate_with` counts as none. -/
def runValidateIfConfigured (spec : ServiceSpec) : ApplyM V Unit :=
  match spec.validateWith with
  | none | some [] => pure ()
  | some (program :: args) => do
    let answer ← ApplyM.outside (env.validator (program :: args))
    ApplyM.note [.validated (program :: args) answer.isOk]
    ApplyM.orThrow (mapValidateError · program) answer

/-- After a start. -/
def runHealthCheckIfConfigured (spec : ServiceSpec) : ApplyM V Unit :=
  match spec.healthCheck with
  | none => pure ()
  | some check => do
    match ← ApplyM.outside (env.healthCheckRunner check) with
    | .ok () => pure ()
    | .error .cancelled => throw .cancelled
    | .error err => throw (.healthCheckFailed spec.name err.display)

/-- The resources that have changed among those notified about. -/
def collectNotifySources (r : Resource P) (changed : Finset ResourceId)
    (restartTriggered reloadTriggered : Bool) : List String :=
  let restarts := if restartTriggered then r.restartOn.filter (· ∈ changed) else []
  let reloads := if reloadTriggered then r.reloadOn.filter (· ∈ changed) else []
  (((restarts ++ reloads).map ResourceId.asStr).insertionSort (· ≤ ·)).dedup

def DEFAULT_MAX_ATTEMPTS : U32 := 3

/-- The entry for a restart or a reload of the unit. -/
def deferEntry (init : InitSystem) (spec : ServiceSpec) (action : DeferAction)
    (priority : DeferPriority) (sources : List String) (now : Nat) : DeferEntry where
  specVersion := CURRENT_SPEC_VERSION
  id := makeId init.tag action spec.name
  action := action
  initSystem := init.tag
  target := spec.name
  validateCmd := spec.validateWith
  healthCheck := spec.healthCheck
  priority := priority
  enqueuedAt := now
  enqueuedBy := sources
  attemptCount := 0
  maxAttempts := DEFAULT_MAX_ATTEMPTS

def enqueueDefer (init : InitSystem) (spec : ServiceSpec) (action : DeferAction)
    (priority : DeferPriority) (sources : List String) : ApplyM V ChangeReport := do
  let s ← get
  let now := env.utcNow s.machine.world.outside
  let answer ← ApplyM.journal (Journal.enqueue (deferEntry init spec action priority sources now))
  let _ ← ApplyM.orThrow (fun e => .deferIo env.journalRoot e.display) answer
  pure (.ofDeferred ("deferred " ++ action.filenameSlug ++ " of " ++ serviceLabel init spec.name))

/-- The `match action`, with the two operations that are carried out at once. -/
def performAction (id : ResourceId) (init : InitSystem) (spec : ServiceSpec)
    (action : ServiceAction) (sources : List String)
    (executeStart executeStop : ApplyM V ChangeReport) : ApplyM V ChangeReport :=
  match action with
  | .noChange => do
    -- a unit that should not run was found stopped
    if spec.state ≠ .running then ApplyM.noteStopped id init spec.name
    pure .noChange
  | .start => do
    let report ← executeStart
    env.runHealthCheckIfConfigured spec
    pure report
  | .stop => do
    let report ← executeStop
    ApplyM.noteStopped id init spec.name
    pure report
  | .restart => do
    env.runValidateIfConfigured spec
    env.enqueueDefer init spec .restart .restart sources
  | .reload => do
    env.runValidateIfConfigured spec
    env.enqueueDefer init spec .reload .reload sources

/-- Did any of these resources change in this run? -/
def triggered (ids : List ResourceId) (changed : Finset ResourceId) : Bool :=
  ids.any (· ∈ changed)

/-! ## `runr.service` -/

/-- One reload of the daemon for the whole run, unless the daemon cannot be
    reached. -/
def runrDaemonReload (id : ResourceId) (runr : RunrHandle V) : ApplyM V Unit := do
  let s ← get
  set { s with runrDaemonReloadDone := true }
  if s.runrDaemonReloadDone then pure ()
  else
    match ← ApplyM.ask (RunrHandle.query (.apply id) .daemonReload runr.daemonReload) with
    | .ok () => pure ()
    | .error (.unavailable baseUrl source) => do
      modify fun s => { s with runrDaemonReloadDone := false }
      throw (.runrUnavailable baseUrl ("daemon_reload: " ++ source))
    | .error other => throw (.apply ("runr.daemon_reload failed: " ++ other.display))

def runrExecuteStart (id : ResourceId) (runr : RunrHandle V) (spec : ServiceSpec) :
    ApplyM V ChangeReport := do
  let started ← ApplyM.ask (runr.call (.apply id) .start spec.name)
  ApplyM.orThrow (mapRunrError · runr.baseUrl "service_start") started
  let verified ← ApplyM.ask (RunrHandle.query (.apply id) .verifyStart (runr.verifyStart spec.name))
  let _ ← ApplyM.orThrow (mapRunrError · runr.baseUrl "verify_start") verified
  pure (.ofChanged ("started " ++ serviceLabel .runr spec.name))

def runrExecuteStop (id : ResourceId) (runr : RunrHandle V) (spec : ServiceSpec) :
    ApplyM V ChangeReport := do
  let stopped ← ApplyM.ask (runr.call (.apply id) .stop spec.name)
  ApplyM.orThrow (mapRunrError · runr.baseUrl "service_stop") stopped
  pure (.ofChanged ("stopped " ++ serviceLabel .runr spec.name))

/-- Steps 1 and 2: what the daemon says about the unit. -/
def runrCurrent (id : ResourceId) (runr : RunrHandle V) (spec : ServiceSpec) :
    ApplyM V (Option ServiceStatus) := do
  runrDaemonReload id runr
  let answer ← ApplyM.ask (RunrHandle.query (.apply id) .serviceStatuses runr.serviceStatuses)
  let statuses ← ApplyM.orThrow (mapRunrError · runr.baseUrl "service_statuses") answer
  pure (statuses.find? fun status => status.name = spec.name)

/-- `runr_service/apply.rs`, `run`. -/
def runrRun (r : Resource P) (diff : Diff P) (changed : Finset ResourceId) :
    ApplyM V ChangeReport :=
  match diff with
  | .noChange => pure .noChange
  | .add _ _ | .update _ _ _ => do
    let spec ← ApplyM.orThrow (fun e => e) (env.decode .runr r.payload)
    ApplyM.note [.wanted r.id .runr spec.name spec.state]
    match env.runr with
    | none => throw (.runrUnavailable "n/a" "runr client not initialized in ApplyCtx")
    | some runr => do
      let current ← runrCurrent r.id runr spec
      let restartTriggered := triggered r.restartOn changed
      let reloadTriggered := triggered r.reloadOn changed
      let action := decideActionRunr spec current restartTriggered reloadTriggered
      env.performAction r.id .runr spec action
        (collectNotifySources r changed restartTriggered reloadTriggered)
        (runrExecuteStart r.id runr spec) (runrExecuteStop r.id runr spec)

/-! ## `systemd.service` -/

/-- A reload of the daemon if this unit needs one and there has been none. -/
def systemdDaemonReload (id : ResourceId) (systemd : SystemdHandle V) (spec : ServiceSpec) :
    ApplyM V Unit := do
  if (← get).systemdDaemonReloadDone then pure ()
  else
    let answer ← ApplyM.ask
      (SystemdHandle.query (.apply id) .needsDaemonReload (systemd.needsDaemonReload spec.name))
    if ← ApplyM.orThrow (mapSystemdError · "needs_daemon_reload") answer then
      modify fun s => { s with systemdDaemonReloadDone := true }
      match ← ApplyM.ask (SystemdHandle.query (.apply id) .daemonReload systemd.daemonReload) with
      | .ok () => pure ()
      | .error err => do
        modify fun s => { s with systemdDaemonReloadDone := false }
        throw (mapSystemdError err "daemon_reload")

def systemdEnable (id : ResourceId) (systemd : SystemdHandle V) (spec : ServiceSpec) :
    ApplyM V Unit := do
  if spec.enable then
    let answer ← ApplyM.ask
      (SystemdHandle.query (.apply id) .isUnitEnabled (systemd.isUnitEnabled spec.name))
    if !(← ApplyM.orThrow (mapSystemdError · "is_unit_enabled") answer) then
      let answer ← ApplyM.ask
        (SystemdHandle.query (.apply id) .enableUnit (systemd.enableUnit spec.name))
      ApplyM.orThrow (mapSystemdError · "enable_unit") answer

/-- Steps 1 to 3; a unit that is not loaded counts as not active. -/
def systemdCurrent (id : ResourceId) (systemd : SystemdHandle V) (spec : ServiceSpec) :
    ApplyM V (Option UnitInfo) := do
  systemdDaemonReload id systemd spec
  systemdEnable id systemd spec
  match ← ApplyM.ask (SystemdHandle.query (.apply id) .unitInfo (systemd.unitInfo spec.name)) with
  | .ok info => pure (some info)
  | .error (.noSuchUnit _) => pure none
  | .error err => throw (mapSystemdError err "unit_info")

/-- A start that leaves the same invocation running is none. -/
def verifyInvocationChange (before : Option UnitInfo) (after : UnitInfo) (spec : ServiceSpec) :
    Except PrimitiveError Unit :=
  match before with
  | none => .ok ()
  | some before =>
    if before.invocationId = "" then .ok ()
    else if after.invocationId ≠ "" ∧ after.invocationId = before.invocationId then
      .error (.apply (serviceLabel .systemd spec.name ++
        ": restart not observed (InvocationID unchanged: " ++ before.invocationId ++ ")"))
    else .ok ()

def systemdExecuteStart (id : ResourceId) (systemd : SystemdHandle V) (spec : ServiceSpec)
    (before : Option UnitInfo) : ApplyM V ChangeReport := do
  let started ← ApplyM.ask (systemd.call (.apply id) .start spec.name)
  ApplyM.orThrow (mapSystemdError · "start_unit") started
  let answer ← ApplyM.ask (SystemdHandle.query (.apply id) .unitInfo (systemd.unitInfo spec.name))
  let after ← ApplyM.orThrow (mapSystemdError · "unit_info") answer
  ApplyM.orThrow (fun e => e) (verifyInvocationChange before after spec)
  pure (.ofChanged ("started " ++ serviceLabel .systemd spec.name))

def systemdExecuteStop (id : ResourceId) (systemd : SystemdHandle V) (spec : ServiceSpec) :
    ApplyM V ChangeReport := do
  let stopped ← ApplyM.ask (systemd.call (.apply id) .stop spec.name)
  ApplyM.orThrow (mapSystemdError · "stop_unit") stopped
  pure (.ofChanged ("stopped " ++ serviceLabel .systemd spec.name))

/-- `systemd_service/apply.rs`, `run`. -/
def systemdRun (r : Resource P) (diff : Diff P) (changed : Finset ResourceId) :
    ApplyM V ChangeReport :=
  match diff with
  | .noChange => pure .noChange
  | .add _ _ | .update _ _ _ => do
    let spec ← ApplyM.orThrow (fun e => e) (env.decode .systemd r.payload)
    ApplyM.note [.wanted r.id .systemd spec.name spec.state]
    match env.systemd with
    | none => throw (.systemdUnavailable "systemd client not initialized in ApplyCtx")
    | some systemd => do
      let before ← systemdCurrent r.id systemd spec
      let restartTriggered := triggered r.restartOn changed
      let reloadTriggered := triggered r.reloadOn changed
      let action := decideActionSystemd spec before restartTriggered reloadTriggered
      env.performAction r.id .systemd spec action
        (collectNotifySources r changed restartTriggered reloadTriggered)
        (systemdExecuteStart r.id systemd spec before) (systemdExecuteStop r.id systemd spec)

/-! ## The primitives -/

def run (init : InitSystem) (r : Resource P) (diff : Diff P) (changed : Finset ResourceId) :
    ApplyM V ChangeReport :=
  match init with
  | .runr => env.runrRun r diff changed
  | .systemd => env.systemdRun r diff changed

/-- Neither of them records a change of its own. -/
def primitive (init : InitSystem) : Primitive P (RunState V) where
  plan r s := (.returned (env.computeDiff init r), s)
  apply r diff ctx :=
    match env.run init r diff ctx.changedResources ctx.state with
    | .ok report s => (.returned (.ok report), { ctx with state := s })
    | .error err s => (.returned (.error err), { ctx with state := s })

end ServiceEnv

end Bosun
