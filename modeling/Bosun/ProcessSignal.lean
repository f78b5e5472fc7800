import Bosun.Services

/-!
# `process.signal`

Sends a signal to a process by `pkill`, at once or through the defer journal.  Of
the primitives it is the only one besides the two services that puts anything
into the journal, and what it puts there is a command, which belongs to no init
system.
-/

namespace Bosun

structure ProcessSignalSpec where
  name : String
  signal : String
  processName : Option String
  processUser : Option String
  deferred : Bool
deriving DecidableEq

/-- How a payload is decoded, and what runs `pkill`. -/
structure SignalEnv (P V : Type) where
  spec : P → Except String ProcessSignalSpec
  /-- `{"process.signal": "stateless"}` -/
  stateless : P
  runner : List String → ClientCall V String Unit

def ALLOWED_SIGNALS : List String := ["HUP", "TERM", "INT", "USR1", "USR2", "WINCH", "PIPE"]

/-- `raw.strip_prefix("SIG").unwrap_or(raw)` -/
def stripSig (raw : String) : String :=
  match raw.toList with
  | 'S' :: 'I' :: 'G' :: bare => String.ofList bare
  | _ => raw

def normalizeSignal (raw : String) : Except PrimitiveError String :=
  let bare := stripSig raw
  if bare ∈ ALLOWED_SIGNALS then .ok bare
  else .error (.invalidPayload ("process.signal: signal " ++ raw.quote ++ " not in allowlist [" ++
    ", ".intercalate (ALLOWED_SIGNALS.map String.quote) ++
    "]; KILL/STOP/CONT excluded by design — use service.unit for stopping"))

/-- The signal is looked at first. -/
def buildSignalArgv (spec : ProcessSignalSpec) : Except PrimitiveError (List String) := do
  let normalized ← normalizeSignal spec.signal
  match spec.processName, spec.processUser with
  | some name, none => .ok ["pkill", "--signal", normalized, name]
  | none, some user => .ok ["pkill", "--signal", normalized, "-u", user]
  | some _, some _ => .error (.invalidPayload ("process.signal '" ++ spec.name ++
      "': exactly one of process_name/process_user required, got both"))
  | none, none => .error (.invalidPayload ("process.signal '" ++ spec.name ++
      "': exactly one of process_name/process_user required, got neither"))

def describeSelector (spec : ProcessSignalSpec) : String :=
  match spec.processName, spec.processUser with
  | some n, none => "by-name=" ++ n
  | none, some u => "by-user=" ++ u
  | some n, some u => "by-name=" ++ n ++ " by-user=" ++ u ++ " (invalid)"
  | none, none => "no-selector (invalid)"

namespace SignalEnv

def DEFAULT_MAX_ATTEMPTS : U32 := 3

/-- The entry of a deferred signal; its id is not the one `make_id` gives to a
    command. -/
def signalEntry (spec : ProcessSignalSpec) (argv : List String) (now : Nat) : DeferEntry where
  specVersion := CURRENT_SPEC_VERSION
  id := "process.signal:" ++ spec.name
  action := .command argv
  initSystem := ""
  target := spec.name
  validateCmd := none
  healthCheck := none
  priority := .command
  enqueuedAt := now
  enqueuedBy := []
  attemptCount := 0
  maxAttempts := DEFAULT_MAX_ATTEMPTS

variable {P V : Type} (env : SignalEnv P V)

def decode (payload : P) : Except PrimitiveError ProcessSignalSpec :=
  match env.spec payload with
  | .ok spec => .ok spec
  | .error e => .error (.invalidPayload ("process.signal payload: " ++ e))

def computeDiff (r : Resource P) : Except PrimitiveError (Diff P) := do
  let spec ← env.decode r.payload
  let _ ← buildSignalArgv spec
  .ok (.update env.stateless r.payload
    ("send " ++ stripSig spec.signal ++ " to " ++ describeSelector spec))

def enqueueDefer (utcNow : V → Nat) (journalRoot : String) (spec : ProcessSignalSpec)
    (argv : List String) : ApplyM V ChangeReport := do
  let s ← get
  let now := utcNow s.machine.world.outside
  let answer ← ApplyM.journal (Journal.enqueue (signalEntry spec argv now))
  let _ ← ApplyM.orThrow (fun e => .deferIo journalRoot e.display) answer
  pure (.ofDeferred ("queued " ++ spec.signal ++ " signal for " ++ describeSelector spec))

def executeSync (spec : ProcessSignalSpec) (argv : List String) : ApplyM V ChangeReport := do
  let answer ← ApplyM.outside (env.runner argv)
  ApplyM.orThrow .apply answer
  pure (.ofChanged ("sent " ++ spec.signal ++ " signal to " ++ describeSelector spec))

/-- `process_signal/apply.rs`, `run`. -/
def run (utcNow : V → Nat) (journalRoot : String) (r : Resource P) (diff : Diff P) :
    ApplyM V ChangeReport :=
  match diff with
  | .noChange => pure .noChange
  | .add _ _ | .update _ _ _ => do
    let spec ← ApplyM.orThrow (fun e => e) (env.decode r.payload)
    let argv ← ApplyM.orThrow (fun e => e) (buildSignalArgv spec)
    if spec.deferred then enqueueDefer utcNow journalRoot spec argv
    else env.executeSync spec argv

def primitive (utcNow : V → Nat) (journalRoot : String) : Primitive P (RunState V) where
  plan r s := (.returned (env.computeDiff r), s)
  apply r diff ctx :=
    match env.run utcNow journalRoot r diff ctx.state with
    | .ok report s => (.returned (.ok report), { ctx with state := s })
    | .error err s => (.returned (.error err), { ctx with state := s })

end SignalEnv

end Bosun
