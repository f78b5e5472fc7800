import Bosun.AptKey
import Bosun.HealthCheck
import Bosun.Library.Hoare
import Bosun.Text

/-!
# `apt.package`

The packages are apt's: the primitive asks `dpkg-query`, runs `apt-get`, and after a failed
installation runs at most one recovery and tries once more.

Every command goes through the runner, with a deadline of its own; the state records the
commands in the order in which they were run, each with its answer.  The answers are arbitrary,
and so is what the lock on dpkg's frontend is found to be.
-/

namespace Bosun

/-! ## The spec -/

inductive AptPackageState
  | present
  | absent
  | purged
deriving DecidableEq, Repr

structure AptPackageSpec where
  name : String
  version : Option String
  state : AptPackageState
  timeoutSec : Nat
  allowDowngrade : Bool
  allowChangeHeld : Bool

/-! ## The runner -/

/-- The code is missing when a signal ended the command. -/
structure CommandResult where
  exitCode : Option Int
  stdout : String
  stderr : String
deriving DecidableEq, Repr

/-- What `F_GETLK` finds. -/
inductive FrontendLock
  | unlocked
  | locked (pid : Int)

structure AptEnv {S : Type} (plat : Platform S) where
  /-- `CommandRunner::run`: command, arguments and deadline -/
  runCommand : String → List String → Nat → S → Except PrimitiveError CommandResult × S
  openLock : String → S → Except String Unit × S
  getLock : S → Except String FrontendLock × S
  /-- creates the directory and overwrites the log; errors are dropped -/
  writeLog : String → String → S → S
  /-- a pause, varied at random by so many per cent -/
  scaled : Nat → Nat → S → Nat × S

/-- A command that was run. -/
structure AptCall where
  cmd : String
  args : List String
  deadline : Nat
  answer : Except PrimitiveError CommandResult

structure AptState (S : Type) where
  world : S
  calls : List AptCall

abbrev AptM (S : Type) := EStateM PrimitiveError (AptState S)

namespace AptM

variable {S α : Type}

/-- Something happens outside. -/
def outside (f : S → α × S) : AptM S α := fun s =>
  .ok (f s.world).1 { s with world := (f s.world).2 }

def ofExcept : Except PrimitiveError α → AptM S α
  | .ok a => pure a
  | .error e => throw e

/-- `if let Err(e) = …`: `onError`, and then the error. -/
def orElse (x : AptM S α) (onError : PrimitiveError → AptM S Unit) : AptM S α := fun s =>
  match x s with
  | .ok a s' => .ok a s'
  | .error e s' => (do onError e; throw e : AptM S α) s'

theorem bind_ok {β : Type} {x : AptM S α} {s s' : AptState S} {a : α} (h : x s = .ok a s')
    (f : α → AptM S β) : (x >>= f) s = f a s' := by
  show EStateM.bind x f s = _
  unfold EStateM.bind
  rw [h]

theorem bind_error {β : Type} {x : AptM S α} {s s' : AptState S} {e : PrimitiveError}
    (h : x s = .error e s') (f : α → AptM S β) : (x >>= f) s = .error e s' := by
  show EStateM.bind x f s = _
  unfold EStateM.bind
  rw [h]

end AptM

/-! ## What the answers mean -/

inductive InstallOutcome
  | success
  | dpkgInterrupted
  | candidateMissing
  | otherFailure
deriving DecidableEq, Repr

def analyzeInstallResult (result : CommandResult) : InstallOutcome :=
  if result.exitCode = some 0 then .success
  else if result.exitCode = some 100 then
    if containsText result.stderr "dpkg was interrupted" then .dpkgInterrupted
    else if containsText result.stderr "Unable to locate package" ||
        containsText result.stderr "Unable to fetch some archives" then .candidateMissing
    else .otherFailure
  else .otherFailure

inductive UpdateFailure
  | retriable
  | nonRetriable
deriving DecidableEq, Repr

def RETRIABLE_PATTERNS : List String :=
  ["connection refused", "timed out", "Temporary failure in name resolution", "503", "504",
    "Hash Sum mismatch"]

def classifyUpdateFailure (stderr : String) : UpdateFailure :=
  if containsText stderr "GPG error" || containsText stderr "permission denied" then .nonRetriable
  else if trim stderr.toList = [] then .retriable
  else if RETRIABLE_PATTERNS.any (containsText stderr) then .retriable
  else .nonRetriable

/-- The first and the last ten lines. -/
def stderrExcerpt (stderr : String) : String :=
  let lines := (linesOf stderr).map String.ofList
  if lines.length ≤ 20 then stderr
  else
    let elided := lines.length - 20
    "\n".intercalate (lines.take 10) ++ "\n... [" ++ toString elided ++ " lines elided] ...\n" ++
      "\n".intercalate (lines.drop (lines.length - 10))

inductive DpkgStatus
  | notInstalled
  | configFiles
  | other (word : String)
deriving DecidableEq, Repr

/-- What `dpkg-query` says of the package. -/
def statusOf (result : CommandResult) : DpkgStatus :=
  if result.exitCode ≠ some 0 then .notInstalled
  else
    let statusWord := trim result.stdout.toList
    if statusWord = "not-installed".toList then .notInstalled
    else if statusWord = "config-files".toList then .configFiles
    else .other (String.ofList statusWord)

def needsActionForState (purge : Bool) : DpkgStatus → Bool
  | .notInstalled => false
  | .configFiles => purge
  | .other _ => true

/-! ## The commands -/

def installArgs (spec : AptPackageSpec) : List String :=
  ["install", "-qy", "-oDpkg::Options::=--force-confdef", "-oDpkg::Options::=--force-confold",
    "-oAPT::Acquire::Retries=3", "-oDPkg::Lock::Timeout=30"] ++
  (if spec.allowDowngrade then ["--allow-downgrades"] else []) ++
  (if spec.allowChangeHeld then ["--allow-change-held-packages"] else []) ++
  [match spec.version with
    | some v => spec.name ++ "=" ++ v
    | none => spec.name]

def actionWord (purge : Bool) : String := if purge then "purge" else "remove"

def removeArgs (spec : AptPackageSpec) (purge : Bool) : List String :=
  [actionWord purge, "-qy", "-oDpkg::Options::=--force-confdef",
    "-oDpkg::Options::=--force-confold", "-oDPkg::Lock::Timeout=30"] ++
  (if spec.allowChangeHeld then ["--allow-change-held-packages"] else []) ++ [spec.name]

def queryArgs (spec : AptPackageSpec) : List String :=
  ["-W", "-f=$\x7bdb:Status-Status\x7d\n", spec.name]

def UPDATE_ARGS : List String :=
  ["update", "-q", "-oAPT::Acquire::Retries=3", "-oDPkg::Lock::Timeout=30"]

def installSuccessMessage (spec : AptPackageSpec) : String :=
  match spec.version with
  | some v => "installed " ++ spec.name ++ "=" ++ v
  | none => "installed " ++ spec.name

def removeSuccessMessage (spec : AptPackageSpec) (purge : Bool) : String :=
  if purge then "purged " ++ spec.name else "removed " ++ spec.name

structure AptUpdatePolicy where
  perAttemptTimeout : Nat
  maxAttempts : Nat
  backoffs : List Nat
  jitterPct : Nat

def DPKG_CONFIGURE_TIMEOUT : Nat := fromSecs 60

def AptUpdatePolicy.default : AptUpdatePolicy where
  perAttemptTimeout := fromSecs 30
  maxAttempts := 3
  backoffs := [fromSecs 5, fromSecs 10, fromSecs 20]
  jitterPct := 25

/-- What `apply` reads of its context. -/
structure AptCtx where
  deadline : Nat
  logDir : String
  dpkgLockPath : String

namespace AptEnv

variable {S : Type} {plat : Platform S} (env : AptEnv plat) (ctx : AptCtx)

def run (cmd : String) (args : List String) (deadline : Nat) : AptM S CommandResult := fun s =>
  let (answer, world) := env.runCommand cmd args deadline s.world
  AptM.ofExcept answer ⟨world, s.calls ++ [⟨cmd, args, deadline, answer⟩]⟩

def log (step stderr : String) : AptM S Unit :=
  AptM.outside fun w =>
    ((), env.writeLog (ctx.logDir ++ "/apt-" ++ step ++ "-last-error.log") stderr w)

/-- An empty stderr is not worth a log. -/
def logNonempty (step stderr : String) : AptM S Unit :=
  if stderr = "" then pure () else env.log ctx step stderr

/-- `Instant::now()` -/
def now (_ : AptEnv plat) : AptM S Nat :=
  AptM.outside fun w => (plat.clock (plat.tick w), plat.tick w)

def checkCancelOrDeadline (_ : AptEnv plat) (ctx : AptCtx) : AptM S Unit := do
  if ← AptM.outside (plat.cancelledOrPastDeadline ctx.deadline) then throw .cancelled
  else return

/-- `fcntl(F_GETLK)` on the frontend lock. -/
def probeDpkgLock : AptM S Unit := do
  match ← AptM.outside (env.openLock ctx.dpkgLockPath) with
  | .error e => throw (.io ("open " ++ ctx.dpkgLockPath ++ " for lock probe") e)
  | .ok () =>
    match ← AptM.outside env.getLock with
    | .error e => throw (.io ("fcntl(F_GETLK) " ++ ctx.dpkgLockPath) e)
    | .ok .unlocked => return
    | .ok (.locked pid) => throw (.dpkgLocked (if 0 < pid then some pid else none))

def computeResourceDeadline (timeoutSec : Nat) : AptM S Nat := do
  let fromSpec := (← env.now) + fromSecs timeoutSec
  return min ctx.deadline fromSpec

/-! ## Removing -/

def queryDpkgStatus (spec : AptPackageSpec) (deadline : Nat) : AptM S DpkgStatus := do
  return statusOf (← env.run "dpkg-query" (queryArgs spec) deadline)

/-- The second half of `run_remove`. -/
def removeOrPurge (spec : AptPackageSpec) (deadline : Nat) (purge : Bool) :
    AptM S ChangeReport := do
  let result ← env.run "apt-get" (removeArgs spec purge) deadline
  if result.exitCode = some 0 then
    env.logNonempty ctx (actionWord purge) result.stderr
    return .ofChanged (removeSuccessMessage spec purge)
  else
    env.log ctx (actionWord purge) result.stderr
    throw (.exec ("apt-get " ++ actionWord purge ++ " " ++ spec.name ++ " failed") result.exitCode
      (stderrExcerpt result.stderr))

def runRemove (spec : AptPackageSpec) (deadline : Nat) (purge : Bool) : AptM S ChangeReport := do
  let status ← env.queryDpkgStatus spec deadline
  if !needsActionForState purge status then return .noChange
  else env.removeOrPurge ctx spec deadline purge

/-! ## Recoveries -/

def runDpkgConfigureA (globalDeadline : Nat) : AptM S Unit := do
  let attemptDeadline := min globalDeadline ((← env.now) + DPKG_CONFIGURE_TIMEOUT)
  let result ← env.run "dpkg" ["--configure", "-a"] attemptDeadline
  if result.exitCode = some 0 then return
  else throw (.exec "dpkg --configure -a failed" result.exitCode (stderrExcerpt result.stderr))

/-- No pause and no spread leave the pause as it is, and at most it doubles. -/
def jitteredBackoff (base jitterPct : Nat) : AptM S Nat := do
  if jitterPct = 0 ∨ base = 0 then return base
  else return min (← AptM.outside (env.scaled base jitterPct)) (2 * base)

def updateFailed (last : CommandResult) : PrimitiveError :=
  .exec "apt-get update failed after retries" last.exitCode (stderrExcerpt last.stderr)

/-- The pause after attempt `attempt`, unless the deadline is over. -/
def backOff (globalDeadline : Nat) (policy : AptUpdatePolicy) (attempt : Nat) : AptM S Unit := do
  let base := (policy.backoffs[attempt]?.or policy.backoffs.getLast?).getD 0
  let backoff ← env.jitteredBackoff base policy.jitterPct
  if globalDeadline ≤ (← env.now) then throw .cancelled
  else
    let boundedWake := min globalDeadline ((← env.now) + backoff)
    let dt := boundedWake - (← env.now)
    AptM.outside fun w => ((), if dt = 0 then w else plat.sleep dt w)

/-- `for attempt in 0..policy.max_attempts`, with so many attempts left. -/
def updateLoop (globalDeadline : Nat) (policy : AptUpdatePolicy) : Nat → CommandResult → AptM S Unit
  | 0, last => throw (updateFailed last)
  | left + 1, _ => do
    let attemptDeadline := min globalDeadline ((← env.now) + policy.perAttemptTimeout)
    let result ← env.run "apt-get" UPDATE_ARGS attemptDeadline
    if result.exitCode = some 0 then return
    else
      match classifyUpdateFailure result.stderr with
      | .nonRetriable => throw (updateFailed result)
      | .retriable =>
        if left = 0 then throw (updateFailed result)
        else
          env.backOff globalDeadline policy (policy.maxAttempts - (left + 1))
          updateLoop globalDeadline policy left result

def runAptUpdateWithPolicy (globalDeadline : Nat) (policy : AptUpdatePolicy) : AptM S Unit :=
  env.updateLoop globalDeadline policy policy.maxAttempts ⟨none, "", ""⟩

def runAptUpdateWithRetries (globalDeadline : Nat) : AptM S Unit :=
  env.runAptUpdateWithPolicy globalDeadline .default

/-! ## Installing -/

def installAttempt (spec : AptPackageSpec) (deadline : Nat) : AptM S CommandResult :=
  env.run "apt-get" (installArgs spec) deadline

/-- The recovery, and one more attempt. -/
def recoverThenRetry (spec : AptPackageSpec) (deadline : Nat) (step recoveryName : String)
    (recovery : AptM S Unit) (first : CommandResult) : AptM S ChangeReport := do
  env.log ctx "install" first.stderr
  env.checkCancelOrDeadline ctx
  recovery.orElse fun
    | .exec _ _ excerpt => env.log ctx step excerpt
    | _ => pure ()
  env.checkCancelOrDeadline ctx
  let retry ← env.installAttempt spec deadline
  if retry.exitCode = some 0 then
    env.logNonempty ctx "install-retry" retry.stderr
    return .ofChanged (installSuccessMessage spec)
  else
    env.log ctx "install-retry" retry.stderr
    throw (.exec ("apt-get install " ++ spec.name ++ " failed after " ++ recoveryName)
      retry.exitCode (stderrExcerpt retry.stderr))

def recoverDpkgThenRetry (spec : AptPackageSpec) (deadline : Nat) :
    CommandResult → AptM S ChangeReport :=
  env.recoverThenRetry ctx spec deadline "configure" "dpkg --configure -a"
    (env.runDpkgConfigureA deadline)

def recoverAptUpdateThenRetry (spec : AptPackageSpec) (deadline : Nat) :
    CommandResult → AptM S ChangeReport :=
  env.recoverThenRetry ctx spec deadline "update" "apt-get update"
    (env.runAptUpdateWithRetries deadline)

def runInstall (spec : AptPackageSpec) (deadline : Nat) : AptM S ChangeReport := do
  let result ← env.installAttempt spec deadline
  match analyzeInstallResult result with
  | .success =>
    env.logNonempty ctx "install" result.stderr
    return .ofChanged (installSuccessMessage spec)
  | .dpkgInterrupted => env.recoverDpkgThenRetry ctx spec deadline result
  | .candidateMissing => env.recoverAptUpdateThenRetry ctx spec deadline result
  | .otherFailure =>
    env.log ctx "install" result.stderr
    throw (.exec ("apt-get install " ++ spec.name ++ " failed") result.exitCode
      (stderrExcerpt result.stderr))

/-! ## Apply -/

/-- Everything before the first command. -/
def enter (spec : AptPackageSpec) : AptM S Nat := do
  env.checkCancelOrDeadline ctx
  env.probeDpkgLock ctx
  env.computeResourceDeadline ctx spec.timeoutSec

def runSpec (spec : AptPackageSpec) : AptM S ChangeReport := do
  let deadline ← env.enter ctx spec
  match spec.state with
  | .present => env.runInstall ctx spec deadline
  | .absent => env.runRemove ctx spec deadline false
  | .purged => env.runRemove ctx spec deadline true

/-- `apply::run` -/
def runApply {P : Type} (decode : P → Except String AptPackageSpec) (resource : Resource P)
    (diff : Diff P) : AptM S ChangeReport :=
  match diff with
  | .noChange => return .noChange
  | _ =>
    match decode resource.payload with
    | .error e => throw (.invalidPayload ("apt.package payload: " ++ e))
    | .ok spec => env.runSpec ctx spec

end AptEnv

end Bosun
