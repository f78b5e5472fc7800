import Bosun.Replay

/-!
# Health checks

`RealHealthCheckRunner`: an attempt is made, and made again after a pause, until one passes or
none is left.  The token is looked at before every attempt and during the pauses.  The two kinds
of checks are one loop with two kinds of attempts; what an attempt does outside is arbitrary.

`polled` records the states in which the token was looked at before an attempt, `begun` those in
which an attempt was then begun; nothing reads them.
-/

namespace Bosun

/-- What the module of the health checks says of the run: whoever looks at the token after the
    deadline finds that it has fired. -/
def Platform.FiredAt {S : Type} (plat : Platform S) (deadline : Nat) (s : S) : Prop :=
  deadline ≤ plat.clock s → plat.cancelled s = true

/-! ## The loop -/

/-- What an attempt comes to; `F` is what is remembered of the failures. -/
inductive Verdict (F : Type)
  | passed
  | failed (f : F)
  | giveUp (err : HealthCheckError)

structure Attempts (S : Type) where
  answer : Except HealthCheckError Unit
  polled : List S
  begun : List S
  after : S

/-- An attempt begun in `s`, and what came after it. -/
def Attempts.prepend {S : Type} (s : S) (a : Attempts S) : Attempts S :=
  { a with polled := s :: a.polled, begun := s :: a.begun }

section Retry

variable {S F : Type} (plat : Platform S) (once : F → S → Verdict F × S)
  (exhausted : F → HealthCheckError) (interval : Nat)

/-- `for attempt in 1..=retries`, with so many attempts left. -/
def retry : Nat → F → S → Attempts S
  | 0, f, s => ⟨.error (exhausted f), [], [], s⟩
  | left + 1, f, s =>
    let (cancelled, s) := plat.isCancelled s
    if cancelled then ⟨.error .cancelled, [s], [], s⟩
    else
      match once f s with
      | (.passed, t) => ⟨.ok (), [s], [s], t⟩
      | (.giveUp err, t) => ⟨.error err, [s], [s], t⟩
      | (.failed f, t) =>
        if left = 0 then ⟨.error (exhausted f), [s], [s], t⟩
        else
          let (slept, t) := plat.cancellableSleep interval t
          if slept then (retry left f t).prepend s else ⟨.error .cancelled, [s], [s], t⟩

/-- An attempt is begun exactly where the token was found not to have fired. -/
theorem retry_begun {left : Nat} : ∀ {f : F} {s : S},
    (retry plat once exhausted interval left f s).begun =
      (retry plat once exhausted interval left f s).polled.filter (!plat.cancelled ·) := by
  induction left with
  | zero =>
    intro f s
    rfl
  | succ left ih =>
    intro f s
    unfold retry
    cases hfired : plat.cancelled (plat.tick s) with
    | true => simp [Platform.isCancelled, hfired]
    | false =>
      have hone : [plat.tick s] = [plat.tick s].filter (!plat.cancelled ·) := by simp [hfired]
      simp only [Platform.isCancelled, hfired, Bool.false_eq_true, if_false]
      rcases once f (plat.tick s) with ⟨verdict, after⟩
      cases verdict with
      | passed => exact hone
      | giveUp err => exact hone
      | failed f' =>
        by_cases hlast : left = 0
        · simp only [hlast, if_true]
          exact hone
        · simp only [hlast, if_false]
          cases hslept : (plat.cancellableSleep interval after).1 with
          | false =>
            simp only [Bool.false_eq_true, if_false]
            exact hone
          | true =>
            simp only [if_true, Attempts.prepend]
            rw [List.filter_cons_of_pos (by simp [hfired]), ih]

end Retry

/-! ## The two kinds of checks -/

inductive CmdAttempt
  | success
  | exitNonZero (code : Int) (stderrExcerpt : String)
  | timeout
  | spawnError (source : String)

inductive UrlAttempt
  | success
  | badStatus (actual : Nat)
  | transport (reason : String)

/-- `cmd::run_once` and `url::run_once`, with whatever they do outside. -/
structure Probes (S : Type) where
  cmdOnce : List String → Nat → S → CmdAttempt × S
  urlOnce : String → Nat → Nat → S → UrlAttempt × S

def DEFAULT_RETRY_COUNT : Nat := 3
def DEFAULT_RETRY_INTERVAL_SEC : Nat := 2
def DEFAULT_TIMEOUT_SEC : Nat := 10
def DEFAULT_EXPECTED_STATUS : Nat := 200

def fromSecs (secs : Nat) : Nat := secs * 1000000000

/-- `resolve_defaults`: the timeout, the number of attempts and the pause. -/
def resolveDefaults (timeoutSec retryCount retryIntervalSec : Option U32) : Nat × U32 × Nat :=
  (fromSecs ((timeoutSec.map Fin.val).getD DEFAULT_TIMEOUT_SEC),
    max (retryCount.getD (Fin.ofNat _ DEFAULT_RETRY_COUNT)) 1,
    fromSecs ((retryIntervalSec.map Fin.val).getD DEFAULT_RETRY_INTERVAL_SEC))

structure CmdFailures where
  lastExitCode : Option Int
  lastStderr : String
  hadTimeout : Bool

def CmdAttempt.verdict (f : CmdFailures) : CmdAttempt → Verdict CmdFailures
  | success => .passed
  | exitNonZero code stderrExcerpt => .failed ⟨some code, stderrExcerpt, false⟩
  | timeout => .failed { f with lastExitCode := none, hadTimeout := true }
  | spawnError source => .giveUp (.cmdSpawnError source)

structure UrlFailures where
  lastActual : Option Nat
  lastTransportReason : Option String

def UrlAttempt.verdict : UrlAttempt → Verdict UrlFailures
  | success => .passed
  | badStatus actual => .failed ⟨some actual, none⟩
  | transport reason => .failed ⟨none, some reason⟩

section Runner

variable {S : Type} (plat : Platform S) (probes : Probes S)

def runCmdWithRetries (argv : List String) (timeoutSec retryCount retryIntervalSec : Option U32) :
    S → Attempts S :=
  let (timeout, retries, interval) := resolveDefaults timeoutSec retryCount retryIntervalSec
  let once (f : CmdFailures) (s : S) : Verdict CmdFailures × S :=
    let (attempt, s) := probes.cmdOnce argv timeout s
    (attempt.verdict f, s)
  let exhausted (f : CmdFailures) : HealthCheckError :=
    if f.hadTimeout then .cmdTimeout argv retries
    else .cmdExitNonZero (f.lastExitCode.getD (-1)) retries f.lastStderr
  retry plat once exhausted interval retries.val ⟨none, "", false⟩

def runUrlWithRetries (url : String) (expectedStatus : Option Nat)
    (timeoutSec retryCount retryIntervalSec : Option U32) : S → Attempts S :=
  let (timeout, retries, interval) := resolveDefaults timeoutSec retryCount retryIntervalSec
  let expected := expectedStatus.getD DEFAULT_EXPECTED_STATUS
  let once (_ : UrlFailures) (s : S) : Verdict UrlFailures × S :=
    let (attempt, s) := probes.urlOnce url timeout expected s
    (attempt.verdict, s)
  let exhausted (f : UrlFailures) : HealthCheckError :=
    match f.lastActual with
    | some actual => .urlBadStatus url actual expected retries
    | none => .urlTransport url retries (f.lastTransportReason.getD "unknown")
  retry plat once exhausted interval retries.val ⟨none, none⟩

/-- `RealHealthCheckRunner::run`, with the record of its attempts. -/
def runHealthCheck : HealthCheck → S → Attempts S
  | .cmd cmd timeoutSec retryCount retryIntervalSec =>
    runCmdWithRetries plat probes cmd timeoutSec retryCount retryIntervalSec
  | .url url expectedStatus timeoutSec retryCount retryIntervalSec =>
    runUrlWithRetries plat probes url expectedStatus timeoutSec retryCount retryIntervalSec

def realHealthCheckRunner : HealthCheckRunner S := fun check s =>
  let attempts := runHealthCheck plat probes check s
  (attempts.answer, attempts.after)

theorem runHealthCheck_begun (check : HealthCheck) (s : S) :
    (runHealthCheck plat probes check s).begun =
      (runHealthCheck plat probes check s).polled.filter (!plat.cancelled ·) := by
  cases check with
  | cmd cmd timeoutSec retryCount retryIntervalSec => exact retry_begun _ _ _ _
  | url url expectedStatus timeoutSec retryCount retryIntervalSec => exact retry_begun _ _ _ _

/-- **The token.**  No attempt of a health check is begun after the token has fired. -/
theorem not_cancelled_of_begun {check : HealthCheck} {s t : S}
    (ht : t ∈ (runHealthCheck plat probes check s).begun) : plat.cancelled t = false := by
  rw [runHealthCheck_begun] at ht
  simpa using (List.mem_filter.mp ht).2

/-- **The deadline.**  Attempts stop at the deadline exactly as far as somebody fires the token
    then. -/
theorem runHealthCheck_obeys_iff (deadline : Nat) (check : HealthCheck) (s : S) :
    (∀ t ∈ (runHealthCheck plat probes check s).begun, ¬ plat.Interrupted deadline t) ↔
      ∀ t ∈ (runHealthCheck plat probes check s).polled, plat.FiredAt deadline t := by
  rw [runHealthCheck_begun]
  constructor
  · intro hbegun t ht hover
    by_contra hgoing
    have hnot : plat.cancelled t = false := by simpa using hgoing
    exact hbegun t (List.mem_filter.mpr ⟨ht, by simp [hnot]⟩) (.inr hover)
  · intro hpolled t ht hstop
    obtain ⟨hmem, hnot⟩ := List.mem_filter.mp ht
    have hgoing : ¬ plat.cancelled t = true := by simpa using hnot
    rcases hstop with hfired | hover
    · exact hgoing hfired
    · exact hgoing (hpolled t hmem hover)

end Runner

end Bosun
