import Bosun.HealthCheck

/-!
# The attempts of a health check

Which attempts a health check makes, and what its answer says of them, whatever they find and
whenever the token fires.  The attempts are numbered from zero; `beforeAt` is where attempt `k`
begins if everything before it failed and could be tried again.

A health check that fails although the token has fired costs a deferred entry an attempt.
`healthCheckSound_iff` says when that happens: when it fires during an attempt after which the
loop does not look again.
-/

namespace Bosun

/-! ## The loop without its memory -/

section Loop

variable {S A F : Type} (plat : Platform S) (probe : S → A × S) (interval : Nat)
  -- what ends the loop at once
  (ends : A → Option (Except HealthCheckError Unit))
  -- what is said of a failure that was the last
  (describe : A → HealthCheckError)

namespace Retry

/-- Where attempt `k` begins. -/
def beforeAt : Nat → S → S
  | 0, s => plat.tick s
  | k + 1, s => beforeAt k (plat.cancellableSleep interval (probe (plat.tick s)).2).2

/-- What it finds. -/
def foundAt (k : Nat) (s : S) : A := (probe (beforeAt plat probe interval k s)).1

def afterAt (k : Nat) (s : S) : S := (probe (beforeAt plat probe interval k s)).2

/-- The pause after attempt `k`. -/
def pauseAt (k : Nat) (s : S) : Bool × S :=
  plat.cancellableSleep interval (afterAt plat probe interval k s)

/-- Attempt `k` is made, fails, and the pause after it lasts. -/
def GoesOn (k : Nat) (s : S) : Prop :=
  plat.cancelled (beforeAt plat probe interval k s) = false ∧
    ends (foundAt plat probe interval k s) = none ∧ (pauseAt plat probe interval k s).1 = true

/-- The states in which the first `k` attempts begin. -/
def firstAttempts (k : Nat) (s : S) : List S :=
  (List.range k).map (beforeAt plat probe interval · s)

/-- How the loop ends with attempt `k`, or before it. -/
inductive EndsAt (left k : Nat) (s : S) : Attempts S → Prop
  | notBegun (hfired : plat.cancelled (beforeAt plat probe interval k s) = true) :
      EndsAt left k s ⟨.error .cancelled, firstAttempts plat probe interval (k + 1) s,
        firstAttempts plat probe interval k s, beforeAt plat probe interval k s⟩
  | atOnce (answer : Except HealthCheckError Unit)
      (hgoing : plat.cancelled (beforeAt plat probe interval k s) = false)
      (hfound : ends (foundAt plat probe interval k s) = some answer) :
      EndsAt left k s ⟨answer, firstAttempts plat probe interval (k + 1) s,
        firstAttempts plat probe interval (k + 1) s, afterAt plat probe interval k s⟩
  | exhausted (hgoing : plat.cancelled (beforeAt plat probe interval k s) = false)
      (hfound : ends (foundAt plat probe interval k s) = none) (hlast : k + 1 = left) :
      EndsAt left k s ⟨.error (describe (foundAt plat probe interval k s)),
        firstAttempts plat probe interval (k + 1) s, firstAttempts plat probe interval (k + 1) s,
        afterAt plat probe interval k s⟩
  | interrupted (hgoing : plat.cancelled (beforeAt plat probe interval k s) = false)
      (hfound : ends (foundAt plat probe interval k s) = none) (hmore : k + 1 < left)
      (hpause : (pauseAt plat probe interval k s).1 = false) :
      EndsAt left k s ⟨.error .cancelled, firstAttempts plat probe interval (k + 1) s,
        firstAttempts plat probe interval (k + 1) s, (pauseAt plat probe interval k s).2⟩

variable {plat probe interval ends describe}

/-- One attempt earlier. -/
theorem EndsAt.prepend {left k : Nat} {s : S} {a : Attempts S}
    (h : EndsAt plat probe interval ends describe left k
      (pauseAt plat probe interval 0 s).2 a) :
    EndsAt plat probe interval ends describe (left + 1) (k + 1) s (a.prepend (plat.tick s)) := by
  have hfirst : ∀ n, firstAttempts plat probe interval (n + 1) s =
      plat.tick s :: firstAttempts plat probe interval n (pauseAt plat probe interval 0 s).2 := by
    intro n
    rw [firstAttempts, List.range_succ_eq_map, List.map_cons, List.map_map]
    rfl
  cases h with
  | notBegun hfired =>
    have hend : EndsAt plat probe interval ends describe (left + 1) (k + 1) s
        ⟨.error .cancelled, _, _, _⟩ := .notBegun hfired
    rwa [hfirst, hfirst] at hend
  | atOnce answer hgoing hfound =>
    have hend : EndsAt plat probe interval ends describe (left + 1) (k + 1) s
        ⟨answer, _, _, _⟩ := .atOnce answer hgoing hfound
    rwa [hfirst] at hend
  | exhausted hgoing hfound hlast =>
    have hend : EndsAt plat probe interval ends describe (left + 1) (k + 1) s
        ⟨.error _, _, _, _⟩ := .exhausted hgoing hfound (congrArg Nat.succ hlast)
    rwa [hfirst] at hend
  | interrupted hgoing hfound hmore hpause =>
    have hend : EndsAt plat probe interval ends describe (left + 1) (k + 1) s
        ⟨.error .cancelled, _, _, _⟩ := .interrupted hgoing hfound (Nat.succ_lt_succ hmore) hpause
    rwa [hfirst] at hend

/-- The loop with its memory does what one attempt after the other says. -/
theorem retry_endsAt {once : F → S → Verdict F × S} {exhausted : F → HealthCheckError}
    (next : F → A → F)
    (honce : ∀ f s, once f s = (match ends (probe s).1 with
      | some (.ok ()) => (.passed, (probe s).2)
      | some (.error e) => (.giveUp e, (probe s).2)
      | none => (.failed (next f (probe s).1), (probe s).2)))
    (hdescribe : ∀ f s, ends (probe s).1 = none →
      exhausted (next f (probe s).1) = describe (probe s).1) {left : Nat}
    (hleft : left ≠ 0) (f : F) (s : S) :
    ∃ k < left, (∀ j < k, GoesOn plat probe interval ends j s) ∧
      EndsAt plat probe interval ends describe left k s
        (retry plat once exhausted interval left f s) := by
  induction left generalizing f s with
  | zero => exact absurd rfl hleft
  | succ left ih =>
    have hnone : ∀ j < 0, GoesOn plat probe interval ends j s := fun j hj =>
      absurd hj (Nat.not_lt_zero j)
    unfold retry
    cases hfired : plat.cancelled (plat.tick s) with
    | true =>
      simp only [Platform.isCancelled, hfired, if_true]
      exact ⟨0, Nat.succ_pos left, hnone, .notBegun hfired⟩
    | false =>
      simp only [Platform.isCancelled, hfired, Bool.false_eq_true, if_false, honce]
      cases hends : ends (probe (plat.tick s)).1 with
      | some answer =>
        refine ⟨0, Nat.succ_pos left, hnone, ?_⟩
        cases answer with
        | ok => exact .atOnce (.ok ()) hfired hends
        | error e => exact .atOnce (.error e) hfired hends
      | none =>
        by_cases hlast : left = 0
        · simp only [hlast, if_true]
          refine ⟨0, Nat.succ_pos 0, hnone, ?_⟩
          rw [hdescribe f _ hends]
          exact .exhausted hfired hends rfl
        · simp only [hlast, if_false]
          cases hpause : (plat.cancellableSleep interval (probe (plat.tick s)).2).1 with
          | false =>
            simp only [Bool.false_eq_true, if_false]
            exact ⟨0, Nat.succ_pos left, hnone,
              .interrupted hfired hends (by omega) hpause⟩
          | true =>
            simp only [if_true]
            obtain ⟨k, hk, hbefore, hend⟩ := ih hlast (next f (probe (plat.tick s)).1)
              (plat.cancellableSleep interval (probe (plat.tick s)).2).2
            refine ⟨k + 1, Nat.succ_lt_succ hk, fun j hj => ?_, hend.prepend⟩
            cases j with
            | zero => exact ⟨hfired, hends, hpause⟩
            | succ j => exact hbefore j (Nat.lt_of_succ_lt_succ hj)

end Retry

end Loop

/-! ## Checks of either kind -/

/-- What an attempt of a check of either kind finds. -/
inductive Finding
  | cmd (attempt : CmdAttempt)
  | url (attempt : UrlAttempt)

namespace Finding

/-- A success and a program that cannot be started are the end. -/
def ends : Finding → Option (Except HealthCheckError Unit)
  | cmd .success | url .success => some (.ok ())
  | cmd (.spawnError source) => some (.error (.cmdSpawnError source))
  | _ => none

end Finding

namespace HealthCheck

/-- `max(1, retry_count)` -/
def retries : HealthCheck → U32
  | cmd _ timeoutSec retryCount retryIntervalSec | url _ _ timeoutSec retryCount retryIntervalSec =>
    (resolveDefaults timeoutSec retryCount retryIntervalSec).2.1

def interval : HealthCheck → Nat
  | cmd _ timeoutSec retryCount retryIntervalSec | url _ _ timeoutSec retryCount retryIntervalSec =>
    (resolveDefaults timeoutSec retryCount retryIntervalSec).2.2

/-- The error of a check whose last attempt, after so many, found this. -/
def errorOf (check : HealthCheck) (attempts : U32) : Finding → Option HealthCheckError
  | .cmd (.exitNonZero code stderrExcerpt) => some (.cmdExitNonZero code attempts stderrExcerpt)
  | .cmd .timeout =>
    match check with
    | cmd argv _ _ _ => some (.cmdTimeout argv attempts)
    | url .. => none
  | .cmd (.spawnError source) => some (.cmdSpawnError source)
  | .url (.badStatus actual) =>
    match check with
    | url target expectedStatus _ _ _ => some (.urlBadStatus target actual
        (expectedStatus.getD DEFAULT_EXPECTED_STATUS) attempts)
    | cmd .. => none
  | .url (.transport reason) =>
    match check with
    | url target _ _ _ _ => some (.urlTransport target attempts reason)
    | cmd .. => none
  | .cmd .success | .url .success => none

end HealthCheck

section Checks

variable {S : Type} (plat : Platform S) (probes : Probes S) (check : HealthCheck)

/-- One attempt of the check. -/
def probeOf (s : S) : Finding × S :=
  match check with
  | .cmd argv timeoutSec retryCount retryIntervalSec =>
    let (attempt, s) :=
      probes.cmdOnce argv (resolveDefaults timeoutSec retryCount retryIntervalSec).1 s
    (.cmd attempt, s)
  | .url target expectedStatus timeoutSec retryCount retryIntervalSec =>
    let (attempt, s) := probes.urlOnce target
      (resolveDefaults timeoutSec retryCount retryIntervalSec).1
      (expectedStatus.getD DEFAULT_EXPECTED_STATUS) s
    (.url attempt, s)

/-- What is said when that was the last attempt. -/
def lastError (finding : Finding) : HealthCheckError :=
  (check.errorOf check.retries finding).getD .cancelled

theorem errorOf_lastError {s : S} (h : (probeOf probes check s).1.ends = none) :
    check.errorOf check.retries (probeOf probes check s).1 =
      some (lastError check (probeOf probes check s).1) := by
  unfold lastError
  cases check with
  | cmd argv timeoutSec retryCount retryIntervalSec =>
    simp only [probeOf] at h ⊢
    cases hfound : (probes.cmdOnce argv (resolveDefaults timeoutSec retryCount
      retryIntervalSec).1 s).1 <;> simp_all [Finding.ends, HealthCheck.errorOf]
  | url target expectedStatus timeoutSec retryCount retryIntervalSec =>
    simp only [probeOf] at h ⊢
    cases hfound : (probes.urlOnce target (resolveDefaults timeoutSec retryCount
      retryIntervalSec).1 (expectedStatus.getD DEFAULT_EXPECTED_STATUS) s).1 <;>
      simp_all [Finding.ends, HealthCheck.errorOf]

theorem retries_pos : check.retries.val ≠ 0 := by
  have hmax : ∀ n : U32, (max n 1).val ≠ 0 := by
    intro n
    have hle : (1 : U32) ≤ max n 1 := le_max_right n 1
    have hval : 1 ≤ (max n 1).val := hle
    omega
  cases check with
  | cmd argv timeoutSec retryCount retryIntervalSec => exact hmax _
  | url target expectedStatus timeoutSec retryCount retryIntervalSec => exact hmax _

/-- What is remembered of a failed attempt. -/
def CmdFailures.next (f : CmdFailures) : Finding → CmdFailures
  | .cmd (.exitNonZero code stderrExcerpt) => ⟨some code, stderrExcerpt, false⟩
  | .cmd .timeout => { f with lastExitCode := none, hadTimeout := true }
  | _ => f

def UrlFailures.next (f : UrlFailures) : Finding → UrlFailures
  | .url (.badStatus actual) => ⟨some actual, none⟩
  | .url (.transport reason) => ⟨none, some reason⟩
  | _ => f

omit plat probes check in
theorem cmd_verdict (f : CmdFailures) (attempt : CmdAttempt) (t : S) :
    (attempt.verdict f, t) = (match (Finding.cmd attempt).ends with
      | some (.ok ()) => (.passed, t)
      | some (.error e) => (.giveUp e, t)
      | none => (.failed (f.next (.cmd attempt)), t)) := by
  cases attempt <;> rfl

omit plat probes check in
theorem url_verdict (f : UrlFailures) (attempt : UrlAttempt) (t : S) :
    (attempt.verdict, t) = (match (Finding.url attempt).ends with
      | some (.ok ()) => (.passed, t)
      | some (.error e) => (.giveUp e, t)
      | none => (.failed (f.next (.url attempt)), t)) := by
  cases attempt <;> rfl

theorem cmd_lastError {argv : List String} {timeoutSec retryCount retryIntervalSec : Option U32}
    (f : CmdFailures) {attempt : CmdAttempt} (hends : (Finding.cmd attempt).ends = none) :
    (if (f.next (.cmd attempt)).hadTimeout then HealthCheckError.cmdTimeout argv
        (HealthCheck.cmd argv timeoutSec retryCount retryIntervalSec).retries
      else .cmdExitNonZero ((f.next (.cmd attempt)).lastExitCode.getD (-1))
        (HealthCheck.cmd argv timeoutSec retryCount retryIntervalSec).retries
        (f.next (.cmd attempt)).lastStderr) =
      lastError (.cmd argv timeoutSec retryCount retryIntervalSec) (.cmd attempt) := by
  cases attempt with
  | success => cases hends
  | spawnError source => cases hends
  | exitNonZero code stderrExcerpt => rfl
  | timeout => rfl

theorem url_lastError {target : String} {expectedStatus : Option Nat}
    {timeoutSec retryCount retryIntervalSec : Option U32} (f : UrlFailures) {attempt : UrlAttempt}
    (hends : (Finding.url attempt).ends = none) :
    (match (f.next (.url attempt)).lastActual with
      | some actual => HealthCheckError.urlBadStatus target actual
        (expectedStatus.getD DEFAULT_EXPECTED_STATUS)
        (HealthCheck.url target expectedStatus timeoutSec retryCount retryIntervalSec).retries
      | none => .urlTransport target
        (HealthCheck.url target expectedStatus timeoutSec retryCount retryIntervalSec).retries
        ((f.next (.url attempt)).lastTransportReason.getD "unknown")) =
      lastError (.url target expectedStatus timeoutSec retryCount retryIntervalSec)
        (.url attempt) := by
  cases attempt with
  | success => cases hends
  | badStatus actual => rfl
  | transport reason => rfl

/-- A check of either kind is this loop. -/
theorem runHealthCheck_endsAt (s : S) :
    ∃ k < check.retries.val,
      (∀ j < k, Retry.GoesOn plat (probeOf probes check) check.interval Finding.ends j s) ∧
      Retry.EndsAt plat (probeOf probes check) check.interval Finding.ends (lastError check)
        check.retries.val k s (runHealthCheck plat probes check s) := by
  cases check with
  | cmd argv timeoutSec retryCount retryIntervalSec =>
    refine Retry.retry_endsAt CmdFailures.next (fun f s => cmd_verdict f _ _) ?_
      (retries_pos _) _ s
    exact fun f s hends => cmd_lastError f hends
  | url target expectedStatus timeoutSec retryCount retryIntervalSec =>
    refine Retry.retry_endsAt UrlFailures.next (fun f s => url_verdict f _ _) ?_
      (retries_pos _) _ s
    exact fun f s hends => url_lastError f hends

/-! ## What the answer says -/

/-- Where attempt `k` of the check begins, what it finds and where it leaves. -/
def attemptFrom (k : Nat) (s : S) : S :=
  Retry.beforeAt plat (probeOf probes check) check.interval k s

def attemptFinds (k : Nat) (s : S) : Finding :=
  Retry.foundAt plat (probeOf probes check) check.interval k s

def attemptLeaves (k : Nat) (s : S) : S :=
  Retry.afterAt plat (probeOf probes check) check.interval k s

/-- Attempt `k` fails, not for want of a program, and the pause after it lasts. -/
def AttemptGoesOn (k : Nat) (s : S) : Prop :=
  Retry.GoesOn plat (probeOf probes check) check.interval Finding.ends k s

/-- **The retry loop.**  What is promised of a check that is run in `s`. -/
structure AnswerSound (s : S) (a : Attempts S) : Prop where
  bounded : a.begun.length ≤ check.retries.val
  -- between two attempts lies a pause and nothing else
  attempts : a.begun = (List.range a.begun.length).map (attemptFrom plat probes check · s)
  again : ∀ k, k + 1 < a.begun.length → AttemptGoesOn plat probes check k s
  -- no pause after the last attempt
  settled : a.answer ≠ .error .cancelled →
    ∃ k, a.begun.length = k + 1 ∧ a.after = attemptLeaves plat probes check k s
  passed : a.answer = .ok () ↔
    ∃ k, a.begun.length = k + 1 ∧ (attemptFinds plat probes check k s).ends = some (.ok ())
  spawn : ∀ k < a.begun.length, ∀ source,
    attemptFinds plat probes check k s = .cmd (.spawnError source) →
      a.answer = .error (.cmdSpawnError source)
  failure : ∀ e, a.answer = .error e → e ≠ .cancelled → ∃ k, ∃ attempts : U32,
    a.begun.length = k + 1 ∧ attempts.val = k + 1 ∧
      check.errorOf attempts (attemptFinds plat probes check k s) = some e
  -- cut short where another attempt was due
  cancelled : a.answer = .error .cancelled → plat.cancelled a.after = true ∧
    a.begun.length < check.retries.val ∧
      ∀ k < a.begun.length, (attemptFinds plat probes check k s).ends = none
  token : plat.cancelled a.after = true → a.answer = .ok () ∨ a.answer = .error .cancelled

/-- The cycle over the journal, when the action of the entry has succeeded. -/
def ReplaySpares (s : S) (a : Attempts S) : Prop :=
  ∀ (client : DispatchClient S) (entry : DeferEntry) (report : ReplayReport) (m : Machine S),
    entry.healthCheck = some check → m.world = s → plat.cancelled a.after = true →
      let args : ReplayArgs S := ⟨client, realHealthCheckRunner plat probes, plat⟩
      let checked := { m with world := a.after }.log [.healthChecked entry a.answer]
      args.checkHealth entry report m = ReplayArgs.removeExecuted entry report checked ∨
        args.checkHealth entry report m = (.ok report, checked)

/-- **Interruption.**  The loop is sound and costs an interrupted run no attempt of its entry. -/
def HealthCheckSound (s : S) : Prop :=
  AnswerSound plat probes check s (runHealthCheck plat probes check s) ∧
    ReplaySpares plat probes check s (runHealthCheck plat probes check s)

/-- Attempt `k` is the one after which there is no looking at the token: its program cannot be
    started, or it fails and was the last. -/
def LooksNoMore (k : Nat) (s : S) : Prop :=
  (∀ j < k, AttemptGoesOn plat probes check j s) ∧
    plat.cancelled (attemptFrom plat probes check k s) = false ∧
      ((∃ source, attemptFinds plat probes check k s = .cmd (.spawnError source)) ∨
        (attemptFinds plat probes check k s).ends = none ∧ k + 1 = check.retries.val)

/-- The token does not fire during that attempt. -/
def TokenSeen (s : S) : Prop :=
  ∀ k < check.retries.val, LooksNoMore plat probes check k s →
    plat.cancelled (attemptLeaves plat probes check k s) = false

variable {plat probes check}

theorem Finding.spawnError_of_ends {finding : Finding} {e : HealthCheckError}
    (h : finding.ends = some (.error e)) :
    ∃ source, finding = .cmd (.spawnError source) ∧ e = .cmdSpawnError source := by
  match finding with
  | .cmd .success => cases h
  | .cmd (.exitNonZero ..) => cases h
  | .cmd .timeout => cases h
  | .cmd (.spawnError source) =>
    cases h
    exact ⟨source, rfl, rfl⟩
  | .url .success => cases h
  | .url (.badStatus actual) => cases h
  | .url (.transport reason) => cases h

variable (probes) in
theorem lastError_ne_cancelled (check : HealthCheck) {s : S}
    (h : (probeOf probes check s).1.ends = none) :
    lastError check (probeOf probes check s).1 ≠ .cancelled := by
  intro hcancelled
  have herror := errorOf_lastError probes check h
  rw [hcancelled] at herror
  revert herror
  generalize (probeOf probes check s).1 = finding
  intro herror
  rcases finding with (_ | _ | _ | _) | (_ | _ | _) <;> cases check <;>
    simp [HealthCheck.errorOf] at herror

theorem Retry.length_firstAttempts {A : Type} (probe : S → A × S) (interval k : Nat) (s : S) :
    (Retry.firstAttempts plat probe interval k s).length = k := by
  simp [Retry.firstAttempts]

/-- A loop none of whose attempts passed. -/
theorem answerSound_of_failed {n : Nat} {s : S} {answer : Except HealthCheckError Unit}
    {polled : List S} {after : S} (hn : n ≤ check.retries.val)
    (hagain : ∀ j, j + 1 < n → AttemptGoesOn plat probes check j s)
    (hfailed : ∀ j < n, (attemptFinds plat probes check j s).ends = none)
    (hanswer : answer ≠ .ok ())
    (hsettled : answer ≠ .error .cancelled →
      ∃ k, n = k + 1 ∧ after = attemptLeaves plat probes check k s)
    (hfailure : ∀ e, answer = .error e → e ≠ .cancelled → ∃ k, ∃ attempts : U32, n = k + 1 ∧
      attempts.val = k + 1 ∧
        check.errorOf attempts (attemptFinds plat probes check k s) = some e)
    (hcancelled : answer = .error .cancelled →
      plat.cancelled after = true ∧ n < check.retries.val)
    (htoken : plat.cancelled after = true → answer = .ok () ∨ answer = .error .cancelled) :
    AnswerSound plat probes check s ⟨answer, polled,
      Retry.firstAttempts plat (probeOf probes check) check.interval n s, after⟩ := by
  have hlength : (Retry.firstAttempts plat (probeOf probes check) check.interval n s).length = n :=
    Retry.length_firstAttempts _ _ _ _
  constructor <;> simp only [hlength]
  case bounded => exact hn
  case attempts => rfl
  case again => exact hagain
  case settled => exact hsettled
  case failure => exact hfailure
  case token => exact htoken
  case passed =>
    refine ⟨fun h => absurd h hanswer, ?_⟩
    rintro ⟨k, rfl, hpassed⟩
    rw [hfailed k (Nat.lt_succ_self k)] at hpassed
    cases hpassed
  case spawn =>
    intro j hj source hspawn
    have hnone := hfailed j hj
    rw [hspawn] at hnone
    cases hnone
  case cancelled =>
    intro h
    obtain ⟨hfired, hmore⟩ := hcancelled h
    exact ⟨hfired, hmore, hfailed⟩

/-- A loop that its last attempt ended at once. -/
theorem answerSound_of_atOnce {k : Nat} {s : S} {answer : Except HealthCheckError Unit}
    {polled : List S} (hk : k < check.retries.val)
    (hbefore : ∀ j < k, AttemptGoesOn plat probes check j s)
    (hfound : (attemptFinds plat probes check k s).ends = some answer)
    (htoken : plat.cancelled (attemptLeaves plat probes check k s) = true →
      answer = .ok () ∨ answer = .error .cancelled) :
    AnswerSound plat probes check s ⟨answer, polled,
      Retry.firstAttempts plat (probeOf probes check) check.interval (k + 1) s,
      attemptLeaves plat probes check k s⟩ := by
  have hlength :
      (Retry.firstAttempts plat (probeOf probes check) check.interval (k + 1) s).length = k + 1 :=
    Retry.length_firstAttempts _ _ _ _
  constructor <;> simp only [hlength]
  case bounded => exact hk
  case attempts => rfl
  case again => exact fun j hj => hbefore j (Nat.lt_of_succ_lt_succ hj)
  case settled => exact fun _ => ⟨k, rfl, rfl⟩
  case token => exact htoken
  case passed =>
    constructor
    · rintro rfl
      exact ⟨k, rfl, hfound⟩
    · rintro ⟨j, hj, hpassed⟩
      obtain rfl : k = j := Nat.succ.inj hj
      exact Option.some.inj (hfound.symm.trans hpassed)
  case spawn =>
    intro j hj source hspawn
    rcases Nat.lt_succ_iff_lt_or_eq.mp hj with hlt | rfl
    · have hnone : (attemptFinds plat probes check j s).ends = none := (hbefore j hlt).2.1
      rw [hspawn] at hnone
      cases hnone
    · rw [hspawn] at hfound
      exact (Option.some.inj hfound).symm
  case failure =>
    rintro e rfl -
    obtain ⟨source, hspawn, rfl⟩ := Finding.spawnError_of_ends hfound
    exact ⟨k, ⟨k + 1, by omega⟩, rfl, rfl, by rw [hspawn]; rfl⟩
  case cancelled =>
    rintro rfl
    obtain ⟨source, -, hsource⟩ := Finding.spawnError_of_ends hfound
    cases hsource

/-- However the loop ends: what its answer says of the attempts. -/
theorem answerSound_of_endsAt {k : Nat} {s : S} {a : Attempts S} (hk : k < check.retries.val)
    (hbefore : ∀ j < k, AttemptGoesOn plat probes check j s)
    (hend : Retry.EndsAt plat (probeOf probes check) check.interval Finding.ends
      (lastError check) check.retries.val k s a)
    (htoken : plat.cancelled a.after = true →
      a.answer = .ok () ∨ a.answer = .error .cancelled) :
    AnswerSound plat probes check s a := by
  have hfailed : ∀ j < k, (attemptFinds plat probes check j s).ends = none :=
    fun j hj => (hbefore j hj).2.1
  have hagain : ∀ j, j + 1 < k + 1 → AttemptGoesOn plat probes check j s :=
    fun j hj => hbefore j (Nat.lt_of_succ_lt_succ hj)
  -- with one more that failed
  have hfailedLast : (attemptFinds plat probes check k s).ends = none →
      ∀ j < k + 1, (attemptFinds plat probes check j s).ends = none := by
    intro hfound j hj
    rcases Nat.lt_succ_iff_lt_or_eq.mp hj with hlt | rfl
    · exact hfailed j hlt
    · exact hfound
  cases hend with
  | notBegun hfired =>
    exact answerSound_of_failed hk.le (fun j hj => hbefore j (by omega)) hfailed nofun
      (fun h => absurd rfl h) (fun e he hne => absurd (Except.error.inj he).symm hne)
      (fun _ => ⟨hfired, hk⟩) htoken
  | atOnce answer hgoing hfound => exact answerSound_of_atOnce hk hbefore hfound htoken
  | exhausted hgoing hfound hlast =>
    have hne := lastError_ne_cancelled probes check hfound
    refine answerSound_of_failed hk hagain (hfailedLast hfound) nofun
      (fun _ => ⟨k, rfl, rfl⟩) ?_ (fun h => absurd (Except.error.inj h) hne) htoken
    rintro e he -
    rw [← Except.error.inj he]
    exact ⟨k, check.retries, rfl, hlast.symm, errorOf_lastError probes check hfound⟩
  | interrupted hgoing hfound hmore hpause =>
    exact answerSound_of_failed hk hagain (hfailedLast hfound) nofun
      (fun h => absurd rfl h) (fun e he hne => absurd (Except.error.inj he).symm hne)
      (fun _ => ⟨plat.cancelled_of_cancellableSleep hpause, hmore⟩) htoken

/-! ## When the token is seen -/

/-- What the token is promised, the deferred entry is promised. -/
theorem replaySpares_of_token {s : S}
    (htoken : plat.cancelled (runHealthCheck plat probes check s).after = true →
      (runHealthCheck plat probes check s).answer = .ok () ∨
        (runHealthCheck plat probes check s).answer = .error .cancelled) :
    ReplaySpares plat probes check s (runHealthCheck plat probes check s) := by
  intro client entry report m hcheck hworld hfired args checked
  have hrun : args.healthCheckRunner check m.world =
      ((runHealthCheck plat probes check s).answer,
        (runHealthCheck plat probes check s).after) := by rw [hworld]; rfl
  simp only [ReplayArgs.checkHealth, hcheck, hrun]
  rcases htoken hfired with hanswer | hanswer
  · left
    simp only [hanswer, checked]
  · right
    simp only [hanswer, checked]

/-- The attempt after which there is no looking is the one the loop ends with. -/
theorem eq_of_looksNoMore {j k : Nat} {s : S} {a : Attempts S} (hj : j < check.retries.val)
    (hk : k < check.retries.val) (hbefore : ∀ i < k, AttemptGoesOn plat probes check i s)
    (hend : Retry.EndsAt plat (probeOf probes check) check.interval Finding.ends
      (lastError check) check.retries.val k s a) (hlast : LooksNoMore plat probes check j s) :
    j = k := by
  obtain ⟨hgone, -, hlast⟩ := hlast
  rcases Nat.lt_trichotomy j k with hlt | heq | hlt
  · obtain ⟨-, hnone, -⟩ := hbefore j hlt
    rcases hlast with ⟨source, hspawn⟩ | ⟨-, hlast⟩
    · rw [show Retry.foundAt plat (probeOf probes check) check.interval j s = _ from hspawn]
        at hnone
      cases hnone
    · omega
  · exact heq
  · obtain ⟨hgoing, hnone, hpause⟩ := hgone k hlt
    cases hend with
    | notBegun hfired => simp [hgoing] at hfired
    | atOnce answer _ hfound => simp [hnone] at hfound
    | exhausted _ _ hlast => omega
    | interrupted _ _ _ hcut => simp [hpause] at hcut

/-- **The exact condition.**  The loop is sound exactly if the token does not fire during the
    attempt after which nobody looks at it. -/
theorem healthCheckSound_iff (s : S) :
    HealthCheckSound plat probes check s ↔ TokenSeen plat probes check s := by
  obtain ⟨k, hk, hbefore, hend⟩ := runHealthCheck_endsAt plat probes check s
  constructor
  · rintro ⟨hsound, -⟩ j hj hlast
    obtain rfl := eq_of_looksNoMore hj hk hbefore hend hlast
    obtain ⟨-, hgoing, hlast⟩ := hlast
    have htoken := hsound.token
    by_contra hfired
    have hfired : plat.cancelled (attemptLeaves plat probes check j s) = true := by
      simpa using hfired
    revert htoken
    generalize runHealthCheck plat probes check s = a at hend
    intro htoken
    cases hend with
    | notBegun hbegun => cases hbegun.symm.trans hgoing
    | atOnce answer _ hfound =>
      rcases hlast with ⟨source, hspawn⟩ | ⟨hnone, -⟩
      · rw [show Retry.foundAt plat (probeOf probes check) check.interval j s = _ from hspawn]
          at hfound
        cases hfound
        rcases htoken hfired with h | h <;> cases h
      · cases hnone.symm.trans hfound
    | exhausted _ hfound _ =>
      rcases htoken hfired with h | h
      · cases h
      · exact lastError_ne_cancelled probes check hfound (Except.error.inj h)
    | interrupted _ hfound hmore _ =>
      rcases hlast with ⟨source, hspawn⟩ | ⟨-, hlast⟩
      · cases hfound.symm.trans (congrArg Finding.ends hspawn)
      · omega
  · intro hseen
    have htoken : plat.cancelled (runHealthCheck plat probes check s).after = true →
        (runHealthCheck plat probes check s).answer = .ok () ∨
          (runHealthCheck plat probes check s).answer = .error .cancelled := by
      have hlooks := hseen k hk
      generalize runHealthCheck plat probes check s = a at hend
      intro hfired
      cases hend with
      | notBegun => exact .inr rfl
      | interrupted => exact .inr rfl
      | atOnce answer hgoing hfound =>
        cases answer with
        | ok => exact .inl rfl
        | error e =>
          obtain ⟨source, hspawn, -⟩ := Finding.spawnError_of_ends hfound
          have hnot := hlooks ⟨hbefore, hgoing, .inl ⟨source, hspawn⟩⟩
          cases hnot.symm.trans hfired
      | exhausted hgoing hfound hlast =>
        have hnot := hlooks ⟨hbefore, hgoing, .inr ⟨hfound, hlast⟩⟩
        cases hnot.symm.trans hfired
    exact ⟨answerSound_of_endsAt hk hbefore hend htoken, replaySpares_of_token htoken⟩

end Checks

/-! ## A signal during the last attempt -/

/-- A clock that only sleeping moves, and a token that something else fires. -/
def Platform.interruptible : Platform (Nat × Bool) where
  clock s := s.1
  cancelled s := s.2
  tick s := s
  sleep d s := (s.1 + d, s.2)
  clock_le_tick _ := Nat.le_refl _
  clock_add_le_sleep _ _ := Nat.le_refl _
  cancelled_tick _ h := h
  cancelled_sleep _ _ h := h

/-- Programs that a signal to stop reaches too, and that then exit with 1. -/
def stoppedProbes : Probes (Nat × Bool) where
  cmdOnce _ _ s := (.exitNonZero 1 "", (s.1, true))
  urlOnce _ _ _ s := (.transport "", (s.1, true))

/-- One attempt, the signal in the middle of it: a failure, not `Cancelled`. -/
theorem signal_at_last_attempt_not_sound :
    (runHealthCheck .interruptible stoppedProbes (.cmd ["curl"] none (some 1) none)
      (0, false)).answer = .error (.cmdExitNonZero 1 1 "") ∧
    ¬ HealthCheckSound .interruptible stoppedProbes (.cmd ["curl"] none (some 1) none)
      (0, false) := by
  have hanswer : (runHealthCheck .interruptible stoppedProbes (.cmd ["curl"] none (some 1) none)
      (0, false)).answer = .error (.cmdExitNonZero 1 1 "") := rfl
  refine ⟨hanswer, ?_⟩
  rintro ⟨hsound, -⟩
  rcases hsound.token rfl with h | h <;> cases hanswer.symm.trans h

end Bosun
