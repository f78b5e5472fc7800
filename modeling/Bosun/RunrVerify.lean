import Bosun.Services
import Bosun.Library.Polling
import Bosun.Platform

/-!
# Watching runr restart and start a service

`verify.rs`: runr has no signal for a finished job, so after a restart or a start bosun
reads the statuses of all services until the one in question has got where it should be, an
answer is an error, or the time is up.

What is read is arbitrary, and so is how long the reads and the pauses take.  The reads of a
loop are numbered from zero; that a loop comes back with a result means that it does so for
some number of turns.
-/

namespace Bosun

/-- Of a snapshot, what these loops read besides the name and the state. -/
structure UnitStatus extends ServiceStatus where
  restarts : Nat
  pid : Option Nat
deriving DecidableEq, Repr

def FAILED_STATE : String := "Failed"

/-- runr as the loops see it. -/
structure StatusClient {S : Type} (plat : Platform S) where
  serviceStatuses : S → Except RunrError (List UnitStatus) × S
  clock_le_statuses : ∀ s, plat.clock s ≤ plat.clock (serviceStatuses s).2

def isRestartObserved (before current : UnitStatus) : Bool :=
  if current.state ≠ RUNNING_STATE then false
  else
    match before.pid, current.pid with
    | some beforePid, some currentPid =>
      if beforePid ≠ currentPid then true else before.restarts < current.restarts
    -- one of the snapshots is without a pid
    | _, _ => before.restarts < current.restarts

/-- What a loop makes of a snapshot of its service; `M` is what it keeps in mind. -/
abbrev Judge (M : Type) := M → UnitStatus → M × Option (Except RunrError UnitStatus)

def judgeRestart (before : UnitStatus) : Judge Unit := fun _ current =>
  ((), if isRestartObserved before current then some (.ok current) else none)

/-- The state last seen is kept for the error. -/
def judgeStart (name : String) : Judge String := fun _ current =>
  (current.state,
    if current.state = RUNNING_STATE then some (.ok current)
    else if current.state = FAILED_STATE then some (.error (.serviceStartFailed name))
    else none)

namespace StatusClient

variable {S M : Type} {plat : Platform S} (runr : StatusClient plat)

/-- One turn of either loop. -/
def verifyTurn (judge : Judge M) (notObserved : M → RunrError) (name : String) (deadline : Nat) :
    S × M → Option (Except RunrError UnitStatus) × S × M := fun (s, m) =>
  match runr.serviceStatuses s with
  | (.error e, s) => (some (.error e), s, m)
  | (.ok statuses, s) =>
    let (m, verdict) :=
      match statuses.find? (·.name = name) with
      | some current => judge m current
      | none => (m, none)
    match verdict with
    | some result => (some result, s, m)
    | none =>
      let s := plat.tick s
      (if deadline ≤ plat.clock s then some (.error (notObserved m)) else none, s, m)

/-- Look, and pause before the next look. -/
def verify (judge : Judge M) (notObserved : M → RunrError) (m : M) (name : String)
    (interval total fuel : Nat) (s : S) : Option (Except RunrError UnitStatus × S × M) :=
  let s := plat.tick s
  let deadline := plat.clock s + total
  Polling.run (runr.verifyTurn judge notObserved name deadline)
    (fun (s, m) => (plat.sleep interval s, m)) fuel (s, m)

def verifyRestart (name : String) (before : UnitStatus) (interval total fuel : Nat) (s : S) :
    Option (Except RunrError UnitStatus × S × Unit) :=
  runr.verify (judgeRestart before) (fun _ => .restartNotObserved name) () name interval total
    fuel s

def verifyStart (name : String) (interval total fuel : Nat) (s : S) :
    Option (Except RunrError UnitStatus × S × String) :=
  runr.verify (judgeStart name) (.startNotObserved name ·) "Unknown" name interval total fuel s

/-! ## What there is to read -/

/-- The world at read `k`, if nothing is decided before. -/
def readAt (interval : Nat) (s : S) : Nat → S
  | 0 => s
  | k + 1 => plat.sleep interval (plat.tick (runr.serviceStatuses (readAt interval s k)).2)

variable (name : String) (interval total : Nat) (s : S)

/-- The answer to read `k` of a loop that begins now. -/
def answerAt (k : Nat) : Except RunrError (List UnitStatus) :=
  (runr.serviceStatuses (runr.readAt interval (plat.tick s) k)).1

/-- The snapshot of the service in it. -/
def currentAt (k : Nat) : Option UnitStatus :=
  match runr.answerAt interval s k with
  | .ok statuses => statuses.find? (·.name = name)
  | .error _ => none

/-- After read `k` the time is up. -/
def timeIsUp (k : Nat) : Prop :=
  plat.clock (plat.tick s) + total ≤
    plat.clock (plat.tick (runr.serviceStatuses (runr.readAt interval (plat.tick s) k)).2)

instance (k : Nat) : Decidable (runr.timeIsUp interval total s k) :=
  inferInstanceAs (Decidable (_ ≤ _))

/-- What is kept in mind before read `k`. -/
def memoryAt (judge : Judge M) (m : M) : Nat → M
  | 0 => m
  | k + 1 =>
    match runr.currentAt name interval s k with
    | some current => (judge (memoryAt judge m k) current).1
    | none => memoryAt judge m k

/-- What read `k` decides. -/
def lookAt (judge : Judge M) (notObserved : M → RunrError) (m : M) (k : Nat) :
    Option (Except RunrError UnitStatus) :=
  match runr.answerAt interval s k with
  | .error e => some (.error e)
  | .ok _ =>
    match (runr.currentAt name interval s k).bind
        fun current => (judge (runr.memoryAt name interval s judge m k) current).2 with
    | some result => some result
    | none =>
      if runr.timeIsUp interval total s k then
        some (.error (notObserved (runr.memoryAt name interval s judge m (k + 1))))
      else none

variable {name interval total s}

/-- A turn from where read `k` finds the loop decides what read `k` decides. -/
theorem verifyTurn_readAt (judge : Judge M) (notObserved : M → RunrError) (m : M) (k : Nat) :
    (runr.verifyTurn judge notObserved name (plat.clock (plat.tick s) + total)
        (runr.readAt interval (plat.tick s) k, runr.memoryAt name interval s judge m k)).1 =
      runr.lookAt name interval total s judge notObserved m k ∧
    (runr.lookAt name interval total s judge notObserved m k = none →
      (runr.verifyTurn judge notObserved name (plat.clock (plat.tick s) + total)
        (runr.readAt interval (plat.tick s) k, runr.memoryAt name interval s judge m k)).2 =
        (plat.tick (runr.serviceStatuses (runr.readAt interval (plat.tick s) k)).2,
          runr.memoryAt name interval s judge m (k + 1))) := by
  have hnext : runr.memoryAt name interval s judge m (k + 1) =
      match runr.currentAt name interval s k with
      | some current => (judge (runr.memoryAt name interval s judge m k) current).1
      | none => runr.memoryAt name interval s judge m k := rfl
  rw [lookAt, hnext]
  generalize runr.memoryAt name interval s judge m k = m
  rcases hread : runr.serviceStatuses (runr.readAt interval (plat.tick s) k) with
    ⟨_ | statuses, s'⟩
  · simp [verifyTurn, answerAt, hread]
  · rcases hfind : statuses.find? (·.name = name) with _ | current
    · simp [verifyTurn, answerAt, currentAt, timeIsUp, hread, hfind]
    · rcases hjudge : judge m current with ⟨m', _ | result⟩
      · simp [verifyTurn, answerAt, currentAt, timeIsUp, hread, hfind, hjudge]
      · simp [verifyTurn, answerAt, currentAt, hread, hfind, hjudge]

theorem stateAt_eq (judge : Judge M) (notObserved : M → RunrError) (m : M) {k : Nat}
    (h : ∀ j < k, runr.lookAt name interval total s judge notObserved m j = none) :
    Polling.stateAt (runr.verifyTurn judge notObserved name (plat.clock (plat.tick s) + total))
        (fun (s, m) => (plat.sleep interval s, m)) (plat.tick s, m) k =
      (runr.readAt interval (plat.tick s) k, runr.memoryAt name interval s judge m k) := by
  induction k with
  | zero => rfl
  | succ k ih =>
    rw [Polling.stateAt_succ, ih fun j hj => h j (Nat.lt_succ_of_lt hj),
      (runr.verifyTurn_readAt judge notObserved m k).2 (h k (Nat.lt_succ_self k))]
    rfl

/-- **The loop comes back with what the first read decides that decides anything.** -/
theorem verify_eq_some_iff (judge : Judge M) (notObserved : M → RunrError) (m : M)
    (result : Except RunrError UnitStatus) :
    (∃ fuel s', runr.verify judge notObserved m name interval total fuel s = some (result, s')) ↔
      ∃ k, (∀ j < k, runr.lookAt name interval total s judge notObserved m j = none) ∧
        runr.lookAt name interval total s judge notObserved m k = some result := by
  refine Polling.run_eq_some_iff.trans ?_
  -- the looks of the loop are the reads, as long as none decides
  have hlook : ∀ k, (∀ j < k, runr.lookAt name interval total s judge notObserved m j = none) →
      (runr.verifyTurn judge notObserved name (plat.clock (plat.tick s) + total)
        (Polling.stateAt (runr.verifyTurn judge notObserved name (plat.clock (plat.tick s) + total))
          (fun (s, m) => (plat.sleep interval s, m)) (plat.tick s, m) k)).1 =
      runr.lookAt name interval total s judge notObserved m k := by
    intro k hk
    rw [runr.stateAt_eq judge notObserved m hk]
    exact (runr.verifyTurn_readAt judge notObserved m k).1
  constructor
  · rintro ⟨k, hbefore, hresult⟩
    have hnone : ∀ j ≤ k, ∀ i < j,
        runr.lookAt name interval total s judge notObserved m i = none := by
      intro j hj
      induction j with
      | zero => exact fun i hi => absurd hi (Nat.not_lt_zero i)
      | succ j ih =>
        intro i hi
        have hprev := ih (Nat.le_of_succ_le hj)
        rcases Nat.lt_succ_iff_lt_or_eq.mp hi with hi | rfl
        · exact hprev i hi
        · rw [← hlook i hprev]
          exact hbefore i hj
    exact ⟨k, hnone k (Nat.le_refl k), by rw [← hlook k (hnone k (Nat.le_refl k))]; exact hresult⟩
  · rintro ⟨k, hnone, hresult⟩
    refine ⟨k, fun j hj => ?_, by rw [hlook k hnone]; exact hresult⟩
    rw [hlook j fun i hi => hnone i (Nat.lt_trans hi hj)]
    exact hnone j hj

theorem currentAt_of_error {k : Nat} {e : RunrError} (h : runr.answerAt interval s k = .error e) :
    runr.currentAt name interval s k = none := by
  rw [currentAt, h]

/-- A read decides nothing when its answer is no error, the snapshot no reason and the time
not up. -/
theorem lookAt_eq_none_iff {judge : Judge M} {notObserved : M → RunrError} {m : M} {k : Nat} :
    runr.lookAt name interval total s judge notObserved m k = none ↔
      (∃ statuses, runr.answerAt interval s k = .ok statuses) ∧
      (∀ current, runr.currentAt name interval s k = some current →
        (judge (runr.memoryAt name interval s judge m k) current).2 = none) ∧
      ¬ runr.timeIsUp interval total s k := by
  unfold lookAt
  rcases hanswer : runr.answerAt interval s k with e | statuses
  · simp
  · rcases runr.currentAt name interval s k with _ | current
    · simp
    · rcases hjudge :
          (judge (runr.memoryAt name interval s judge m k) current).2 with _ | result <;>
        simp [hjudge]

theorem lookAt_eq_some_iff {judge : Judge M} {notObserved : M → RunrError} {m : M} {k : Nat}
    {result : Except RunrError UnitStatus} :
    runr.lookAt name interval total s judge notObserved m k = some result ↔
      (∃ e, runr.answerAt interval s k = .error e ∧ result = .error e) ∨
      (∃ current, runr.currentAt name interval s k = some current ∧
        (judge (runr.memoryAt name interval s judge m k) current).2 = some result) ∨
      ((∃ statuses, runr.answerAt interval s k = .ok statuses) ∧
        (∀ current, runr.currentAt name interval s k = some current →
          (judge (runr.memoryAt name interval s judge m k) current).2 = none) ∧
        runr.timeIsUp interval total s k ∧
        result = .error (notObserved (runr.memoryAt name interval s judge m (k + 1)))) := by
  rcases hanswer : runr.answerAt interval s k with e | statuses
  · simp [lookAt, hanswer, runr.currentAt_of_error hanswer, eq_comm]
  · simp only [lookAt, hanswer]
    rcases runr.currentAt name interval s k with _ | current
    · simp [eq_comm]
    · rcases hjudge :
          (judge (runr.memoryAt name interval s judge m k) current).2 with _ | result' <;>
        simp [hjudge, eq_comm]

/-- With a pause between the reads the loop comes back. -/
theorem verify_returns (judge : Judge M) (notObserved : M → RunrError) (m : M)
    (hinterval : 0 < interval) : ∃ fuel result s',
      runr.verify judge notObserved m name interval total fuel s = some (result, s') := by
  -- a turn that decides nothing was before the deadline
  have hturn : ∀ p : S × M,
      (runr.verifyTurn judge notObserved name (plat.clock (plat.tick s) + total) p).1 = none →
      plat.clock p.1 < plat.clock (plat.tick s) + total ∧
        plat.clock p.1 + interval ≤ plat.clock (plat.sleep interval
          (runr.verifyTurn judge notObserved name (plat.clock (plat.tick s) + total) p).2.1) := by
    rintro ⟨s', m'⟩ hnone
    have hstatuses := runr.clock_le_statuses s'
    unfold verifyTurn at hnone ⊢
    rcases hread : runr.serviceStatuses s' with ⟨_ | statuses, s₁⟩
    · simp [hread] at hnone
    · rw [hread] at hstatuses
      simp only [hread] at hnone hstatuses ⊢
      split at hnone
      · cases hnone
      · have htick := plat.clock_le_tick s₁
        have hsleep := plat.clock_add_le_sleep interval (plat.tick s₁)
        have hlt : plat.clock (plat.tick s₁) < plat.clock (plat.tick s) + total := by
          by_contra hle
          simp [Nat.not_lt.mp hle] at hnone
        refine ⟨by omega, ?_⟩
        show plat.clock s' + interval ≤ plat.clock (plat.sleep interval (plat.tick s₁))
        omega
  obtain ⟨k, hk⟩ : ∃ k, Polling.DecidesAt
      (runr.verifyTurn judge notObserved name (plat.clock (plat.tick s) + total))
      (fun (s, m) => (plat.sleep interval s, m)) (plat.tick s, m) k :=
    Polling.exists_decidesAt (fun p => plat.clock p.1) hinterval hturn (plat.tick s, m)
  obtain ⟨result, -, hrun⟩ := Polling.run_of_decidesAt hk (Nat.lt_succ_self k)
  exact ⟨k + 1, result, _, hrun⟩

end StatusClient

/-! ## A restart that is seen -/

/-- Running, and another process than before; where a pid is missing, counted once more. -/
def Restarted (before current : UnitStatus) : Prop :=
  current.state = RUNNING_STATE ∧
    ((∃ p q, before.pid = some p ∧ current.pid = some q ∧ p ≠ q) ∨
      ((before.pid = none ∨ current.pid = none) ∧ before.restarts < current.restarts))

/-- Running, the same process as before, and yet counted once more. -/
def Recounted (before current : UnitStatus) : Prop :=
  current.state = RUNNING_STATE ∧ (∃ p, before.pid = some p ∧ current.pid = some p) ∧
    before.restarts < current.restarts

theorem isRestartObserved_iff (before current : UnitStatus) :
    isRestartObserved before current = true ↔
      Restarted before current ∨ Recounted before current := by
  unfold isRestartObserved Restarted Recounted
  by_cases hstate : current.state = RUNNING_STATE
  · rcases hp : before.pid with _ | p
    · simp [hstate]
    · rcases hq : current.pid with _ | q
      · simp [hstate]
      · by_cases hpq : p = q <;> simp [hstate, hpq]
  · simp [hstate]

theorem Recounted.not_restarted {before current : UnitStatus} (h : Recounted before current) :
    ¬ Restarted before current := by
  obtain ⟨-, ⟨p, hp, hq⟩, -⟩ := h
  simp [Restarted, hp, hq]

namespace StatusClient

variable {S : Type} {plat : Platform S} (runr : StatusClient plat)
variable (name : String) (before : UnitStatus) (interval total : Nat) (s : S)

/-- Read `k` is no reason to end the watch over a restart. -/
def RestartGoesOn (k : Nat) : Prop :=
  (∃ statuses, runr.answerAt interval s k = .ok statuses) ∧
    (∀ current, runr.currentAt name interval s k = some current → ¬ Restarted before current) ∧
    ¬ runr.timeIsUp interval total s k

/-- Read `k` ends it with this result. -/
def RestartEndsWith (k : Nat) : Except RunrError UnitStatus → Prop
  | .ok current => runr.currentAt name interval s k = some current ∧ Restarted before current
  | .error e => runr.answerAt interval s k = .error e ∨
      ((∃ statuses, runr.answerAt interval s k = .ok statuses) ∧
        (∀ current, runr.currentAt name interval s k = some current → ¬ Restarted before current) ∧
        runr.timeIsUp interval total s k ∧ e = .restartNotObserved name)

/-- The state in the last snapshot of the service before read `k`. -/
def stateSeen : Nat → String
  | 0 => "Unknown"
  | k + 1 =>
    match runr.currentAt name interval s k with
    | some current => current.state
    | none => stateSeen k

/-- Read `k` is no reason to end the watch over a start. -/
def StartGoesOn (k : Nat) : Prop :=
  (∃ statuses, runr.answerAt interval s k = .ok statuses) ∧
    (∀ current, runr.currentAt name interval s k = some current →
      current.state ≠ RUNNING_STATE ∧ current.state ≠ FAILED_STATE) ∧
    ¬ runr.timeIsUp interval total s k

/-- Read `k` ends it with this result. -/
def StartEndsWith (k : Nat) : Except RunrError UnitStatus → Prop
  | .ok current => runr.currentAt name interval s k = some current ∧
      current.state = RUNNING_STATE
  | .error e => runr.answerAt interval s k = .error e ∨
      (∃ current, runr.currentAt name interval s k = some current ∧
        current.state = FAILED_STATE ∧ e = .serviceStartFailed name) ∨
      ((∃ statuses, runr.answerAt interval s k = .ok statuses) ∧
        (∀ current, runr.currentAt name interval s k = some current →
          current.state ≠ RUNNING_STATE ∧ current.state ≠ FAILED_STATE) ∧
        runr.timeIsUp interval total s k ∧
        e = .startNotObserved name (runr.stateSeen name interval s (k + 1)))

variable {name before interval total s}

theorem memoryAt_judgeStart (k : Nat) :
    runr.memoryAt name interval s (judgeStart name) "Unknown" k =
      runr.stateSeen name interval s k := by
  induction k with
  | zero => rfl
  | succ k ih =>
    rw [memoryAt, stateSeen, ih]
    rfl

/-- What a read of the watch over a start decides. -/
theorem lookAt_start (k : Nat) :
    (runr.lookAt name interval total s (judgeStart name) (.startNotObserved name ·) "Unknown" k =
        none ↔ runr.StartGoesOn name interval total s k) ∧
    ∀ result, runr.lookAt name interval total s (judgeStart name) (.startNotObserved name ·)
        "Unknown" k = some result ↔ runr.StartEndsWith name interval total s k result := by
  have hnone : ∀ m current, (judgeStart name m current).2 = none ↔
      current.state ≠ RUNNING_STATE ∧ current.state ≠ FAILED_STATE := by
    intro m current
    unfold judgeStart
    split <;> simp_all
  have hsome : ∀ m current result, (judgeStart name m current).2 = some result ↔
      (current.state = RUNNING_STATE ∧ result = .ok current) ∨
      (current.state = FAILED_STATE ∧ result = .error (.serviceStartFailed name)) := by
    intro m current result
    have hne : RUNNING_STATE ≠ FAILED_STATE := by decide
    unfold judgeStart
    by_cases hrunning : current.state = RUNNING_STATE
    · simp [hrunning, hne, eq_comm]
    · by_cases hfailed : current.state = FAILED_STATE <;>
        simp [hrunning, hfailed, hne.symm, eq_comm]
  constructor
  · simp only [lookAt_eq_none_iff, hnone, StartGoesOn]
  · intro result
    simp only [lookAt_eq_some_iff, hnone, hsome, memoryAt_judgeStart]
    cases result with
    | ok current => simp [StartEndsWith]
    | error e => simp [StartEndsWith]

/-- What a read of the watch over a restart decides, unless it shows a process counted
again. -/
theorem lookAt_restart (k : Nat)
    (h : ∀ current, runr.currentAt name interval s k = some current → ¬ Recounted before current) :
    (runr.lookAt name interval total s (judgeRestart before) (fun _ => .restartNotObserved name) ()
        k = none ↔ runr.RestartGoesOn name before interval total s k) ∧
    ∀ result, runr.lookAt name interval total s (judgeRestart before)
        (fun _ => .restartNotObserved name) () k = some result ↔
      runr.RestartEndsWith name before interval total s k result := by
  have hnone : ∀ current, runr.currentAt name interval s k = some current →
      ((judgeRestart before () current).2 = none ↔ ¬ Restarted before current) := by
    intro current hcurrent
    have hiff := isRestartObserved_iff before current
    rw [or_iff_left (h current hcurrent)] at hiff
    simp [judgeRestart, hiff]
  have hsome : ∀ current result, runr.currentAt name interval s k = some current →
      ((judgeRestart before () current).2 = some result ↔
        Restarted before current ∧ result = .ok current) := by
    intro current result hcurrent
    have hiff := isRestartObserved_iff before current
    rw [or_iff_left (h current hcurrent)] at hiff
    by_cases hseen : Restarted before current <;> simp [judgeRestart, hiff, hseen, eq_comm]
  constructor
  · rw [lookAt_eq_none_iff]
    exact and_congr_right' (and_congr_left' (forall₂_congr hnone))
  · intro result
    rw [lookAt_eq_some_iff]
    rw [exists_congr fun current => and_congr_right (hsome current result),
      forall₂_congr hnone]
    cases result with
    | ok current => simp [RestartEndsWith]
    | error e => simp [RestartEndsWith]

variable (name before interval total s)

/-- Both loops come back with what the first read says that ends them, and with a pause
between the reads they do come back. -/
structure VerifySound : Prop where
  restart : ∀ result, (∃ fuel s', runr.verifyRestart name before interval total fuel s =
      some (result, s')) ↔
    ∃ k, (∀ j < k, runr.RestartGoesOn name before interval total s j) ∧
      runr.RestartEndsWith name before interval total s k result
  start : ∀ result, (∃ fuel s', runr.verifyStart name interval total fuel s =
      some (result, s')) ↔
    ∃ k, (∀ j < k, runr.StartGoesOn name interval total s j) ∧
      runr.StartEndsWith name interval total s k result
  restartReturns : 0 < interval → ∃ fuel result s',
    runr.verifyRestart name before interval total fuel s = some (result, s')
  startReturns : 0 < interval → ∃ fuel result s',
    runr.verifyStart name interval total fuel s = some (result, s')

/-- No read that a watch over a restart gets to shows the same process counted again. -/
def NoRecount : Prop :=
  ∀ k, (∀ j < k, runr.RestartGoesOn name before interval total s j) →
    ∀ current, runr.currentAt name interval s k = some current → ¬ Recounted before current

variable {name before interval total s}

theorem start_iff (result : Except RunrError UnitStatus) :
    (∃ fuel s', runr.verifyStart name interval total fuel s = some (result, s')) ↔
      ∃ k, (∀ j < k, runr.StartGoesOn name interval total s j) ∧
        runr.StartEndsWith name interval total s k result := by
  refine (runr.verify_eq_some_iff _ _ _ result).trans (exists_congr fun k => and_congr ?_ ?_)
  · exact forall₂_congr fun j _ => (runr.lookAt_start j).1
  · exact (runr.lookAt_start k).2 result

/-- A process that is only counted again is taken for a restarted one. -/
theorem verifyRestart_of_recounted {k : Nat} {current : UnitStatus}
    (hbefore : ∀ j < k, runr.lookAt name interval total s (judgeRestart before)
      (fun _ => .restartNotObserved name) () j = none)
    (hcurrent : runr.currentAt name interval s k = some current)
    (hrecounted : Recounted before current) :
    ∃ fuel s', runr.verifyRestart name before interval total fuel s = some (.ok current, s') := by
  refine (runr.verify_eq_some_iff _ _ _ _).mpr ⟨k, hbefore, ?_⟩
  rw [lookAt_eq_some_iff]
  refine .inr (.inl ⟨current, hcurrent, ?_⟩)
  simp [judgeRestart, (isRestartObserved_iff before current).mpr (.inr hrecounted)]

theorem restart_iff (h : runr.NoRecount name before interval total s)
    (result : Except RunrError UnitStatus) :
    (∃ fuel s', runr.verifyRestart name before interval total fuel s = some (result, s')) ↔
      ∃ k, (∀ j < k, runr.RestartGoesOn name before interval total s j) ∧
        runr.RestartEndsWith name before interval total s k result := by
  refine (runr.verify_eq_some_iff _ _ _ result).trans (exists_congr fun k => ?_)
  -- read by read, the loop goes on where it should
  have hgoesOn : (∀ j < k, runr.lookAt name interval total s (judgeRestart before)
      (fun _ => .restartNotObserved name) () j = none) ↔
      ∀ j < k, runr.RestartGoesOn name before interval total s j := by
    induction k with
    | zero => simp
    | succ k ih =>
      simp only [Nat.forall_lt_succ_right, ih]
      exact and_congr_right fun hbefore => (runr.lookAt_restart k (h k hbefore)).1
  rw [hgoesOn]
  exact and_congr_right fun hbefore => (runr.lookAt_restart k (h k hbefore)).2 result

/-- **The watches are sound exactly when no read shows the same process counted again.**
The watch over a start always is. -/
theorem verifySound_iff (runr : StatusClient plat) (name : String) (before : UnitStatus)
    (interval total : Nat) (s : S) :
    runr.VerifySound name before interval total s ↔
      runr.NoRecount name before interval total s := by
  constructor
  · intro hsound k
    induction k using Nat.strong_induction_on with
    | _ k ih =>
      intro hbefore current hcurrent hrecounted
      have hnone : ∀ j < k, runr.lookAt name interval total s (judgeRestart before)
          (fun _ => .restartNotObserved name) () j = none := fun j hj =>
        (runr.lookAt_restart j (ih j hj fun i hi => hbefore i (Nat.lt_trans hi hj))).1.mpr
          (hbefore j hj)
      have hreturns := runr.verifyRestart_of_recounted hnone hcurrent hrecounted
      obtain ⟨k', -, -, hrestarted⟩ := (hsound.restart _).mp hreturns
      exact hrecounted.not_restarted hrestarted
  · intro h
    exact ⟨runr.restart_iff h, runr.start_iff, runr.verify_returns _ _ _, runr.verify_returns _ _ _⟩

end StatusClient

/-- runr says at every read that nginx runs, with this pid and so often restarted. -/
def steadyClient (pid restarts : Nat) : StatusClient Platform.quiet where
  serviceStatuses s := (.ok [⟨⟨"nginx", "Running"⟩, restarts, some pid⟩], s)
  clock_le_statuses := Platform.quiet_clock_le

/-- Process 100 before and after: runr had restarted it once by itself before. -/
theorem recounted_nginx_not_sound :
    ¬ (steadyClient 100 1).VerifySound "nginx" ⟨⟨"nginx", "Running"⟩, 0, some 100⟩ 1 1 0 := by
  intro hsound
  have hreturns : ∃ fuel s', (steadyClient 100 1).verifyRestart "nginx"
      ⟨⟨"nginx", "Running"⟩, 0, some 100⟩ 1 1 fuel 0 =
        some (.ok ⟨⟨"nginx", "Running"⟩, 1, some 100⟩, s') := ⟨1, _, rfl⟩
  obtain ⟨k, -, -, hrestarted⟩ := (hsound.restart _).mp hreturns
  simp [Restarted] at hrestarted

end Bosun
