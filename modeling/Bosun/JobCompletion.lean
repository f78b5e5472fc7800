import Bosun.InitSystem
import Mathlib.Data.List.Basic

/-!
# Waiting for a job of systemd

`start_unit` and its like ask systemd for a job, receive the path of the job, subscribe
to `JobRemoved` and read the signals until the one for that path comes, or until the
budget is used up.  Meanwhile systemd works on the job and says so on the bus, to those
who have subscribed by then.

The two parties move in any order.  `call_returns` is about all runs in which the
signal is sent after the subscription and within the budget: the call comes back with
the result of the job, after as many moves of its own as there are signals to read.
-/

namespace Bosun

/-! ## Errors of the bus -/

/-- `zbus::Error`, with the text it displays. -/
inductive ZbusError
  | methodError (name display : String)
  | address (display : String)
  | inputOutput (display : String)
  | handshake (display : String)
  | other (display : String)
deriving DecidableEq, Repr

namespace ZbusError

def display : ZbusError → String
  | methodError _ display | address display | inputOutput display | handshake display
  | other display => display

def isBusUnavailable : ZbusError → Bool
  | address _ | inputOutput _ | handshake _ => true
  | _ => false

end ZbusError

/-- `SystemdError::from_zbus` -/
def SystemdError.fromZbus (err : ZbusError) (action unit : String) : SystemdError :=
  let general :=
    if err.isBusUnavailable then .busUnavailable err.display else .dbus err.display
  match err with
  | .methodError name _ =>
    if name = "org.freedesktop.systemd1.NoSuchUnit" then .noSuchUnit unit
    else if name = "org.freedesktop.DBus.Error.AccessDenied" then .authorizationDenied action unit
    else general
  | _ => general

theorem SystemdError.fromZbus_ne_timeout (err : ZbusError) (action unit duration : String) :
    fromZbus err action unit ≠ .timeout duration := by
  cases err with
  | methodError name display =>
    unfold fromZbus
    dsimp only
    split
    · simp
    · split
      · simp
      · simp [ZbusError.isBusUnavailable]
  | _ => simp [fromZbus, ZbusError.isBusUnavailable]

/-! ## The call and the job -/

/-- `JobRemoved` -/
structure JobEvent where
  jobPath : String
  result : String
  unit : String
deriving DecidableEq, Repr

/-- 120 s. -/
def JOB_WAIT_BUDGET : Nat := 120 * 1000000000

def jobTimeout : SystemdError := .timeout "120s"

/-- Where the call has got to. -/
inductive CallPhase
  | calling
  | subscribing (path : String)
  | waiting (path : String) (deadline : Nat)
  | asking (path : String) (event : JobEvent)
  | returned (answer : Except SystemdError Unit)

/-- Where systemd has got to. -/
inductive SystemdJob
  | none
  | queued (path : String)
  | finished (path result : String)
  | removed (path result : String)
deriving DecidableEq, Repr

def SystemdJob.path : SystemdJob → Option String
  | none => .none
  | queued path | finished path _ | removed path _ => some path

structure Bus where
  clock : Nat
  phase : CallPhase
  job : SystemdJob
  /-- sent since the subscription, and not read yet -/
  stream : List JobEvent
  connected : Bool

def Bus.start : Bus := ⟨0, .calling, .none, [], true⟩

inductive BusMove
  /-- systemd takes the call and queues a job. -/
  | accept (path : String)
  | finish (result : String)
  /-- `JobRemoved` of the job is sent. -/
  | emit
  /-- `JobRemoved` of another job is sent. -/
  | emitOther (event : JobEvent)
  | pass (nanos : Nat)
  | disconnect
  /-- The answer to the call is received. -/
  | reply (answer : Except ZbusError String)
  | subscribed (answer : Except ZbusError Unit)
  /-- The next signal is read. -/
  | next
  | timeOut
  /-- The answer of `unit_info` is received. -/
  | info (answer : Except ZbusError UnitInfo)

/-- It is the call that moves. -/
def BusMove.isClient : BusMove → Bool
  | reply _ | subscribed _ | next | timeOut | info _ => true
  | _ => false

/-! ## `wait_for_job` -/

/-- What the call makes of the result of the job and of the state of the unit. -/
def jobVerdict (path result activeState : String) : Except SystemdError Unit :=
  if result ≠ "done" then .error (.jobFailed path result activeState)
  -- the unit may have failed all the same
  else if activeState = "failed" then .error (.jobFailed path result activeState)
  else .ok ()

/-- A unit that is gone has no state. -/
def judge (path result : String) : Except SystemdError UnitInfo → Except SystemdError Unit
  | .ok info => jobVerdict path result info.activeState
  | .error (.noSuchUnit _) => jobVerdict path result ""
  | .error err => .error err

def unitInfoAnswer (unit : String) (answer : Except ZbusError UnitInfo) :
    Except SystemdError UnitInfo :=
  match answer with
  | .ok info => .ok info
  | .error err => .error (.fromZbus err "unit_info" unit)

namespace Bus

/-- One move of either party, for a call of the method `action` for `unit`. -/
def step (action unit : String) (s : Bus) : BusMove → Option Bus
  | .accept path =>
    match s.phase, s.job with
    | .calling, .none => some { s with job := .queued path }
    | _, _ => none
  | .finish result =>
    match s.job with
    | .queued path => some { s with job := .finished path result }
    | _ => none
  | .emit =>
    match s.job with
    | .finished path result =>
      let s := { s with job := .removed path result }
      match s.phase with
      | .waiting _ _ => some { s with stream := s.stream ++ [⟨path, result, unit⟩] }
      | _ => some s
    | _ => none
  | .emitOther event =>
    if s.job.path = some event.jobPath then none
    else
      match s.phase with
      | .waiting _ _ => some { s with stream := s.stream ++ [event] }
      | _ => some s
  | .pass nanos => some { s with clock := s.clock + nanos }
  | .disconnect => some { s with connected := false }
  | .reply (.ok path) =>
    match s.phase with
    | .calling =>
      if s.job.path = some path then some { s with phase := .subscribing path } else none
    | _ => none
  | .reply (.error err) =>
    match s.phase with
    | .calling =>
      -- a call that was taken is answered, unless the bus is gone
      if s.job = .none ∨ s.connected = false then
        some { s with phase := .returned (.error (.fromZbus err action unit)) }
      else none
    | _ => none
  | .subscribed (.ok ()) =>
    match s.phase with
    | .subscribing path =>
      some { s with phase := .waiting path (s.clock + JOB_WAIT_BUDGET), stream := [] }
    | _ => none
  | .subscribed (.error err) =>
    match s.phase with
    | .subscribing _ =>
      some { s with phase := .returned (.error (.fromZbus err "wait_for_job" unit)) }
    | _ => none
  | .next =>
    match s.phase, s.stream with
    | .waiting path deadline, event :: rest =>
      if event.jobPath = path then some { s with phase := .asking path event, stream := rest }
      else some { s with phase := .waiting path deadline, stream := rest }
    | _, _ => none
  | .timeOut =>
    match s.phase, s.stream with
    -- what has come is read first
    | .waiting _ deadline, [] =>
      if deadline ≤ s.clock ∨ s.connected = false then
        some { s with phase := .returned (.error jobTimeout) }
      else none
    | _, _ => none
  | .info answer =>
    match s.phase with
    | .asking path event =>
      some { s with phase := .returned (judge path event.result (unitInfoAnswer unit answer)) }
    | _ => none

def run (action unit : String) : List BusMove → Bus → Option Bus
  | [], s => some s
  | move :: moves, s => (s.step action unit move).bind (run action unit moves)

theorem run_append (action unit : String) (moves more : List BusMove) (s : Bus) :
    run action unit (moves ++ more) s = (run action unit moves s).bind (run action unit more) := by
  induction moves generalizing s with
  | nil => rfl
  | cons move moves ih =>
    simp only [List.cons_append, run]
    cases s.step action unit move with
    | none => rfl
    | some s' => exact ih s'

end Bus

/-- The time that passes in these moves. -/
def elapsed : List BusMove → Nat
  | [] => 0
  | .pass nanos :: moves => nanos + elapsed moves
  | _ :: moves => elapsed moves

namespace Bus

variable {action unit : String} {s s' : Bus} {move : BusMove} {moves : List BusMove}
  {path result : String} {deadline : Nat}

/-! ## The job goes its way -/

theorem job_step (h : s.step action unit move = some s') :
    s'.job = s.job ∨ (∃ path, s.job = .none ∧ s'.job = .queued path) ∨
    (∃ path result, s.job = .queued path ∧ s'.job = .finished path result) ∨
    ∃ path result, s.job = .finished path result ∧ s'.job = .removed path result := by
  cases move with
  | accept path =>
    simp only [step] at h
    split at h
    · obtain rfl := Option.some.inj h
      exact .inr (.inl ⟨path, ‹_›, rfl⟩)
    · cases h
  | finish result =>
    simp only [step] at h
    split at h
    · obtain rfl := Option.some.inj h
      exact .inr (.inr (.inl ⟨_, result, ‹_›, rfl⟩))
    · cases h
  | emit =>
    simp only [step] at h
    split at h
    · split at h <;> obtain rfl := Option.some.inj h <;>
        exact .inr (.inr (.inr ⟨_, _, ‹_›, rfl⟩))
    · cases h
  | reply answer =>
    cases answer <;> simp only [step] at h <;> split at h
    all_goals first
      | cases h
      | split at h
        · obtain rfl := Option.some.inj h
          exact .inl rfl
        · cases h
  | subscribed answer =>
    cases answer <;> simp only [step] at h <;> split at h <;> cases h <;> exact .inl rfl
  | emitOther event =>
    simp only [step] at h
    split at h
    · cases h
    · split at h <;> cases h <;> exact .inl rfl
  | next =>
    simp only [step] at h
    split at h
    · split at h <;> cases h <;> exact .inl rfl
    · cases h
  | timeOut =>
    simp only [step] at h
    split at h
    · split at h <;> cases h
      exact .inl rfl
    · cases h
  | info answer =>
    simp only [step] at h
    split at h <;> cases h
    exact .inl rfl
  | pass nanos => cases h; exact .inl rfl
  | disconnect => cases h; exact .inl rfl

theorem path_step (hpath : s.job.path = some path) (h : s.step action unit move = some s') :
    s'.job.path = some path := by
  rcases job_step h with hsame | ⟨p, hnone, -⟩ | ⟨p, r, hqueued, hfinished⟩ |
    ⟨p, r, hfinished, hremoved⟩
  · rw [hsame, hpath]
  · rw [hnone] at hpath
    cases hpath
  · rw [hqueued] at hpath
    rw [hfinished]
    exact hpath
  · rw [hfinished] at hpath
    rw [hremoved]
    exact hpath

theorem removed_step (hjob : s.job = .removed path result)
    (h : s.step action unit move = some s') : s'.job = .removed path result := by
  rcases job_step h with hsame | ⟨p, hnone, -⟩ | ⟨p, r, hqueued, -⟩ | ⟨p, r, hfinished, -⟩
  · rw [hsame, hjob]
  · simp [hjob] at hnone
  · simp [hjob] at hqueued
  · simp [hjob] at hfinished

/-- The signal is sent once. -/
theorem not_emit_of_removed (hjob : s.job = .removed path result)
    (hrun : run action unit (moves ++ [.emit]) s = some s') : False := by
  induction moves generalizing s with
  | nil => simp [run, step, hjob] at hrun
  | cons move moves ih =>
    rw [List.cons_append, run] at hrun
    cases hstep : s.step action unit move with
    | none =>
      rw [hstep] at hrun
      cases hrun
    | some s₁ =>
      rw [hstep] at hrun
      exact ih (removed_step hjob hstep) hrun

theorem connected_step (hmove : move ≠ .disconnect) (h : s.step action unit move = some s') :
    s'.connected = s.connected := by
  cases move with
  | disconnect => exact absurd rfl hmove
  | reply answer =>
    cases answer <;> simp only [step] at h <;> split at h
    all_goals first
      | cases h
      | split at h
        · obtain rfl := Option.some.inj h
          rfl
        · cases h
  | subscribed answer =>
    cases answer <;> simp only [step] at h <;> split at h <;> cases h <;> rfl
  | accept path | info answer | finish result =>
    simp only [step] at h
    split at h <;> cases h
    rfl
  | emit | next | timeOut =>
    simp only [step] at h
    split at h
    · split at h <;> cases h <;> rfl
    · cases h
  | emitOther event =>
    simp only [step] at h
    split at h
    · cases h
    · split at h <;> cases h <;> rfl
  | pass nanos => cases h; rfl

/-- The path that the call has received is that of the job. -/
def Linked (s : Bus) : Prop := ∀ path, s.phase = .subscribing path → s.job.path = some path

theorem Linked.step (hlinked : s.Linked) (h : s.step action unit move = some s') : s'.Linked := by
  intro path hphase
  suffices hbefore : s.phase = .subscribing path ∨ s'.job.path = some path by
    rcases hbefore with hbefore | hpath
    · exact path_step (hlinked path hbefore) h
    · exact hpath
  cases move with
  | reply answer =>
    cases answer <;> simp only [Bus.step] at h <;> split at h
    · split at h
      · cases h
        cases hphase
      · cases h
    · cases h
    · split at h
      · rename_i hpath
        cases h
        cases hphase
        exact .inr hpath
      · cases h
    · cases h
  | subscribed answer =>
    cases answer <;> simp only [Bus.step] at h <;> split at h <;> cases h <;> cases hphase
  | accept p | finish result =>
    simp only [Bus.step] at h
    split at h <;> cases h
    exact .inl hphase
  | info answer =>
    simp only [Bus.step] at h
    split at h <;> cases h
    cases hphase
  | emit =>
    simp only [Bus.step] at h
    split at h
    · split at h <;> cases h <;> exact .inl hphase
    · cases h
  | next =>
    simp only [Bus.step] at h
    split at h
    · split at h <;> cases h <;> cases hphase
    · cases h
  | timeOut =>
    simp only [Bus.step] at h
    split at h
    · split at h <;> cases h
      cases hphase
    · cases h
  | emitOther event =>
    simp only [Bus.step] at h
    split at h
    · cases h
    · split at h <;> cases h <;> exact .inl hphase
  | pass nanos => cases h; exact .inl hphase
  | disconnect => cases h; exact .inl hphase

/-- What every step keeps, a run keeps. -/
theorem run_induction (Inv : Bus → Prop)
    (hstep : ∀ move ∈ moves, ∀ s s', Inv s → s.step action unit move = some s' → Inv s')
    (hs : Inv s) (hrun : run action unit moves s = some s') : Inv s' := by
  induction moves generalizing s with
  | nil =>
    cases hrun
    exact hs
  | cons move moves ih =>
    rw [run] at hrun
    obtain ⟨s₁, hfirst, hrest⟩ := Option.bind_eq_some_iff.mp hrun
    have hs₁ := hstep move List.mem_cons_self s s₁ hs hfirst
    exact ih (fun move' hmem => hstep move' (List.mem_cons_of_mem _ hmem)) hs₁ hrest

/-! ## Before the signal -/

/-- The call waits, and has not been told. -/
structure Awaits (path : String) (deadline : Nat) (s : Bus) : Prop where
  phase : s.phase = .waiting path deadline
  linked : s.job.path = some path
  foreign : ∀ event ∈ s.stream, event.jobPath ≠ path
  connected : s.connected = true

theorem Awaits.step (h : s.Awaits path deadline) (hstep : s.step action unit move = some s')
    (hemit : move ≠ .emit) (hmove : move ≠ .disconnect)
    (htime : s.clock + elapsed [move] < deadline) :
    s'.Awaits path deadline ∧ s'.clock = s.clock + elapsed [move] := by
  have hpath := path_step h.linked hstep
  have hconnected := (connected_step hmove hstep).trans h.connected
  cases move with
  | emit => exact absurd rfl hemit
  | disconnect => exact absurd rfl hmove
  | accept p => simp [Bus.step, h.phase] at hstep
  | reply answer => cases answer <;> simp [Bus.step, h.phase] at hstep
  | subscribed answer => cases answer <;> simp [Bus.step, h.phase] at hstep
  | info answer => simp [Bus.step, h.phase] at hstep
  | pass nanos =>
    cases hstep
    exact ⟨⟨h.phase, hpath, h.foreign, hconnected⟩, rfl⟩
  | finish result =>
    simp only [Bus.step] at hstep
    split at hstep <;> cases hstep
    exact ⟨⟨h.phase, hpath, h.foreign, hconnected⟩, rfl⟩
  | emitOther event =>
    simp only [Bus.step, h.phase] at hstep
    split at hstep
    · cases hstep
    · rename_i hother
      cases hstep
      constructor
      · refine ⟨rfl, hpath, ?_, hconnected⟩
        intro e he
        rcases List.mem_append.mp he with hold | hnew
        · exact h.foreign e hold
        · obtain rfl := List.mem_singleton.mp hnew
          intro heq
          exact hother (heq ▸ h.linked)
      · rfl
  | next =>
    simp only [Bus.step, h.phase] at hstep
    split at hstep
    · rename_i event rest hphase hstream
      have hforeign := h.foreign
      rw [hstream] at hforeign
      cases hphase
      rw [if_neg (hforeign event List.mem_cons_self)] at hstep
      cases hstep
      constructor
      · refine ⟨rfl, hpath, ?_, hconnected⟩
        intro e he
        exact hforeign e (List.mem_cons_of_mem _ he)
      · rfl
    · cases hstep
  | timeOut =>
    simp only [Bus.step, h.phase] at hstep
    split at hstep
    · rename_i hphase hstream
      cases hphase
      split at hstep
      · -- the budget is not used up, and the bus is there
        rename_i hend
        simp only [elapsed] at htime
        rcases hend with hle | hgone
        · omega
        · rw [h.connected] at hgone
          cases hgone
      · cases hstep
    · cases hstep

theorem elapsed_cons (move : BusMove) (moves : List BusMove) :
    elapsed (move :: moves) = elapsed [move] + elapsed moves := by
  cases move <;> simp [elapsed]

theorem Awaits.run (h : s.Awaits path deadline) (hrun : Bus.run action unit moves s = some s')
    (hemit : .emit ∉ moves) (hmoves : .disconnect ∉ moves)
    (htime : s.clock + elapsed moves < deadline) : s'.Awaits path deadline := by
  induction moves generalizing s with
  | nil =>
    cases hrun
    exact h
  | cons move moves ih =>
    rw [Bus.run] at hrun
    obtain ⟨s₁, hfirst, hrest⟩ := Option.bind_eq_some_iff.mp hrun
    rw [elapsed_cons] at htime
    obtain ⟨hs₁, hclock⟩ := h.step hfirst (fun heq => hemit (heq ▸ List.mem_cons_self))
      (fun heq => hmoves (heq ▸ List.mem_cons_self)) (by omega)
    exact ih hs₁ hrest (fun hmem => hemit (List.mem_cons_of_mem _ hmem))
      (fun hmem => hmoves (List.mem_cons_of_mem _ hmem)) (by omega)

/-! ## After the signal -/

/-- The signal is under way: the call comes back after `n` moves of its own. -/
inductive Told (unit path result : String) (seen : List BusMove) : Nat → Bus → Prop
  | waiting {s : Bus} {deadline : Nat} {skipped rest : List JobEvent}
      (job : s.job = .removed path result) (connected : s.connected = true)
      (phase : s.phase = .waiting path deadline)
      (stream : s.stream = skipped ++ ⟨path, result, unit⟩ :: rest)
      (foreign : ∀ event ∈ skipped, event.jobPath ≠ path) :
      Told unit path result seen (skipped.length + 2) s
  | asking {s : Bus} {event : JobEvent} (job : s.job = .removed path result)
      (phase : s.phase = .asking path event) (told : event.result = result) :
      Told unit path result seen 1 s
  | returned {s : Bus} {answer : Except ZbusError UnitInfo} (job : s.job = .removed path result)
      (asked : .info answer ∈ seen)
      (phase : s.phase = .returned (judge path result (unitInfoAnswer unit answer))) :
      Told unit path result seen 0 s

theorem Told.job {seen : List BusMove} {n : Nat} (h : Told unit path result seen n s) :
    s.job = .removed path result := by
  cases h <;> assumption

/-- The moves of the call count down, those of the others do not count. -/
theorem Told.step {seen : List BusMove} {n : Nat} (h : Told unit path result seen n s)
    (hstep : s.step action unit move = some s') (hmove : move ≠ .disconnect) :
    ∃ n', Told unit path result (seen ++ [move]) n' s' ∧
      n' + (if move.isClient then 1 else 0) = n := by
  have hjob := removed_step h.job hstep
  cases h with
  | @waiting _ deadline skipped rest job connected phase stream foreign =>
    have hconnected := (connected_step hmove hstep).trans connected
    cases move with
    | disconnect => exact absurd rfl hmove
    | accept p => simp [Bus.step, phase] at hstep
    | reply answer => cases answer <;> simp [Bus.step, phase] at hstep
    | subscribed answer => cases answer <;> simp [Bus.step, phase] at hstep
    | info answer => simp [Bus.step, phase] at hstep
    | emit => simp [Bus.step, job] at hstep
    | finish r => simp [Bus.step, job] at hstep
    | timeOut => simp [Bus.step, phase, stream] at hstep
    | pass nanos =>
      cases hstep
      exact ⟨_, .waiting hjob hconnected phase stream foreign, rfl⟩
    | emitOther event =>
      simp only [Bus.step, phase] at hstep
      split at hstep <;> cases hstep
      have hstream : s.stream ++ [event] =
          skipped ++ ⟨path, result, unit⟩ :: (rest ++ [event]) := by simp [stream]
      exact ⟨_, .waiting hjob hconnected rfl hstream foreign, rfl⟩
    | next =>
      cases skipped with
      | nil =>
        simp only [Bus.step, phase, stream, List.nil_append, if_true] at hstep
        cases hstep
        exact ⟨1, .asking hjob rfl rfl, rfl⟩
      | cons event skipped =>
        simp only [Bus.step, phase, stream, List.cons_append,
          if_neg (foreign event List.mem_cons_self)] at hstep
        cases hstep
        exact ⟨_, .waiting hjob hconnected rfl rfl
          fun e he => foreign e (List.mem_cons_of_mem _ he), rfl⟩
  | @asking _ event job phase told =>
    cases move with
    | disconnect => exact absurd rfl hmove
    | accept p => simp [Bus.step, phase] at hstep
    | reply answer => cases answer <;> simp [Bus.step, phase] at hstep
    | subscribed answer => cases answer <;> simp [Bus.step, phase] at hstep
    | emit => simp [Bus.step, job] at hstep
    | finish r => simp [Bus.step, job] at hstep
    | timeOut => simp [Bus.step, phase] at hstep
    | next => simp [Bus.step, phase] at hstep
    | pass nanos =>
      cases hstep
      exact ⟨1, .asking hjob phase told, rfl⟩
    | emitOther other =>
      simp only [Bus.step, phase] at hstep
      split at hstep <;> cases hstep
      exact ⟨1, .asking hjob phase told, rfl⟩
    | info answer =>
      simp only [Bus.step, phase, told] at hstep
      cases hstep
      exact ⟨0, .returned hjob (by simp) rfl, rfl⟩
  | @returned _ answer job asked phase =>
    have hasked : .info answer ∈ seen ++ [move] := List.mem_append_left _ asked
    cases move with
    | disconnect => exact absurd rfl hmove
    | accept p => simp [Bus.step, phase] at hstep
    | reply answer => cases answer <;> simp [Bus.step, phase] at hstep
    | subscribed answer => cases answer <;> simp [Bus.step, phase] at hstep
    | emit => simp [Bus.step, job] at hstep
    | finish r => simp [Bus.step, job] at hstep
    | timeOut => simp [Bus.step, phase] at hstep
    | next => simp [Bus.step, phase] at hstep
    | info answer => simp [Bus.step, phase] at hstep
    | pass nanos =>
      cases hstep
      exact ⟨0, .returned hjob hasked phase, rfl⟩
    | emitOther other =>
      simp only [Bus.step, phase] at hstep
      split at hstep <;> cases hstep
      exact ⟨0, .returned hjob hasked phase, rfl⟩

theorem Told.run {seen : List BusMove} {n : Nat} (h : Told unit path result seen n s)
    (hrun : Bus.run action unit moves s = some s') (hmoves : .disconnect ∉ moves) :
    ∃ n', Told unit path result (seen ++ moves) n' s' ∧ n' + moves.countP BusMove.isClient = n := by
  induction moves generalizing s seen n with
  | nil =>
    cases hrun
    exact ⟨n, by simpa using h, rfl⟩
  | cons move moves ih =>
    rw [Bus.run] at hrun
    obtain ⟨s₁, hfirst, hrest⟩ := Option.bind_eq_some_iff.mp hrun
    obtain ⟨n₁, hs₁, hcount₁⟩ := h.step hfirst fun heq => hmoves (heq ▸ List.mem_cons_self)
    obtain ⟨n', hs', hcount'⟩ := ih hs₁ hrest fun hmem => hmoves (List.mem_cons_of_mem _ hmem)
    refine ⟨n', by simpa using hs', ?_⟩
    rw [List.countP_cons]
    omega

/-- As long as it has not come back, the call can move. -/
theorem Told.can_move {seen : List BusMove} {n : Nat} (h : Told unit path result seen (n + 1) s) :
    ∃ move, move.isClient = true ∧ (s.step action unit move).isSome = true := by
  generalize hn : n + 1 = m at h
  cases h with
  | @waiting _ deadline skipped rest job connected phase stream foreign =>
    refine ⟨.next, rfl, ?_⟩
    cases skipped with
    | nil => simp [Bus.step, phase, stream]
    | cons event skipped =>
      simp [Bus.step, phase, stream, if_neg (foreign event List.mem_cons_self)]
  | asking job phase told =>
    exact ⟨.info (.ok ⟨"", ""⟩), rfl, by simp [Bus.step, phase]⟩
  | returned job asked phase => cases hn

/-! ## The call -/

/-- The signal that is sent to a call that waits reaches it. -/
theorem Awaits.told (h : s.Awaits path deadline) (hstep : s.step action unit .emit = some s') :
    ∃ result n, Told unit path result [] n s' := by
  have hjob := path_step h.linked hstep
  have hconnected := (connected_step (fun heq => by cases heq) hstep).trans h.connected
  simp only [Bus.step, h.phase] at hstep
  split at hstep <;> cases hstep
  rename_i path' result hfinished
  simp only [SystemdJob.path, Option.some.injEq] at hjob
  subst hjob
  exact ⟨result, _, .waiting rfl hconnected rfl rfl h.foreign⟩

/-- The call has come back with what it makes of the result of the job and of the answer
    to `unit_info`, or comes back after so many moves of its own, of which it can always
    make the next one. -/
structure Returns (action unit path result : String) (after : List BusMove) (s : Bus) : Prop where
  answered : ∀ answer, s.phase = .returned answer →
    (∃ info, .info info ∈ after ∧ answer = judge path result (unitInfoAnswer unit info)) ∧
    answer ≠ .error jobTimeout
  bounded : ∃ n, ∀ more s', run action unit more s = some s' → .disconnect ∉ more →
    n ≤ more.countP BusMove.isClient → ∃ answer, s'.phase = .returned answer
  goesOn : (∃ answer, s.phase = .returned answer) ∨
    ∃ move, move.isClient = true ∧ (s.step action unit move).isSome = true

theorem judge_ne_timeout (path result : String) (answer : Except ZbusError UnitInfo) :
    judge path result (unitInfoAnswer unit answer) ≠ .error jobTimeout := by
  have hverdict : ∀ activeState, jobVerdict path result activeState ≠ .error jobTimeout := by
    intro activeState
    unfold jobVerdict jobTimeout
    split
    · simp
    · split <;> simp
  cases answer with
  | ok info => exact hverdict info.activeState
  | error err =>
    have herr := SystemdError.fromZbus_ne_timeout err "unit_info" unit "120s"
    unfold unitInfoAnswer judge
    dsimp only
    split
    · exact hverdict _
    · exact hverdict _
    · rename_i err' hne heq
      cases heq
      simpa [jobTimeout] using herr

theorem Told.returns {seen : List BusMove} {n : Nat} (h : Told unit path result seen n s) :
    Returns action unit path result seen s where
  answered answer hphase := by
    cases h with
    | waiting job connected phase stream foreign =>
      rw [phase] at hphase
      cases hphase
    | asking job phase told =>
      rw [phase] at hphase
      cases hphase
    | @returned _ info job asked phase =>
      rw [phase] at hphase
      cases hphase
      exact ⟨⟨info, asked, rfl⟩, judge_ne_timeout _ _ _⟩
  bounded := by
    refine ⟨n, ?_⟩
    intro more s' hrun hmore hcount
    obtain ⟨n', htold, hsum⟩ := h.run hrun hmore
    obtain rfl : n' = 0 := by omega
    generalize hzero : 0 = m at htold
    cases htold with
    | waiting => cases hzero
    | asking => cases hzero
    | returned job asked phase => exact ⟨_, phase⟩
  goesOn := by
    cases n with
    | zero =>
      generalize hzero : 0 = m at h
      cases h with
      | waiting => cases hzero
      | asking => cases hzero
      | returned job asked phase => exact .inl ⟨_, phase⟩
    | succ n => exact .inr h.can_move

/-- **A call that is told of its job in time returns the result.**  The signal is sent
    after the subscription and before the budget is used up, and the bus stays up; the
    rest may happen in any order. -/
theorem call_returns {before middle after : List BusMove} {s : Bus}
    (hrun : run action unit
      (before ++ .subscribed (.ok ()) :: (middle ++ .emit :: after)) start = some s)
    (hup : .disconnect ∉ before ++ .subscribed (.ok ()) :: (middle ++ .emit :: after))
    (hbudget : elapsed middle < JOB_WAIT_BUDGET) :
    ∃ path result, s.job = .removed path result ∧ Returns action unit path result after s := by
  simp only [List.mem_append, List.mem_cons, not_or] at hup
  obtain ⟨hbefore, -, hmiddle, -, hafter⟩ := hup
  rw [run_append] at hrun
  obtain ⟨s₀, hrun₀, hrun⟩ := Option.bind_eq_some_iff.mp hrun
  rw [run] at hrun
  obtain ⟨s₁, hsubscribe, hrun⟩ := Option.bind_eq_some_iff.mp hrun
  rw [run_append] at hrun
  obtain ⟨s₂, hrun₂, hrun⟩ := Option.bind_eq_some_iff.mp hrun
  rw [run] at hrun
  obtain ⟨s₃, hsent, hrun₃⟩ := Option.bind_eq_some_iff.mp hrun
  -- up to the subscription
  have hconnected : s₀.connected = true :=
    run_induction (fun s => s.connected = true) (fun move hmem s s' hs hstep =>
        (connected_step (fun heq => hbefore (heq ▸ hmem)) hstep).trans hs) rfl hrun₀
  have hlinked : s₀.Linked :=
    run_induction Linked (fun move hmem s s' hs hstep => hs.step hstep)
      (fun path hphase => by cases hphase) hrun₀
  obtain ⟨path, deadline, hs₁, hdeadline⟩ : ∃ path deadline, s₁.Awaits path deadline ∧
      deadline = s₁.clock + JOB_WAIT_BUDGET := by
    simp only [step] at hsubscribe
    split at hsubscribe
    · rename_i path hphase
      cases hsubscribe
      refine ⟨path, _, ⟨rfl, hlinked path hphase, ?_, hconnected⟩, rfl⟩
      intro event hmem
      cases hmem
    · cases hsubscribe
  -- up to the signal, which is sent once
  have hunsent : .emit ∉ middle := by
    intro hmem
    obtain ⟨early, late, rfl⟩ := List.append_of_mem hmem
    rw [run_append] at hrun₂
    obtain ⟨t, -, hrun₂⟩ := Option.bind_eq_some_iff.mp hrun₂
    rw [run] at hrun₂
    obtain ⟨t', hearly, hlate⟩ := Option.bind_eq_some_iff.mp hrun₂
    obtain ⟨p, r, hremoved⟩ : ∃ p r, t'.job = .removed p r := by
      simp only [step] at hearly
      split at hearly
      · split at hearly <;> cases hearly <;> exact ⟨_, _, rfl⟩
      · cases hearly
    have hagain : run action unit (late ++ [.emit]) t' = some s₃ := by
      rw [run_append, hlate]
      simpa [run] using hsent
    exact not_emit_of_removed hremoved hagain
  have hs₂ := hs₁.run hrun₂ hunsent hmiddle (by omega)
  -- and from there to where the call is now
  obtain ⟨result, n, htold⟩ := hs₂.told hsent
  obtain ⟨n', htold', -⟩ := htold.run hrun₃ hafter
  exact ⟨path, result, htold'.job, by simpa using htold'.returns⟩

/-! ### A job of nginx -/

def nginxJob : String := "/org/freedesktop/systemd1/job/42"

/-- Another job is removed first. -/
theorem call_returns_nginx : ∃ path result, SystemdJob.removed nginxJob "done" =
      .removed path result ∧ Returns "restart_unit" "nginx.service" path result
        [.next, .next, .info (.ok ⟨"active", "1"⟩)]
        ⟨0, .returned (.ok ()), .removed nginxJob "done", [], true⟩ := by
  have hrun : run "restart_unit" "nginx.service" ([.accept nginxJob, .reply (.ok nginxJob)] ++
      .subscribed (.ok ()) :: ([.emitOther ⟨"/org/freedesktop/systemd1/job/41", "done",
        "cron.service"⟩, .finish "done"] ++ .emit ::
        [.next, .next, .info (.ok ⟨"active", "1"⟩)])) start =
      some ⟨0, .returned (.ok ()), .removed nginxJob "done", [], true⟩ := rfl
  exact call_returns hrun (by simp) (by decide)

/-- Up to the end of the budget. -/
def outwait : List BusMove := [.subscribed (.ok ()), .pass JOB_WAIT_BUDGET, .timeOut]

def timedOut : Bus :=
  ⟨JOB_WAIT_BUDGET, .returned (.error jobTimeout), .removed nginxJob "done", [], true⟩

/-- The job may take longer than the budget, the unit of a job that is done may have
    failed, and the job may be over before the subscription. -/
theorem completion_lost :
    (¬ ∀ action unit moves s path result answer, run action unit moves start = some s →
      .disconnect ∉ moves → s.job = .removed path result → s.phase = .returned answer →
      (answer = .ok () ↔ result = "done") ∧ answer ≠ .error jobTimeout) ∧
    run "start_unit" "nginx.service" ([.accept nginxJob, .reply (.ok nginxJob)] ++ outwait ++
      [.finish "done", .emit]) start = some timedOut ∧
    run "start_unit" "nginx.service" [.accept nginxJob, .reply (.ok nginxJob),
        .subscribed (.ok ()), .finish "done", .emit, .next, .info (.ok ⟨"failed", "1"⟩)] start =
      some ⟨0, .returned (.error (.jobFailed nginxJob "done" "failed")),
        .removed nginxJob "done", [], true⟩ ∧
    run "start_unit" "nginx.service" ([.accept nginxJob, .finish "done", .emit,
      .reply (.ok nginxJob)] ++ outwait) start = some timedOut := by
  have hlate : run "start_unit" "nginx.service" ([.accept nginxJob, .reply (.ok nginxJob)] ++
      outwait ++ [.finish "done", .emit]) start = some timedOut := by
    simp [run, step, start, outwait, timedOut, SystemdJob.path]
  have hearly : run "start_unit" "nginx.service" ([.accept nginxJob, .finish "done", .emit,
      .reply (.ok nginxJob)] ++ outwait) start = some timedOut := by
    simp [run, step, start, outwait, timedOut, SystemdJob.path]
  refine ⟨?_, hlate, rfl, hearly⟩
  intro h
  exact (h _ _ _ _ _ _ _ hlate (by simp [outwait]) rfl rfl).2 rfl

end Bus

end Bosun
