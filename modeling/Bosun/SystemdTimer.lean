import Bosun.Library.Sequences
import Bosun.Services
import Bosun.UnitName

/-!
# `systemd.timer`

A timer has two things to set: whether it is active and whether its unit file is enabled.
`apply` sets both, with two calls, either of which may fail; but what it does is decided by
the active state alone, and `unit_info` does not tell whether the file is enabled.

A timer is *half changed* for a spec when it is already as active as the spec wants while
its unit file is not as the spec wants.  That is what a run leaves behind when `stop_unit`
goes through and `disable_unit` does not, and the runs that follow take it for done.
-/

namespace Bosun

/-! ## The primitive -/

inductive TimerState
  | enabled
  | disabled
  | absent
deriving DecidableEq, Repr

structure SystemdTimerSpec where
  name : UnitName
  state : TimerState
  enable : Bool

inductive TimerAction
  | noChange
  | enable
  | disable
  | stopAndDisable
deriving DecidableEq, Repr

/-- A unit that is not loaded counts as not active. -/
def isTimerActive (current : Option UnitInfo) : Bool :=
  (current.map fun u => decide (u.activeState = ACTIVE_STATE)).getD false

def decideTimerAction (spec : SystemdTimerSpec) (current : Option UnitInfo) : TimerAction :=
  match spec.state with
  | .enabled => if isTimerActive current then .noChange else .enable
  | .disabled => if isTimerActive current then .disable else .noChange
  | .absent => if isTimerActive current then .stopAndDisable else .noChange

/-- A service makes no use of `disable_unit`. -/
structure SystemdUnitHandle (V : Type) extends SystemdHandle V where
  disableUnit : String → ClientCall V SystemdError Unit

section Timer

variable {P V : Type}

/-- The plan does not look at the unit: it always asks for an update. -/
def timerComputeDiff (timerSpec : P → Except String SystemdTimerSpec) (pendingLookup : P)
    (resource : Resource P) : Except PrimitiveError (Diff P) :=
  match timerSpec resource.payload with
  | .error e => .error (.invalidPayload ("systemd.timer payload: " ++ e))
  | .ok spec =>
    .ok (.update pendingLookup resource.payload ("converge systemd.timer:" ++ spec.name.asStr))

/-- `call.map_err(|e| map_systemd_error(e, op))?` -/
def timerCall {α : Type} (call : ClientCall V SystemdError α) (op : String) :
    EStateM PrimitiveError V α := fun v =>
  match call v with
  | (.ok a, v') => .ok a v'
  | (.error err, v') => .error (mapSystemdError err op) v'

/-- The snapshot: `NoSuchUnit` is an answer. -/
def timerBefore (systemd : SystemdUnitHandle V) (spec : SystemdTimerSpec) :
    EStateM PrimitiveError V (Option UnitInfo) := fun v =>
  match systemd.unitInfo spec.name.asStr v with
  | (.ok info, v') => .ok (some info) v'
  | (.error (.noSuchUnit _), v') => .ok none v'
  | (.error err, v') => .error (mapSystemdError err "unit_info") v'

def timerCarryOut (systemd : SystemdUnitHandle V) (spec : SystemdTimerSpec) :
    TimerAction → EStateM PrimitiveError V ChangeReport
  | .noChange => return .noChange
  | .enable => do
    if spec.enable then
      timerCall (systemd.enableUnit spec.name.asStr) "enable_unit"
    timerCall (systemd.startUnit spec.name.asStr) "start_unit"
    return .ofChanged ("enabled systemd.timer:" ++ spec.name.asStr)
  | .disable => do
    timerCall (systemd.stopUnit spec.name.asStr) "stop_unit"
    timerCall (systemd.disableUnit spec.name.asStr) "disable_unit"
    return .ofChanged ("disabled systemd.timer:" ++ spec.name.asStr)
  | .stopAndDisable => do
    timerCall (systemd.stopUnit spec.name.asStr) "stop_unit"
    timerCall (systemd.disableUnit spec.name.asStr) "disable_unit"
    return .ofChanged ("stopped and disabled systemd.timer:" ++ spec.name.asStr)

/-- `apply.rs::run` -/
def timerApply (timerSpec : P → Except String SystemdTimerSpec)
    (systemd : Option (SystemdUnitHandle V)) (resource : Resource P) (diff : Diff P) :
    EStateM PrimitiveError V ChangeReport :=
  match diff with
  | .noChange => return .noChange
  | _ =>
    match timerSpec resource.payload with
    | .error e => throw (.invalidPayload ("systemd.timer payload: " ++ e))
    | .ok spec =>
      match systemd with
      | none => throw (.systemdUnavailable "systemd client not initialized in ApplyCtx")
      | some systemd => do
        let before ← timerBefore systemd spec
        timerCarryOut systemd spec (decideTimerAction spec before)

/-- The two phases of one run. -/
def timerConverge (timerSpec : P → Except String SystemdTimerSpec) (pendingLookup : P)
    (systemd : Option (SystemdUnitHandle V)) (resource : Resource P) :
    EStateM PrimitiveError V ChangeReport :=
  match timerComputeDiff timerSpec pendingLookup resource with
  | .error e => throw e
  | .ok diff => timerApply timerSpec systemd resource diff

end Timer

/-! ## Timers and the calls on them -/

structure TimerUnit where
  info : Option UnitInfo
  enabled : Bool
deriving DecidableEq, Repr

namespace TimerUnit

def active (t : TimerUnit) : Bool := isTimerActive t.info

def start (t : TimerUnit) : TimerUnit :=
  { t with info := some { t.info.getD ⟨"inactive", ""⟩ with activeState := ACTIVE_STATE } }

def stop (t : TimerUnit) : TimerUnit :=
  { t with info := t.info.map fun u => { u with activeState := "inactive" } }

def enable (t : TimerUnit) : TimerUnit := { t with enabled := true }

def disable (t : TimerUnit) : TimerUnit := { t with enabled := false }

@[simp] theorem active_start (t : TimerUnit) : t.start.active = true := by
  simp [active, start, isTimerActive]

@[simp] theorem active_stop (t : TimerUnit) : t.stop.active = false := by
  cases hinfo : t.info with
  | none => simp [active, stop, isTimerActive, hinfo]
  | some u => simp [active, stop, isTimerActive, hinfo, ACTIVE_STATE]

@[simp] theorem active_enable (t : TimerUnit) : t.enable.active = t.active := rfl

@[simp] theorem active_disable (t : TimerUnit) : t.disable.active = t.active := rfl

@[simp] theorem enabled_start (t : TimerUnit) : t.start.enabled = t.enabled := rfl

@[simp] theorem enabled_stop (t : TimerUnit) : t.stop.enabled = t.enabled := rfl

@[simp] theorem enabled_enable (t : TimerUnit) : t.enable.enabled = true := rfl

@[simp] theorem enabled_disable (t : TimerUnit) : t.disable.enabled = false := rfl

end TimerUnit

inductive TimerOp
  | unitInfo
  | enableUnit
  | startUnit
  | stopUnit
  | disableUnit
deriving DecidableEq, Repr

/-- A call that fails may have had its effect all the same: a time-out comes after the job
    was queued. -/
structure CallFault where
  error : SystemdError
  tookEffect : Bool
deriving DecidableEq, Repr

/-- Which calls of a run fail, and how.  A run makes each of its calls once. -/
abbrev CallFaults := TimerOp → Option CallFault

structure TimerWorld where
  units : String → TimerUnit
  failed : List TimerOp

namespace TimerWorld

/-- A call on the unit `name` that does what `effect` says. -/
def call {α : Type} (faults : CallFaults) (op : TimerOp) (name : String)
    (effect : TimerUnit → TimerUnit) (answer : TimerUnit → Except SystemdError α) :
    ClientCall TimerWorld SystemdError α := fun w =>
  match faults op with
  | none => (answer (w.units name), { w with
      units := Function.update w.units name (effect (w.units name)) })
  | some fault => (.error fault.error, {
      units := if fault.tookEffect then Function.update w.units name (effect (w.units name))
        else w.units
      failed := w.failed ++ [op] })

end TimerWorld

/-- start, stop, enable and disable have exactly the effect of their names. -/
def timerClient (faults : CallFaults) : SystemdUnitHandle TimerWorld where
  toSystemdHandle := { SystemdHandle.obedient with
    startUnit := fun name => TimerWorld.call faults .startUnit name .start fun _ => .ok ()
    stopUnit := fun name => TimerWorld.call faults .stopUnit name .stop fun _ => .ok ()
    enableUnit := fun name => TimerWorld.call faults .enableUnit name .enable fun _ => .ok ()
    unitInfo := fun name => TimerWorld.call faults .unitInfo name id fun t =>
      match t.info with
      | some info => .ok info
      | none => .error (.noSuchUnit name) }
  disableUnit := fun name => TimerWorld.call faults .disableUnit name .disable fun _ => .ok ()

/-! ## What the timer should be -/

/-- The desired state of a spec. -/
def SystemdTimerSpec.Converged (spec : SystemdTimerSpec) (t : TimerUnit) : Prop :=
  match spec.state with
  | .enabled => t.active = true ∧ (spec.enable = true → t.enabled = true)
  | .disabled => t.active = false ∧ t.enabled = false
  | .absent => t.active = false ∧ t.enabled = false

/-- The active state is the desired one, the unit file is not. -/
def SystemdTimerSpec.HalfChanged (spec : SystemdTimerSpec) (t : TimerUnit) : Prop :=
  match spec.state with
  | .enabled => t.active = true ∧ spec.enable = true ∧ t.enabled = false
  | .disabled => t.active = false ∧ t.enabled = true
  | .absent => t.active = false ∧ t.enabled = true

instance (spec : SystemdTimerSpec) (t : TimerUnit) : Decidable (spec.Converged t) :=
  match spec with
  | ⟨_, .enabled, _⟩ => inferInstanceAs (Decidable (_ ∧ (_ → _)))
  | ⟨_, .disabled, _⟩ => inferInstanceAs (Decidable (_ ∧ _))
  | ⟨_, .absent, _⟩ => inferInstanceAs (Decidable (_ ∧ _))

namespace TimerAction

/-- What the calls of an action make of the timer when they all succeed. -/
def onUnit (spec : SystemdTimerSpec) : TimerAction → TimerUnit → TimerUnit
  | noChange, t => t
  | enable, t => (if spec.enable then t.enable else t).start
  | disable, t => t.stop.disable
  | stopAndDisable, t => t.stop.disable

/-- The action that is decided on, carried out, gives the desired state, but not to a timer
    that is half changed. -/
theorem converged_onUnit_iff (spec : SystemdTimerSpec) (t : TimerUnit) :
    spec.Converged ((decideTimerAction spec t.info).onUnit spec t) ↔ ¬ spec.HalfChanged t := by
  have hactive : isTimerActive t.info = t.active := rfl
  cases hstate : spec.state with
  | enabled =>
    simp only [SystemdTimerSpec.Converged, SystemdTimerSpec.HalfChanged, decideTimerAction, hstate,
      hactive]
    by_cases ht : t.active = true
    · -- nothing is done
      simp [ht, onUnit]
    · by_cases henable : spec.enable = true <;> simp [ht, onUnit, henable]
  | disabled =>
    simp only [SystemdTimerSpec.Converged, SystemdTimerSpec.HalfChanged, decideTimerAction, hstate,
      hactive]
    by_cases ht : t.active = true <;> simp [ht, onUnit]
  | absent =>
    simp only [SystemdTimerSpec.Converged, SystemdTimerSpec.HalfChanged, decideTimerAction, hstate,
      hactive]
    by_cases ht : t.active = true <;> simp [ht, onUnit]

end TimerAction

/-! ## Runs -/

section Runs

variable {P : Type}

/-- A run of the primitive on a timer.  Without `faults` the run has no client at all. -/
structure TimerRun (timerSpec : P → Except String SystemdTimerSpec) where
  resource : Resource P
  spec : SystemdTimerSpec
  decodes : timerSpec resource.payload = .ok spec
  faults : Option CallFaults

namespace TimerRun

variable {timerSpec : P → Except String SystemdTimerSpec} (pendingLookup : P)

/-- The world an outcome carries. -/
def world {α : Type} : EStateM.Result PrimitiveError TimerWorld α → TimerWorld
  | .ok _ w => w
  | .error _ w => w

def result (run : TimerRun timerSpec) (units : String → TimerUnit) :
    EStateM.Result PrimitiveError TimerWorld ChangeReport :=
  timerConverge timerSpec pendingLookup (run.faults.map timerClient) run.resource ⟨units, []⟩

def leaves (run : TimerRun timerSpec) (units : String → TimerUnit) : TimerWorld :=
  world (run.result pendingLookup units)

def after (run : TimerRun timerSpec) (units : String → TimerUnit) : String → TimerUnit :=
  (run.leaves pendingLookup units).units

/-- The run has a client, and none of the calls it makes fails. -/
def NoCallFails (run : TimerRun timerSpec) (units : String → TimerUnit) : Prop :=
  run.faults.isSome = true ∧ (run.leaves pendingLookup units).failed = []

instance (run : TimerRun timerSpec) (units : String → TimerUnit) :
    Decidable (run.NoCallFails pendingLookup units) :=
  inferInstanceAs (Decidable (_ ∧ _))

def unit (run : TimerRun timerSpec) (units : String → TimerUnit) : TimerUnit :=
  units run.spec.name.asStr

/-! ### One run -/

/-- A call that does not show among the failures has had its effect, and the run went on. -/
theorem call_bind_of_noFailure {α : Type} {faults : CallFaults} {op : TimerOp}
    {name label : String} {effect : TimerUnit → TimerUnit}
    {k : Unit → EStateM PrimitiveError TimerWorld α} {w : TimerWorld}
    (h : (world ((timerCall (TimerWorld.call faults op name effect fun _ => .ok ()) label >>= k)
      w)).failed = []) :
    (timerCall (TimerWorld.call faults op name effect fun _ => .ok ()) label >>= k) w =
      k () { w with units := Function.update w.units name (effect (w.units name)) } := by
  cases hop : faults op with
  | none => simp only [bind, EStateM.bind, timerCall, TimerWorld.call, hop]
  | some fault =>
    -- the failure would be on record
    simp [bind, EStateM.bind, timerCall, TimerWorld.call, hop, world] at h

/-- A failure on record stays there. -/
def KeepsRecord {α : Type} (x : EStateM PrimitiveError TimerWorld α) : Prop :=
  ∀ w, w.failed ≠ [] → (world (x w)).failed ≠ []

theorem keepsRecord_pure {α : Type} (a : α) : KeepsRecord (pure a) := by
  intro w hw
  exact hw

theorem keepsRecord_bind {α β : Type} {x : EStateM PrimitiveError TimerWorld α}
    {k : α → EStateM PrimitiveError TimerWorld β} (hx : KeepsRecord x)
    (hk : ∀ a, KeepsRecord (k a)) : KeepsRecord (x >>= k) := by
  intro w hw
  have hfirst := hx w hw
  show (world (EStateM.bind x k w)).failed ≠ []
  unfold EStateM.bind
  cases hres : x w with
  | ok a w' =>
    rw [hres] at hfirst
    exact hk a w' hfirst
  | error err w' =>
    rw [hres] at hfirst
    exact hfirst

theorem keepsRecord_call (faults : CallFaults) (op : TimerOp) (name label : String)
    (effect : TimerUnit → TimerUnit) :
    KeepsRecord (timerCall (TimerWorld.call faults op name effect fun _ => .ok ()) label) := by
  intro w hw
  cases hop : faults op with
  | none => simpa [timerCall, TimerWorld.call, hop, world] using hw
  | some fault => simp [timerCall, TimerWorld.call, hop, world]

/-- Two calls on one unit, one after the other. -/
def twoCalls (faults : CallFaults) (name : String) (op op' : TimerOp) (label label' : String)
    (effect effect' : TimerUnit → TimerUnit) (report : ChangeReport) :
    EStateM PrimitiveError TimerWorld ChangeReport := do
  timerCall (TimerWorld.call faults op name effect fun _ => .ok ()) label
  timerCall (TimerWorld.call faults op' name effect' fun _ => .ok ()) label'
  return report

section TwoCalls

variable {faults : CallFaults} {name label label' : String} {op op' : TimerOp}
  {effect effect' : TimerUnit → TimerUnit} {report : ChangeReport}

theorem keepsRecord_twoCalls :
    KeepsRecord (twoCalls faults name op op' label label' effect effect' report) := by
  apply keepsRecord_bind (keepsRecord_call _ _ _ _ _)
  intro _
  apply keepsRecord_bind (keepsRecord_call _ _ _ _ _)
  intro _
  exact keepsRecord_pure _

theorem twoCalls_of_noFailure {units : String → TimerUnit}
    (h : (world (twoCalls faults name op op' label label' effect effect' report
      ⟨units, []⟩)).failed = []) :
    twoCalls faults name op op' label label' effect effect' report ⟨units, []⟩ =
      .ok report ⟨Function.update units name (effect' (effect (units name))), []⟩ := by
  have hfirst := call_bind_of_noFailure h
  unfold twoCalls at h ⊢
  rw [hfirst] at h ⊢
  rw [call_bind_of_noFailure h]
  simp [pure, EStateM.pure]

end TwoCalls

theorem keepsRecord_carryOut (faults : CallFaults) (spec : SystemdTimerSpec)
    (action : TimerAction) : KeepsRecord (timerCarryOut (timerClient faults) spec action) := by
  cases action with
  | noChange => exact keepsRecord_pure _
  | enable =>
    by_cases henable : spec.enable = true
    · simp only [timerCarryOut, henable, if_true]
      exact keepsRecord_twoCalls
    · simp only [timerCarryOut, henable, Bool.false_eq_true, if_false]
      apply keepsRecord_bind (keepsRecord_call _ _ _ _ _)
      intro _
      exact keepsRecord_pure _
  | disable => exact keepsRecord_twoCalls
  | stopAndDisable => exact keepsRecord_twoCalls

theorem carryOut_of_noFailure {faults : CallFaults} {spec : SystemdTimerSpec}
    {action : TimerAction} {units : String → TimerUnit}
    (h : (world (timerCarryOut (timerClient faults) spec action ⟨units, []⟩)).failed = []) :
    ∃ report, timerCarryOut (timerClient faults) spec action ⟨units, []⟩ = .ok report
      ⟨Function.update units spec.name.asStr (action.onUnit spec (units spec.name.asStr)), []⟩ := by
  cases action with
  | noChange => exact ⟨.noChange, by simp [timerCarryOut, pure, EStateM.pure, TimerAction.onUnit]⟩
  | enable =>
    by_cases henable : spec.enable = true
    · simp only [timerCarryOut, henable, if_true] at h ⊢
      simp only [TimerAction.onUnit, henable, if_true]
      exact ⟨_, twoCalls_of_noFailure h⟩
    · simp only [timerCarryOut, henable, Bool.false_eq_true, if_false] at h ⊢
      simp only [TimerAction.onUnit, henable, Bool.false_eq_true, if_false]
      exact ⟨_, call_bind_of_noFailure h⟩
  | disable => exact ⟨_, twoCalls_of_noFailure h⟩
  | stopAndDisable => exact ⟨_, twoCalls_of_noFailure h⟩

/-- The snapshot changes no unit.  It is right, or its failure is on record. -/
theorem before_cases (faults : CallFaults) (spec : SystemdTimerSpec)
    (units : String → TimerUnit) :
    (∃ before failed, (failed = [] → before = (units spec.name.asStr).info) ∧
      timerBefore (timerClient faults) spec ⟨units, []⟩ = .ok before ⟨units, failed⟩) ∨
    ∃ err failed, failed ≠ [] ∧
      timerBefore (timerClient faults) spec ⟨units, []⟩ = .error err ⟨units, failed⟩ := by
  cases hop : faults .unitInfo with
  | none =>
    left
    refine ⟨(units spec.name.asStr).info, [], fun _ => rfl, ?_⟩
    cases hinfo : (units spec.name.asStr).info <;>
      simp [timerBefore, timerClient, TimerWorld.call, hop, hinfo]
  | some fault =>
    cases herror : fault.error with
    | noSuchUnit name =>
      -- this one passes for an answer
      left
      exact ⟨none, [.unitInfo], by simp,
        by simp [timerBefore, timerClient, TimerWorld.call, hop, herror]⟩
    | _ =>
      right
      exact ⟨mapSystemdError fault.error "unit_info", [.unitInfo], by simp,
        by simp [timerBefore, timerClient, TimerWorld.call, hop, herror]⟩

theorem result_eq {run : TimerRun timerSpec} {faults : CallFaults}
    (hfaults : run.faults = some faults) (units : String → TimerUnit) :
    run.result pendingLookup units =
      (timerBefore (timerClient faults) run.spec >>= fun before =>
        timerCarryOut (timerClient faults) run.spec (decideTimerAction run.spec before))
          ⟨units, []⟩ := by
  simp only [result, timerConverge, timerComputeDiff, timerApply, run.decodes, hfaults,
    Option.map_some]

/-- A run in which no call fails returns `Ok` and carries out what was decided on. -/
theorem result_of_noCallFails {run : TimerRun timerSpec} {units : String → TimerUnit}
    (h : run.NoCallFails pendingLookup units) :
    ∃ report, run.result pendingLookup units = .ok report ⟨Function.update units
      run.spec.name.asStr ((decideTimerAction run.spec (run.unit units).info).onUnit run.spec
        (run.unit units)), []⟩ := by
  obtain ⟨hclient, hfailed⟩ := h
  obtain ⟨faults, hfaults⟩ := Option.isSome_iff_exists.mp hclient
  rw [leaves, result_eq pendingLookup hfaults] at hfailed
  rw [result_eq pendingLookup hfaults]
  rcases before_cases faults run.spec units with
    ⟨before, failed, hinfo, hbefore⟩ | ⟨err, failed, hne, hbefore⟩
  · simp only [bind, EStateM.bind, hbefore] at hfailed ⊢
    by_cases hnil : failed = []
    · subst hnil
      rw [hinfo rfl] at hfailed ⊢
      exact carryOut_of_noFailure hfailed
    · exact absurd hfailed (keepsRecord_carryOut faults run.spec _ _ hnil)
  · simp only [bind, EStateM.bind, hbefore] at hfailed
    exact absurd hfailed hne

/-- The step: a run in which no call fails leaves the desired state exactly when it did not
    find the timer half changed. -/
theorem converged_after_iff {run : TimerRun timerSpec} {units : String → TimerUnit}
    (h : run.NoCallFails pendingLookup units) :
    run.spec.Converged (run.unit (run.after pendingLookup units)) ↔
      ¬ run.spec.HalfChanged (run.unit units) := by
  obtain ⟨report, hresult⟩ := result_of_noCallFails pendingLookup h
  have hafter : run.unit (run.after pendingLookup units) =
      (decideTimerAction run.spec (run.unit units).info).onUnit run.spec (run.unit units) := by
    simp only [after, leaves, hresult, world, unit, Function.update_self]
  rw [hafter]
  exact TimerAction.converged_onUnit_iff run.spec (run.unit units)

/-! ### Sequences of runs -/

/-- A run in which no call fails leaves its timer in the desired state. -/
def Converges (run : TimerRun timerSpec) (units : String → TimerUnit) : Prop :=
  run.NoCallFails pendingLookup units →
    run.spec.Converged (run.unit (run.after pendingLookup units))

/-- A run in which no call fails does not find its timer half changed. -/
def StartsWhole (run : TimerRun timerSpec) (units : String → TimerUnit) : Prop :=
  run.NoCallFails pendingLookup units → ¬ run.spec.HalfChanged (run.unit units)

/-- **Convergence.**  Whatever timers a sequence of runs starts from, and whatever calls fail in
    it, all its runs without a failure leave the desired state if and only if none of them
    finds its timer half changed. -/
theorem timers_converge_iff (runs : List (TimerRun timerSpec)) (units : String → TimerUnit) :
    EachStep (after pendingLookup) (Converges pendingLookup) runs units ↔
      EachStep (after pendingLookup) (StartsWhole pendingLookup) runs units := by
  apply eachStep_congr
  intro run units
  constructor
  · intro h hfine
    exact (converged_after_iff pendingLookup hfine).mp (h hfine)
  · intro h hfine
    exact (converged_after_iff pendingLookup hfine).mpr (h hfine)

/-- A call that keeps `p` of the unit, whether it takes effect or not, leaves `p`. -/
theorem world_call_keeps {p : TimerUnit → Prop} (faults : CallFaults) (op : TimerOp)
    {name : String} (label : String) {effect : TimerUnit → TimerUnit} {w : TimerWorld}
    (hp : p (w.units name)) (heffect : p (effect (w.units name))) :
    p ((world (timerCall (TimerWorld.call faults op name effect fun _ => .ok ()) label w)).units
      name) := by
  cases hop : faults op with
  | none => simpa [timerCall, TimerWorld.call, hop, world] using heffect
  | some fault =>
    by_cases hfault : fault.tookEffect = true
    · simpa [timerCall, TimerWorld.call, hop, world, hfault] using heffect
    · simpa [timerCall, TimerWorld.call, hop, world, hfault] using hp

/-- Enabling a timer never leaves it active with its unit file not enabled, unless it was so. -/
theorem carryOut_enable_keeps {faults : CallFaults} {spec : SystemdTimerSpec}
    (henable : spec.enable = true) {w : TimerWorld}
    (h : (w.units spec.name.asStr).active = true → (w.units spec.name.asStr).enabled = true) :
    let t := (world (timerCarryOut (timerClient faults) spec .enable w)).units spec.name.asStr
    t.active = true → t.enabled = true := by
  let p : TimerUnit → Prop := fun t => t.active = true → t.enabled = true
  have hfirst : p ((world (timerCall (TimerWorld.call faults .enableUnit spec.name.asStr .enable
      fun _ => .ok ()) "enable_unit" w)).units spec.name.asStr) :=
    world_call_keeps faults _ _ h (fun _ => rfl)
  show p ((world (timerCarryOut (timerClient faults) spec .enable w)).units spec.name.asStr)
  cases hop : faults .enableUnit with
  | some fault =>
    -- the run ends with this call
    simpa [timerCarryOut, henable, timerClient, bind, EStateM.bind, timerCall, TimerWorld.call, hop,
      world] using hfirst
  | none =>
    -- the unit file is enabled by now, and starting the timer does not change that
    let w' : TimerWorld := ⟨Function.update w.units spec.name.asStr
      (w.units spec.name.asStr).enable, w.failed⟩
    have henabled : (w'.units spec.name.asStr).enabled = true := by simp [w']
    have hstart : p ((world (timerCall (TimerWorld.call faults .startUnit spec.name.asStr .start
        fun _ => .ok ()) "start_unit" w')).units spec.name.asStr) :=
      world_call_keeps faults .startUnit "start_unit" (fun _ => henabled) (fun _ => henabled)
    have hrest : world (timerCarryOut (timerClient faults) spec .enable w) =
        world (timerCall (TimerWorld.call faults .startUnit spec.name.asStr .start
          fun _ => .ok ()) "start_unit" w') := by
      cases hop' : faults .startUnit <;>
        simp [timerCarryOut, henable, timerClient, bind, EStateM.bind, timerCall, TimerWorld.call,
          hop, hop', world, w', pure, EStateM.pure]
    rw [hrest]
    exact hstart

/-- Runs that are to have a timer enabled do not leave it half changed, whatever fails: the unit
    file is enabled before the timer is started. -/
theorem not_halfChanged_after {run : TimerRun timerSpec} (hstate : run.spec.state = .enabled)
    {units : String → TimerUnit} (h : ¬ run.spec.HalfChanged (run.unit units)) :
    ¬ run.spec.HalfChanged (run.unit (run.after pendingLookup units)) := by
  have hiff : ∀ t, ¬ run.spec.HalfChanged t ↔
      (run.spec.enable = true → t.active = true → t.enabled = true) := by
    intro t
    simp only [SystemdTimerSpec.HalfChanged, hstate]
    cases t.enabled <;> simp
  rw [hiff] at h ⊢
  intro henable
  have hcarry : ∀ faults (before : Option UnitInfo) (failed : List TimerOp),
      let t := (world (timerCarryOut (timerClient faults) run.spec
        (decideTimerAction run.spec before) ⟨units, failed⟩)).units run.spec.name.asStr
      t.active = true → t.enabled = true := by
    intro faults before failed
    by_cases hbefore : isTimerActive before = true
    · simp only [decideTimerAction, hstate, hbefore, if_true]
      exact h henable
    · simp only [decideTimerAction, hstate, hbefore]
      exact carryOut_enable_keeps henable (h henable)
  cases hfaults : run.faults with
  | none =>
    -- without a client no call is made
    have hthrow : ∀ (err : PrimitiveError) (w : TimerWorld),
        (throw err : EStateM PrimitiveError TimerWorld ChangeReport) w = .error err w :=
      fun _ _ => rfl
    simpa [unit, after, leaves, result, timerConverge, timerComputeDiff, timerApply, run.decodes,
      hfaults, hthrow, world] using h henable
  | some faults =>
    rw [unit, after, leaves, result_eq pendingLookup hfaults]
    rcases before_cases faults run.spec units with
      ⟨before, failed, _, hbefore⟩ | ⟨err, failed, _, hbefore⟩
    · simp only [bind, EStateM.bind, hbefore]
      exact hcarry faults before failed
    · simp only [bind, EStateM.bind, hbefore]
      exact h henable

/-- **Enabling recovers.**  Runs that are to have one timer enabled, however many of them fail and
    at whichever call, converge once no call fails, if they start from a timer that is not half
    changed. -/
theorem enabled_runs_converge {spec : SystemdTimerSpec} (hstate : spec.state = .enabled)
    (runs : List (TimerRun timerSpec)) (hspec : ∀ run ∈ runs, run.spec = spec) :
    ∀ units, ¬ spec.HalfChanged (units spec.name.asStr) →
      EachStep (after pendingLookup) (Converges pendingLookup) runs units := by
  induction runs with
  | nil =>
    intro units _
    trivial
  | cons run runs ih =>
    intro units hunits
    have hrun : run.spec = spec := hspec run List.mem_cons_self
    rw [← hrun] at hunits hstate
    constructor
    · intro hfine
      exact (converged_after_iff pendingLookup hfine).mpr hunits
    · have hafter := not_halfChanged_after pendingLookup hstate hunits
      apply ih (fun r hr => hspec r (List.mem_cons_of_mem _ hr))
      rw [← hrun]
      exact hafter

end TimerRun

end Runs

/-! ## Disabling does not recover -/

namespace TimerRun

def logrotate : SystemdTimerSpec := ⟨⟨"logrotate.timer", by decide +kernel⟩, .disabled, true⟩

def disableLogrotate (faults : CallFaults) : TimerRun (Except.ok (ε := String)) where
  resource := ⟨⟨"systemd.timer:logrotate.timer"⟩, ⟨"systemd.timer"⟩, 1, logrotate, [], [], []⟩
  spec := logrotate
  decodes := rfl
  faults := some faults

def lostAtDisable : CallFaults := fun op =>
  if op = .disableUnit then some ⟨.busUnavailable "connection reset", false⟩ else none

/-- In the first run `stop_unit` goes through and the bus goes away before `disable_unit`; in the
    second no call fails, and the timer it leaves comes back at the next boot. -/
theorem disabled_timer_stays_enabled :
    ¬ EachStep (after logrotate) (Converges logrotate)
      [disableLogrotate lostAtDisable, disableLogrotate fun _ => none]
      fun _ => ⟨some ⟨"active", "1"⟩, true⟩ := by
  intro hruns
  have hsecond := hruns.2.1 (by decide +kernel)
  revert hsecond
  decide +kernel

end TimerRun

end Bosun
