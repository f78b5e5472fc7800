import Bosun.Dispatch
import Bosun.ReplayFaults

/-!
# Cycle after cycle

A cycle of the replay with the dispatcher of production, on a disk that may fail
and with daemons that may answer anything.  `dispatch_cases` is what the
dispatcher does with an entry: it asks the one init system the entry is for, if
that one is connected, and puts the answer down to the client or to the action.
`steps` are the cycles of a run, each with the machine it starts from.
-/

namespace Bosun

/-! ## What the dispatcher does -/

/-- The operation on a unit that an action amounts to. -/
def DeferAction.unitOp : DeferAction → Option UnitOp
  | start => some .start
  | stop => some .stop
  | restart | reloadOrRestart => some .restart
  | reload => some .reload
  | command _ | daemonReload => none

namespace DeferEntry

def isCommand (e : DeferEntry) : Bool :=
  match e.action with
  | .command _ => true
  | _ => false

/-- The init system the dispatcher turns to. -/
def route (e : DeferEntry) : Option InitSystem :=
  if e.isCommand then none
  else if e.initSystem = InitSystem.systemd.tag then some .systemd
  else if e.initSystem = InitSystem.runr.tag then some .runr
  else none

/-- What goes on record when it does. -/
def actOf (e : DeferEntry) (init : InitSystem) (error : Option ClientError) : Act :=
  match e.action.unitOp with
  | some op => .unit (.replay e) init op e.target error
  | none => .query (.replay e) init .daemonReload error

end DeferEntry

/-- How the dispatcher reports what a client has answered. -/
def dispatchAnswer : Option ClientError → Except DispatchError Unit
  | none => .ok ()
  | some (.runr err) => mapRunrResult (.error err)
  | some (.systemd err) => mapSystemdResult (.error err)

namespace RealDispatchClient

variable {V : Type} (client : RealDispatchClient V)

def connected : InitSystem → Bool
  | .runr => client.runr.isSome
  | .systemd => client.systemd.isSome

/-- The call went out, and this is what came back. -/
def Asked (e : DeferEntry) (init : InitSystem) (w : World V)
    (result : Except DispatchError Unit × World V) : Prop :=
  ∃ error, result.1 = dispatchAnswer error ∧
    result.2.record = w.record ++ [e.actOf init error]

theorem mapRunrResult_eq (result : Except RunrError Unit) :
    mapRunrResult result = dispatchAnswer ((errorOf result).map .runr) := by
  rcases result with err | _ <;> rfl

theorem mapSystemdResult_eq (result : Except SystemdError Unit) :
    mapSystemdResult result = dispatchAnswer ((errorOf result).map .systemd) := by
  rcases result with err | _ <;> rfl

section Asked

variable {client} {e : DeferEntry} (he : e.isCommand = false)
include he

theorem dispatchRunr_asked {handle : RunrHandle V} (hruns : client.runr = some handle)
    (w : World V) : Asked e .runr w (client.dispatchRunr e w) := by
  cases ha : e.action with
  | command argv => simp [DeferEntry.isCommand, ha] at he
  | _ =>
    simp only [dispatchRunr, hruns, ha, Asked, mapRunrResult_eq, DeferEntry.actOf,
      DeferAction.unitOp]
    exact ⟨_, rfl, rfl⟩

theorem dispatchSystemd_asked {handle : SystemdHandle V} (hruns : client.systemd = some handle)
    (w : World V) : Asked e .systemd w (client.dispatchSystemd e w) := by
  cases ha : e.action with
  | command argv => simp [DeferEntry.isCommand, ha] at he
  | _ =>
    simp only [dispatchSystemd, hruns, ha, Asked, mapSystemdResult_eq, DeferEntry.actOf,
      DeferAction.unitOp]
    exact ⟨_, rfl, rfl⟩

end Asked

theorem runWithTimeout_ne (program : String) (args : List String) (timeout : Nat) (v : V) :
    (client.runWithTimeout program args timeout v).1 ≠ .error .clientUnavailable := by
  unfold runWithTimeout
  rcases client.processes.spawn program args v with ⟨_ | _, v₁⟩
  · simp
  · dsimp only
    generalize client.processes.wait _ _ v₁ = waited
    rcases waited with ⟨status | _ | error, v₂⟩
    · dsimp only
      split <;> simp
    · simp
    · simp

/-- A command is run here; its failure is never put down to a client. -/
theorem dispatchCommand_ne (e : DeferEntry) (v : V) :
    (client.dispatchCommand e v).1 ≠ .error .clientUnavailable := by
  unfold dispatchCommand
  split
  · exact client.runWithTimeout_ne _ _ _ v
  · simp
  · simp

/-- **What the dispatcher does with an entry.**  An entry for no init system is run
    or refused here; the others go to their init system, if it is connected. -/
theorem dispatch_cases (e : DeferEntry) (w : World V) :
    (e.route = none ∧ (client.dispatch e w).1 ≠ .error .clientUnavailable ∧
      (client.dispatch e w).2.record = w.record) ∨
    (∃ init, e.route = some init ∧ client.connected init = false ∧
      client.dispatch e w = (.error .clientUnavailable, w)) ∨
    (∃ init, e.route = some init ∧ client.connected init = true ∧
      Asked e init w (client.dispatch e w)) := by
  cases hcommand : e.isCommand with
  | true =>
    obtain ⟨argv, ha⟩ : ∃ argv, e.action = .command argv := by
      cases ha : e.action <;> simp [DeferEntry.isCommand, ha] at hcommand ⊢
    refine .inl ⟨by simp [DeferEntry.route, hcommand], ?_, ?_⟩
    · simp only [dispatch, ha]
      exact client.dispatchCommand_ne e w.outside
    · simp only [dispatch, ha]
  | false =>
    have hdispatch : client.dispatch e w =
        if e.initSystem = InitSystem.systemd.tag then client.dispatchSystemd e w
        else if e.initSystem = InitSystem.runr.tag then client.dispatchRunr e w
        else (.error (.action ("unsupported init_system " ++ e.initSystem.quote ++
          " for entry " ++ e.id)), w) := by
      unfold dispatch
      cases ha : e.action with
      | command argv => simp [DeferEntry.isCommand, ha] at hcommand
      | _ => rfl
    rw [hdispatch]
    by_cases hsystemd : e.initSystem = InitSystem.systemd.tag
    · have hroute : e.route = some .systemd := by simp [DeferEntry.route, hcommand, hsystemd]
      rw [if_pos hsystemd]
      cases hhandle : client.systemd with
      | none =>
        exact .inr (.inl ⟨.systemd, hroute, by simp [connected, hhandle],
          by simp only [dispatchSystemd, hhandle]⟩)
      | some handle =>
        exact .inr (.inr ⟨.systemd, hroute, by simp [connected, hhandle],
          dispatchSystemd_asked hcommand hhandle w⟩)
    by_cases hrunr : e.initSystem = InitSystem.runr.tag
    · have hroute : e.route = some .runr := by
        simp [DeferEntry.route, hcommand, hrunr, InitSystem.tag]
      rw [if_neg hsystemd, if_pos hrunr]
      cases hhandle : client.runr with
      | none =>
        exact .inr (.inl ⟨.runr, hroute, by simp [connected, hhandle],
          by simp only [dispatchRunr, hhandle]⟩)
      | some handle =>
        exact .inr (.inr ⟨.runr, hroute, by simp [connected, hhandle],
          dispatchRunr_asked hcommand hhandle w⟩)
    · rw [if_neg hsystemd, if_neg hrunr]
      exact .inl ⟨by simp [DeferEntry.route, hcommand, hsystemd, hrunr], by simp, rfl⟩

/-- What a dispatch adds to the record. -/
def actsOf (e : DeferEntry) (w : World V) : List Act :=
  (client.dispatch e w).2.record.drop w.record.length

/-- That is at most one act. -/
theorem record_dispatch (e : DeferEntry) (w : World V) :
    (client.dispatch e w).2.record = w.record ++ client.actsOf e w ∧
    (client.actsOf e w = [] ∧ e.route.any client.connected = false ∨
      ∃ init error, e.route = some init ∧ client.connected init = true ∧
        client.actsOf e w = [e.actOf init error]) := by
  unfold actsOf
  rcases client.dispatch_cases e w with ⟨hroute, -, hrecord⟩ | ⟨init, hroute, hconnected, hrun⟩ |
    ⟨init, hroute, hconnected, error, -, hrecord⟩
  · rw [hrecord]
    exact ⟨by simp, .inl ⟨by simp, by simp [hroute]⟩⟩
  · rw [hrun]
    exact ⟨by simp, .inl ⟨by simp, by simp [hroute, hconnected]⟩⟩
  · rw [hrecord]
    exact ⟨by simp, .inr ⟨init, error, hroute, hconnected, by simp⟩⟩

end RealDispatchClient

/-- An entry is routed to the init system it names. -/
theorem DeferEntry.initSystem_of_route {e : DeferEntry} {init : InitSystem}
    (h : e.route = some init) : e.initSystem = init.tag := by
  unfold route at h
  split at h
  · cases h
  · split at h
    · rename_i htag
      obtain rfl := Option.some.inj h
      exact htag
    · split at h
      · rename_i htag
        obtain rfl := Option.some.inj h
        exact htag
      · cases h

/-! ## Cycles -/

/-- Clock and token are outside; polling them is not put on record. -/
def Platform.onWorld {V : Type} (plat : Platform V) : Platform (World V) where
  clock w := plat.clock w.outside
  cancelled w := plat.cancelled w.outside
  tick w := { w with outside := plat.tick w.outside }
  sleep d w := { w with outside := plat.sleep d w.outside }
  clock_le_tick w := plat.clock_le_tick w.outside
  clock_add_le_sleep d w := plat.clock_add_le_sleep d w.outside
  cancelled_tick w := plat.cancelled_tick w.outside
  cancelled_sleep d w := plat.cancelled_sleep d w.outside

/-- A health check, nor is it. -/
def HealthCheckRunner.onWorld {V : Type} (runner : HealthCheckRunner V) :
    HealthCheckRunner (World V) := fun check w =>
  let (answer, outside) := runner check w.outside
  (answer, { w with outside := outside })

/-- What a process brings along for its replays. -/
structure Backends (V : Type) where
  client : RealDispatchClient V
  healthCheckRunner : HealthCheckRunner V

def Backends.replayArgs {V : Type} (backends : Backends V) : ReplayArgs (World V) where
  client := backends.client.dispatch
  healthCheckRunner := backends.healthCheckRunner.onWorld
  platform := backends.client.platform.onWorld

/-- The record of an entry that was reached is what its dispatch left. -/
theorem Reached.record {V : Type} {backends : Backends V} {e : DeferEntry} {fate : Fate}
    {m m' : Machine (World V)} (h : Reached backends.replayArgs e fate m m') :
    m'.world.record = (backends.client.dispatch e m.world).2.record := by
  rcases h.world with hworld | ⟨check, hworld⟩ <;> rw [hworld] <;> rfl

/-- One cycle, and what else has happened since the last one. -/
structure Cycle (V : Type) where
  backends : Backends V
  meanwhile : Machine (World V) → Machine (World V)

namespace Cycle

variable {V : Type}

/-- The cycle itself. -/
def finish (c : Cycle V) (m : Machine (World V)) : Machine (World V) :=
  (c.backends.replayArgs.replayWithHealthCheck m).2

/-- What the cycle puts on record, started from `m`. -/
def acts (c : Cycle V) (m : Machine (World V)) : List Act :=
  (c.finish m).world.record.drop m.world.record.length

def events (c : Cycle V) (m : Machine (World V)) : List Event :=
  (c.finish m).trace.drop m.trace.length

end Cycle

/-- The cycles of a run, each with the machine it starts from. -/
def steps {V : Type} : List (Cycle V) → Machine (World V) → List (Cycle V × Machine (World V))
  | [], _ => []
  | c :: cycles, m => (c, c.meanwhile m) :: steps cycles (c.finish (c.meanwhile m))

def runCycles {V : Type} (cycles : List (Cycle V)) (m : Machine (World V)) : Machine (World V) :=
  cycles.foldl (fun m c => c.finish (c.meanwhile m)) m

/-- What every cycle preserves, a run preserves. -/
theorem runCycles_induction {V : Type} (Inv : Machine (World V) → Prop)
    (cycles : List (Cycle V)) {m : Machine (World V)}
    (hmeanwhile : ∀ c ∈ cycles, ∀ m, Inv m → Inv (c.meanwhile m))
    (hcycle : ∀ step ∈ steps cycles m, Inv step.2 → Inv (step.1.finish step.2))
    (hm : Inv m) : Inv (runCycles cycles m) := by
  induction cycles generalizing m with
  | nil => exact hm
  | cons c cycles ih =>
    refine ih (fun c hc => hmeanwhile c (List.mem_cons_of_mem _ hc))
      (fun step hstep => hcycle step (List.mem_cons_of_mem _ hstep)) ?_
    exact hcycle (c, c.meanwhile m) List.mem_cons_self (hmeanwhile c List.mem_cons_self m hm)

end Bosun
