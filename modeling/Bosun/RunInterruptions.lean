import Bosun.AptUpdateCache
import Bosun.CancelledAnswers
import Bosun.StopRequests

/-!
# Runs that are reported as interrupted

`Interrupted` should say that the run was told to stop, by its token or by its deadline.  The
orchestrator says it of every resource whose primitive answers `Cancelled`, and gives up the rest
of the run.

`interruptionsMeant_iff` says for which runs this is the same: those in which no command of
`apt.package` is given up at a deadline of its own.
-/

namespace Bosun

/-! ## One pass -/

namespace ApplyArgs

variable {P S : Type} {args : ApplyArgs P S} {s s' : ApplyLoop S}

/-- The pass has pushed another outcome than `Interrupted`. -/
def Uninterrupted (s s' : ApplyLoop S) : Prop :=
  ∃ o, s'.resources = s.resources ++ [o] ∧ o.outcome.isInterrupted = false

variable (args) in
/-- No plan answers `Cancelled`. -/
def PlansOn : Prop :=
  ∀ kind primitive, args.primitives kind = some primitive →
    ∀ r state, (primitive.plan r state).1 ≠ .returned (.error .cancelled)

theorem planned_uninterrupted {primitive : Primitive P S} {r : Resource P}
    (hplan : (primitive.plan r s.ctx.state).1 ≠ .returned (.error .cancelled))
    (hnone : args.planned primitive r s.ctx = none) :
    Uninterrupted s (args.planResource primitive r s) := by
  have hanswer : callPrimitive ("plan " ++ r.id.asStr) (primitive.plan r s.ctx.state).1 ≠
      .error .cancelled := fun h => hplan (callPrimitive_eq_cancelled.mp h)
  revert hanswer hnone
  unfold planned planResource
  rcases primitive.plan r s.ctx.state with ⟨answer, state⟩
  intro hnone hanswer
  dsimp only at hnone hanswer ⊢
  match hresult : callPrimitive ("plan " ++ r.id.asStr) answer with
  | .ok .noChange => exact ⟨_, rfl, rfl⟩
  | .ok (.add _ _) | .ok (.update _ _ _) =>
    rw [hresult] at hnone
    cases hnone
  | .error .cancelled => exact absurd hresult hanswer
  | .error (.io _ _) | .error (.invalidPayload _) | .error (.exec _ _ _) | .error (.dpkgLocked _)
  | .error (.chownNotPermitted _ _) | .error .invalidTarget | .error (.panic _ _)
  | .error (.apply _) | .error (.runrUnavailable _ _) | .error (.systemdUnavailable _)
  | .error (.validation _ _) | .error (.healthCheckFailed _ _) | .error (.deferIo _ _) =>
    exact ⟨_, rfl, rfl⟩

theorem processed_uninterrupted (hplans : args.PlansOn) {id : ResourceId}
    (hnone : args.processed id s = none) : Uninterrupted s (args.processResource id s) := by
  unfold processed at hnone
  unfold processResource
  cases hget : args.registry.get id with
  | none => exact ⟨_, rfl, rfl⟩
  | some r =>
    cases hfind : r.dependsOn.find? fun dep => dep ∈ s.failedOrInterrupted with
    | some dep =>
      simp only [hfind]
      exact ⟨_, rfl, rfl⟩
    | none =>
      cases hprimitive : args.primitives r.kind with
      | none =>
        simp only [hfind, hprimitive]
        exact ⟨_, rfl, rfl⟩
      | some primitive =>
        simp only [hget, hfind, hprimitive] at hnone ⊢
        exact planned_uninterrupted (hplans r.kind primitive hprimitive r s.ctx.state) hnone

/-- A pass that comes to no call is interrupted only in the pacer's pause, by the token. -/
theorem iteration_uninterrupted (hplans : args.PlansOn) {interval idx : Nat} {id : ResourceId}
    (hnone : args.handedOver interval idx id s = none) :
    Uninterrupted s (args.iteration interval idx id s) ∨
      args.platform.cancelled (args.iteration interval idx id s).ctx.state = true := by
  unfold handedOver at hnone
  unfold iteration
  by_cases hpaces : 0 < idx ∧ interval ≠ 0 ∧ s.aborted = false
  · simp only [if_pos hpaces] at hnone ⊢
    cases hslept : (args.platform.cancellableSleep interval s.ctx.state).1 with
    | true =>
      simp only [hslept, if_true] at hnone ⊢
      exact .inl (processed_uninterrupted hplans hnone)
    | false => exact .inr (args.platform.cancelled_of_cancellableSleep hslept)
  · simp only [if_neg hpaces] at hnone ⊢
    cases haborted : s.aborted with
    | true => exact .inl ⟨_, rfl, rfl⟩
    | false =>
      simp only [haborted, Bool.false_eq_true, if_false] at hnone ⊢
      exact .inl (processed_uninterrupted hplans hnone)

/-- What is recorded of a call is `Interrupted` exactly when the answer is `Cancelled`. -/
theorem Recorded.interrupted_iff {call : ApplyCall P S} (h : args.Recorded call s s')
    {o : ResourceApplyOutcome} (ho : s'.resources = s.resources ++ [o]) :
    o.outcome.isInterrupted = true ↔ call.answer = .returned (.error .cancelled) := by
  obtain ⟨t, -, hresources, -, rfl⟩ := h
  obtain ⟨o', hexit, -, -, -, -, hcancelled⟩ := recordApply_exit args call.resource.id
    call.resource.kind (callPrimitive ("apply " ++ call.resource.id.asStr) call.answer) t
  rw [hexit.resources, hresources] at ho
  obtain rfl : o' = o := List.singleton_injective (List.append_cancel_left ho)
  constructor
  · intro hinterrupted
    cases houtcome : o'.outcome with
    | interrupted reason => exact callPrimitive_eq_cancelled.mp (hcancelled reason houtcome)
    | noChange | changed | failed _ | skipped | deferred _ =>
      rw [houtcome] at hinterrupted
      cases hinterrupted
  · intro hanswer
    have hresult : callPrimitive ("apply " ++ call.resource.id.asStr) call.answer =
        .error .cancelled := callPrimitive_eq_cancelled.mpr hanswer
    have hexits := hexit.resources
    rw [hresult] at hexits
    have hpushed : t.resources ++ [(⟨call.resource.id, call.resource.kind,
        .interrupted "apply cancelled by deadline or signal",
        "apply cancelled by deadline or signal"⟩ : ResourceApplyOutcome)] =
        t.resources ++ [o'] := hexits
    rw [← List.singleton_injective (List.append_cancel_left hpushed)]
    rfl

theorem Recorded.ctx_eq {call : ApplyCall P S} (h : args.Recorded call s s')
    (hanswer : call.answer = .returned (.error .cancelled)) : s'.ctx = call.after := by
  obtain ⟨t, hctx, -, -, rfl⟩ := h
  rw [callPrimitive_eq_cancelled.mpr hanswer]
  exact hctx

/-- **One pass.**  If `Cancelled` means a stop whenever another kind answers it, the pass says
    `Interrupted` rightly exactly when this kind answers it rightly. -/
theorem interrupted_pass_iff (deadline : Nat) (kind : ResourceKind) (hplans : args.PlansOn)
    (hothers : ∀ r primitive, args.primitives r.kind = some primitive → r.kind ≠ kind →
      ∀ diff ctx, (primitive.apply r diff ctx).1 = .returned (.error .cancelled) →
        args.platform.Interrupted deadline (primitive.apply r diff ctx).2.state)
    (interval idx : Nat) (id : ResourceId) :
    (∀ o, (args.iteration interval idx id s).resources = s.resources ++ [o] →
      o.outcome.isInterrupted = true →
        args.platform.Interrupted deadline (args.iteration interval idx id s).ctx.state) ↔
    ∀ call, args.handedOver interval idx id s = some call → call.resource.kind = kind →
      call.answer = .returned (.error .cancelled) →
        args.platform.Interrupted deadline call.after.state := by
  have hspec := args.handedOver_spec interval idx id s
  obtain ⟨pushed, _, _, hpass⟩ := iteration_pass args interval idx id s
  cases hcall : args.handedOver interval idx id s with
  | none =>
    refine ⟨fun _ => nofun, fun _ o ho hinterrupted => ?_⟩
    rcases iteration_uninterrupted hplans hcall with ⟨o', ho', hnot⟩ | hfired
    · obtain rfl : o' = o :=
        List.singleton_injective (List.append_cancel_left (ho'.symm.trans ho))
      cases hnot.symm.trans hinterrupted
    · exact .inl hfired
  | some call =>
    rw [hcall] at hspec
    have hrecorded : args.Recorded call s (args.iteration interval idx id s) := hspec
    constructor
    · rintro h _ ⟨⟩ - hanswer
      have hstop := h pushed hpass.resources
        ((hrecorded.interrupted_iff hpass.resources).mpr hanswer)
      rwa [hrecorded.ctx_eq hanswer] at hstop
    · intro h o ho hinterrupted
      have hanswer := (hrecorded.interrupted_iff ho).mp hinterrupted
      rw [hrecorded.ctx_eq hanswer]
      by_cases hkind : call.resource.kind = kind
      · exact h call rfl hkind hanswer
      · exact hothers call.resource call.primitive (args.primitive_of_handedOver hcall).2.1 hkind
          call.diff call.ctx hanswer

/-! ## The report -/

/-- What the run reports of its first resources stays. -/
theorem resources_prefix (args : ApplyArgs P S) (interval : Nat) (order : List ResourceId) :
    ∀ (idx : Nat) (s : ApplyLoop S),
      s.resources <+: (args.loop interval idx order s).resources := by
  induction order with
  | nil => exact fun _ _ => List.prefix_rfl
  | cons id order ih =>
    intro idx s
    obtain ⟨o, _, _, hpass⟩ := iteration_pass args interval idx id s
    refine List.IsPrefix.trans ?_ (ih (idx + 1) (args.iteration interval idx id s))
    rw [hpass.resources]
    exact List.prefix_append _ _

/-- One resource more. -/
theorem upTo_concat (args : ApplyArgs P S) (order : List ResourceId) (ctx : ApplyCtx S)
    (done : List ResourceId) (id : ResourceId) :
    args.upTo order ctx (done ++ [id]) =
      args.iteration (args.opts.pacer.intervalFor order.length) done.length id
        (args.upTo order ctx done) := by
  unfold upTo
  rw [loop_append, Nat.zero_add]
  rfl

/-- The outcome at a place of the report is the one its pass has pushed. -/
theorem report_at (args : ApplyArgs P S) {order done rest : List ResourceId} {id : ResourceId}
    (ctx : ApplyCtx S) (horder : order = done ++ id :: rest) (o : ResourceApplyOutcome) :
    (args.run order ctx).report.resources[done.length]? = some o ↔
      (args.upTo order ctx (done ++ [id])).resources =
        (args.upTo order ctx done).resources ++ [o] := by
  obtain ⟨pushed, _, _, hpass⟩ := iteration_pass args
    (args.opts.pacer.intervalFor order.length) done.length id (args.upTo order ctx done)
  have hresources := hpass.resources
  rw [← upTo_concat] at hresources
  have hlength : (args.upTo order ctx done).resources.length = done.length := by
    rw [← List.length_map, upTo_ids]
  have hrun : args.run order ctx = args.loop (args.opts.pacer.intervalFor order.length)
      (0 + (done ++ [id]).length) rest (args.upTo order ctx (done ++ [id])) := by
    have happend := loop_append args (args.opts.pacer.intervalFor order.length) 0 (done ++ [id])
      rest (.start ctx)
    rwa [List.append_assoc, List.singleton_append, ← horder] at happend
  obtain ⟨later, hlater⟩ := resources_prefix args (args.opts.pacer.intervalFor order.length) rest
    (0 + (done ++ [id]).length) (args.upTo order ctx (done ++ [id]))
  rw [← hrun] at hlater
  have hat : (args.run order ctx).report.resources[done.length]? = some pushed := by
    show (args.run order ctx).resources[done.length]? = some pushed
    rw [← hlater, hresources, ← hlength]
    simp
  rw [hat, hresources]
  constructor
  · rintro ⟨⟩
    rfl
  · intro h
    rw [List.singleton_injective (List.append_cancel_left h)]

end ApplyArgs

/-! ## The primitives of a node -/

def APT_PACKAGE : ResourceKind := ⟨"apt.package"⟩

/-- `apply` of a primitive that has to do neither with a service nor with the journal. -/
abbrev OutsideApply (P V : Type) :=
  Resource P → Diff P → Finset ResourceId → V → Call ChangeReport × Finset ResourceId × V

/-- What a run on a node is given.  The kinds with `Cancelled` in their code are written out; of
    the others, and of the plans, it is enough that they never answer it. -/
structure Node (P S : Type) where
  platform : Platform S
  processes : Processes platform
  apt : AptEnv platform
  /-- the deadline is that of the run -/
  ctx : AptCtx
  packageSpec : P → Except String AptPackageSpec
  cacheSpec : P → Except String AptUpdateCacheSpec
  cacheBackend : AptCacheBackend (Starting S)
  keySpec : P → Except String AptKeySpec
  keyBackend : Starting S → AptKeyBackend
  keyFiles : Starting S → FileEnv
  keyState : Starting S → KeyState
  writeKeys : KeyState → Starting S → Starting S
  later_writeKeys : ∀ keys v, platform.starting.Later v (writeKeys keys v)
  sysctlSpec : P → Except String SysctlReloadSpec
  sysctl : SysctlEnv (Starting S)
  services : ServiceEnv P (Starting S)
  probes : Probes (Starting S)
  signals : SignalEnv P (Starting S)
  computeDiff : ResourceKind → Resource P → Starting S → Call (Diff P) × Starting S
  planned : ∀ kind r v, (computeDiff kind r v).1 ≠ .returned (.error .cancelled)
  others : ResourceKind → Option (OutsideApply P (Starting S))
  steady : ∀ kind apply, others kind = some apply → ∀ r diff changed v,
    (apply r diff changed v).1 ≠ .returned (.error .cancelled)
  markDirty : ResourceKind → Starting S → Starting S
  opts : ApplyOpts

namespace Node

variable {P S : Type} (node : Node P S)

/-- An apply of `apt.package`, with the commands it has run. -/
def packageRun (r : Resource P) (diff : Diff P) (v : Starting S) :
    Except PrimitiveError ChangeReport × AptState (Starting S) :=
  AptM.outcome ((node.apt.starting node.processes).runApply node.ctx node.packageSpec r diff)
    ⟨v, []⟩

def aptPackage : OutsideApply P (Starting S) := fun r diff _ v =>
  let (answer, s) := node.packageRun r diff v
  (.returned answer, ∅, s.world)

def aptUpdateCache : OutsideApply P (Starting S) := fun r diff _ v =>
  match (node.apt.starting node.processes).runCacheApply node.ctx node.cacheBackend node.cacheSpec
      r diff ⟨v, []⟩ with
  | .ok call s => (call, ∅, s.world)
  | .error e s => (.returned (.error e), ∅, s.world)

def aptKey : OutsideApply P (Starting S) := fun r diff _ v =>
  let (had, v) := node.platform.starting.cancelledOrPastDeadline node.ctx.deadline v
  match aptKeyRun (node.keyBackend v) (node.keyFiles v) node.keySpec r diff had
      (node.keyState v) with
  | .ok report keys => (.returned (.ok report), ∅, node.writeKeys keys v)
  | .error e keys => (.returned (.error e), ∅, node.writeKeys keys v)

def sysctlReload : OutsideApply P (Starting S) := fun r diff _ v =>
  let (call, v) := sysctlRun node.sysctl node.platform.starting node.ctx.deadline node.sysctlSpec
    r diff v
  (call, ∅, v)

/-- Health checks look at the token of the run. -/
def serviceEnv : ServiceEnv P (Starting S) :=
  { node.services with
    healthCheckRunner := realHealthCheckRunner node.platform.starting node.probes }

def outside (kind : ResourceKind) : Option (OutsideApply P (Starting S)) :=
  if kind = APT_PACKAGE then some node.aptPackage
  else if kind = ⟨"apt.update_cache"⟩ then some node.aptUpdateCache
  else if kind = ⟨"apt.key"⟩ then some node.aptKey
  else if kind = ⟨"sysctl.reload"⟩ then some node.sysctlReload
  else node.others kind

/-- `build_primitives` -/
def primitives (kind : ResourceKind) : Option (Primitive P (RunState (Starting S))) :=
  if kind = InitSystem.runr.kind then some (node.serviceEnv.primitive .runr)
  else if kind = InitSystem.systemd.kind then some (node.serviceEnv.primitive .systemd)
  else if kind = ⟨"process.signal"⟩ then
    some (node.signals.primitive node.services.utcNow node.services.journalRoot)
  else
    (node.outside kind).map fun apply =>
      OutsidePrimitive.primitive ⟨node.computeDiff kind, apply⟩

def applyArgs (registry : Registry P) : ApplyArgs P (RunState (Starting S)) where
  primitives := node.primitives
  registry := registry
  markDirty kind s := s.setOutside (node.markDirty kind s.machine.world.outside)
  opts := node.opts
  platform := node.platform.starting.onRun

/-! ### All but `apt.package` -/

/-- The answer is `Cancelled` only when the run is to stop. -/
def CancelsRightly (apply : OutsideApply P (Starting S)) : Prop :=
  ∀ r diff changed v, (apply r diff changed v).1 = .returned (.error .cancelled) →
    node.platform.starting.Interrupted node.ctx.deadline (apply r diff changed v).2.2

theorem aptUpdateCache_cancelsRightly : node.CancelsRightly node.aptUpdateCache := by
  intro r diff changed v
  have hrun := (node.apt.starting node.processes).triple_runCacheApply node.ctx node.cacheBackend
    (fun _ _ _ => node.processes.interrupted_of_runCommand) node.cacheSpec r diff ⟨v, []⟩ trivial
  unfold aptUpdateCache
  cases hran : (node.apt.starting node.processes).runCacheApply node.ctx node.cacheBackend
      node.cacheSpec r diff ⟨v, []⟩ with
  | ok call s =>
    rw [hran] at hrun
    exact fun h => absurd h hrun
  | error e s =>
    rw [hran] at hrun
    exact fun h => hrun (Except.error.inj (Call.returned.inj h))

theorem aptKey_cancelsRightly : node.CancelsRightly node.aptKey := by
  intro r diff changed v
  have hlook : (node.platform.starting.cancelledOrPastDeadline node.ctx.deadline v).1 = true →
      node.platform.starting.Interrupted node.ctx.deadline
        (node.platform.starting.cancelledOrPastDeadline node.ctx.deadline v).2 :=
    node.platform.starting.interrupted_of_cancelledOrPastDeadline
  unfold aptKey
  dsimp only
  generalize node.platform.starting.cancelledOrPastDeadline node.ctx.deadline v = look at hlook ⊢
  obtain ⟨had, v⟩ := look
  have hrun := raises_aptKeyRun (node.keyBackend v) (node.keyFiles v) had node.keySpec r diff
    (node.keyState v) trivial
  dsimp only
  cases hran : aptKeyRun (node.keyBackend v) (node.keyFiles v) node.keySpec r diff had
      (node.keyState v) with
  | ok report keys => nofun
  | error e keys =>
    rw [hran] at hrun
    exact fun h => (node.later_writeKeys keys v).interrupted
      (hlook (hrun (Except.error.inj (Call.returned.inj h))))

theorem outside_cancelsRightly {kind : ResourceKind} (hkind : kind ≠ APT_PACKAGE)
    {apply : OutsideApply P (Starting S)} (hp : node.outside kind = some apply) :
    node.CancelsRightly apply := by
  unfold outside at hp
  rw [if_neg hkind] at hp
  split at hp
  · obtain rfl := Option.some.inj hp
    exact node.aptUpdateCache_cancelsRightly
  · split at hp
    · obtain rfl := Option.some.inj hp
      exact node.aptKey_cancelsRightly
    · split at hp
      · obtain rfl := Option.some.inj hp
        exact fun r diff changed v h => interrupted_of_sysctlRun h
      · exact fun r diff changed v h => absurd h (node.steady kind apply hp r diff changed v)

theorem serviceEnv_checksToken : node.serviceEnv.ChecksToken node.platform.starting :=
  fun _ _ h => cancelled_of_runHealthCheck h

/-- Every kind but `apt.package` answers `Cancelled` only when the run is to stop. -/
theorem apply_cancelsRightly {kind : ResourceKind} (hkind : kind ≠ APT_PACKAGE)
    {p : Primitive P (RunState (Starting S))} (hp : node.primitives kind = some p)
    (r : Resource P) (diff : Diff P) (ctx : ApplyCtx (RunState (Starting S)))
    (h : (p.apply r diff ctx).1 = .returned (.error .cancelled)) :
    node.platform.starting.onRun.Interrupted node.ctx.deadline (p.apply r diff ctx).2.state := by
  have hservice : ∀ init,
      ((node.serviceEnv.primitive init).apply r diff ctx).1 = .returned (.error .cancelled) →
      node.platform.starting.onRun.Interrupted node.ctx.deadline
        ((node.serviceEnv.primitive init).apply r diff ctx).2.state := by
    intro init
    have hrun := ServiceEnv.raises_run node.serviceEnv_checksToken init r diff
      ctx.changedResources ctx.state trivial
    unfold ServiceEnv.primitive
    dsimp only
    cases hran : node.serviceEnv.run init r diff ctx.changedResources ctx.state with
    | ok report s =>
      intro he
      cases he
    | error e s =>
      rw [hran] at hrun
      exact fun he => .inl (hrun (Except.error.inj (Call.returned.inj he)))
  unfold primitives at hp
  split at hp
  · obtain rfl := Option.some.inj hp
    exact hservice .runr h
  · split at hp
    · obtain rfl := Option.some.inj hp
      exact hservice .systemd h
    · split at hp
      · obtain rfl := Option.some.inj hp
        have hrun := node.signals.raises_run node.platform.starting
          node.services.utcNow node.services.journalRoot r diff ctx.state trivial
        revert h
        unfold SignalEnv.primitive
        dsimp only
        cases hran : node.signals.run node.services.utcNow node.services.journalRoot r diff
            ctx.state with
        | ok report s =>
          intro he
          cases he
        | error e s =>
          rw [hran] at hrun
          exact fun he => .inl (hrun (Except.error.inj (Call.returned.inj he)))
      · obtain ⟨apply, houtside, rfl⟩ := Option.map_eq_some_iff.mp hp
        exact node.outside_cancelsRightly hkind houtside r diff ctx.changedResources
          ctx.state.machine.world.outside h

theorem plansOn (registry : Registry P) : (node.applyArgs registry).PlansOn := by
  intro kind p hp r state
  have hservice : ∀ init, ((node.serviceEnv.primitive init).plan r state).1 ≠
      .returned (.error .cancelled) := by
    intro init h
    have hdiff : node.serviceEnv.computeDiff init r = .error .cancelled := Call.returned.inj h
    unfold ServiceEnv.computeDiff ServiceEnv.decode at hdiff
    dsimp only at hdiff
    split at hdiff
    · cases hdiff
    · next err herr =>
      split at herr
      · cases herr
      · cases herr
        cases hdiff
  unfold applyArgs primitives at hp
  dsimp only at hp
  split at hp
  · obtain rfl := Option.some.inj hp
    exact hservice .runr
  · split at hp
    · obtain rfl := Option.some.inj hp
      exact hservice .systemd
    · split at hp
      · obtain rfl := Option.some.inj hp
        intro h
        refine except_bind_ne_cancelled (node.signals.decode_ne_cancelled r.payload)
          (fun spec => ?_) (Call.returned.inj h)
        exact except_bind_ne_cancelled (SignalEnv.buildSignalArgv_ne_cancelled spec) fun _ => nofun
      · obtain ⟨apply, -, rfl⟩ := Option.map_eq_some_iff.mp hp
        exact node.planned kind r state.machine.world.outside

/-! ### `apt.package` -/

/-- The commands that a call of `apt.package` has run. -/
def commands (call : ApplyCall P (RunState (Starting S))) : List AptCall :=
  (node.packageRun call.resource call.diff call.ctx.state.machine.world.outside).2.calls

/-- The run is to stop. -/
def ToStop (s : RunState (Starting S)) : Prop :=
  node.platform.starting.onRun.Interrupted node.ctx.deadline s

instance (s : RunState (Starting S)) : Decidable (node.ToStop s) :=
  inferInstanceAs (Decidable (node.platform.starting.onRun.Interrupted node.ctx.deadline s))

/-- A call of `apt.package` answers `Cancelled` when its commands are cut short, and else only
    when the run is to stop. -/
theorem answer_aptPackage {registry : Registry P} {call : ApplyCall P (RunState (Starting S))}
    (hprimitive : (node.applyArgs registry).primitives call.resource.kind = some call.primitive)
    (hkind : call.resource.kind = APT_PACKAGE) :
    (CutShort (node.commands call) → call.answer = .returned (.error .cancelled)) ∧
      (call.answer = .returned (.error .cancelled) →
        CutShort (node.commands call) ∨ node.ToStop call.after.state) := by
  obtain ⟨primitive, resource, diff, ctx⟩ := call
  dsimp only at hprimitive hkind
  rw [hkind] at hprimitive
  obtain rfl := Option.some.inj hprimitive
  have hrun := (node.apt.starting node.processes).runApply_explained node.ctx node.packageSpec
    resource diff ⟨ctx.state.machine.world.outside, []⟩ rfl
  unfold commands ToStop ApplyCall.answer ApplyCall.after
  show (CutShort (node.packageRun resource diff ctx.state.machine.world.outside).2.calls →
      Call.returned (node.packageRun resource diff ctx.state.machine.world.outside).1 =
        .returned (.error .cancelled)) ∧
    (Call.returned (node.packageRun resource diff ctx.state.machine.world.outside).1 =
        .returned (.error .cancelled) →
      CutShort (node.packageRun resource diff ctx.state.machine.world.outside).2.calls ∨
        node.platform.starting.Interrupted node.ctx.deadline
          (node.packageRun resource diff ctx.state.machine.world.outside).2.world)
  unfold packageRun AptM.outcome
  cases hran : (node.apt.starting node.processes).runApply node.ctx node.packageSpec resource diff
      ⟨ctx.state.machine.world.outside, []⟩ with
  | ok report s =>
    rw [hran] at hrun
    exact ⟨fun hcut => absurd hcut hrun, nofun⟩
  | error e s =>
    rw [hran] at hrun
    refine ⟨fun hcut => ?_, fun he => hrun.cutShort (Except.error.inj (Call.returned.inj he))⟩
    rw [hrun.of_cutShort hcut]

/-! ## Whole runs -/

section Runs

variable (registry : Registry P) (order : List ResourceId) (ctx : ApplyCtx (RunState (Starting S)))

/-- The call of the resource whose turn comes after `done`. -/
def callAfter (done : List ResourceId) (id : ResourceId) :
    Option (ApplyCall P (RunState (Starting S))) :=
  (node.applyArgs registry).handedOver
    ((node.applyArgs registry).opts.pacer.intervalFor order.length) done.length id
    ((node.applyArgs registry).upTo order ctx done)

/-- **What `Interrupted` should mean.**  A resource is reported so only if the run is to stop, and
    a package whose own time is over is reported as failed or deferred. -/
structure InterruptionsMeant : Prop where
  interrupted : ∀ done id rest o, order = done ++ id :: rest →
    ((node.applyArgs registry).run order ctx).report.resources[done.length]? = some o →
      o.outcome.isInterrupted = true →
        node.ToStop ((node.applyArgs registry).upTo order ctx (done ++ [id])).ctx.state
  timedOut : ∀ done id rest o call, order = done ++ id :: rest →
    ((node.applyArgs registry).run order ctx).report.resources[done.length]? = some o →
      node.callAfter registry order ctx done id = some call →
        call.resource.kind = APT_PACKAGE → CutShort (node.commands call) →
          node.ToStop call.after.state ∨ o.outcome.isFailed = true ∨ o.outcome.isDeferred = true

/-- No commands of a package are cut short before the run is to stop. -/
def OwnDeadlinesKept : Prop :=
  ∀ done id rest call, order = done ++ id :: rest →
    node.callAfter registry order ctx done id = some call → call.resource.kind = APT_PACKAGE →
      CutShort (node.commands call) → node.ToStop call.after.state

/-- **A run says `Interrupted` rightly exactly when no package runs out of time of its own.** -/
theorem interruptionsMeant_iff :
    node.InterruptionsMeant registry order ctx ↔ node.OwnDeadlinesKept registry order ctx := by
  have hpass := fun (done : List ResourceId) (id : ResourceId) =>
    ApplyArgs.interrupted_pass_iff (s := (node.applyArgs registry).upTo order ctx done)
      node.ctx.deadline APT_PACKAGE (node.plansOn registry)
      (fun r primitive hprimitive hkind => node.apply_cancelsRightly hkind hprimitive r)
      ((node.applyArgs registry).opts.pacer.intervalFor order.length) done.length id
  constructor
  · intro h done id rest call horder hcall hkind hcut
    have hprimitive := ((node.applyArgs registry).primitive_of_handedOver hcall).2.1
    refine (hpass done id).mp ?_ call hcall hkind
      ((node.answer_aptPackage hprimitive hkind).1 hcut)
    intro o ho hinterrupted
    rw [← ApplyArgs.upTo_concat] at ho ⊢
    exact h.interrupted done id rest o horder
      ((ApplyArgs.report_at _ ctx horder o).mpr ho) hinterrupted
  · intro h
    refine ⟨fun done id rest o horder hreport hinterrupted => ?_,
      fun done id rest o call horder _ hcall hkind hcut =>
        .inl (h done id rest call horder hcall hkind hcut)⟩
    have ho := (ApplyArgs.report_at _ ctx horder o).mp hreport
    rw [ApplyArgs.upTo_concat] at ho ⊢
    refine (hpass done id).mpr ?_ o ho hinterrupted
    intro call hcall hkind hanswer
    have hprimitive := ((node.applyArgs registry).primitive_of_handedOver hcall).2.1
    rcases (node.answer_aptPackage hprimitive hkind).2 hanswer with hcut | hstop
    · exact h done id rest call horder hcall hkind hcut
    · exact hstop

end Runs

end Node

/-! ## A package that takes too long -/

/-- Programs that never exit; to kill one takes half a second. -/
def Processes.hung : Processes Platform.quiet where
  spawn _ _ s := (.ok (), s)
  tryWait s := (.ok none, s)
  kill s := s + 500000000
  stdout _ := ""
  stderr _ := ""
  stderrExcerpt _ _ := ""
  clock_le_spawn := Platform.quiet_clock_le_spawn
  clock_le_tryWait := Platform.quiet_clock_le
  clock_le_kill _ := Nat.le_add_right _ _
  cancelled_spawn _ _ _ h := h
  cancelled_tryWait _ h := h
  cancelled_kill _ h := h

/-- A second for the package. -/
def hurriedNginx : AptPackageSpec := ⟨"nginx", none, .present, 1, false, false⟩

/-- An hour for the run, and an `apt-get` that hangs. -/
def Node.hung : Node AptPackageSpec Nat where
  platform := .quiet
  processes := .hung
  apt := .slowMirror
  ctx := ⟨fromSecs 3600, "/var/log/bosun", DPKG_LOCK_PATH⟩
  packageSpec := .ok
  cacheSpec _ := .error "missing field"
  cacheBackend := ⟨fun v => (.ok none, v), fun _ v => (.ok 0, v), fun _ _ => ""⟩
  keySpec _ := .error "missing field"
  keyBackend _ := ⟨fun _ => .error "", fun _ => .error "", fun _ _ => .error ""⟩
  keyFiles _ := .calm
  keyState _ := ⟨∅, []⟩
  writeKeys _ v := v
  later_writeKeys _ v := Platform.later_refl _ v
  sysctlSpec _ := .error "missing field"
  sysctl := ⟨fun _ v => (false, v), fun _ _ v => (.error "", v), fun _ _ => ""⟩
  services :=
    { runrSpec := fun _ => .error "missing field"
      systemdSpec := fun _ => .error "missing field"
      pendingLookup := fun _ => hurriedNginx
      runr := none
      systemd := none
      validator := fun _ v => (.ok (), v)
      healthCheckRunner := fun _ v => (.ok (), v)
      utcNow := fun v => v.world
      journalRoot := "/var/lib/bosun/defers" }
  probes := promptProbes
  signals := ⟨fun _ => .error "missing field", hurriedNginx, fun _ v => (.ok (), v)⟩
  computeDiff _ r v := (.returned (.ok (.add "install" r.payload)), v)
  planned _ _ _ := nofun
  others _ := none
  steady _ _ := nofun
  markDirty _ v := v
  opts := ⟨false, .disabled⟩

def onlyNginx : Registry AptPackageSpec :=
  ⟨[⟨⟨"apt.package:nginx"⟩, APT_PACKAGE, 1, hurriedNginx, [], [], []⟩], by decide⟩

/-- The run has just begun. -/
def beginning : ApplyCtx (RunState (Starting Nat)) :=
  ⟨∅, ⟨⟨Journal.emptyFs, ⟨⟨0, []⟩, []⟩, []⟩, false, false⟩⟩

/-- The second is over, and the run is given up with almost all of its hour left. -/
theorem hung_aborts_run :
    ¬ Node.hung.InterruptionsMeant onlyNginx [⟨"apt.package:nginx"⟩] beginning := by
  intro h
  have hstop := h.interrupted [] ⟨"apt.package:nginx"⟩ []
    ⟨⟨"apt.package:nginx"⟩, APT_PACKAGE,
      .interrupted "apply cancelled by deadline or signal",
      "apply cancelled by deadline or signal"⟩ rfl (by decide +kernel) rfl
  exact absurd hstop (by decide +kernel)

end Bosun
