import Bosun.AptKey
import Bosun.ErrorExcerpts
import Bosun.HealthCheckRetries
import Bosun.Run

/-!
# Who answers `Cancelled`

At an answer `Cancelled` the orchestrator gives up the run.  The two services pass on what a
health check says, which looks at the token; `apt.key` and `sysctl.reload` look at token and
deadline before they begin; `process.signal` never gives this answer.
-/

namespace Bosun

theorem except_bind_ne_cancelled {α β : Type} {x : Except PrimitiveError α}
    {f : α → Except PrimitiveError β} (hx : x ≠ .error .cancelled)
    (hf : ∀ a, f a ≠ .error .cancelled) : (x >>= f) ≠ .error .cancelled := by
  cases x with
  | ok a => exact hf a
  | error e => exact fun he => hx (congrArg _ (Except.error.inj he))

/-! ## Health checks -/

/-- A health check is cancelled by the token and by nothing else. -/
theorem cancelled_of_runHealthCheck {S : Type} {plat : Platform S} {probes : Probes S}
    {check : HealthCheck} {s : S}
    (h : (runHealthCheck plat probes check s).answer = .error .cancelled) :
    plat.cancelled (runHealthCheck plat probes check s).after = true := by
  obtain ⟨k, -, -, hend⟩ := runHealthCheck_endsAt plat probes check s
  generalize runHealthCheck plat probes check s = attempts at h hend
  cases hend with
  | notBegun hfired => exact hfired
  | atOnce answer hgoing hfound =>
    obtain rfl : answer = .error .cancelled := h
    obtain ⟨source, -, hsource⟩ := Finding.spawnError_of_ends hfound
    cases hsource
  | exhausted hgoing hfound hlast =>
    exact absurd (Except.error.inj h) (lastError_ne_cancelled probes check hfound)
  | interrupted hgoing hfound hmore hpause => exact plat.cancelled_of_cancellableSleep hpause

/-! ## The services and `process.signal` -/

/-- An error `Cancelled` comes from the token. -/
def FromToken {V : Type} (plat : Platform V) (e : PrimitiveError) (s : RunState V) : Prop :=
  e = .cancelled → plat.onRun.cancelled s = true

theorem fromToken_of_ne {V : Type} {plat : Platform V} {e : PrimitiveError} (h : e ≠ .cancelled)
    (s : RunState V) : FromToken plat e s := fun he => absurd he h

theorem mapRunrError_ne_cancelled (err : RunrError) (baseUrl op : String) :
    mapRunrError err baseUrl op ≠ .cancelled := by
  cases err <;> simp [mapRunrError]

theorem mapSystemdError_ne_cancelled (err : SystemdError) (op : String) :
    mapSystemdError err op ≠ .cancelled := by
  cases err <;> simp [mapSystemdError]

namespace ApplyM

variable {V ε α : Type} {plat : Platform V}

theorem raises_ask (call : World V → Except ε α × World V) :
    Raises (ApplyM.ask call) (FromToken plat) := fun _ _ => trivial

theorem raises_outside (call : V → α × V) : Raises (ApplyM.outside call) (FromToken plat) :=
  fun _ _ => trivial

theorem raises_journal (x : FsM α) :
    Raises (ApplyM.journal x : ApplyM V (Except DeferError α)) (FromToken plat) :=
  fun _ _ => trivial

theorem raises_orThrow {f : ε → PrimitiveError} {answer : Except ε α}
    (h : ∀ err, answer = .error err → f err ≠ .cancelled) :
    Raises (ApplyM.orThrow f answer : ApplyM V α) (FromToken plat) := by
  cases answer with
  | ok a => exact .ret a
  | error err => exact .raise (fromToken_of_ne (h err rfl))

end ApplyM

namespace ServiceEnv

variable {P V : Type} (env : ServiceEnv P V) {plat : Platform V}

/-- The health checks of the run are cancelled by its token alone. -/
def ChecksToken (plat : Platform V) : Prop :=
  ∀ check v, (env.healthCheckRunner check v).1 = .error .cancelled →
    plat.cancelled (env.healthCheckRunner check v).2 = true

theorem raises_runValidateIfConfigured (spec : ServiceSpec) :
    Raises (env.runValidateIfConfigured spec) (FromToken plat) := by
  unfold runValidateIfConfigured
  match spec.validateWith with
  | none | some [] => exact .ret ()
  | some (program :: args) =>
    exact (ApplyM.raises_outside _).bind fun answer => (Raises.write _).bind fun _ =>
      ApplyM.raises_orThrow fun _ _ => nofun

variable {env} in
theorem raises_runHealthCheckIfConfigured (h : env.ChecksToken plat) (spec : ServiceSpec) :
    Raises (env.runHealthCheckIfConfigured spec) (FromToken plat) := by
  unfold runHealthCheckIfConfigured
  cases spec.healthCheck with
  | none => exact .ret ()
  | some check =>
    refine Triple.bind (Q := fun (answer : Except HealthCheckError Unit) s =>
      answer = .error .cancelled → plat.onRun.cancelled s = true)
      (fun s _ => h check s.machine.world.outside) fun answer => ?_
    match answer with
    | .ok () => exact Triple.ret fun _ _ => trivial
    | .error .cancelled => exact Triple.raise fun s hs _ => hs rfl
    | .error (.cmdExitNonZero _ _ _) | .error (.cmdTimeout _ _) | .error (.cmdSpawnError _)
    | .error (.urlBadStatus _ _ _ _) | .error (.urlTransport _ _ _) =>
      exact Triple.raise fun s _ => fromToken_of_ne (by nofun) s

theorem raises_enqueueDefer (init : InitSystem) (spec : ServiceSpec) (action : DeferAction)
    (priority : DeferPriority) (sources : List String) :
    Raises (env.enqueueDefer init spec action priority sources) (FromToken plat) :=
  Raises.read.bind fun _ => (ApplyM.raises_journal _).bind fun _ =>
    (ApplyM.raises_orThrow fun _ _ => by nofun).bind fun _ => .ret _

variable {env} in
theorem raises_performAction (h : env.ChecksToken plat) (id : ResourceId) (init : InitSystem)
    (spec : ServiceSpec) (action : ServiceAction) (sources : List String)
    {executeStart executeStop : ApplyM V ChangeReport}
    (hstart : Raises executeStart (FromToken plat)) (hstop : Raises executeStop (FromToken plat)) :
    Raises (env.performAction id init spec action sources executeStart executeStop)
      (FromToken plat) := by
  cases action with
  | noChange =>
    simp only [performAction]
    split
    · exact (Raises.write _).bind fun _ => .ret _
    · exact .ret _
  | start =>
    exact hstart.bind fun _ => (raises_runHealthCheckIfConfigured h spec).bind fun _ => .ret _
  | stop => exact hstop.bind fun _ => (Raises.write _).bind fun _ => .ret _
  | restart =>
    exact (env.raises_runValidateIfConfigured spec).bind fun _ => env.raises_enqueueDefer _ _ _ _ _
  | reload =>
    exact (env.raises_runValidateIfConfigured spec).bind fun _ => env.raises_enqueueDefer _ _ _ _ _

theorem raises_decode (init : InitSystem) (payload : P) :
    Raises (ApplyM.orThrow (fun e => e) (env.decode init payload)) (FromToken plat) := by
  refine ApplyM.raises_orThrow fun err herr => ?_
  unfold decode at herr
  dsimp only at herr
  split at herr
  · cases herr
  · rw [← Except.error.inj herr]
    nofun

/-! `runr.service` -/

omit env in
theorem raises_runrCurrent (id : ResourceId) (runr : RunrHandle V) (spec : ServiceSpec) :
    Raises (runrCurrent id runr spec) (FromToken plat) := by
  have hreload : Raises (runrDaemonReload id runr) (FromToken plat) := by
    refine Raises.read.bind fun s => (Raises.of_ok fun _ => ⟨_, _, rfl⟩).bind fun _ => ?_
    split
    · exact .ret ()
    · refine (ApplyM.raises_ask _).bind fun answer => ?_
      split
      · exact .ret ()
      · exact (Raises.write _).bind fun _ => .raise (fromToken_of_ne nofun)
      · exact .raise (fromToken_of_ne nofun)
  refine hreload.bind fun _ => (ApplyM.raises_ask _).bind fun answer => ?_
  exact (ApplyM.raises_orThrow fun _ _ => mapRunrError_ne_cancelled _ _ _).bind fun _ => .ret _

variable {env} in
theorem raises_runrRun (h : env.ChecksToken plat) (r : Resource P) (diff : Diff P)
    (changed : Finset ResourceId) : Raises (env.runrRun r diff changed) (FromToken plat) := by
  have hmapped : ∀ (runr : RunrHandle V) op (err : RunrError),
      mapRunrError err runr.baseUrl op ≠ .cancelled :=
    fun runr op err => mapRunrError_ne_cancelled err runr.baseUrl op
  unfold runrRun
  split
  · exact .ret _
  all_goals
    refine (env.raises_decode .runr r.payload).bind fun spec => (Raises.write _).bind fun _ => ?_
    split
    · refine .raise (fromToken_of_ne fun heq => ?_)
      cases heq
    · rename_i runr _
      refine (raises_runrCurrent r.id runr spec).bind fun current => ?_
      refine raises_performAction h r.id .runr spec _ _ ?_ ?_
      · refine (ApplyM.raises_ask _).bind fun started =>
          (ApplyM.raises_orThrow fun err _ => hmapped runr _ err).bind fun _ => ?_
        exact (ApplyM.raises_ask _).bind fun verified =>
          (ApplyM.raises_orThrow fun err _ => hmapped runr _ err).bind fun _ => .ret _
      · exact (ApplyM.raises_ask _).bind fun stopped =>
          (ApplyM.raises_orThrow fun err _ => hmapped runr _ err).bind fun _ => .ret _

/-! `systemd.service` -/

omit env in
theorem raises_systemdCurrent (id : ResourceId) (systemd : SystemdHandle V) (spec : ServiceSpec) :
    Raises (systemdCurrent id systemd spec) (FromToken plat) := by
  have hmapped : ∀ op (err : SystemdError), mapSystemdError err op ≠ .cancelled :=
    fun op err => mapSystemdError_ne_cancelled err op
  have hreload : Raises (systemdDaemonReload id systemd spec) (FromToken plat) := by
    refine Raises.read.bind fun s => ?_
    split
    · exact .ret ()
    · refine (ApplyM.raises_ask _).bind fun answer =>
        (ApplyM.raises_orThrow fun err _ => hmapped _ err).bind fun needed => ?_
      split
      · refine (Raises.write _).bind fun _ => (ApplyM.raises_ask _).bind fun answer => ?_
        cases answer with
        | ok _ => exact .ret ()
        | error err => exact (Raises.write _).bind fun _ => .raise (fromToken_of_ne (hmapped _ err))
      · exact .ret ()
  have henable : Raises (systemdEnable id systemd spec) (FromToken plat) := by
    unfold systemdEnable
    split
    · refine (ApplyM.raises_ask _).bind fun answer =>
        (ApplyM.raises_orThrow fun err _ => hmapped _ err).bind fun enabled => ?_
      split
      · exact (ApplyM.raises_ask _).bind fun answer =>
          ApplyM.raises_orThrow fun err _ => hmapped _ err
      · exact .ret ()
    · exact .ret ()
  refine hreload.bind fun _ => henable.bind fun _ => (ApplyM.raises_ask _).bind fun answer => ?_
  split
  · exact .ret _
  · exact .ret _
  · next err _ => exact .raise (fromToken_of_ne (hmapped _ err))

theorem verifyInvocationChange_ne_cancelled (before : Option UnitInfo) (after : UnitInfo)
    (spec : ServiceSpec) : verifyInvocationChange before after spec ≠ .error .cancelled := by
  unfold verifyInvocationChange
  split
  · nofun
  · split
    · nofun
    · split <;> nofun

variable {env} in
theorem raises_systemdRun (h : env.ChecksToken plat) (r : Resource P) (diff : Diff P)
    (changed : Finset ResourceId) : Raises (env.systemdRun r diff changed) (FromToken plat) := by
  have hmapped : ∀ op (err : SystemdError), mapSystemdError err op ≠ .cancelled :=
    fun op err => mapSystemdError_ne_cancelled err op
  unfold systemdRun
  split
  · exact .ret _
  all_goals
    refine (env.raises_decode .systemd r.payload).bind fun spec => (Raises.write _).bind fun _ => ?_
    split
    · refine .raise (fromToken_of_ne fun heq => ?_)
      cases heq
    · rename_i systemd _
      refine (raises_systemdCurrent r.id systemd spec).bind fun before => ?_
      refine raises_performAction h r.id .systemd spec _ _ ?_ ?_
      · refine (ApplyM.raises_ask _).bind fun started =>
          (ApplyM.raises_orThrow fun err _ => hmapped _ err).bind fun _ => ?_
        refine (ApplyM.raises_ask _).bind fun answer =>
          (ApplyM.raises_orThrow fun err _ => hmapped _ err).bind fun after => ?_
        refine (ApplyM.raises_orThrow fun err herr he => ?_).bind fun _ => .ret _
        exact verifyInvocationChange_ne_cancelled before after spec (he ▸ herr)
      · exact (ApplyM.raises_ask _).bind fun stopped =>
          (ApplyM.raises_orThrow fun err _ => hmapped _ err).bind fun _ => .ret _

variable {env} in
theorem raises_run (h : env.ChecksToken plat) (init : InitSystem) (r : Resource P)
    (diff : Diff P) (changed : Finset ResourceId) :
    Raises (env.run init r diff changed) (FromToken plat) := by
  cases init with
  | runr => exact raises_runrRun h r diff changed
  | systemd => exact raises_systemdRun h r diff changed

end ServiceEnv

namespace SignalEnv

variable {P V : Type} (env : SignalEnv P V)

theorem normalizeSignal_ne_cancelled (raw : String) :
    normalizeSignal raw ≠ .error .cancelled := by
  unfold normalizeSignal
  dsimp only
  split <;> nofun

theorem buildSignalArgv_ne_cancelled (spec : ProcessSignalSpec) :
    buildSignalArgv spec ≠ .error .cancelled := by
  refine except_bind_ne_cancelled (normalizeSignal_ne_cancelled spec.signal) fun normalized => ?_
  split <;> nofun

theorem decode_ne_cancelled (payload : P) : env.decode payload ≠ .error .cancelled := by
  unfold decode
  split <;> nofun

theorem raises_run (plat : Platform V) (utcNow : V → Nat) (journalRoot : String) (r : Resource P)
    (diff : Diff P) : Raises (env.run utcNow journalRoot r diff) (FromToken plat) := by
  have hrun : Raises (do
      let spec ← ApplyM.orThrow (fun e => e) (env.decode r.payload)
      let argv ← ApplyM.orThrow (fun e => e) (buildSignalArgv spec)
      if spec.deferred then enqueueDefer utcNow journalRoot spec argv
      else env.executeSync spec argv) (FromToken plat) := by
    refine (ApplyM.raises_orThrow fun err herr he =>
      env.decode_ne_cancelled r.payload (he ▸ herr)).bind fun spec => ?_
    refine (ApplyM.raises_orThrow fun err herr he =>
      buildSignalArgv_ne_cancelled spec (he ▸ herr)).bind fun argv => ?_
    split
    · exact Raises.read.bind fun _ => (ApplyM.raises_journal _).bind fun _ =>
        (ApplyM.raises_orThrow fun _ _ => by nofun).bind fun _ => .ret _
    · exact (ApplyM.raises_outside _).bind fun _ =>
        (ApplyM.raises_orThrow fun _ _ => by nofun).bind fun _ => .ret _
  cases diff with
  | noChange => exact .ret _
  | add _ _ => exact hrun
  | update _ _ _ => exact hrun

end SignalEnv

/-! ## `apt.key` -/

/-- An error `Cancelled` comes from the look at token and deadline. -/
def FromLook (had : Bool) (e : PrimitiveError) (_ : KeyState) : Prop := e = .cancelled → had = true

section AptKey

variable {α : Type} {had : Bool}

theorem fromLook_of_ne {e : PrimitiveError} (h : e ≠ .cancelled) (s : KeyState) :
    FromLook had e s := fun he => absurd he h

theorem KeyM.raises_ofExcept {answer : Except PrimitiveError α}
    (h : answer ≠ .error .cancelled) : Raises (KeyM.ofExcept answer) (FromLook had) := by
  cases answer with
  | ok a => exact .ret a
  | error e => exact .raise (fromLook_of_ne fun he => h (congrArg _ he))

theorem KeyM.raises_files {x : FileM Bytes α} (h : Raises x fun e _ => e ≠ .cancelled) :
    Raises (KeyM.files x) (FromLook had) := by
  intro s _
  have hx := h s.nodes trivial
  unfold KeyM.files
  cases hrun : x s.nodes with
  | ok a nodes => trivial
  | error e nodes =>
    rw [hrun] at hx
    exact fromLook_of_ne hx _

theorem FileM.raises_ofExcept {B : Type} {answer : Except PrimitiveError α}
    (h : answer ≠ .error .cancelled) :
    Raises (FileM.ofExcept answer : FileM B α) fun e _ => e ≠ .cancelled := by
  cases answer with
  | ok a => exact .ret a
  | error e => exact .raise fun _ he => h (congrArg _ he)

/-- Errors that are texts. -/
theorem mapError_ne_cancelled {answer : Except String α} {f : String → PrimitiveError}
    (h : ∀ text, f text ≠ .cancelled) : answer.mapError f ≠ .error .cancelled := by
  cases answer with
  | ok a => nofun
  | error text => exact fun he => h text (Except.error.inj he)

theorem keyCall_ne_cancelled (env : FileEnv) (op : FileOp) (place : List String)
    (context : String) : keyCall env op place context ≠ .error .cancelled := by
  unfold keyCall
  split <;> nofun

theorem FileEnv.call_ne_cancelled (env : FileEnv) (op : FileOp) (place : List String)
    (context : String) : env.call op place context ≠ .error .cancelled := by
  unfold FileEnv.call
  split <;> nofun

variable (backend : AptKeyBackend) (env : FileEnv) (spec : AptKeySpec)

theorem raises_writeKeyringAtomic (path : String) (data : Bytes) :
    Raises (writeKeyringAtomic env path data) fun e _ => e ≠ .cancelled := by
  unfold writeKeyringAtomic
  cases placeOf path with
  | nil => exact .raise fun _ => nofun
  | cons name parent =>
    have hcall : ∀ op place context,
        Raises (FileM.ofExcept (keyCall env op place context) : FileM Bytes Unit)
          fun e _ => e ≠ .cancelled :=
      fun op place context => FileM.raises_ofExcept (keyCall_ne_cancelled env op place context)
    refine Raises.bind ?_ fun _ => Raises.bind ?_ fun _ => Raises.bind ?_ fun _ => ?_
    · refine (hcall _ _ _).bind fun _ => Raises.read.bind fun nodes => ?_
      split
      · exact .raise fun _ => nofun
      · exact .write _
    · exact FileM.raises_ofExcept (except_bind_ne_cancelled (keyCall_ne_cancelled _ _ _ _) fun _ =>
        except_bind_ne_cancelled (keyCall_ne_cancelled _ _ _ _) fun _ =>
          keyCall_ne_cancelled _ _ _ _)
    · refine (hcall _ _ _).bind fun _ => Raises.read.bind fun nodes => ?_
      split
      · exact .raise fun _ => nofun
      · exact .write _
    · exact (hcall _ _ _).bind fun _ => .write _

theorem raises_installKey (path : String) :
    Raises (installKey backend env spec path) (FromLook had) := by
  have htext : ∀ text, PrimitiveError.apply text ≠ .cancelled := fun _ => nofun
  refine Raises.read.bind fun s => Raises.bind (KeyM.raises_ofExcept ?_) fun installed => ?_
  · unfold alreadyInstalled
    split
    · exact except_bind_ne_cancelled (mapError_ne_cancelled htext) fun _ => nofun
    · nofun
  · split
    · exact .ret _
    · refine Raises.bind (KeyM.raises_ofExcept ?_) fun binary =>
        (KeyM.raises_files (raises_writeKeyringAtomic env path binary)).bind fun _ =>
          Raises.bind ?_ fun _ => .ret _
      · refine except_bind_ne_cancelled ?_ fun _ => mapError_ne_cancelled htext
        unfold obtainKeyData
        split
        · exact mapError_ne_cancelled htext
        · nofun
        · nofun
      · unfold verifyKeyring
        cases spec.fingerprint with
        | none => exact .ret _
        | some expected =>
          refine Raises.read.bind fun s =>
            (KeyM.raises_ofExcept (mapError_ne_cancelled htext)).bind fun actual => ?_
          dsimp only
          split
          · exact .raise (fromLook_of_ne nofun)
          · exact .write _

theorem raises_removeKey (path : String) :
    Raises (removeKey env spec path) (FromLook had) := by
  refine Raises.read.bind fun s => ?_
  cases nodeAt s.nodes (placeOf path) with
  | none => exact .ret _
  | some node =>
    refine (KeyM.raises_ofExcept (env.call_ne_cancelled _ _ _)).bind fun _ => ?_
    split
    · exact .raise (fromLook_of_ne nofun)
    · exact (Raises.write _).bind fun _ => .ret _

/-- Only the look at token and deadline cancels an `apt.key`. -/
theorem raises_aptKeyRun (had : Bool) {P : Type} (aptKeySpec : P → Except String AptKeySpec)
    (resource : Resource P) (diff : Diff P) :
    Raises (aptKeyRun backend env aptKeySpec resource diff had) (FromLook had) := by
  have hspec : ∀ spec, Raises (aptKeyRunSpec backend env spec had) (FromLook had) := by
    intro spec
    refine Raises.bind (KeyM.raises_ofExcept ?_) fun _ => ?_
    · unfold validateSourceCombination
      dsimp only
      split <;> nofun
    · cases had with
      | true => exact .raise fun _ _ => rfl
      | false =>
        refine Raises.read.bind fun s => ?_
        dsimp only
        split
        · exact .ret _
        · exact raises_installKey backend env spec _
        · exact raises_removeKey env spec _
  unfold aptKeyRun
  split
  · exact .ret _
  all_goals
    split
    · refine .raise (fromLook_of_ne fun heq => ?_)
      cases heq
    · exact hspec _

end AptKey

/-! ## `sysctl.reload` -/

structure SysctlReloadSpec where
  name : String
  path : String

/-- What `sysctl.reload` does outside. -/
structure SysctlEnv (V : Type) where
  /-- `Path::exists` -/
  pathExists : String → V → Bool × V
  /-- `Command::output` -/
  output : String → List String → V → Except String ProcessOutput × V
  sliceError : String → Nat → String

section SysctlReload

variable {V : Type} (sysctl : SysctlEnv V) (plat : Platform V) (deadline : Nat)

def sysctlRunSpec (spec : SysctlReloadSpec) (v : V) : Call ChangeReport × V :=
  let (had, v) := plat.cancelledOrPastDeadline deadline v
  if had then (.returned (.error .cancelled), v)
  else
    let (found, v) := sysctl.pathExists spec.path v
    if !found then
      (.returned (.error (.apply ("sysctl.reload '" ++ spec.name ++ "': path " ++ spec.path ++
        " does not exist (bundle order issue?)"))), v)
    else
      let (output, v) := sysctl.output "sysctl" ["-p", spec.path] v
      match sysctlCall (sysctlReload sysctl.sliceError (fun _ _ => output) spec.path) with
      | .returned (.error e) => (.returned (.error e), v)
      | .panicked payload => (.panicked payload, v)
      | .returned (.ok ()) =>
        (.returned (.ok (.ofChanged ("applied sysctl from " ++ spec.path))), v)

/-- `sysctl_reload/apply.rs`, `run`. -/
def sysctlRun {P : Type} (decode : P → Except String SysctlReloadSpec) (resource : Resource P)
    (diff : Diff P) (v : V) : Call ChangeReport × V :=
  match diff with
  | .noChange => (.returned (.ok .noChange), v)
  | _ =>
    match decode resource.payload with
    | .error e => (.returned (.error (.invalidPayload ("sysctl.reload payload: " ++ e))), v)
    | .ok spec => sysctlRunSpec sysctl plat deadline spec v

variable {sysctl plat deadline}

theorem interrupted_of_sysctlRunSpec {spec : SysctlReloadSpec} {v : V}
    (h : (sysctlRunSpec sysctl plat deadline spec v).1 = .returned (.error .cancelled)) :
    plat.Interrupted deadline (sysctlRunSpec sysctl plat deadline spec v).2 := by
  have hlook : (plat.cancelledOrPastDeadline deadline v).1 = true →
      plat.Interrupted deadline (plat.cancelledOrPastDeadline deadline v).2 :=
    plat.interrupted_of_cancelledOrPastDeadline
  revert h
  unfold sysctlRunSpec
  generalize plat.cancelledOrPastDeadline deadline v = look at hlook ⊢
  obtain ⟨had, v⟩ := look
  cases had with
  | true => exact fun _ => hlook rfl
  | false =>
    simp only [Bool.false_eq_true, if_false]
    have hreason : ∀ result, sysctlCall result ≠ .returned (.error .cancelled) := by
      intro result
      unfold sysctlCall
      split <;> nofun
    split
    · nofun
    · split
      · next e hcall =>
        intro he
        obtain rfl : e = .cancelled := Except.error.inj (Call.returned.inj he)
        exact absurd hcall (hreason _)
      · nofun
      · nofun

/-- Only the look at token and deadline cancels a `sysctl.reload`. -/
theorem interrupted_of_sysctlRun {P : Type} {decode : P → Except String SysctlReloadSpec}
    {resource : Resource P} {diff : Diff P} {v : V}
    (h : (sysctlRun sysctl plat deadline decode resource diff v).1 =
      .returned (.error .cancelled)) :
    plat.Interrupted deadline (sysctlRun sysctl plat deadline decode resource diff v).2 := by
  have hdecoded : ∀ answer : Except String SysctlReloadSpec,
      (match answer with
        | .error e => (.returned (.error (.invalidPayload ("sysctl.reload payload: " ++ e))), v)
        | .ok spec => sysctlRunSpec sysctl plat deadline spec v : Call ChangeReport × V).1 =
          .returned (.error .cancelled) →
      plat.Interrupted deadline (match answer with
        | .error e => (.returned (.error (.invalidPayload ("sysctl.reload payload: " ++ e))), v)
        | .ok spec => sysctlRunSpec sysctl plat deadline spec v : Call ChangeReport × V).2 := by
    intro answer
    cases answer with
    | error e => nofun
    | ok spec => exact interrupted_of_sysctlRunSpec
  cases diff with
  | noChange => cases h
  | add _ _ => exact hdecoded _ h
  | update _ _ _ => exact hdecoded _ h

end SysctlReload

end Bosun
