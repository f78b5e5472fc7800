import Bosun.ApplyRun
import Bosun.ProcessSignal
import Bosun.ReplayCycles

/-!
# A run of bosun

`run.rs`: a run replays the journal, evaluates the manifest to a registry,
applies the registry and replays the journal once more.  The flags for the
reloads of the daemons and the set of changed resources are new in every run;
the journal is all that one run leaves to the next.

Besides the two services and `process.signal` no primitive touches the journal or
the flags, so all others, the timers among them, are taken as they come: they may
do anything outside and answer anything.  A dry run neither replays nor applies:
what it answers and reports is in `DryRun` and `RunMetric`.
-/

namespace Bosun

namespace RunState

variable {V : Type}

def setOutside (v : V) (s : RunState V) : RunState V :=
  s.setWorld { s.machine.world with outside := v }

@[simp] theorem record_setOutside (v : V) (s : RunState V) :
    (s.setOutside v).machine.world.record = s.machine.world.record := rfl

@[simp] theorem fs_setOutside (v : V) (s : RunState V) :
    (s.setOutside v).machine.fs = s.machine.fs := rfl

@[simp] theorem setOutside_setOutside (v v' : V) (s : RunState V) :
    (s.setOutside v).setOutside v' = s.setOutside v' := rfl

end RunState

/-- Clock and token, in the state of a run. -/
def Platform.onRun {V : Type} (plat : Platform V) : Platform (RunState V) where
  clock s := plat.clock s.machine.world.outside
  cancelled s := plat.cancelled s.machine.world.outside
  tick s := s.setOutside (plat.tick s.machine.world.outside)
  sleep d s := s.setOutside (plat.sleep d s.machine.world.outside)
  clock_le_tick s := plat.clock_le_tick s.machine.world.outside
  clock_add_le_sleep d s := plat.clock_add_le_sleep d s.machine.world.outside
  cancelled_tick s := plat.cancelled_tick s.machine.world.outside
  cancelled_sleep d s := plat.cancelled_sleep d s.machine.world.outside

/-- A pause changes nothing but the outside. -/
theorem Platform.cancellableSleep_onRun {V : Type} (plat : Platform V) (total : Nat)
    (s : RunState V) : ∃ v, (plat.onRun.cancellableSleep total s).2 = s.setOutside v := by
  refine plat.onRun.cancellableSleep_induction (fun s' => ∃ v, s' = s.setOutside v) ?_ ?_ total
    ⟨s.machine.world.outside, rfl⟩
  · rintro s' ⟨v, rfl⟩
    exact ⟨plat.tick v, rfl⟩
  · rintro d s' ⟨v, rfl⟩
    exact ⟨plat.sleep d v, rfl⟩

/-- A primitive that has to do neither with a service nor with the journal.  It may
    record resources as changed (as `cert.tls` does with itself). -/
structure OutsidePrimitive (P V : Type) where
  plan : Resource P → V → Call (Diff P) × V
  apply : Resource P → Diff P → Finset ResourceId → V → Call ChangeReport × Finset ResourceId × V

def OutsidePrimitive.primitive {P V : Type} (p : OutsidePrimitive P V) :
    Primitive P (RunState V) where
  plan r s :=
    let (answer, v) := p.plan r s.machine.world.outside
    (answer, s.setOutside v)
  apply r diff ctx :=
    let (answer, recorded, v) :=
      p.apply r diff ctx.changedResources ctx.state.machine.world.outside
    (answer, ⟨ctx.changedResources ∪ recorded, ctx.state.setOutside v⟩)

/-- What a run is started with. -/
structure RunArgs (P V : Type) where
  services : ServiceEnv P V
  signals : SignalEnv P V
  others : ResourceKind → Option (OutsidePrimitive P V)
  platform : Platform V
  processes : Processes platform
  evaluate : ClientCall V String (Registry P)
  hashIter : Registry.HashIter
  markDirty : ResourceKind → V → V
  opts : ApplyOpts

/-- `runr.service` and `systemd.service` -/
def InitSystem.kind : InitSystem → ResourceKind
  | runr => ⟨"runr.service"⟩
  | systemd => ⟨"systemd.service"⟩

namespace RunArgs

variable {P V : Type} (run : RunArgs P V)

def backends : Backends V where
  client := ⟨run.services.runr, run.services.systemd, run.platform, run.processes⟩
  healthCheckRunner := run.services.healthCheckRunner

/-- `build_primitives` -/
def primitives (kind : ResourceKind) : Option (Primitive P (RunState V)) :=
  if kind = InitSystem.runr.kind then some (run.services.primitive .runr)
  else if kind = InitSystem.systemd.kind then some (run.services.primitive .systemd)
  else if kind = ⟨"process.signal"⟩ then
    some (run.signals.primitive run.services.utcNow run.services.journalRoot)
  else (run.others kind).map OutsidePrimitive.primitive

def applyArgs (registry : Registry P) : ApplyArgs P (RunState V) where
  primitives := run.primitives
  registry := registry
  markDirty kind s := s.setOutside (run.markDirty kind s.machine.world.outside)
  opts := run.opts
  platform := run.platform.onRun

def applyCtx (m : Machine (World V)) : ApplyCtx (RunState V) := ⟨∅, m, false, false⟩

/-- A replay phase.  Its errors are only warned about. -/
def replay (m : Machine (World V)) : Machine (World V) :=
  (run.backends.replayArgs.replayWithHealthCheck m).2

/-- Up to the apply. -/
def prepare (m : Machine (World V)) : Except String (Registry P) × Machine (World V) :=
  let m := run.replay m
  let (answer, v) := run.evaluate m.world.outside
  (answer, { m with world := { m.world with outside := v } })

/-- The whole run. -/
def finish (m : Machine (World V)) : Machine (World V) :=
  match run.prepare m with
  | (.error _, m) => m
  | (.ok registry, m) =>
    match (run.applyArgs registry).apply run.hashIter (applyCtx m) with
    | .error _ => m
    | .ok (_, ctx) => run.replay ctx.state.machine

/-! ## The loop of a run -/

/-- The state of the loop after the first resources of an order. -/
def upTo (registry : Registry P) (order : List ResourceId) (m : Machine (World V))
    (done : List ResourceId) : ApplyLoop (RunState V) :=
  (run.applyArgs registry).loop (run.opts.pacer.intervalFor order.length) 0 done
    (.start (applyCtx m))

/-- The run comes to the apply, with this registry, this order and this machine. -/
structure Applies (m : Machine (World V)) (registry : Registry P) (order : List ResourceId)
    (m₁ : Machine (World V)) : Prop where
  prepared : run.prepare m = (.ok registry, m₁)
  ordered : registry.topologicalOrder run.hashIter = .ok order

variable {run}

theorem Applies.finish_eq {m m₁ : Machine (World V)} {registry : Registry P}
    {order : List ResourceId} (h : run.Applies m registry order m₁) :
    run.finish m = run.replay (run.upTo registry order m₁ order).ctx.state.machine := by
  have happly : (run.applyArgs registry).apply run.hashIter (applyCtx m₁) =
      .ok (((run.applyArgs registry).run order (applyCtx m₁)).report,
        ((run.applyArgs registry).run order (applyCtx m₁)).ctx) := by
    unfold ApplyArgs.apply
    rw [show (run.applyArgs registry).registry = registry from rfl, h.ordered]
    rfl
  unfold finish
  rw [h.prepared]
  simp only [happly]
  rfl

/-- A run comes to the apply or ends as it was prepared. -/
theorem applies_or (m : Machine (World V)) : run.finish m = (run.prepare m).2 ∨
    ∃ registry order m₁, run.Applies m registry order m₁ := by
  unfold finish
  rcases hprepare : run.prepare m with ⟨_ | registry, m₁⟩
  · exact .inl rfl
  · cases hordered : registry.topologicalOrder run.hashIter with
    | error err =>
      refine .inl ?_
      simp only [ApplyArgs.apply, applyArgs, hordered]
      rfl
    | ok order => exact .inr ⟨registry, order, m₁, hprepare, hordered⟩

variable (run)

/-- What does not look at the outside stays around the calls. -/
theorem keepsAround (registry : Registry P) (Inv : ApplyCtx (RunState V) → Prop)
    (houtside : ∀ ctx v, Inv ctx → Inv { ctx with state := ctx.state.setOutside v })
    (hchanged : ∀ ctx ids, Inv ctx →
      Inv { ctx with changedResources := ctx.changedResources ∪ ids }) :
    (run.applyArgs registry).KeepsAround Inv where
  pause total ctx h := by
    obtain ⟨v, hv⟩ := run.platform.cancellableSleep_onRun total ctx.state
    simp only [applyArgs, hv]
    exact houtside ctx v h
  plan r primitive ctx hprimitive h := by
    simp only [applyArgs, primitives] at hprimitive
    split at hprimitive
    · obtain rfl := Option.some.inj hprimitive
      exact h
    · split at hprimitive
      · obtain rfl := Option.some.inj hprimitive
        exact h
      · split at hprimitive
        · obtain rfl := Option.some.inj hprimitive
          exact h
        · obtain ⟨other, -, rfl⟩ := Option.map_eq_some_iff.mp hprimitive
          exact houtside ctx _ h
  markDirty kind ctx h := houtside ctx _ h
  recordChanged id ctx h := by
    have hunion := hchanged ctx {id} h
    rwa [Finset.union_comm, ← Finset.insert_eq] at hunion

/-- What the services and the signals preserve, and what does not look at the
    outside, the whole loop preserves. -/
theorem keeps (registry : Registry P) (Inv : ApplyCtx (RunState V) → Prop)
    (houtside : ∀ ctx v, Inv ctx → Inv { ctx with state := ctx.state.setOutside v })
    (hchanged : ∀ ctx ids, Inv ctx →
      Inv { ctx with changedResources := ctx.changedResources ∪ ids })
    (hservice : ∀ init r diff ctx, Inv ctx →
      Inv ((run.services.primitive init).apply r diff ctx).2)
    (hsignal : ∀ r diff ctx, Inv ctx → Inv ((run.signals.primitive run.services.utcNow
      run.services.journalRoot).apply r diff ctx).2) :
    (run.applyArgs registry).Keeps Inv where
  toKeepsAround := run.keepsAround registry Inv houtside hchanged
  apply r primitive diff ctx hprimitive h := by
    simp only [applyArgs, primitives] at hprimitive
    split at hprimitive
    · obtain rfl := Option.some.inj hprimitive
      exact hservice .runr r diff ctx h
    · split at hprimitive
      · obtain rfl := Option.some.inj hprimitive
        exact hservice .systemd r diff ctx h
      · split at hprimitive
        · obtain rfl := Option.some.inj hprimitive
          exact hsignal r diff ctx h
        · obtain ⟨other, -, rfl⟩ := Option.map_eq_some_iff.mp hprimitive
          exact hchanged { ctx with state := ctx.state.setOutside (other.apply r diff
            ctx.changedResources ctx.state.machine.world.outside).2.2 } _ (houtside ctx _ h)

end RunArgs

/-! ## Runs -/

/-- The runs of a host, each with the machine it starts from. -/
def runSteps {P V : Type} : List (RunArgs P V) → Machine (World V) →
    List (RunArgs P V × Machine (World V))
  | [], _ => []
  | run :: runs, m => (run, m) :: runSteps runs (run.finish m)

def runAll {P V : Type} (runs : List (RunArgs P V)) (m : Machine (World V)) :
    Machine (World V) := runs.foldl (fun m run => run.finish m) m

/-- What every run preserves holds before every run and after the last one. -/
theorem runSteps_induction {P V : Type} (Inv : Machine (World V) → Prop)
    (runs : List (RunArgs P V)) {m : Machine (World V)}
    (hrun : ∀ (run : RunArgs P V) m, Inv m → Inv (run.finish m)) (hm : Inv m) :
    (∀ step ∈ runSteps runs m, Inv step.2) ∧ Inv (runAll runs m) := by
  induction runs generalizing m with
  | nil => exact ⟨by simp [runSteps], hm⟩
  | cons run runs ih =>
    obtain ⟨hsteps, hend⟩ := ih (hrun run m hm)
    exact ⟨List.forall_mem_cons.mpr ⟨hm, hsteps⟩, hend⟩

/-- A host without runr and without faults.  Payloads are specs, and every resource
    of another kind reports a change in every run. -/
def RunArgs.plain (systemd : Option (SystemdHandle Nat)) (registry : Registry ServiceSpec) :
    RunArgs ServiceSpec Nat where
  services :=
    { runrSpec := .ok
      systemdSpec := .ok
      pendingLookup := fun _ => ⟨"", .absent, false, none, none⟩
      runr := none
      systemd := systemd
      validator := fun _ v => (.ok (), v)
      healthCheckRunner := fun _ v => (.ok (), v)
      utcNow := fun v => v
      journalRoot := "/var/lib/bosun/defers" }
  signals := ⟨fun _ => .error "no signal", ⟨"", .absent, false, none, none⟩, fun _ v => (.ok (), v)⟩
  others _ := some
    ⟨fun r v => (.returned (.ok (.add "create" r.payload)), v),
     fun _ _ _ v => (.returned (.ok (.ofChanged "created")), ∅, v)⟩
  platform := .quiet
  processes := .bare
  evaluate v := (.ok registry, v)
  hashIter := ⟨id, fun _ => .rfl⟩
  markDirty _ v := v
  opts := ⟨false, .disabled⟩

/-- A host on which nothing has happened yet. -/
def RunArgs.freshHost : Machine (World Nat) := ⟨Journal.emptyFs, ⟨0, []⟩, []⟩

/-- The machine after the replay of an empty journal. -/
def RunArgs.listedHost : Machine (World Nat) :=
  ⟨{ Journal.emptyFs with ops := 1 }, ⟨0, []⟩, []⟩

end Bosun
