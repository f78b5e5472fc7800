import Mathlib.Data.List.TakeWhile
import Bosun.RestartFile

/-!
# Restarts that are owed

A resource that changes in a run asks the services that name it in `restart_on`
to restart, and the request lives no longer than the run: the service has to act
on it or to hand it to the journal before the run ends.  `Delivered` is what is
to hold then; `notifications_kept` shows that it does in every run in which the
turn of the service comes, its init system answers, and the journal can be
written (`Attended`).  At every other exit the request is lost.
-/

namespace Bosun

variable {P V : Type}

namespace RunArgs

/-! ## The claim -/

/-- `r` is a service that is to run and to be restarted when `x` changes. -/
structure Watches (run : RunArgs P V) (registry : Registry P) (r : Resource P)
    (init : InitSystem) (spec : ServiceSpec) (x : ResourceId) : Prop where
  registered : registry.get r.id = some r
  kind : r.kind = init.kind
  decoded : run.services.decode init r.payload = .ok spec
  running : spec.state = .running
  watched : x ∈ r.restartOn

/-- At the end of the run the unit has been started, restarted or stopped since the
    turn of `x`, or the journal holds a restart, or the validator was against it. -/
def Delivered (run : RunArgs P V) (m : Machine (World V)) (registry : Registry P)
    (order : List ResourceId) (m₁ : Machine (World V)) (x : ResourceId) (init : InitSystem)
    (spec : ServiceSpec) : Prop :=
  ∀ before after, order = before ++ x :: after → ∃ acts,
    (run.finish m).world.record =
      (run.upTo registry order m₁ (before ++ [x])).ctx.state.machine.world.record ++ acts ∧
    ((∃ caller op, op ≠ .reload ∧ .unit caller init op spec.name none ∈ acts) ∨
      HoldsRestart (run.finish m).fs.dir init spec.name ∨
      ∃ argv, spec.validateWith = some argv ∧ .validated argv false ∈ acts)

/-- In this run, started from `m`, `x` has changed, and the service watches it. -/
structure Notifies (run : RunArgs P V) (m : Machine (World V)) (registry : Registry P)
    (order : List ResourceId) (m₁ : Machine (World V)) (x : ResourceId) (r : Resource P)
    (init : InitSystem) (spec : ServiceSpec) : Prop where
  applies : run.Applies m registry order m₁
  watches : run.Watches registry r init spec x
  changed : ∃ o ∈ (run.upTo registry order m₁ order).report.resources,
    o.id = x ∧ o.outcome = .changed

/-- No notification of the run is lost. -/
def NotificationsKept (run : RunArgs P V) (m : Machine (World V)) : Prop :=
  ∀ registry order m₁ x r init spec, run.Notifies m registry order m₁ x r init spec →
    run.Delivered m registry order m₁ x init spec

/-! ## The condition -/

/-- The turn of the service, at the state `s` of the loop, comes and goes as it
    should; `s'` is the state after it. -/
structure Attended (run : RunArgs P V) (interval : Nat) (r : Resource P) (init : InitSystem)
    (spec : ServiceSpec) (first : Bool) (s s' : ApplyLoop (RunState V)) : Prop where
  going : s.aborted = false
  paced : first = false → interval ≠ 0 →
    (run.platform.onRun.cancellableSleep interval s.ctx.state).1 = true
  ready : ∀ dep ∈ r.dependsOn, dep ∉ s.failedOrInterrupted
  connected : run.services.connected init = true
  /-- No call made for the service before its unit is started comes back with an
      error. -/
  answered : ∀ acts, s'.ctx.state.machine.world.record =
      s.ctx.state.machine.world.record ++ acts →
    ∀ act ∈ acts.takeWhile (· ≠ .started r.id init spec.name), act.isFault = false
  /-- The journal takes a restart of the unit. -/
  writable : ∀ e, e.MadeFor init spec → e.action = .restart → ∀ err fs,
    Journal.enqueue e s.ctx.state.machine.fs ≠ .error err fs

/-- Every service that is notified in the run is attended to, and the replay at the
    end does not take the last attempt of its restart. -/
def Attends (run : RunArgs P V) (m : Machine (World V)) : Prop :=
  ∀ registry order m₁ x r init spec, run.Notifies m registry order m₁ x r init spec →
    (∀ done rest, order = done ++ r.id :: rest →
      run.Attended (run.opts.pacer.intervalFor order.length) r init spec done.isEmpty
        (run.upTo registry order m₁ done) (run.upTo registry order m₁ (done ++ [r.id]))) ∧
    ∀ q, q.Restarts init spec.name → q.exhausted = true → ∀ events message,
      (run.finish m).trace = (run.upTo registry order m₁ order).ctx.state.machine.trace ++ events →
      .dispatched q (.error (.action message)) ∉ events

/-! ## The loop -/

section Loop

variable (run : RunArgs P V) (registry : Registry P) (order : List ResourceId)
  (m₁ : Machine (World V))

theorem upTo_append (done rest : List ResourceId) :
    run.upTo registry order m₁ (done ++ rest) = (run.applyArgs registry).loop
      (run.opts.pacer.intervalFor order.length) done.length rest
      (run.upTo registry order m₁ done) := by
  unfold upTo
  rw [loop_append, Nat.zero_add]

theorem upTo_keeps {Inv : ApplyCtx (RunState V) → Prop}
    (hkeeps : (run.applyArgs registry).Keeps Inv) {done : List ResourceId}
    (h : Inv (run.upTo registry order m₁ done).ctx) (rest : List ResourceId) :
    Inv (run.upTo registry order m₁ (done ++ rest)).ctx := by
  rw [upTo_append]
  exact hkeeps.loop _ _ _ h

/-- The record only grows. -/
theorem keeps_record (record : List Act) : (run.applyArgs registry).Keeps fun ctx =>
    record <+: ctx.state.machine.world.record := by
  refine run.keeps registry _ (fun ctx v h => h) (fun ctx ids h => h) ?_ ?_
  · intro init r diff ctx h
    rcases (run.services.apply_cases init r diff ctx).2 with hsame | ⟨spec, -, hturn⟩
    · rw [hsame]
      exact h
    · obtain ⟨acts, hrecord⟩ := hturn.record
      rw [hrecord]
      exact h.trans ((List.prefix_append _ _).trans (List.prefix_append _ _))
  · intro r diff ctx h
    rw [(run.signals.apply_cases _ _ r diff ctx).2.record]
    exact h

theorem keeps_changed (x : ResourceId) : (run.applyArgs registry).Keeps fun ctx =>
    x ∈ ctx.changedResources := by
  refine run.keeps registry _ (fun ctx v h => h)
    (fun ctx ids h => Finset.mem_union_left _ h) ?_ ?_
  · intro init r diff ctx h
    rw [(run.services.apply_cases init r diff ctx).1]
    exact h
  · intro r diff ctx h
    rw [(run.signals.apply_cases _ _ r diff ctx).1]
    exact h

/-! ## The turn of the service -/

theorem state_recordApply {S : Type} (args : ApplyArgs P S) (id : ResourceId)
    (kind : ResourceKind) (result : Except PrimitiveError ChangeReport) (s : ApplyLoop S) :
    (args.recordApply id kind result s).ctx.state = s.ctx.state := by
  unfold ApplyArgs.recordApply
  split
  · split
    · rfl
    · split <;> rfl
  · rfl
  · split <;> rfl

variable {run registry order m₁}
variable {r : Resource P} {init : InitSystem} {spec : ServiceSpec} {x : ResourceId}

/-- Without a pause, the turn is the apply of the primitive. -/
theorem processResource_service (hwatches : run.Watches registry r init spec x)
    {s : ApplyLoop (RunState V)} (hready : ∀ dep ∈ r.dependsOn, dep ∉ s.failedOrInterrupted) :
    ∃ diff v, diff ≠ .noChange ∧
      ((run.applyArgs registry).processResource r.id s).ctx.state =
        ((run.services.primitive init).apply r diff
          ⟨s.ctx.changedResources, s.ctx.state.setOutside v⟩).2.state := by
  have hprimitive : (run.applyArgs registry).primitives r.kind =
      some (run.services.primitive init) := by
    rw [hwatches.kind]
    cases init <;> rfl
  have hdeps : r.dependsOn.find? (fun dep => dep ∈ s.failedOrInterrupted) = none := by
    simpa using hready
  have hplan : (run.services.primitive init).plan r s.ctx.state =
      (.returned (.ok (.update (run.services.pendingLookup init) r.payload
        ("converge " ++ serviceLabel init spec.name))), s.ctx.state) := by
    simp only [ServiceEnv.primitive, ServiceEnv.computeDiff, hwatches.decoded]
  refine ⟨.update (run.services.pendingLookup init) r.payload
    ("converge " ++ serviceLabel init spec.name),
    run.markDirty r.kind s.ctx.state.machine.world.outside, by simp, ?_⟩
  unfold ApplyArgs.processResource
  rw [show (run.applyArgs registry).registry.get r.id = some r from hwatches.registered]
  simp only [hdeps, hprimitive, ApplyArgs.planResource, hplan, callPrimitive]
  simp only [ApplyArgs.applyDiff, state_recordApply]
  rfl

/-- The pause before it changes only the outside. -/
theorem iteration_service (hwatches : run.Watches registry r init spec x) {interval idx : Nat}
    {s : ApplyLoop (RunState V)} (hgoing : s.aborted = false)
    (hpaced : 0 < idx → interval ≠ 0 →
      (run.platform.onRun.cancellableSleep interval s.ctx.state).1 = true)
    (hready : ∀ dep ∈ r.dependsOn, dep ∉ s.failedOrInterrupted) :
    ∃ diff v, diff ≠ .noChange ∧
      ((run.applyArgs registry).iteration interval idx r.id s).ctx.state =
        ((run.services.primitive init).apply r diff
          ⟨s.ctx.changedResources, s.ctx.state.setOutside v⟩).2.state := by
  by_cases hpause : 0 < idx ∧ interval ≠ 0 ∧ s.aborted = false
  · have hslept := hpaced hpause.1 hpause.2.1
    obtain ⟨v, hv⟩ := run.platform.cancellableSleep_onRun interval s.ctx.state
    have hafter := processResource_service hwatches (s := { s with ctx := { s.ctx with
      state := s.ctx.state.setOutside v } }) hready
    obtain ⟨diff, v', hdiff, hstate⟩ := hafter
    refine ⟨diff, v', hdiff, ?_⟩
    rw [RunState.setOutside_setOutside] at hstate
    rw [← hstate]
    unfold ApplyArgs.iteration
    rw [if_pos hpause]
    simp only [applyArgs, hslept, hv, if_true]
  · unfold ApplyArgs.iteration
    rw [if_neg hpause, hgoing]
    simp only [Bool.false_eq_true, if_false]
    exact processResource_service hwatches hready

/-- What has been done about a restart when the record has grown by `acts`. -/
def Served (r : Resource P) (init : InitSystem) (spec : ServiceSpec) (acts : List Act) : Prop :=
  .started r.id init spec.name ∈ acts ∨
    ∃ argv, spec.validateWith = some argv ∧ .validated argv false ∈ acts

/-- A service that is attended to serves the request, or the journal holds it. -/
theorem turn_serves (hwatches : run.Watches registry r init spec x) {done : List ResourceId}
    (hattended : run.Attended (run.opts.pacer.intervalFor order.length) r init spec done.isEmpty
      (run.upTo registry order m₁ done) (run.upTo registry order m₁ (done ++ [r.id])))
    (hchanged : x ∈ (run.upTo registry order m₁ done).ctx.changedResources)
    (hfiled : Filed (run.upTo registry order m₁ done).ctx.state.machine.fs.dir) :
    (∃ acts, (run.upTo registry order m₁ (done ++ [r.id])).ctx.state.machine.world.record =
        (run.upTo registry order m₁ done).ctx.state.machine.world.record ++ acts ∧
      Served r init spec acts) ∨
    HoldsRestart (run.upTo registry order m₁ (done ++ [r.id])).ctx.state.machine.fs.dir init
      spec.name := by
  have hanswered := hattended.answered
  have hpaced : 0 < done.length → run.opts.pacer.intervalFor order.length ≠ 0 →
      (run.platform.onRun.cancellableSleep (run.opts.pacer.intervalFor order.length)
        (run.upTo registry order m₁ done).ctx.state).1 = true := fun hpos =>
    hattended.paced (by simpa using List.length_pos_iff.mp hpos)
  obtain ⟨diff, v, hdiff, hstate⟩ :=
    iteration_service hwatches hattended.going hpaced hattended.ready
  have hstep : (run.applyArgs registry).iteration (run.opts.pacer.intervalFor order.length)
      done.length r.id (run.upTo registry order m₁ done) =
        run.upTo registry order m₁ (done ++ [r.id]) := by
    rw [upTo_append]
    rfl
  rw [hstep] at hstate
  rw [hstate] at hanswered ⊢
  have htriggered : ServiceEnv.triggered r.restartOn
      (run.upTo registry order m₁ done).ctx.changedResources = true := by
    simp only [ServiceEnv.triggered, List.any_eq_true, decide_eq_true_eq]
    exact ⟨x, hwatches.watched, hchanged⟩
  rcases run.services.apply_heeds r ⟨(run.upTo registry order m₁ done).ctx.changedResources,
      (run.upTo registry order m₁ done).ctx.state.setOutside v⟩ hwatches.decoded hdiff
      hwatches.running htriggered hattended.connected with hheeded | hexcused
  · rcases hheeded with ⟨acts, hrecord, hstarted⟩ | ⟨t, e, hfs, hmade, haction, hoffered, haccepted⟩
    · exact .inl ⟨_ :: acts, by rw [hrecord]; exact List.append_assoc _ [_] _,
        .inl (List.mem_cons_of_mem _ hstarted)⟩
    · refine .inr (haccepted.holdsRestart ?_ hoffered hmade haction)
      rw [hfs]
      exact hfiled
  · rcases hexcused with
      ⟨acts, hrecord, act, hact, hblamed⟩ | ⟨t, e, hfs, hmade, haction, err, herr⟩
    · have hgrown := hrecord.trans (List.append_assoc _ [_] acts)
      rcases hblamed with hfault | ⟨argv, hvalidate, rfl⟩ | rfl
      · by_cases hstarted : .started r.id init spec.name ∈ acts
        · exact .inl ⟨_, hgrown, .inl (List.mem_cons_of_mem _ hstarted)⟩
        · -- the unit was not started, so the fault came before that
          have hall : (.wanted r.id init spec.name spec.state :: acts).takeWhile
              (· ≠ .started r.id init spec.name) =
                .wanted r.id init spec.name spec.state :: acts := by
            refine List.takeWhile_eq_self_iff.mpr fun act' hact' => ?_
            simp only [decide_eq_true_eq]
            rintro rfl
            rcases List.mem_cons.mp hact' with heq | hmem
            · cases heq
            · exact hstarted hmem
          have hnone := hanswered _ hgrown act (hall.symm ▸ List.mem_cons_of_mem _ hact)
          rw [hfault] at hnone
          cases hnone
      · exact .inl ⟨_, hgrown, .inr ⟨argv, hvalidate, List.mem_cons_of_mem _ hact⟩⟩
      · exact .inl ⟨_, hgrown, .inl (List.mem_cons_of_mem _ hact)⟩
    · rw [hfs] at herr
      exact absurd herr (hattended.writable e hmade (haction rfl) err _)

/-! ## From the turn to the end of the run -/

variable (run registry order m₁)

theorem keeps_filed : (run.applyArgs registry).Keeps fun ctx =>
    Filed ctx.state.machine.fs.dir := by
  refine run.keeps registry _ (fun ctx v h => h) (fun ctx ids h => h) ?_ ?_
  · intro init r diff ctx h
    rcases (run.services.apply_cases init r diff ctx).2 with hsame | ⟨spec, -, hturn⟩
    · rw [hsame]
      exact h
    · exact hturn.filed h
  · intro r diff ctx h
    exact (run.signals.apply_cases _ _ r diff ctx).2.filed h

theorem keeps_holdsRestart (init : InitSystem) (name : String) :
    (run.applyArgs registry).Keeps fun ctx => Filed ctx.state.machine.fs.dir ∧
      HoldsRestart ctx.state.machine.fs.dir init name := by
  refine run.keeps registry _ (fun ctx v h => h) (fun ctx ids h => h) ?_ ?_
  · intro init' r diff ctx ⟨h, hholds⟩
    rcases (run.services.apply_cases init' r diff ctx).2 with hsame | ⟨spec, -, hturn⟩
    · rw [hsame]
      exact ⟨h, hholds⟩
    · exact ⟨hturn.filed h, hturn.holdsRestart h hholds⟩
  · intro r diff ctx ⟨h, hholds⟩
    have hsignalled := (run.signals.apply_cases run.services.utcNow run.services.journalRoot r
      diff ctx).2
    exact ⟨hsignalled.filed h, hsignalled.holdsRestart h hholds⟩

end Loop

/-- The outcomes of the loop so far stay. -/
theorem prefix_loop {S : Type} (args : ApplyArgs P S) (interval idx : Nat)
    (order : List ResourceId) (s : ApplyLoop S) :
    s.resources <+: (args.loop interval idx order s).resources := by
  induction order generalizing idx s with
  | nil => exact List.prefix_refl _
  | cons id order ih =>
    obtain ⟨o, calls, -, hpass⟩ := iteration_pass args interval idx id s
    have hstep : s.resources <+: (args.iteration interval idx id s).resources := by
      rw [hpass.resources]
      exact List.prefix_append _ _
    exact hstep.trans (ih (idx + 1) _)

/-- A resource that ends `Changed` is in the set right after its turn. -/
theorem mem_changed {run : RunArgs P V} {m m₁ : Machine (World V)} {registry : Registry P}
    {order before after : List ResourceId} {x : ResourceId}
    (happlies : run.Applies m registry order m₁) (heq : order = before ++ x :: after)
    (hchanged : ∃ o ∈ (run.upTo registry order m₁ order).report.resources,
      o.id = x ∧ o.outcome = .changed) :
    x ∈ (run.upTo registry order m₁ (before ++ [x])).ctx.changedResources := by
  obtain ⟨o, ho, hid, houtcome⟩ := hchanged
  have hnodup : ((run.upTo registry order m₁ order).resources.map (·.id)).Nodup := by
    rw [show (run.upTo registry order m₁ order).resources.map (·.id) = order from
      run_ids (run.applyArgs registry) order (applyCtx m₁)]
    exact (Registry.topologicalOrder_ok happlies.ordered).1.nodup_iff.mpr registry.nodup
  have hstep : run.upTo registry order m₁ (before ++ [x]) = (run.applyArgs registry).iteration
      (run.opts.pacer.intervalFor order.length) before.length x
      (run.upTo registry order m₁ before) := by
    rw [upTo_append]
    rfl
  obtain ⟨o', calls, hid', hpass⟩ := iteration_pass (run.applyArgs registry)
    (run.opts.pacer.intervalFor order.length) before.length x (run.upTo registry order m₁ before)
  rw [← hstep] at hpass
  have hrest : (run.upTo registry order m₁ (before ++ [x])).resources <+:
      (run.upTo registry order m₁ order).resources := by
    have horder : run.upTo registry order m₁ order =
        run.upTo registry order m₁ ((before ++ [x]) ++ after) := by
      rw [List.append_assoc]
      exact congrArg _ heq
    rw [horder, upTo_append run registry order m₁ (before ++ [x]) after]
    exact prefix_loop _ _ _ _ _
  -- one outcome for each id, so it is the one of that turn
  have ho' : o' ∈ (run.upTo registry order m₁ order).resources := by
    refine hrest.subset ?_
    rw [hpass.resources]
    exact List.mem_append_right _ List.mem_cons_self
  obtain rfl : o = o' := List.inj_on_of_nodup_map hnodup ho ho' (hid.trans hid'.symm)
  exact hid ▸ hpass.recorded houtcome

/-- The turn of a service comes after the turn of what it watches. -/
theorem turn_after {run : RunArgs P V} {m m₁ : Machine (World V)} {registry : Registry P}
    {order before after : List ResourceId} {r : Resource P} {init : InitSystem}
    {spec : ServiceSpec} {x : ResourceId} (happlies : run.Applies m registry order m₁)
    (hwatches : run.Watches registry r init spec x) (heq : order = before ++ x :: after) :
    ∃ mid rest, order = (before ++ [x] ++ mid) ++ r.id :: rest := by
  obtain ⟨hperm, htargets⟩ := Registry.topologicalOrder_ok happlies.ordered
  have hnodup : order.Nodup := hperm.nodup_iff.mpr registry.nodup
  obtain ⟨hr, hid⟩ := Registry.get_eq_some.mp hwatches.registered
  obtain ⟨done, rest, hdone⟩ := List.append_of_mem
    (hperm.mem_iff.mpr (List.mem_map.mpr ⟨r, hr, rfl⟩))
  have hx : x ∈ done := htargets done r.id rest hdone x
    ⟨r, hr, rfl, by simp [Resource.edges, hwatches.watched]⟩
  obtain ⟨front, mid, rfl⟩ := List.append_of_mem hx
  rw [List.append_assoc, List.cons_append] at hdone
  -- `x` stands in the order once
  have hfront : x ∉ front := fun hmem => by
    rw [hdone, List.nodup_append] at hnodup
    exact hnodup.2.2 x hmem x List.mem_cons_self rfl
  have hbefore : x ∉ before := fun hmem => by
    rw [heq, List.nodup_append] at hnodup
    exact hnodup.2.2 x hmem x List.mem_cons_self rfl
  obtain ⟨rfl, rfl⟩ := append_cons_inj hbefore hfront (heq.symm.trans hdone)
  exact ⟨mid, rest, by rw [hdone]; simp⟩

theorem filed_prepare {run : RunArgs P V} {m : Machine (World V)} (h : Filed m.fs.dir) :
    Filed (run.prepare m).2.fs.dir := h.replay run

theorem filed_finish (run : RunArgs P V) {m : Machine (World V)} (h : Filed m.fs.dir) :
    Filed (run.finish m).fs.dir := by
  rcases applies_or m with hend | ⟨registry, order, m₁, happlies⟩
  · rw [hend]
    exact filed_prepare h
  · rw [happlies.finish_eq]
    refine Filed.replay run ((run.keeps_filed registry).loop _ _ order ?_)
    have hprepared : Filed (run.prepare m).2.fs.dir := filed_prepare h
    rwa [happlies.prepared] at hprepared

/-- What came later in a record is among the later acts. -/
theorem mem_later {old mid new acts : List Act} {act : Act} (hold : old <+: mid)
    (hmid : mid ++ acts <+: new) (hact : act ∈ acts) :
    ∀ later, new = old ++ later → act ∈ later := by
  rintro later rfl
  obtain ⟨first, rfl⟩ := hold
  rw [List.append_assoc, List.prefix_append_right_inj] at hmid
  exact hmid.subset (List.mem_append_right _ hact)

/-- **One run**: what is attended to is delivered. -/
theorem notificationsKept_of_attends (run : RunArgs P V) {m : Machine (World V)}
    (hfiled : Filed m.fs.dir) (hattends : run.Attends m) : run.NotificationsKept m := by
  intro registry order m₁ x r init spec hnotifies before after heq
  obtain ⟨hattended, hspared⟩ := hattends registry order m₁ x r init spec hnotifies
  obtain ⟨happlies, hwatches, hoccurred⟩ := hnotifies
  obtain ⟨mid, rest, hdone⟩ := turn_after happlies hwatches heq
  have hstart : Filed m₁.fs.dir := by
    have hprepared : Filed (run.prepare m).2.fs.dir := filed_prepare hfiled
    rwa [happlies.prepared] at hprepared
  have hfiledAt : ∀ done, Filed (run.upTo registry order m₁ done).ctx.state.machine.fs.dir :=
    fun done => (run.keeps_filed registry).loop _ _ done hstart
  have hx : x ∈ (run.upTo registry order m₁ (before ++ [x] ++ mid)).ctx.changedResources :=
    upTo_keeps run registry order m₁ (run.keeps_changed registry x)
      (mem_changed happlies heq hoccurred) mid
  -- the record at four moments, each a prefix of the next
  have hmid : (run.upTo registry order m₁ (before ++ [x])).ctx.state.machine.world.record <+:
      (run.upTo registry order m₁ (before ++ [x] ++ mid)).ctx.state.machine.world.record :=
    upTo_keeps run registry order m₁ (run.keeps_record registry _) (List.prefix_refl _) mid
  have hrest : ∀ record, record <+: (run.upTo registry order m₁
      (before ++ [x] ++ mid ++ [r.id])).ctx.state.machine.world.record →
      record <+: (run.upTo registry order m₁ order).ctx.state.machine.world.record := by
    intro record hrecord
    have hend := upTo_keeps run registry order m₁ (run.keeps_record registry record) hrecord rest
    rwa [List.append_assoc _ [r.id] rest, List.singleton_append, ← hdone] at hend
  have hreplay := replay_record run
    (run.upTo registry order m₁ order).ctx.state.machine
  rw [← happlies.finish_eq] at hreplay
  have hturn : (run.upTo registry order m₁ (before ++ [x] ++ mid)).ctx.state.machine.world.record
      <+: (run.upTo registry order m₁
        (before ++ [x] ++ mid ++ [r.id])).ctx.state.machine.world.record :=
    upTo_keeps run registry order m₁ (run.keeps_record registry _) (List.prefix_refl _) [r.id]
  obtain ⟨later, hlater⟩ := hmid.trans ((hrest _ hturn).trans hreplay)
  refine ⟨later, hlater.symm, ?_⟩
  rcases turn_serves hwatches (hattended _ rest hdone) hx (hfiledAt _) with
    ⟨acts, hacts, hserved⟩ | hholds
  · have hsince : ∀ act ∈ acts, act ∈ later := fun act hact =>
      mem_later hmid ((hrest _ (hacts ▸ List.prefix_refl _)).trans hreplay) hact later hlater.symm
    rcases hserved with hstarted | ⟨argv, hvalidate, hrefused⟩
    · exact .inl ⟨_, .start, by simp, hsince _ hstarted⟩
    · exact .inr (.inr ⟨argv, hvalidate, hsince _ hrefused⟩)
  · have hkept := upTo_keeps run registry order m₁
      (run.keeps_holdsRestart registry init spec.name) ⟨hfiledAt _, hholds⟩ rest
    rw [List.append_assoc _ [r.id] rest, List.singleton_append, ← hdone] at hkept
    obtain ⟨q, hq⟩ := hkept.1.holdsRestart_iff.mp hkept.2
    have hrestarts : q.Restarts init spec.name := by
      have hmem := Filed.mem_of_lookup (isDeferred_restartFile init spec.name) hq
      refine (hkept.1.issued q hmem).restarts_of_filename ?_
      exact (hkept.1.own _ q (isDeferred_restartFile init spec.name) hq).symm
    have hpost := replay_restart run hkept.1 hq
    rw [← happlies.finish_eq] at hpost
    rcases hpost with ⟨acts, hacts, hact⟩ | hstill | ⟨hexhausted, events, htrace, message, hmem⟩
    · have hsince := mem_later (hmid.trans (hrest _ hturn)) (hacts ▸ List.prefix_refl _) hact
        later hlater.symm
      exact .inl ⟨_, .restart, by simp, hsince⟩
    · exact .inr (.inl ((filed_finish run hfiled).holdsRestart_iff.mpr hstill))
    · exact absurd hmem (hspared q hrestarts hexhausted events message htrace)

/-- **No notification is lost** over any number of runs, from any journal that bosun
    has written, as long as the services that are notified are attended to. -/
theorem notifications_kept (runs : List (RunArgs P V)) {m : Machine (World V)}
    (hfiled : Filed m.fs.dir)
    (hattends : ∀ step ∈ runSteps runs m, step.1.Attends step.2) :
    ∀ step ∈ runSteps runs m, step.1.NotificationsKept step.2 := by
  have hsteps := (runSteps_induction (fun m => Filed m.fs.dir) runs
    (fun run m h => filed_finish run h) hfiled).1
  exact fun step hstep => notificationsKept_of_attends step.1 (hsteps step hstep)
    (hattends step hstep)

/-! ## A service and its configuration -/

def nginxSpec : ServiceSpec := ⟨"nginx", .running, false, none, none⟩

def nginxConf : Resource ServiceSpec :=
  ⟨⟨"file.content:/etc/nginx.conf"⟩, ⟨"file.content"⟩, 1, ⟨"", .absent, false, none, none⟩,
    [], [], []⟩

/-- It is to be restarted whenever its configuration changes. -/
def nginxService : Resource ServiceSpec :=
  ⟨⟨"systemd.service:nginx"⟩, ⟨"systemd.service"⟩, 1, nginxSpec, [], [nginxConf.id], []⟩

def nginxRegistry : Registry ServiceSpec := ⟨[nginxService, nginxConf], by decide⟩

/-- The configuration changes in every run. -/
def watchingNginx (systemd : Option (SystemdHandle Nat)) : RunArgs ServiceSpec Nat :=
  .plain systemd nginxRegistry

theorem order_nginxRegistry : nginxRegistry.topologicalOrder ⟨id, fun _ => .rfl⟩ =
    .ok [nginxConf.id, nginxService.id] := by decide

theorem applies_watchingNginx (systemd : Option (SystemdHandle Nat)) :
    (watchingNginx systemd).Applies freshHost nginxRegistry [nginxConf.id, nginxService.id]
      listedHost := ⟨rfl, order_nginxRegistry⟩

theorem Applies.unique {run : RunArgs P V} {m m₁ m₂ : Machine (World V)}
    {registry registry' : Registry P} {order order' : List ResourceId}
    (h : run.Applies m registry order m₁) (h' : run.Applies m registry' order' m₂) :
    registry = registry' ∧ order = order' ∧ m₁ = m₂ := by
  have hprepared := h.prepared.symm.trans h'.prepared
  rw [Prod.mk.injEq, Except.ok.injEq] at hprepared
  obtain ⟨rfl, rfl⟩ := hprepared
  exact ⟨rfl, Except.ok.inj (h.ordered.symm.trans h'.ordered), rfl⟩

theorem watches_nginx (systemd : Option (SystemdHandle Nat)) :
    (watchingNginx systemd).Watches nginxRegistry nginxService .systemd nginxSpec nginxConf.id :=
  ⟨rfl, rfl, rfl, rfl, List.mem_cons_self⟩

/-- Without systemd the run ends with nothing done and an empty journal. -/
theorem notification_lost : ¬ (watchingNginx none).NotificationsKept freshHost := by
  intro hkept
  obtain ⟨acts, hacts, hcases⟩ := hkept _ _ _ _ _ _ _ ⟨applies_watchingNginx none,
    watches_nginx none, ⟨nginxConf.id, nginxConf.kind, .changed, "created"⟩, by decide, rfl, rfl⟩
    [] [nginxService.id] rfl
  have hend : ((watchingNginx none).finish freshHost).world.record =
      [.wanted nginxService.id .systemd "nginx" .running] := by decide
  have hpending : Journal.pending ((watchingNginx none).finish freshHost).fs.dir = [] := by decide
  rw [hend] at hacts
  obtain rfl : [Act.wanted nginxService.id .systemd "nginx" .running] = acts := hacts
  rcases hcases with ⟨caller, op, -, hmem⟩ | ⟨q, hq, -⟩ | ⟨argv, -, hmem⟩
  · simp at hmem
  · simp [hpending] at hq
  · simp at hmem

/-- The client did not do what the replay asked for. -/
def isRefusal : Event → Bool
  | .dispatched _ (.error _) => true
  | _ => false

/-- With systemd up, the one service is attended to. -/
theorem attends_watchingNginx : (watchingNginx (some .obedient)).Attends freshHost := by
  intro registry order m₁ x r init spec hnotifies
  obtain ⟨rfl, rfl, rfl⟩ := hnotifies.applies.unique (applies_watchingNginx _)
  have hwatches := hnotifies.watches
  obtain rfl : r = nginxService := by
    have hmem := (Registry.get_eq_some.mp hwatches.registered).1
    rcases List.mem_cons.mp hmem with hr | hr
    · exact hr
    · have hkind := hwatches.kind
      rw [List.mem_singleton.mp hr] at hkind
      cases init <;> exact absurd hkind (by decide)
  obtain rfl : init = .systemd := by
    have hkind := hwatches.kind
    cases init with
    | runr => exact absurd hkind (by decide)
    | systemd => rfl
  obtain rfl : spec = nginxSpec := (Except.ok.inj hwatches.decoded).symm
  refine ⟨fun done rest hdone => ?_, fun q _ hexhausted events message htrace => ?_⟩
  · obtain ⟨rfl, rfl⟩ : done = [nginxConf.id] ∧ rest = [] := by
      match done, hdone with
      | [], hdone => exact absurd (List.cons.inj hdone).1 (by decide)
      | [conf], hdone =>
        obtain ⟨hconf, htail⟩ := List.cons.inj hdone
        exact ⟨by rw [hconf], (List.cons.inj htail).2.symm⟩
      | conf :: service :: done, hdone =>
        have hlength := congrArg List.length hdone
        simp at hlength
    refine ⟨rfl, fun _ hinterval => absurd rfl hinterval, by decide, rfl, ?_, ?_⟩
    · intro acts hacts
      have hrecord : ((watchingNginx (some .obedient)).upTo nginxRegistry
          [nginxConf.id, nginxService.id] listedHost
          ([nginxConf.id] ++ [nginxService.id])).ctx.state.machine.world.record =
          [.wanted nginxService.id .systemd "nginx" .running,
            .query (.apply nginxService.id) .systemd .needsDaemonReload none,
            .query (.apply nginxService.id) .systemd .unitInfo none] := by decide
      rw [hrecord] at hacts
      obtain rfl : _ = acts := hacts
      decide
    · intro e hmade _ err fs herr
      obtain ⟨result, dir, ⟨ops, hops⟩, -⟩ := Journal.enqueue_settles
        (Journal.healthy_emptyFs.withDir ∅ 1) (Journal.orderly_of_empty fun _ => rfl)
        hmade.wellNamed
      cases herr.symm.trans hops
  · have hfinal : ((watchingNginx (some .obedient)).finish freshHost).trace.filter
        isRefusal = [] := rfl
    intro hmem
    rw [htrace, List.filter_append, List.append_eq_nil_iff, List.filter_eq_nil_iff
      (l := events)] at hfinal
    exact hfinal.2 _ hmem rfl

theorem notifications_kept_nginx :
    (watchingNginx (some .obedient)).NotificationsKept freshHost :=
  notifications_kept [watchingNginx (some .obedient)] (filed_of_empty fun _ => rfl)
    (fun step hstep => by
      rw [List.mem_singleton.mp hstep]
      exact attends_watchingNginx) (watchingNginx (some .obedient), freshHost) List.mem_cons_self

end RunArgs

end Bosun
