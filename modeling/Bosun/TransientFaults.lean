import Bosun.ReplayCycles
import Bosun.Services

/-!
# Faults that cost no attempt

An error of a client is sorted twice: by the apply path, which puts a resource
off to the next cycle when the error is only a matter of time, and by the
dispatcher, which then leaves the entry of the journal as it is.  The two agree
on every error but three (`overlooked`): what the transport reports once the
connection stands.  As long as none of the three comes up, cycles in which the
clients report nothing but matters of time write nothing into the journal.
-/

namespace Bosun

/-- The error as the apply path reports it. -/
def ClientError.applyError (err : ClientError) (baseUrl op : String) : PrimitiveError :=
  match err with
  | .runr err => mapRunrError err baseUrl op
  | .systemd err => mapSystemdError err op

/-- The errors that the dispatcher takes for failures of the action. -/
def ClientError.overlooked : ClientError → Bool
  | .runr (.io _) | .systemd (.dbus _) | .systemd (.timeout _) => true
  | _ => false

theorem agree_iff (err : ClientError) (baseUrl op : String) :
    ((err.applyError baseUrl op).isDeferrable = true ↔
      dispatchAnswer (some err) = .error .clientUnavailable) ↔ err.overlooked = false := by
  rcases err with err | err <;> cases err <;>
    simp [ClientError.applyError, mapRunrError, mapSystemdError, PrimitiveError.isDeferrable,
      dispatchAnswer, mapRunrResult, mapSystemdResult, ClientError.overlooked]

def Act.error : Act → Option ClientError
  | .unit _ _ _ _ error | .query _ _ _ error => error
  | .validated _ _ | .wanted _ _ _ _ | .stopped _ _ _ _ => none

/-- All that went wrong are errors of the clients, the apply path would put each of
    them off, and the dispatcher overlooks none.  Commands may be run as long as they
    succeed. -/
structure TransientOnly (acts : List Act) (events : List Event) : Prop where
  deferrable : ∀ act ∈ acts, ∀ err, act.error = some err → ∀ baseUrl op,
    (err.applyError baseUrl op).isDeferrable = true
  noticed : ∀ act ∈ acts, ∀ err, act.error = some err → err.overlooked = false
  routed : ∀ e message, .dispatched e (.error (.action message)) ∈ events → e.route ≠ none
  healthy : ∀ e err, .healthChecked e (.error err) ∈ events → err = .cancelled

theorem TransientOnly.left {acts acts' : List Act} {events events' : List Event}
    (h : TransientOnly (acts ++ acts') (events ++ events')) : TransientOnly acts events where
  deferrable act hact := h.deferrable act (List.mem_append_left _ hact)
  noticed act hact := h.noticed act (List.mem_append_left _ hact)
  routed e message he := h.routed e message (List.mem_append_left _ he)
  healthy e err he := h.healthy e err (List.mem_append_left _ he)

theorem TransientOnly.right {acts acts' : List Act} {events events' : List Event}
    (h : TransientOnly (acts ++ acts') (events ++ events')) : TransientOnly acts' events' where
  deferrable act hact := h.deferrable act (List.mem_append_right _ hact)
  noticed act hact := h.noticed act (List.mem_append_right _ hact)
  routed e message he := h.routed e message (List.mem_append_right _ he)
  healthy e err he := h.healthy e err (List.mem_append_right _ he)

@[simp] theorem error_actOf (e : DeferEntry) (init : InitSystem) (error : Option ClientError) :
    (e.actOf init error).error = error := by
  unfold DeferEntry.actOf
  cases e.action.unitOp <;> rfl

/-- What the dispatcher adds to the record, and that it takes no attempt for what
    it adds. -/
theorem dispatch_transient {V : Type} (client : RealDispatchClient V) (e : DeferEntry)
    (w : World V) : ∃ acts, (client.dispatch e w).2.record = w.record ++ acts ∧
      ∀ events, TransientOnly acts events → e.route ≠ none →
        ∀ message, (client.dispatch e w).1 ≠ .error (.action message) := by
  rcases client.dispatch_cases e w with ⟨hroute, -, hrecord⟩ | ⟨init, -, -, hrun⟩ |
    ⟨init, -, -, error, hanswer, hrecord⟩
  · exact ⟨[], by simpa using hrecord, fun _ _ hne => absurd hroute hne⟩
  · exact ⟨[], by simp [hrun], fun _ _ _ message => by simp [hrun]⟩
  · refine ⟨[e.actOf init error], hrecord, fun events h _ message => ?_⟩
    rw [hanswer]
    cases error with
    | none => simp [dispatchAnswer]
    | some err =>
      have hdefer := h.deferrable _ List.mem_cons_self err (error_actOf e init _)
      have hnoticed := h.noticed _ List.mem_cons_self err (error_actOf e init _)
      rw [((agree_iff err "" "").mpr hnoticed).mp (hdefer "" "")]
      simp

/-- One entry, in a cycle in which nothing else goes wrong. -/
theorem Reached.transient {V : Type} {backends : Backends V} {e : DeferEntry} {fate : Fate}
    {m m' : Machine (World V)} (h : Reached backends.replayArgs e fate m m') :
    ∃ acts, m'.world.record = m.world.record ++ acts ∧
      (TransientOnly acts (fate.events e) → fate.isFailure = false) := by
  obtain ⟨acts, hacts, hanswer⟩ := dispatch_transient backends.client e m.world
  refine ⟨acts, by rw [h.record, hacts], fun htransient => ?_⟩
  cases fate with
  | actionFailed message =>
    have hroute := htransient.routed e message List.mem_cons_self
    have hclient : Except.error (.action message) = (backends.client.dispatch e m.world).1 :=
      Option.some.inj h.answer
    exact absurd hclient.symm (hanswer _ htransient hroute message)
  | healthCheckFailed err =>
    have hcancelled := htransient.healthy e err (by simp [Fate.events])
    exact absurd hcancelled h.possible.2
  | _ => rfl

theorem cycle_transient {V : Type} (c : Cycle V) {m : Machine (World V)}
    (h : TransientOnly (c.acts m) (c.events m)) :
    Touched (fun _ => True) nothing nothing m.fs.dir (c.finish m).fs.dir := by
  have hinv := c.backends.replayArgs.replay_induction (fun m' => ∃ acts events,
    m'.world.record = m.world.record ++ acts ∧ m'.trace = m.trace ++ events ∧
    (TransientOnly acts events →
      Touched (fun _ => True) nothing nothing m.fs.dir m'.fs.dir)) ?_ ?_ (m := m) ?_
      ⟨[], [], by simp, by simp, fun _ => Touched.refl _⟩
  · obtain ⟨acts, events, hacts, hevents, htouched⟩ := hinv
    refine htouched ?_
    have hacts' : c.acts m = acts := by
      show List.drop _ (Cycle.finish c m).world.record = acts
      rw [show (Cycle.finish c m).world.record = _ from hacts, List.drop_left]
    have hevents' : c.events m = events := by
      show List.drop _ (Cycle.finish c m).trace = events
      rw [show (Cycle.finish c m).trace = _ from hevents, List.drop_left]
    rwa [hacts', hevents'] at h
  · rintro m' fs hdir ⟨acts, events, hacts, hevents, htouched⟩
    exact ⟨acts, events, hacts, hevents, fun h => hdir ▸ htouched h⟩
  · rintro m' world rfl ⟨acts, events, hacts, hevents, htouched⟩
    exact ⟨acts, events, hacts, hevents, htouched⟩
  · rintro e - report m' ⟨acts, events, hacts, hevents, htouched⟩
    obtain ⟨fate, hreached⟩ := c.backends.replayArgs.replayEntry_reached e report m'
    obtain ⟨acts', hacts', hfate⟩ := hreached.transient
    refine ⟨acts ++ acts', events ++ fate.events e, by rw [hacts', hacts, List.append_assoc],
      by rw [hreached.trace, hevents, List.append_assoc], fun h => ?_⟩
    have hnot := hfate h.right
    exact (htouched h.left).trans ((hreached.touched.executed hnot).mono (fun _ _ => trivial)
      (fun _ h => h) (fun _ h => h))

/-- **Transient faults cost no attempt**, apart from the overlooked ones.  On those
    the two ways of sorting disagree, on all others they agree; and in any run of
    cycles in which nothing worse goes wrong every file of the journal stays as it
    is or is removed, so no count of attempts goes up and nothing is quarantined. -/
theorem transient_faults {V : Type} (cycles : List (Cycle V)) (m : Machine (World V)) :
    (∀ (err : ClientError) (baseUrl op : String),
      ((err.applyError baseUrl op).isDeferrable = true ↔
        dispatchAnswer (some err) = .error .clientUnavailable) ↔ err.overlooked = false) ∧
    ((∀ c ∈ cycles, ∀ m, (c.meanwhile m).fs = m.fs) →
      (∀ step ∈ steps cycles m, TransientOnly (step.1.acts step.2) (step.1.events step.2)) →
      ∀ name, (runCycles cycles m).fs.dir.lookup name = m.fs.dir.lookup name ∨
        (runCycles cycles m).fs.dir.lookup name = none) := by
  refine ⟨agree_iff, fun hmeanwhile hsteps => ?_⟩
  have htouched := runCycles_induction
    (fun m' => Touched (fun _ => True) nothing nothing m.fs.dir m'.fs.dir) cycles (m := m)
    (fun c hc m' h => (hmeanwhile c hc m').symm ▸ h)
    (fun step hstep h => h.trans (cycle_transient step.1 (hsteps step hstep)))
    (Touched.refl _)
  intro name
  rcases htouched name (fun h => h) with heq | ⟨-, hnone⟩ | ⟨e, hnew, -⟩
  · exact .inl heq
  · exact .inr hnone
  · exact hnew.elim

/-- A cycle with a systemd that answers everything with `err`. -/
def cycleWith (err : SystemdError) : Cycle Nat :=
  ⟨⟨⟨none, some (SystemdHandle.failing err), Platform.quiet, Processes.bare⟩,
    fun _ v => (.ok (), v)⟩, fun m => m⟩

/-- A restart that is pending, on a disk without faults. -/
def pendingRestart : Machine (World Nat) :=
  ⟨onDisk (Journal.plainEntry "systemd" .restart "nginx"), ⟨0, []⟩, []⟩

theorem transientOnly_down : TransientOnly
    ((cycleWith (.busUnavailable "down")).acts pendingRestart)
    ((cycleWith (.busUnavailable "down")).events pendingRestart) := by
  have hacts : (cycleWith (.busUnavailable "down")).acts pendingRestart =
      [.unit (.replay (Journal.plainEntry "systemd" .restart "nginx")) .systemd .restart "nginx"
        (some (.systemd (.busUnavailable "down")))] := by decide
  have hevents : (cycleWith (.busUnavailable "down")).events pendingRestart =
      [.dispatched (Journal.plainEntry "systemd" .restart "nginx")
        (.error .clientUnavailable)] := rfl
  rw [hacts, hevents]
  refine ⟨?_, ?_, ?_, ?_⟩
  · intro act hact err herr baseUrl op
    obtain rfl := List.mem_singleton.mp hact
    obtain rfl := Option.some.inj herr
    rfl
  · intro act hact err herr
    obtain rfl := List.mem_singleton.mp hact
    obtain rfl := Option.some.inj herr
    rfl
  · intro e message he
    obtain ⟨rfl, -⟩ := Event.dispatched.inj (List.mem_singleton.mp he)
    decide
  · intro e err he
    cases List.mem_singleton.mp he

/-- A daemon that is down costs the restart nothing. -/
theorem transient_faults_nginx :
    ∀ name, (runCycles [cycleWith (.busUnavailable "down")] pendingRestart).fs.dir.lookup name =
        pendingRestart.fs.dir.lookup name ∨
      (runCycles [cycleWith (.busUnavailable "down")] pendingRestart).fs.dir.lookup name = none :=
  (transient_faults _ _).2 (fun c hc m => by
    rw [List.mem_singleton.mp hc]
    rfl) (fun step hstep => by
    rw [List.mem_singleton.mp hstep]
    exact transientOnly_down)

/-- Three timeouts, each of which the apply path would put off, and a restart is
    quarantined. -/
theorem timeouts_quarantine :
    (∀ op, (mapSystemdError (.timeout "120s") op).isDeferrable = true) ∧
    (runCycles [cycleWith (.timeout "120s"), cycleWith (.timeout "120s"),
      cycleWith (.timeout "120s")] pendingRestart).world.record.map Act.error =
        [some (.systemd (.timeout "120s")), some (.systemd (.timeout "120s")),
          some (.systemd (.timeout "120s"))] ∧
    (runCycles [cycleWith (.timeout "120s"), cycleWith (.timeout "120s"),
      cycleWith (.timeout "120s")] pendingRestart).fs.dir.lookup
        "0r-systemd.restart:nginx.deferred" = none ∧
    (runCycles [cycleWith (.timeout "120s"), cycleWith (.timeout "120s"),
      cycleWith (.timeout "120s")] pendingRestart).fs.dir.lookup
        "0r-systemd.restart:nginx.manual_clear" =
      some (.entry { Journal.plainEntry "systemd" .restart "nginx" with attemptCount := 3 }) := by
  refine ⟨fun _ => rfl, ?_, ?_, ?_⟩
  · decide
  · decide
  · decide

end Bosun
