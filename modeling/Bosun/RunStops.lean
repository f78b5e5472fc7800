import Bosun.Run
import Bosun.ServiceRuns

/-!
# Stops and what is still pending

A stop looks neither at the journal nor does it write to it: a restart that was
pending when the unit was stopped stays pending, and the next replay carries it
out.  That is how far it goes (`stops_inherited`): until some resource asks for
the unit to run again, nothing brings the unit up that was not pending at the
moment of the stop.

The invariant ties the journal to the record: `Quiet` picks the stops after which
nobody has asked for the unit, and `Inherited` says that whatever is pending or
was dispatched since then was pending already.
-/

namespace Bosun

/-! ## Stops on record -/

/-- Since a stop of the unit, at which `held` was pending, no resource has asked for
    the unit to run. -/
def Quiet (record : List Act) (init : InitSystem) (name : String) (held : List DeferEntry) :
    Prop :=
  ∃ before id after, record = before ++ .stopped id init name held :: after ∧
    ∀ id', .wanted id' init name .running ∉ after

/-- An element of a record that has grown stands in the old part or in the new one. -/
theorem split_append {α : Type} {old new before after : List α} {a : α}
    (h : old ++ new = before ++ a :: after) :
    (∃ mid, old = before ++ a :: mid ∧ after = mid ++ new) ∨
      ∃ mid, before = old ++ mid ∧ new = mid ++ a :: after := by
  rcases List.append_eq_append_iff.mp h with ⟨mid, hbefore, hnew⟩ | ⟨mid, hold, htail⟩
  · exact .inr ⟨mid, hbefore, hnew⟩
  · cases mid with
    | nil => exact .inr ⟨[], by simpa using hold.symm, by simpa using htail.symm⟩
    | cons b mid =>
      obtain ⟨rfl, hafter⟩ := List.cons.inj htail
      exact .inl ⟨mid, hold, hafter⟩

/-- More acts than the stop have gone on record since. -/
theorem Quiet.of_append {record acts : List Act} {init : InitSystem} {name : String}
    {held : List DeferEntry} (h : Quiet (record ++ acts) init name held)
    (hacts : ∀ id, .stopped id init name held ∉ acts) :
    Quiet record init name held ∧ ∀ id, .wanted id init name .running ∉ acts := by
  obtain ⟨before, id, after, heq, hafter⟩ := h
  rcases split_append heq with ⟨mid, hrecord, rfl⟩ | ⟨mid, -, hnew⟩
  · exact ⟨⟨before, id, mid, hrecord, fun id' hid' => hafter id' (List.mem_append_left _ hid')⟩,
      fun id' hid' => hafter id' (List.mem_append_right _ hid')⟩
  · exact absurd (hnew ▸ by simp) (hacts id)

/-- The entry would bring the unit up. -/
def DeferEntry.Revives (e : DeferEntry) (init : InitSystem) (name : String) : Prop :=
  e.initSystem = init.tag ∧ e.target = name ∧
    (e.action.unitOp = some .start ∨ e.action.unitOp = some .restart)

/-- The same entry, apart from the attempts it has cost. -/
def DeferEntry.SameAs (e p : DeferEntry) : Prop := ∃ n, e = { p with attemptCount := n }

theorem DeferEntry.sameAs_refl (e : DeferEntry) : e.SameAs e := ⟨e.attemptCount, rfl⟩

theorem DeferEntry.SameAs.bumped {e p : DeferEntry} (h : e.SameAs p) : e.bumped.SameAs p := by
  obtain ⟨n, rfl⟩ := h
  exact ⟨n.saturatingSucc, rfl⟩

/-- Every start and restart that a replay has sent out since a stop was pending at
    that stop. -/
def DispatchesInherited (record : List Act) : Prop :=
  ∀ before e init op name error after,
    record = before ++ .unit (.replay e) init op name error :: after →
    op = .start ∨ op = .restart → ∀ held, Quiet before init name held →
      ∃ p ∈ held, e.SameAs p

/-- What is pending since a stop was pending at that stop, and so was what has been
    dispatched. -/
structure Inherited {V : Type} (m : Machine (World V)) : Prop where
  pending : ∀ init name held, Quiet m.world.record init name held →
    ∀ e ∈ Journal.pending m.fs.dir, e.Revives init name → ∃ p ∈ held, e.SameAs p
  dispatched : DispatchesInherited m.world.record

variable {V : Type}

/-- Acts that are no dispatches. -/
theorem DispatchesInherited.append {record acts : List Act} (h : DispatchesInherited record)
    (hacts : ∀ e init op name error, .unit (.replay e) init op name error ∉ acts) :
    DispatchesInherited (record ++ acts) := by
  intro before e init op name error after heq hop held hquiet
  rcases split_append heq with ⟨mid, hrecord, -⟩ | ⟨mid, -, hnew⟩
  · exact h before e init op name error mid hrecord hop held hquiet
  · exact absurd (hnew ▸ by simp) (hacts e init op name error)

/-- A dispatch of something pending. -/
theorem DispatchesInherited.dispatch {record : List Act} (h : DispatchesInherited record)
    {e : DeferEntry} {init : InitSystem} (hroute : e.initSystem = init.tag)
    (error : Option ClientError)
    (hpending : ∀ held, Quiet record init e.target held → e.Revives init e.target →
      ∃ p ∈ held, e.SameAs p) :
    DispatchesInherited (record ++ [e.actOf init error]) := by
  intro before e' init' op name error' after heq hop held hquiet
  rcases split_append heq with ⟨mid, hrecord, -⟩ | ⟨mid, hbefore, hnew⟩
  · exact h before e' init' op name error' mid hrecord hop held hquiet
  · obtain ⟨rfl, hact, -⟩ : mid = [] ∧ e.actOf init error = _ ∧ after = [] := by
      cases mid with
      | nil => simpa using hnew
      | cons act mid => simp at hnew
    rw [List.append_nil] at hbefore
    unfold DeferEntry.actOf at hact
    cases hunitOp : e.action.unitOp with
    | none => simp [hunitOp] at hact
    | some op' =>
      simp only [hunitOp, Act.unit.injEq, Caller.replay.injEq] at hact
      obtain ⟨rfl, rfl, rfl, rfl, -⟩ := hact
      refine hpending held (hbefore ▸ hquiet) ⟨hroute, rfl, ?_⟩
      rw [hunitOp]
      exact hop.imp (congrArg some) (congrArg some)

/-! ## What a run does to it -/

namespace Inherited

/-- Acts that neither stop a unit nor are dispatches. -/
theorem append {m m' : Machine (World V)} (h : Inherited m) {acts : List Act}
    (hfs : m'.fs = m.fs) (hrecord : m'.world.record = m.world.record ++ acts)
    (hstops : ∀ id init name held, .stopped id init name held ∉ acts)
    (hunits : ∀ e init op name error, .unit (.replay e) init op name error ∉ acts) :
    Inherited m' where
  pending init name held hquiet e he hrevives := by
    rw [hrecord] at hquiet
    rw [hfs] at he
    exact h.pending init name held (hquiet.of_append fun id => hstops id init name held).1 e he
      hrevives
  dispatched := by
    rw [hrecord]
    exact h.dispatched.append hunits

/-- A change of the journal that brings in nothing that revives a unit. -/
theorem touched {m m' : Machine (World V)} (h : Inherited m)
    (hrecord : m'.world.record = m.world.record)
    (hpending : ∀ e ∈ Journal.pending m'.fs.dir, e ∈ Journal.pending m.fs.dir ∨
      ∀ init name held, Quiet m.world.record init name held → e.Revives init name →
        ∃ p ∈ held, e.SameAs p) : Inherited m' where
  pending init name held hquiet e he hrevives := by
    rw [hrecord] at hquiet
    rcases hpending e he with hold | hnew
    · exact h.pending init name held hquiet e hold hrevives
    · exact hnew init name held hquiet hrevives
  dispatched := hrecord.symm ▸ h.dispatched

/-- A stop hands down what is pending. -/
theorem stop {m m' : Machine (World V)} (h : Inherited m) (id : ResourceId) (init : InitSystem)
    (name : String) (hfs : m'.fs = m.fs) (hrecord : m'.world.record = m.world.record ++
      [.stopped id init name (Journal.pending m.fs.dir)]) : Inherited m' where
  pending init' name' held hquiet e he hrevives := by
    rw [hfs] at he
    rw [hrecord] at hquiet
    by_cases hheld : held = Journal.pending m.fs.dir
    · exact ⟨e, hheld ▸ he, e.sameAs_refl⟩
    · refine h.pending init' name' held (hquiet.of_append fun id' hid' => ?_).1 e he hrevives
      simp only [List.mem_singleton, Act.stopped.injEq] at hid'
      exact hheld hid'.2.2.2
  dispatched := by
    rw [hrecord]
    exact h.dispatched.append fun e init op name error => by simp

end Inherited

theorem Act.By.not_stopped {id id' : ResourceId} {init : InitSystem} {name : String}
    {held : List DeferEntry} : ¬ Act.By id (.stopped id' init name held) := fun h => h

theorem Act.By.not_replay {id : ResourceId} {e : DeferEntry} {init : InitSystem} {op : UnitOp}
    {name : String} {error : Option ClientError} :
    ¬ Act.By id (.unit (.replay e) init op name error) := fun h => h

theorem Inherited.consulted {s s' : RunState V} {id : ResourceId} {acts : List Act}
    (h : Inherited s.machine) (hconsulted : Consulted id s s' acts) : Inherited s'.machine :=
  h.append hconsulted.fs hconsulted.record
    (fun _ _ _ _ hmem => Act.By.not_stopped (hconsulted.own _ hmem))
    (fun _ _ _ _ _ hmem => Act.By.not_replay (hconsulted.own _ hmem))

theorem InitSystem.tag_inj {init init' : InitSystem} (h : init.tag = init'.tag) :
    init = init' := by
  cases init <;> cases init' <;> simp [tag] at h ⊢

/-- After a service has asked for its unit to run, there is no stop left. -/
theorem not_quiet_want {s t : RunState V} {id : ResourceId} {init : InitSystem}
    {spec : ServiceSpec} {acts : List Act} (hstate : spec.state = .running)
    (h : Consulted id (s.want id init spec) t acts) (held : List DeferEntry) :
    ¬ Quiet t.machine.world.record init spec.name held := by
  intro hquiet
  rw [h.record] at hquiet
  have hwant := (hquiet.of_append fun id' hmem => Act.By.not_stopped (h.own _ hmem)).1
  refine (hwant.of_append (by simp)).2 id ?_
  rw [hstate]
  exact List.mem_singleton.mpr rfl

theorem Inherited.turn {s s' : RunState V} {id : ResourceId} {init : InitSystem}
    {spec : ServiceSpec} (h : Inherited s.machine)
    (hturn : Turn id init spec (s.want id init spec) s') : Inherited s'.machine := by
  have hwant : Inherited (s.want id init spec).machine :=
    h.append rfl rfl (by simp) (by simp)
  cases hturn with
  | consulted hconsulted => exact hwant.consulted hconsulted
  | stopped hstate hconsulted hfs hrecord =>
    exact (hwant.consulted hconsulted).stop id init spec.name hfs hrecord
  | @enqueued acts t e hstate hconsulted he hoffered =>
    refine (hwant.consulted hconsulted).touched hoffered.record fun q hq => ?_
    refine (Journal.mem_pending_of_touched hoffered.touched
      (fun name hname => hname.not_isDeferred) hq).imp (fun hq => hq) ?_
    rintro rfl init' name held hquiet ⟨htag, htarget, -⟩
    obtain ⟨action, priority, sources, now, rfl, -⟩ := he
    obtain rfl := InitSystem.tag_inj htag
    obtain rfl : spec.name = name := htarget
    exact absurd hquiet (not_quiet_want hstate hconsulted held)

theorem Inherited.signalled {s s' : RunState V} {id : ResourceId} (h : Inherited s.machine)
    (hsignalled : SignalEnv.Signalled id s s') : Inherited s'.machine := by
  rcases hsignalled with hconsulted | ⟨spec, argv, now, hoffered⟩
  · exact h.consulted hconsulted
  · refine h.touched hoffered.record fun q hq => ?_
    refine (Journal.mem_pending_of_touched hoffered.touched
      (fun name hname => hname.not_isDeferred) hq).imp (fun hq => hq) ?_
    rintro rfl init name held - ⟨-, -, hop⟩
    simp [SignalEnv.signalEntry, DeferAction.unitOp] at hop

/-! ## Whole runs -/

/-- A replay sends out nothing but what was pending at its beginning. -/
theorem Inherited.replay {P : Type} (run : RunArgs P V) {m : Machine (World V)}
    (h : Inherited m) : Inherited (run.replay m) := by
  have hinv := run.backends.replayArgs.replay_induction (fun m' => Inherited m' ∧ ∃ acts,
    m'.world.record = m.world.record ++ acts ∧
    ∀ id init name held, .stopped id init name held ∉ acts) ?_ ?_ (m := m) ?_
    ⟨h, [], by simp, by simp⟩
  · exact hinv.1
  · rintro m' fs hdir ⟨hm', acts, hrecord, hacts⟩
    exact ⟨hm'.touched rfl fun e he => .inl (hdir ▸ he), acts, hrecord, hacts⟩
  · rintro m' world rfl ⟨hm', acts, hrecord, hacts⟩
    exact ⟨hm'.touched rfl fun e he => .inl he, acts, hrecord, hacts⟩
  · rintro e he report m' ⟨hm', acts, hrecord, hacts⟩
    obtain ⟨fate, hreached⟩ := run.backends.replayArgs.replayEntry_reached e report m'
    obtain ⟨hdispatch, hcases⟩ := run.backends.client.record_dispatch e m'.world
    have hnow := hreached.record.trans hdispatch
    have hnostop : ∀ id init name held,
        .stopped id init name held ∉ run.backends.client.actsOf e m'.world := by
      intro id init name held hmem
      rcases hcases with ⟨hnil, -⟩ | ⟨init', error, -, -, hone⟩
      · simp [hnil] at hmem
      · rw [hone, List.mem_singleton] at hmem
        unfold DeferEntry.actOf at hmem
        cases hop : e.action.unitOp <;> simp [hop] at hmem
    have hscratch : ∀ file, Journal.Staging e file ∨ file = e.manualClearFilename →
        Journal.isDeferred file = false := by
      rintro file (hstaging | rfl)
      · exact hstaging.not_isDeferred
      · exact Journal.not_isDeferred_manualClearFilename e
    -- the entry was pending at the beginning, and nothing has been stopped since
    have hinherits : ∀ init name held, Quiet m'.world.record init name held →
        e.Revives init name → ∃ p ∈ held, e.SameAs p := by
      intro init name held hquiet hrevives
      rw [hrecord] at hquiet
      exact h.pending init name held (hquiet.of_append fun id => hacts id init name held).1 e he
        hrevives
    refine ⟨⟨?_, ?_⟩, acts ++ run.backends.client.actsOf e m'.world, ?_, ?_⟩
    · intro init name held hquiet q hq hrevives
      rw [hnow] at hquiet
      have hbefore := (hquiet.of_append fun id => hnostop id init name held).1
      rcases Journal.mem_pending_of_touched hreached.touched.failed hscratch hq with hold | rfl
      · exact hm'.pending init name held hbefore q hold hrevives
      · obtain ⟨p, hp, hsame⟩ := hinherits init name held hbefore hrevives
        exact ⟨p, hp, hsame.bumped⟩
    · rw [hnow]
      rcases hcases with ⟨hnil, -⟩ | ⟨init, error, hroute, -, hone⟩
      · rw [hnil, List.append_nil]
        exact hm'.dispatched
      · rw [hone]
        exact hm'.dispatched.dispatch (DeferEntry.initSystem_of_route hroute) error
          (hinherits init e.target)
    · rw [hnow, hrecord, List.append_assoc]
    · intro id init name held hmem
      exact (List.mem_append.mp hmem).elim (hacts id init name held) (hnostop id init name held)

theorem Inherited.outside {m : Machine (World V)} (h : Inherited m) (v : V) :
    Inherited { m with world := { m.world with outside := v } } :=
  h.touched rfl fun _ he => .inl he

/-- One run: replay, apply, replay. -/
theorem Inherited.run {P : Type} (run : RunArgs P V) {m : Machine (World V)} (h : Inherited m) :
    Inherited (run.finish m) := by
  have hprepared : Inherited (run.prepare m).2 := (h.replay run).outside _
  rcases RunArgs.applies_or m with hend | ⟨registry, order, m₁, happlies⟩
  · rw [hend]
    exact hprepared
  · rw [happlies.finish_eq]
    refine Inherited.replay run ?_
    refine (run.keeps registry (fun ctx => Inherited ctx.state.machine) ?_ ?_ ?_ ?_).loop _ _ order
      (s := .start (RunArgs.applyCtx m₁)) ?_
    · exact fun ctx v h => h.outside v
    · exact fun ctx ids h => h
    · intro init r diff ctx h
      rcases (run.services.apply_cases init r diff ctx).2 with hsame | ⟨spec, -, hturn⟩
      · rw [hsame]
        exact h
      · exact h.turn hturn
    · intro r diff ctx h
      exact h.signalled (run.signals.apply_cases _ _ r diff ctx).2
    · rw [happlies.prepared] at hprepared
      exact hprepared

/-- **What a stop holds against.**  Over any journal, any disk and any runs: every
    start and restart that a replay sends out after a unit was stopped, and before
    some resource has asked for the unit to run again, is of an entry that was
    pending when the unit was stopped. -/
theorem stops_inherited {P : Type} (runs : List (RunArgs P V)) (fs : Fs) (v : V) :
    DispatchesInherited (runAll runs ⟨fs, ⟨v, []⟩, []⟩).world.record := by
  have hstart : Inherited (⟨fs, ⟨v, []⟩, []⟩ : Machine (World V)) := by
    refine ⟨?_, ?_⟩
    · rintro init name held ⟨before, id, after, heq, -⟩
      simp at heq
    · intro before e init op name error after heq
      simp at heq
  exact (runSteps_induction Inherited runs (fun run m h => h.run run) hstart).2.dispatched

/-- A stop that wins: nothing brings the unit up before some resource has asked for it. -/
def StopWins (record : List Act) : Prop :=
  ∀ before e init op name error after,
    record = before ++ .unit (.replay e) init op name error :: after →
    op = .start ∨ op = .restart → ∀ held, ¬ Quiet before init name held

/-- A systemd that cannot be reached the first time it is to restart a unit. -/
def lateSystemd : SystemdHandle Nat :=
  { SystemdHandle.obedient with
    restartUnit := fun _ v => if v = 0 then (.error (.busUnavailable "down"), 1) else (.ok (), v) }

/-- A run in which nginx is to be stopped. -/
def stopNginx : RunArgs ServiceSpec Nat :=
  .plain (some lateSystemd)
    { resources := [⟨⟨"systemd.service:nginx"⟩, ⟨"systemd.service"⟩, 1,
        ⟨"nginx", .stopped, false, none, none⟩, [], [], []⟩]
      nodup := by decide }

/-- The restart of an earlier run fails before the stop and succeeds after it. -/
theorem stale_restart_wins :
    ¬ StopWins (runAll [stopNginx] ⟨onDisk (Journal.plainEntry "systemd" .restart "nginx"),
      ⟨0, []⟩, []⟩).world.record := by
  have hrecord : (runAll [stopNginx] ⟨onDisk (Journal.plainEntry "systemd" .restart "nginx"),
      ⟨0, []⟩, []⟩).world.record =
      [.unit (.replay (Journal.plainEntry "systemd" .restart "nginx")) .systemd .restart "nginx"
          (some (.systemd (.busUnavailable "down"))),
        .wanted ⟨"systemd.service:nginx"⟩ .systemd "nginx" .stopped,
        .query (.apply ⟨"systemd.service:nginx"⟩) .systemd .needsDaemonReload none,
        .query (.apply ⟨"systemd.service:nginx"⟩) .systemd .unitInfo none,
        .unit (.apply ⟨"systemd.service:nginx"⟩) .systemd .stop "nginx" none] ++
      [.stopped ⟨"systemd.service:nginx"⟩ .systemd "nginx"
        [Journal.plainEntry "systemd" .restart "nginx"]] ++
      .unit (.replay (Journal.plainEntry "systemd" .restart "nginx")) .systemd .restart "nginx"
        none :: [] := by decide
  intro hwins
  refine hwins _ _ _ _ _ _ _ hrecord (.inr rfl)
    [Journal.plainEntry "systemd" .restart "nginx"] ?_
  exact ⟨_, _, [], rfl, fun _ => List.not_mem_nil⟩

end Bosun
