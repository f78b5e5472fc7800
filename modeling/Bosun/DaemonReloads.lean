import Bosun.ApplyCalls
import Bosun.Run

/-!
# Reloads of the daemons

Both service primitives have their daemon read its unit files again, once in a
run, and remember it in a flag.  `runr.service` sets the flag before it asks, and
takes it back only when the daemon could not be reached: after any other error
the run goes on as if the reload had been made (`reloads_first_iff`).
`systemd.service` asks first whether the unit needs one, and takes the flag back
after every error; but once it is set, a unit file that changes later in the run
is not looked at any more (`fresh_or_changed_since_reload`).
-/

namespace Bosun

variable {P V : Type}

/-! ## The flags -/

/-- The flag of an init system. -/
def RunState.daemonReloadDone (init : InitSystem) (s : RunState V) : Bool :=
  match init with
  | .runr => s.runrDaemonReloadDone
  | .systemd => s.systemdDaemonReloadDone

namespace Act

/-- The apply of a resource asked this daemon to reload. -/
def Reloads (init : InitSystem) (act : Act) : Prop :=
  ∃ id error, act = query (.apply id) init .daemonReload error

/-- The apply of a resource made a call of this init system. -/
def Of (init : InitSystem) (act : Act) : Prop :=
  (∃ id what error, act = query (.apply id) init what error) ∨
    ∃ id op name error, act = unit (.apply id) init op name error

end Act

/-- Between `s` and `s'` the flag stayed as it was, and no act of this sort went on
    record. -/
structure Aside (ban : Act → Prop) (init : InitSystem) (s s' : RunState V) : Prop where
  flag : s'.daemonReloadDone init = s.daemonReloadDone init
  record : ∃ acts, s'.machine.world.record = s.machine.world.record ++ acts ∧
    ∀ act ∈ acts, ¬ ban act

namespace Aside

variable {ban : Act → Prop} {init : InitSystem} {s s' s'' : RunState V}

theorem refl (s : RunState V) : Aside ban init s s := ⟨rfl, [], by simp, by simp⟩

theorem trans (h : Aside ban init s s') (h' : Aside ban init s' s'') :
    Aside ban init s s'' := by
  obtain ⟨acts, hrecord, hacts⟩ := h.record
  obtain ⟨acts', hrecord', hacts'⟩ := h'.record
  refine ⟨h'.flag.trans h.flag, acts ++ acts', by rw [hrecord', hrecord, List.append_assoc], ?_⟩
  intro act hact
  exact (List.mem_append.mp hact).elim (hacts act) (hacts' act)

end Aside

/-- However `x` ends, it stays aside. -/
def StaysAside {α : Type} (ban : Act → Prop) (init : InitSystem) (x : ApplyM V α) : Prop :=
  Leaves x (Aside ban init)

namespace StaysAside

variable {α β ε : Type} {ban : Act → Prop} {init : InitSystem}

theorem ret (a : α) : StaysAside ban init (pure a : ApplyM V α) := Leaves.ret .refl a

theorem raise (err : PrimitiveError) : StaysAside ban init (throw err : ApplyM V α) :=
  Leaves.raise .refl err

theorem bind {x : ApplyM V α} {f : α → ApplyM V β} (hx : StaysAside ban init x)
    (hf : ∀ a, StaysAside ban init (f a)) : StaysAside ban init (x >>= f) :=
  Leaves.bind (fun _ _ _ => Aside.trans) hx hf

theorem orThrow (f : ε → PrimitiveError) (answer : Except ε α) :
    StaysAside ban init (ApplyM.orThrow f answer : ApplyM V α) := by
  cases answer with
  | ok a => exact ret a
  | error err => exact raise (f err)

theorem read {f : RunState V → ApplyM V β} (hf : ∀ s, StaysAside ban init (f s)) :
    StaysAside ban init (get >>= f) :=
  bind (Leaves.read .refl) hf

theorem ask {act : Option ε → Act} (call : ClientCall V ε α) (hact : ∀ error, ¬ ban (act error)) :
    StaysAside ban init (ApplyM.ask (World.ask act call)) := by
  intro s s₀ hs
  obtain rfl : s₀ = s := hs
  exact ⟨by cases init <;> rfl, _, rfl, by simpa using hact _⟩

theorem outside (call : V → α × V) : StaysAside ban init (ApplyM.outside call) := by
  intro s s₀ hs
  obtain rfl : s₀ = s := hs
  exact ⟨by cases init <;> rfl, [], by simp [RunState.setWorld], by simp⟩

theorem journal (x : FsM α) :
    StaysAside ban init (ApplyM.journal x : ApplyM V (Except DeferError α)) := by
  intro s s₀ hs
  obtain rfl : s₀ = s := hs
  have hworld := Machine.world_journal x s₀.machine
  refine ⟨by cases init <;> rfl, [], ?_, by simp⟩
  rw [List.append_nil]
  exact congrArg World.record hworld

theorem note {acts : List Act} (hacts : ∀ act ∈ acts, ¬ ban act) :
    StaysAside ban init (ApplyM.note acts : ApplyM V Unit) :=
  Leaves.write fun _ => ⟨by cases init <;> rfl, acts, rfl, hacts⟩

/-- A write that touches neither the machine nor the flag. -/
theorem write {f : RunState V → RunState V} (hmachine : ∀ s, (f s).machine = s.machine)
    (hflag : ∀ s, (f s).daemonReloadDone init = s.daemonReloadDone init) :
    StaysAside ban init (modify f : ApplyM V Unit) :=
  Leaves.write fun s => ⟨hflag s, [], by rw [hmachine]; simp, by simp⟩

/-- The state is looked at and replaced by one with the same machine and flag. -/
theorem replace {f : RunState V → RunState V} {k : RunState V → ApplyM V β}
    (hmachine : ∀ s, (f s).machine = s.machine)
    (hflag : ∀ s, (f s).daemonReloadDone init = s.daemonReloadDone init)
    (hk : ∀ s, StaysAside ban init (k s)) :
    StaysAside ban init (do let s ← get; set (f s); k s) := by
  intro s
  have hstep : Aside ban init s (f s) := ⟨hflag s, [], by rw [hmachine]; simp, by simp⟩
  exact Triple.replace ((hk s (f s)).conseq (fun _ hs => hs) (fun _ _ => hstep.trans)
    (fun _ _ => hstep.trans))

end StaysAside

/-- A call, with all that it changes of the state of the run but the outside. -/
theorem triple_asked {α ε : Type} {act : Option ε → Act} (call : ClientCall V ε α)
    (s : RunState V) {E : PrimitiveError → RunState V → Prop} :
    Triple (· = s) (ApplyM.ask (World.ask act call))
      (fun answer s' => s'.machine.world.record =
          s.machine.world.record ++ [act (errorOf answer)] ∧
        s'.runrDaemonReloadDone = s.runrDaemonReloadDone ∧
        s'.systemdDaemonReloadDone = s.systemdDaemonReloadDone) E := by
  intro s₀ hs
  obtain rfl : s₀ = s := hs
  exact ⟨rfl, rfl, rfl⟩

/-- No call of `init` but its reload is of this sort. -/
structure Elsewhere (ban : Act → Prop) (init : InitSystem) : Prop where
  query : ∀ id what error, what ≠ .daemonReload → ¬ ban (.query (.apply id) init what error)
  unit : ∀ id op name error, ¬ ban (.unit (.apply id) init op name error)
  validated : ∀ argv passed, ¬ ban (.validated argv passed)
  wanted : ∀ id init name state, ¬ ban (.wanted id init name state)
  stopped : ∀ id init name pending, ¬ ban (.stopped id init name pending)

theorem elsewhere_reloads (init init' : InitSystem) : Elsewhere (Act.Reloads init) init' where
  query _ _ _ hwhat := by
    rintro ⟨_, _, h⟩
    exact hwhat (by simpa using (Act.query.inj h).2.2.1)
  unit _ _ _ _ := by rintro ⟨_, _, h⟩; cases h
  validated _ _ := by rintro ⟨_, _, h⟩; cases h
  wanted _ _ _ _ := by rintro ⟨_, _, h⟩; cases h
  stopped _ _ _ _ := by rintro ⟨_, _, h⟩; cases h

theorem elsewhere_of {init init' : InitSystem} (hne : init ≠ init') :
    Elsewhere (Act.Of init) init' where
  query _ _ _ _ := by
    rintro (⟨_, _, _, h⟩ | ⟨_, _, _, _, h⟩)
    · exact hne (Act.query.inj h).2.1.symm
    · cases h
  unit _ _ _ _ := by
    rintro (⟨_, _, _, h⟩ | ⟨_, _, _, _, h⟩)
    · cases h
    · exact hne (Act.unit.inj h).2.1.symm
  validated _ _ := by rintro (⟨_, _, _, h⟩ | ⟨_, _, _, _, h⟩) <;> cases h
  wanted _ _ _ _ := by rintro (⟨_, _, _, h⟩ | ⟨_, _, _, _, h⟩) <;> cases h
  stopped _ _ _ _ := by rintro (⟨_, _, _, h⟩ | ⟨_, _, _, _, h⟩) <;> cases h

namespace ServiceEnv

variable (env : ServiceEnv P V) {ban : Act → Prop} {init : InitSystem}

/-! ## What comes after the reload -/

section Rest

variable {init' : InitSystem} (hban : Elsewhere ban init')
include hban

theorem aside_runValidate (spec : ServiceSpec) :
    StaysAside ban init (env.runValidateIfConfigured spec) := by
  unfold runValidateIfConfigured
  split
  · exact .ret ()
  · exact .ret ()
  · refine .bind (.outside _) fun answer => .bind (.note ?_) fun _ => .orThrow _ answer
    simpa using hban.validated _ _

omit hban in
theorem aside_runHealthCheck (spec : ServiceSpec) :
    StaysAside ban init (env.runHealthCheckIfConfigured spec) := by
  unfold runHealthCheckIfConfigured
  split
  · exact .ret ()
  · refine .bind (.outside _) fun verdict => ?_
    split
    · exact .ret ()
    · exact .raise _
    · exact .raise _

omit hban in
theorem aside_enqueueDefer (initOf : InitSystem) (spec : ServiceSpec) (action : DeferAction)
    (priority : DeferPriority) (sources : List String) :
    StaysAside ban init (env.enqueueDefer initOf spec action priority sources) :=
  .read fun _ => .bind (.journal _) fun answer => .bind (.orThrow _ answer) fun _ => .ret _

theorem aside_noteStopped (id : ResourceId) (initOf : InitSystem) (name : String) :
    StaysAside ban init (ApplyM.noteStopped id initOf name : ApplyM V Unit) :=
  Leaves.write fun _ => ⟨by cases init <;> rfl, _, rfl, by simpa using hban.stopped _ _ _ _⟩

theorem aside_performAction (id : ResourceId) (initOf : InitSystem) (spec : ServiceSpec)
    (action : ServiceAction) (sources : List String) {start stop : ApplyM V ChangeReport}
    (hstart : StaysAside ban init start) (hstop : StaysAside ban init stop) :
    StaysAside ban init (env.performAction id initOf spec action sources start stop) := by
  have hvalidate : StaysAside ban init (env.runValidateIfConfigured spec) :=
    env.aside_runValidate hban spec
  unfold performAction
  cases action with
  | noChange =>
    dsimp only
    split
    · exact .bind (aside_noteStopped hban id initOf spec.name) fun _ => .ret _
    · exact .ret _
  | start =>
    exact .bind hstart fun report => .bind (env.aside_runHealthCheck spec) fun _ => .ret report
  | stop =>
    exact .bind hstop fun report => .bind (aside_noteStopped hban id initOf spec.name)
      fun _ => .ret report
  | restart => exact .bind hvalidate fun _ => env.aside_enqueueDefer _ spec _ _ _
  | reload => exact .bind hvalidate fun _ => env.aside_enqueueDefer _ spec _ _ _

end Rest

section Runr

variable (hban : Elsewhere ban .runr)
include hban

theorem aside_runrExecuteStart (id : ResourceId) (runr : RunrHandle V) (spec : ServiceSpec) :
    StaysAside ban init (runrExecuteStart id runr spec) := by
  refine .bind (.ask _ fun _ => hban.unit _ _ _ _) fun started =>
    .bind (.orThrow _ started) fun _ => ?_
  refine .bind (.ask _ fun _ => hban.query _ _ _ (by decide)) fun verified => ?_
  exact .bind (.orThrow _ verified) fun _ => .ret _

theorem aside_runrExecuteStop (id : ResourceId) (runr : RunrHandle V) (spec : ServiceSpec) :
    StaysAside ban init (runrExecuteStop id runr spec) :=
  .bind (.ask _ fun _ => hban.unit _ _ _ _) fun stopped =>
    .bind (.orThrow _ stopped) fun _ => .ret _

end Runr

section Systemd

variable (hban : Elsewhere ban .systemd)
include hban

theorem aside_systemdExecuteStart (id : ResourceId) (systemd : SystemdHandle V)
    (spec : ServiceSpec) (before : Option UnitInfo) :
    StaysAside ban init (systemdExecuteStart id systemd spec before) := by
  refine .bind (.ask _ fun _ => hban.unit _ _ _ _) fun started =>
    .bind (.orThrow _ started) fun _ => ?_
  refine .bind (.ask _ fun _ => hban.query _ _ _ (by decide)) fun answer => ?_
  exact .bind (.orThrow _ answer) fun after => .bind (.orThrow _ _) fun _ => .ret _

theorem aside_systemdExecuteStop (id : ResourceId) (systemd : SystemdHandle V)
    (spec : ServiceSpec) : StaysAside ban init (systemdExecuteStop id systemd spec) :=
  .bind (.ask _ fun _ => hban.unit _ _ _ _) fun stopped =>
    .bind (.orThrow _ stopped) fun _ => .ret _

theorem aside_systemdEnable (id : ResourceId) (systemd : SystemdHandle V) (spec : ServiceSpec) :
    StaysAside ban init (systemdEnable id systemd spec) := by
  unfold systemdEnable
  split
  · refine .bind (.ask _ fun _ => hban.query _ _ _ (by decide)) fun answer =>
      .bind (.orThrow _ answer) fun enabled => ?_
    split
    · exact .bind (.ask _ fun _ => hban.query _ _ _ (by decide)) fun answer => .orThrow _ answer
    · exact .ret ()
  · exact .ret ()

end Systemd

end ServiceEnv

/-! ## The record of a reload -/

/-- A reload of this daemon, made for a resource, has succeeded. -/
def Reloaded (init : InitSystem) (acts : List Act) : Prop :=
  ∃ id, .query (.apply id) init .daemonReload none ∈ acts

def RunrError.isUnavailable : RunrError → Bool
  | unavailable _ _ => true
  | _ => false

/-- runr could be reached, and would not reload. -/
def Overlooked (acts : List Act) : Prop :=
  ∃ id err, err.isUnavailable = false ∧
    .query (.apply id) .runr .daemonReload (some (.runr err)) ∈ acts

/-- What the apply of a `runr.service` asks once it is past the reload: the states of
    the services first, then whatever its action needs. -/
def Act.PastReload (act : Act) : Prop := act.Of .runr ∧ ¬ act.Reloads .runr

section Record

variable {init : InitSystem} {acts more : List Act}

theorem reloaded_append :
    Reloaded init (acts ++ more) ↔ Reloaded init acts ∨ Reloaded init more := by
  simp [Reloaded, exists_or]

theorem overlooked_append : Overlooked (acts ++ more) ↔ Overlooked acts ∨ Overlooked more := by
  simp only [Overlooked, List.mem_append]
  constructor
  · rintro ⟨id, err, herr, hmem | hmem⟩
    · exact .inl ⟨id, err, herr, hmem⟩
    · exact .inr ⟨id, err, herr, hmem⟩
  · rintro (⟨id, err, herr, hmem⟩ | ⟨id, err, herr, hmem⟩)
    · exact ⟨id, err, herr, .inl hmem⟩
    · exact ⟨id, err, herr, .inr hmem⟩

theorem reloaded_singleton (id : ResourceId) (error : Option RunrError) :
    Reloaded .runr [.query (.apply id) .runr .daemonReload (error.map .runr)] ↔ error = none := by
  cases error <;> simp [Reloaded]

theorem overlooked_singleton (id : ResourceId) (error : Option RunrError) :
    Overlooked [.query (.apply id) .runr .daemonReload (error.map .runr)] ↔
      ∃ err, error = some err ∧ err.isUnavailable = false := by
  cases error with
  | none => simp [Overlooked]
  | some err => simp [Overlooked, and_comm]

theorem not_reloaded_of_aside (h : ∀ act ∈ more, ¬ act.Reloads init) : ¬ Reloaded init more :=
  fun ⟨id, hmem⟩ => h _ hmem ⟨id, none, rfl⟩

theorem not_overlooked_of_aside (h : ∀ act ∈ more, ¬ act.Reloads .runr) : ¬ Overlooked more :=
  fun ⟨id, _, _, hmem⟩ => h _ hmem ⟨id, _, rfl⟩

theorem Act.Reloads.of {act : Act} (h : act.Reloads init) : act.Of init := by
  obtain ⟨id, error, rfl⟩ := h
  exact .inl ⟨id, _, error, rfl⟩

/-- A beginning of a record that was added to. -/
theorem prefix_append_cases {before : List Act} {act : Act} (h : before ++ [act] <+: acts ++ more) :
    before ++ [act] <+: acts ∨ (acts <+: before ∧ act ∈ more) := by
  rcases List.prefix_or_prefix_of_prefix h (List.prefix_append acts more) with hin | hout
  · exact .inl hin
  · rcases List.prefix_concat_iff.mp hout with rfl | hbefore
    · exact .inl List.prefix_rfl
    · obtain ⟨rest, rfl⟩ := hbefore
      rw [List.append_assoc, List.prefix_append_right_inj] at h
      exact .inr ⟨List.prefix_append _ _, h.subset (by simp)⟩

end Record

/-- The acts of a run so far, and the flag of runr. -/
structure ReloadLog (acts : List Act) (done : Bool) : Prop where
  done : done = true ↔ Reloaded .runr acts ∨ Overlooked acts
  once : Reloaded .runr acts → ¬ Overlooked acts
  past : ∀ before act, before ++ [act] <+: acts → act.PastReload →
    Reloaded .runr before ∨ Overlooked before

namespace ReloadLog

variable {acts more : List Act} {done : Bool}

theorem nil : ReloadLog [] false where
  done := by simp [Reloaded, Overlooked]
  once := by simp [Overlooked]
  past before act h := by simp at h

theorem mono {before : List Act} (hbefore : acts <+: before)
    (h : Reloaded .runr acts ∨ Overlooked acts) : Reloaded .runr before ∨ Overlooked before := by
  rcases h with ⟨id, hmem⟩ | ⟨id, err, herr, hmem⟩
  · exact .inl ⟨id, hbefore.subset hmem⟩
  · exact .inr ⟨id, err, herr, hbefore.subset hmem⟩

/-- Acts that are not about a reload. -/
theorem aside (h : ReloadLog acts done) (hmore : ∀ act ∈ more, ¬ act.Reloads .runr)
    (hpast : ∀ act ∈ more, act.PastReload → done = true) : ReloadLog (acts ++ more) done where
  done := by
    rw [reloaded_append, overlooked_append, h.done]
    simp [not_reloaded_of_aside hmore, not_overlooked_of_aside hmore]
  once := by
    rw [reloaded_append, overlooked_append]
    simpa [not_reloaded_of_aside hmore, not_overlooked_of_aside hmore] using h.once
  past before act hbefore hact := by
    rcases prefix_append_cases hbefore with hin | ⟨hout, hmem⟩
    · exact h.past before act hin hact
    · exact mono hout (h.done.mp (hpast act hmem hact))

/-- A reload that is asked for while the flag is not set. -/
theorem ask (h : ReloadLog acts false) (id : ResourceId) (error : Option RunrError)
    (hdone : done = true ↔ ∀ err, error = some err → err.isUnavailable = false) :
    ReloadLog (acts ++ [.query (.apply id) .runr .daemonReload (error.map .runr)]) done := by
  obtain ⟨hreloaded, hoverlooked⟩ : ¬ Reloaded .runr acts ∧ ¬ Overlooked acts := by
    have hdone := h.done
    simpa [not_or] using hdone
  refine ⟨?_, ?_, ?_⟩
  · rw [reloaded_append, overlooked_append, reloaded_singleton, overlooked_singleton, hdone]
    cases error with
    | none => simp
    | some err => simp [hreloaded, hoverlooked]
  · rw [reloaded_append, overlooked_append, reloaded_singleton, overlooked_singleton]
    cases error with
    | none => simp [hoverlooked]
    | some err => simp [hreloaded]
  · intro before act hbefore hact
    rcases prefix_append_cases hbefore with hin | ⟨-, hmem⟩
    · exact h.past before act hin hact
    · exact absurd ⟨id, _, List.mem_singleton.mp hmem⟩ hact.2

end ReloadLog

/-- Between `s` and `s'` the record of the reloads was kept. -/
def LogKept (s s' : RunState V) : Prop :=
  ∀ acts, ReloadLog acts s.runrDaemonReloadDone → ∃ more,
    s'.machine.world.record = s.machine.world.record ++ more ∧
    ReloadLog (acts ++ more) s'.runrDaemonReloadDone

namespace LogKept

variable {s s' s'' : RunState V}

theorem refl (s : RunState V) : LogKept s s := fun acts h => ⟨[], by simp, by simpa using h⟩

theorem trans (h : LogKept s s') (h' : LogKept s' s'') : LogKept s s'' := by
  intro acts hacts
  obtain ⟨more, hrecord, hmore⟩ := h acts hacts
  obtain ⟨more', hrecord', hmore'⟩ := h' _ hmore
  exact ⟨more ++ more', by rw [hrecord', hrecord, List.append_assoc],
    by rwa [← List.append_assoc]⟩

theorem of_aside (h : Aside (Act.Of .runr) .runr s s') : LogKept s s' := by
  intro acts hacts
  obtain ⟨more, hrecord, hmore⟩ := h.record
  refine ⟨more, hrecord, ?_⟩
  rw [show s'.runrDaemonReloadDone = s.runrDaemonReloadDone from h.flag]
  exact hacts.aside (fun act hact hreloads => hmore act hact hreloads.of)
    fun act hact hpast => absurd hpast.1 (hmore act hact)

/-- Once the flag is set. -/
theorem of_done (hdone : s.runrDaemonReloadDone = true)
    (h : Aside (Act.Reloads .runr) .runr s s') : LogKept s s' := by
  intro acts hacts
  obtain ⟨more, hrecord, hmore⟩ := h.record
  refine ⟨more, hrecord, ?_⟩
  rw [show s'.runrDaemonReloadDone = s.runrDaemonReloadDone from h.flag]
  exact hacts.aside hmore fun _ _ _ => hdone

end LogKept

namespace ServiceEnv

variable (env : ServiceEnv P V)

/-- The reload of runr; who is past it has the flag set. -/
theorem triple_runrDaemonReload (id : ResourceId) (runr : RunrHandle V) (s : RunState V) :
    Triple (· = s) (runrDaemonReload id runr)
      (fun _ s' => LogKept s s' ∧ s'.runrDaemonReloadDone = true) (fun _ s' => LogKept s s') := by
  have hasked : ∀ (s' : RunState V) error, s.runrDaemonReloadDone = false →
      s'.machine.world.record = s.machine.world.record ++
        [.query (.apply id) .runr .daemonReload (error.map .runr)] →
      (s'.runrDaemonReloadDone = true ↔ ∀ err, error = some err → err.isUnavailable = false) →
      LogKept s s' := by
    intro s' error hdone hrecord hdone' acts hacts
    rw [hdone] at hacts
    exact ⟨_, hrecord, hacts.ask id error hdone'⟩
  refine Triple.replace ?_
  cases hdone : s.runrDaemonReloadDone with
  | true =>
    refine Triple.ret fun s' hs => ?_
    obtain rfl : s' = s := by rw [hs, ← hdone]
    exact ⟨.refl s', hdone⟩
  | false =>
    refine Triple.bind (triple_asked runr.daemonReload _) fun answer => ?_
    cases answer with
    | ok a => exact Triple.ret fun s' ⟨hrecord, hflag, _⟩ =>
        ⟨hasked s' none hdone hrecord (by simp [hflag]), hflag⟩
    | error err =>
      cases hunavailable : err.isUnavailable with
      | true =>
        match err, hunavailable with
        | .unavailable baseUrl source, hunavailable =>
          refine Triple.bind (Triple.write fun s' ⟨hrecord, _⟩ => ?_) fun _ => Triple.raise
            (P := fun s' => LogKept s s') fun s' h => h
          exact hasked _ (some (.unavailable baseUrl source)) hdone hrecord (by simp [hunavailable])
      | false =>
        match err, hunavailable with
        | .apiError _ _, _ | .badResponse _, _ | .notFound _ _, _ | .restartNotObserved _, _
        | .startNotObserved _ _, _ | .serviceStartFailed _, _ | .io _, _ =>
          exact Triple.raise fun s' ⟨hrecord, hflag, _⟩ =>
            hasked s' (some _) hdone hrecord (by simp [hflag, RunrError.isUnavailable])

theorem leaves_runrRun (r : Resource P) (diff : Diff P) (changed : Finset ResourceId) :
    Leaves (env.runrRun r diff changed) LogKept := by
  have hbind : ∀ {α β : Type} {x : ApplyM V α} {f : α → ApplyM V β},
      Leaves x LogKept → (∀ a, Leaves (f a) LogKept) → Leaves (x >>= f) LogKept :=
    fun hx hf => Leaves.bind (fun _ _ _ => LogKept.trans) hx hf
  have hwanted : ∀ spec : ServiceSpec,
      Leaves (ApplyM.note [.wanted r.id .runr spec.name spec.state] : ApplyM V Unit) LogKept := by
    intro spec
    refine (StaysAside.note ?_).mono fun _ _ => LogKept.of_aside
    simp [Act.Of]
  -- past the reload the flag is set
  have hrest : ∀ (runr : RunrHandle V) (spec : ServiceSpec), Leaves (do
      let current ← runrCurrent r.id runr spec
      env.performAction r.id .runr spec (decideActionRunr spec current
          (triggered r.restartOn changed) (triggered r.reloadOn changed))
        (collectNotifySources r changed (triggered r.restartOn changed)
          (triggered r.reloadOn changed))
        (runrExecuteStart r.id runr spec) (runrExecuteStop r.id runr spec)) LogKept := by
    intro runr spec s
    have hban := elsewhere_reloads .runr .runr
    have haside : StaysAside (Act.Reloads .runr) .runr (do
        let answer ← ApplyM.ask (RunrHandle.query (.apply r.id) .serviceStatuses
          runr.serviceStatuses)
        let statuses ← ApplyM.orThrow (mapRunrError · runr.baseUrl "service_statuses") answer
        let current := statuses.find? fun status => status.name = spec.name
        env.performAction r.id .runr spec (decideActionRunr spec current
            (triggered r.restartOn changed) (triggered r.reloadOn changed))
          (collectNotifySources r changed (triggered r.restartOn changed)
            (triggered r.reloadOn changed))
          (runrExecuteStart r.id runr spec) (runrExecuteStop r.id runr spec)) := by
      refine .bind (.ask _ fun _ => hban.query _ _ _ (by decide)) fun answer =>
        .bind (.orThrow _ answer) fun statuses => ?_
      exact env.aside_performAction hban r.id .runr spec _ _
        (aside_runrExecuteStart hban r.id runr spec) (aside_runrExecuteStop hban r.id runr spec)
    unfold runrCurrent
    simp only [bind_assoc, pure_bind]
    refine (triple_runrDaemonReload r.id runr s).bind fun _ => Triple.of_state fun t ht => ?_
    exact (haside t).conseq (fun _ hs => hs) (fun _ _ h => ht.1.trans (.of_done ht.2 h))
      (fun _ _ h => ht.1.trans (.of_done ht.2 h))
  have hraise : ∀ err, Leaves (throw err : ApplyM V ChangeReport) LogKept :=
    Leaves.raise LogKept.refl
  unfold runrRun
  split
  · exact Leaves.ret LogKept.refl _
  all_goals
    refine hbind ((StaysAside.orThrow _ _).mono fun _ _ => LogKept.of_aside) fun spec =>
      hbind (hwanted spec) fun _ => ?_
    split
    · exact hraise _
    · exact hrest _ spec

theorem aside_systemdDaemonReload (id : ResourceId) (systemd : SystemdHandle V)
    (spec : ServiceSpec) :
    StaysAside (Act.Of .runr) .runr (systemdDaemonReload id systemd spec) := by
  have hcall : ∀ what (error : Option SystemdError), ¬ Act.Of .runr
      (.query (.apply id) .systemd what (error.map .systemd)) := by simp [Act.Of]
  refine .read fun s => ?_
  split
  · exact .ret ()
  · refine .bind (.ask _ fun _ => hcall _ _) fun answer =>
      .bind (.orThrow _ answer) fun needed => ?_
    split
    · refine .bind (.write (fun _ => rfl) fun _ => rfl) fun _ =>
        .bind (.ask _ fun _ => hcall _ _) fun result => ?_
      split
      · exact .ret ()
      · exact .bind (.write (fun _ => rfl) fun _ => rfl) fun _ => .raise _
    · exact .ret ()

theorem aside_systemdRun (r : Resource P) (diff : Diff P) (changed : Finset ResourceId) :
    StaysAside (Act.Of .runr) .runr (env.systemdRun r diff changed) := by
  have hban := elsewhere_of (show InitSystem.runr ≠ .systemd by decide)
  unfold systemdRun
  split
  · exact .ret _
  all_goals
    refine .bind (.orThrow _ _) fun spec => .bind (.note ?_) fun _ => ?_
    · simp [Act.Of]
    · split
      · exact .raise _
      · rename_i systemd _
        refine .bind ?_ fun before => env.aside_performAction hban r.id .systemd spec _ _
          (aside_systemdExecuteStart hban r.id systemd spec before)
          (aside_systemdExecuteStop hban r.id systemd spec)
        refine .bind (aside_systemdDaemonReload r.id systemd spec) fun _ =>
          .bind (aside_systemdEnable hban r.id systemd spec) fun _ => ?_
        refine .bind (.ask _ fun _ => hban.query _ _ _ (by decide)) fun info => ?_
        split
        · exact .ret _
        · exact .ret _
        · exact .raise _

/-- **The apply of a service keeps the record of the reloads of runr.** -/
theorem apply_logKept (init : InitSystem) (r : Resource P) (diff : Diff P)
    (ctx : ApplyCtx (RunState V)) :
    LogKept ctx.state ((env.primitive init).apply r diff ctx).2.state := by
  have hrun : Leaves (env.run init r diff ctx.changedResources) LogKept := by
    cases init with
    | runr => exact env.leaves_runrRun r diff _
    | systemd => exact (env.aside_systemdRun r diff _).mono fun _ _ => LogKept.of_aside
  have hend := hrun ctx.state ctx.state rfl
  simp only [primitive]
  cases h : env.run init r diff ctx.changedResources ctx.state with
  | ok report s' =>
    rw [h] at hend
    exact hend
  | error err s' =>
    rw [h] at hend
    exact hend

end ServiceEnv

/-- A signal is no business of the init systems. -/
theorem SignalEnv.apply_aside {P : Type} (env : SignalEnv P V) (utcNow : V → Nat)
    (journalRoot : String) (ban : Act → Prop) (init : InitSystem) (r : Resource P) (diff : Diff P)
    (ctx : ApplyCtx (RunState V)) : Aside ban init ctx.state
      ((env.primitive utcNow journalRoot).apply r diff ctx).2.state := by
  have hrun : StaysAside ban init (env.run utcNow journalRoot r diff) := by
    unfold SignalEnv.run
    split
    · exact .ret _
    all_goals
      refine .bind (.orThrow _ _) fun spec => .bind (.orThrow _ _) fun argv => ?_
      split
      · exact .read fun _ => .bind (.journal _) fun answer => .bind (.orThrow _ answer)
          fun _ => .ret _
      · exact .bind (.outside _) fun answer => .bind (.orThrow _ answer) fun _ => .ret _
  have hend := hrun ctx.state ctx.state rfl
  simp only [SignalEnv.primitive]
  cases h : env.run utcNow journalRoot r diff ctx.state with
  | ok report s' =>
    rw [h] at hend
    exact hend
  | error err s' =>
    rw [h] at hend
    exact hend

/-! ## Runs with `runr.service` -/

namespace RunArgs

variable (run : RunArgs P V)

/-- When the loop has been through `done`, its acts so far are `acts`. -/
structure ActsUpTo (m : Machine (World V)) (registry : Registry P) (order : List ResourceId)
    (m₁ : Machine (World V)) (done : List ResourceId) (acts : List Act) : Prop where
  applies : run.Applies m registry order m₁
  first : done <+: order
  record : (run.upTo registry order m₁ done).ctx.state.machine.world.record =
    m₁.world.record ++ acts

/-- No `runr.service` of the run goes past its reload unless one has succeeded before,
    and the flag is set only when one has. -/
def ReloadsFirst (m : Machine (World V)) : Prop :=
  ∀ registry order m₁ done acts, run.ActsUpTo m registry order m₁ done acts →
    ((run.upTo registry order m₁ done).ctx.state.runrDaemonReloadDone = true →
      Reloaded .runr acts) ∧
    ∀ before act, before ++ [act] <+: acts → act.PastReload → Reloaded .runr before

/-- No reload of the run comes back with another error than that runr cannot be
    reached. -/
def ReloadsAnswered (m : Machine (World V)) : Prop :=
  ∀ registry order m₁ done acts, run.ActsUpTo m registry order m₁ done acts → ¬ Overlooked acts

/-- Wherever the loop stands. -/
theorem reloadLog_upTo (registry : Registry P) (order : List ResourceId)
    (m₁ : Machine (World V)) (done : List ResourceId) :
    ∃ acts, (run.upTo registry order m₁ done).ctx.state.machine.world.record =
        m₁.world.record ++ acts ∧
      ReloadLog acts (run.upTo registry order m₁ done).ctx.state.runrDaemonReloadDone := by
  have hadd : ∀ s s' : RunState V, LogKept s s' →
      (∃ acts, s.machine.world.record = m₁.world.record ++ acts ∧
        ReloadLog acts s.runrDaemonReloadDone) →
      ∃ acts, s'.machine.world.record = m₁.world.record ++ acts ∧
        ReloadLog acts s'.runrDaemonReloadDone := by
    rintro s s' hkept ⟨acts, hrecord, hlog⟩
    obtain ⟨more, hrecord', hlog'⟩ := hkept acts hlog
    exact ⟨acts ++ more, by rw [hrecord', hrecord, List.append_assoc], hlog'⟩
  refine (run.keeps registry (fun ctx => ∃ acts,
    ctx.state.machine.world.record = m₁.world.record ++ acts ∧
      ReloadLog acts ctx.state.runrDaemonReloadDone) ?_ ?_ ?_ ?_).loop _ _ done
      ⟨[], by simp [ApplyLoop.start, applyCtx], .nil⟩
  · exact fun ctx v h => h
  · exact fun ctx ids h => h
  · exact fun init r diff ctx h => hadd _ _ (run.services.apply_logKept init r diff ctx) h
  · exact fun r diff ctx h => hadd _ _ (.of_aside (run.signals.apply_aside _ _ _ _ r diff ctx)) h

/-- **A run reloads runr before it goes on with any service, exactly when no reload
    of it is refused.**  The flag is set before the daemon is asked, and only an
    unreachable daemon has it taken back. -/
theorem reloads_first_iff (m : Machine (World V)) : run.ReloadsFirst m ↔ run.ReloadsAnswered m := by
  constructor
  · intro hfirst registry order m₁ done acts hacts hoverlooked
    obtain ⟨acts', hrecord, hlog⟩ := run.reloadLog_upTo registry order m₁ done
    obtain rfl : acts' = acts := List.append_cancel_left (hrecord.symm.trans hacts.record)
    have hreloaded := (hfirst registry order m₁ done acts' hacts).1
      (hlog.done.mpr (.inr hoverlooked))
    exact hlog.once hreloaded hoverlooked
  · intro hanswered registry order m₁ done acts hacts
    obtain ⟨acts', hrecord, hlog⟩ := run.reloadLog_upTo registry order m₁ done
    obtain rfl : acts' = acts := List.append_cancel_left (hrecord.symm.trans hacts.record)
    have hnot := hanswered registry order m₁ done acts' hacts
    refine ⟨fun hdone => (hlog.done.mp hdone).resolve_right hnot, fun before act hbefore hact => ?_⟩
    refine (hlog.past before act hbefore hact).resolve_right ?_
    rintro ⟨id, err, herr, hmem⟩
    exact hnot ⟨id, err, herr, hbefore.subset (List.mem_append_left _ hmem)⟩

/-! ### Two services behind a daemon that will not reload -/

/-- It answers every reload with a 500, and knows no services. -/
def stubbornRunr : RunrHandle Nat where
  baseUrl := "http://127.0.0.1:8010"
  daemonReload v := (.error (.apiError 500 "broken unit file"), v)
  serviceStart _ v := (.ok (), v)
  serviceStop _ v := (.ok (), v)
  serviceRestart _ v := (.ok (), v)
  serviceReload _ v := (.ok (), v)
  serviceStatuses v := (.ok [], v)
  verifyStart name v := (.ok ⟨name, RUNNING_STATE⟩, v)

def runrServiceOf (name : String) : Resource ServiceSpec :=
  ⟨⟨"runr.service:" ++ name⟩, ⟨"runr.service"⟩, 1, ⟨name, .running, false, none, none⟩, [], [], []⟩

def twoServices : Registry ServiceSpec := ⟨[runrServiceOf "a", runrServiceOf "b"], by decide⟩

def stubbornRun : RunArgs ServiceSpec Nat :=
  let run := RunArgs.plain none twoServices
  { run with
    services := { run.services with runr := some stubbornRunr }
    opts := ⟨true, .disabled⟩ }

/-- The reload is refused, and the flag stays set. -/
theorem reloads_not_first : ¬ stubbornRun.ReloadsFirst freshHost := by
  intro hfirst
  have hacts : stubbornRun.ActsUpTo freshHost twoServices
      [(runrServiceOf "a").id, (runrServiceOf "b").id] listedHost [(runrServiceOf "a").id]
      [.wanted (runrServiceOf "a").id .runr "a" .running,
        .query (.apply (runrServiceOf "a").id) .runr .daemonReload
          (some (.runr (.apiError 500 "broken unit file")))] :=
    ⟨⟨rfl, by decide⟩, by decide, by decide⟩
  obtain ⟨id, hmem⟩ := (hfirst _ _ _ _ _ hacts).1 (by decide)
  simp at hmem

end RunArgs

end Bosun
