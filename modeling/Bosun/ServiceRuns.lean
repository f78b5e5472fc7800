import Bosun.JournalFaults
import Bosun.ProcessSignal

/-!
# What the apply of a service can do

The two primitives ask their init system a dozen questions and may leave after
each of them.  `run_turn` says once what the state is like at any of these exits:
which acts have gone on record, what has happened to the journal, and, when the
exit is an error, which act is to blame for it.
-/

namespace Bosun

/-! ## Acts -/

namespace Act

/-- An act of the apply of `id`, with no other effect than on the outside. -/
def By (id : ResourceId) : Act → Prop
  | unit (.apply id') _ _ _ _ | query (.apply id') _ _ _ => id' = id
  | validated _ _ => True
  | _ => False

/-- The call came back with an error that is not just the news that the unit is not
    loaded. -/
def isFault : Act → Bool
  | unit _ _ _ _ error => error.isSome
  | query _ _ .unitInfo (some (.systemd (.noSuchUnit _))) => false
  | query _ _ _ error => error.isSome
  | validated _ _ | wanted _ _ _ _ | stopped _ _ _ _ => false

/-- The apply of `id` has started the unit. -/
def started (id : ResourceId) (init : InitSystem) (name : String) : Act :=
  unit (.apply id) init .start name none

end Act

/-! ## Exits that leave the journal alone -/

variable {V : Type}

/-- Between `s` and `s'` these acts went on record, and the journal was left alone. -/
structure Consulted (id : ResourceId) (s s' : RunState V) (acts : List Act) : Prop where
  fs : s'.machine.fs = s.machine.fs
  record : s'.machine.world.record = s.machine.world.record ++ acts
  own : ∀ act ∈ acts, act.By id

namespace Consulted

variable {id : ResourceId} {s s' s'' : RunState V} {acts acts' : List Act}

theorem refl (s : RunState V) : Consulted id s s [] := ⟨rfl, by simp, by simp⟩

theorem trans (h : Consulted id s s' acts) (h' : Consulted id s' s'' acts') :
    Consulted id s s'' (acts ++ acts') where
  fs := h'.fs.trans h.fs
  record := by rw [h'.record, h.record, List.append_assoc]
  own act hact := (List.mem_append.mp hact).elim (h.own act) (h'.own act)

end Consulted

/-- From `s`, `x` leaves the journal alone, and where it throws, one of its acts is
    an `alibi`. -/
def ConsultsFrom {α : Type} (id : ResourceId) (alibi : Act → Prop) (s : RunState V)
    (x : ApplyM V α) : Prop :=
  Triple (· = s) x (fun _ s' => ∃ acts, Consulted id s s' acts)
    (fun _ s' => ∃ acts, Consulted id s s' acts ∧ ∃ act ∈ acts, alibi act)

/-- It does so from every state. -/
def Consults {α : Type} (id : ResourceId) (alibi : Act → Prop) (x : ApplyM V α) : Prop :=
  ∀ s, ConsultsFrom id alibi s x

/-- As `Consults`, but it may throw for no reason. -/
def Asks {α : Type} (id : ResourceId) (x : ApplyM V α) : Prop :=
  Leaves x fun s s' => ∃ acts, Consulted id s s' acts

/-- A call leaves exactly its act. -/
theorem triple_ask {α ε : Type} {id : ResourceId} {act : Option ε → Act}
    (call : ClientCall V ε α) (hby : ∀ error, (act error).By id) (s : RunState V) :
    Triple (· = s) (ApplyM.ask (World.ask act call))
      (fun answer s' => Consulted id s s' [act (errorOf answer)]) (fun _ _ => False) := by
  intro s₀ hs
  obtain rfl : s₀ = s := hs
  exact ⟨rfl, rfl, by simpa using hby _⟩

/-- What is done outside leaves none. -/
theorem triple_outside {α : Type} (id : ResourceId) (call : V → α × V) (s : RunState V) :
    Triple (· = s) (ApplyM.outside call) (fun _ s' => Consulted id s s' []) (fun _ _ => False) := by
  intro s₀ hs
  obtain rfl : s₀ = s := hs
  exact ⟨rfl, by simp [RunState.setWorld], by simp⟩

namespace Asks

variable {α β : Type} {id : ResourceId}

theorem ret (a : α) : Asks id (pure a : ApplyM V α) :=
  Leaves.ret (fun _ => ⟨[], .refl _⟩) a

theorem raise (err : PrimitiveError) : Asks id (throw err : ApplyM V α) :=
  Leaves.raise (fun _ => ⟨[], .refl _⟩) err

theorem bind {x : ApplyM V α} {f : α → ApplyM V β} (hx : Asks id x) (hf : ∀ a, Asks id (f a)) :
    Asks id (x >>= f) :=
  Leaves.bind (fun _ _ _ ⟨_, h⟩ ⟨_, h'⟩ => ⟨_, h.trans h'⟩) hx hf

theorem write {f : RunState V → RunState V} (hmachine : ∀ s, (f s).machine = s.machine) :
    Asks id (modify f : ApplyM V Unit) :=
  Leaves.write fun s => ⟨[], by rw [hmachine], by simp [hmachine], by simp⟩

theorem orThrow {ε : Type} (f : ε → PrimitiveError) (answer : Except ε α) :
    Asks id (ApplyM.orThrow f answer : ApplyM V α) := by
  cases answer with
  | ok a => exact ret a
  | error err => exact raise (f err)

theorem ask {ε : Type} {act : Option ε → Act} (call : ClientCall V ε α)
    (hby : ∀ error, (act error).By id) : Asks id (ApplyM.ask (World.ask act call)) :=
  fun s => (triple_ask call hby s).conseq (fun _ hs => hs) (fun _ _ h => ⟨_, h⟩)
    (fun _ _ h => h.elim)

theorem outside (call : V → α × V) : Asks id (ApplyM.outside call) :=
  fun s => (triple_outside id call s).conseq (fun _ hs => hs) (fun _ _ h => ⟨_, h⟩)
    (fun _ _ h => h.elim)

end Asks

namespace Consults

variable {α β ε : Type} {id : ResourceId} {alibi : Act → Prop}

theorem ret (a : α) : Consults id alibi (pure a : ApplyM V α) :=
  fun _ => Triple.ret fun _ hs => ⟨[], hs ▸ .refl _⟩

theorem bind {x : ApplyM V α} {f : α → ApplyM V β} (hx : Consults id alibi x)
    (hf : ∀ a, Consults id alibi (f a)) : Consults id alibi (x >>= f) := by
  intro s
  refine (hx s).bind fun a => Triple.of_state fun s' ⟨acts, hacts⟩ => ?_
  refine (hf a s').conseq (fun _ hs => hs) ?_ ?_
  · rintro b s'' ⟨acts', hacts'⟩
    exact ⟨_, hacts.trans hacts'⟩
  · rintro err s'' ⟨acts', hacts', act, hact, halibi⟩
    exact ⟨_, hacts.trans hacts', act, List.mem_append_right _ hact, halibi⟩

theorem read {f : RunState V → ApplyM V β} (hf : ∀ s, ConsultsFrom id alibi s (f s)) :
    Consults id alibi (get >>= f) := by
  intro s s₀ hs
  obtain rfl : s₀ = s := hs
  exact hf s₀ s₀ rfl

/-- The flags of the run are neither journal nor record. -/
theorem write {s s' : RunState V} {x : ApplyM V β} (hmachine : s'.machine = s.machine)
    (hx : Consults id alibi x) : ConsultsFrom id alibi s (set s' >>= fun _ => x) := by
  intro s₀ hs
  obtain rfl : s₀ = s := hs
  have hstep : Consulted id s₀ s' [] := ⟨by rw [hmachine], by simp [hmachine], by simp⟩
  have hfrom : Triple (· = s') x (fun _ t => ∃ acts, Consulted id s₀ t acts)
      (fun _ t => ∃ acts, Consulted id s₀ t acts ∧ ∃ act ∈ acts, alibi act) := by
    refine (hx s').conseq (fun _ hs => hs) ?_ ?_
    · rintro b t ⟨acts, h⟩
      exact ⟨_, hstep.trans h⟩
    · rintro err t ⟨acts, h, act, hact, halibi⟩
      exact ⟨_, hstep.trans h, act, hact, halibi⟩
  exact hfrom s' rfl

/-- A call, and what is done with its answer. -/
theorem ask {act : Option ε → Act} (call : ClientCall V ε α) {k : Except ε α → ApplyM V β}
    (hby : ∀ error, (act error).By id) (hok : ∀ a, Consults id alibi (k (.ok a)))
    (herror : ∀ err, Consults id alibi (k (.error err)) ∨
      (alibi (act (some err)) ∧ Asks id (k (.error err)))) :
    Consults id alibi (ApplyM.ask (World.ask act call) >>= k) := by
  intro s
  refine Triple.bind ((triple_ask call hby s).conseq (fun _ hs => hs) (fun _ _ h => h)
    (fun _ _ h => h.elim)) fun answer => Triple.of_state fun s' hstep => ?_
  have hthrough : ∀ hk : Consults id alibi (k answer), Triple (· = s') (k answer)
      (fun _ s' => ∃ acts, Consulted id s s' acts)
      (fun _ s' => ∃ acts, Consulted id s s' acts ∧ ∃ act ∈ acts, alibi act) := by
    intro hk
    refine (hk s').conseq (fun _ hs => hs) ?_ ?_
    · rintro b s'' ⟨acts, h⟩
      exact ⟨_, hstep.trans h⟩
    · rintro err s'' ⟨acts, h, act', hact, halibi⟩
      exact ⟨_, hstep.trans h, act', List.mem_append_right _ hact, halibi⟩
  cases answer with
  | ok a => exact hthrough (hok a)
  | error err =>
    rcases herror err with hk | ⟨halibi, hk⟩
    · exact hthrough hk
    · refine (hk s').conseq (fun _ hs => hs) ?_ ?_
      · rintro b s'' ⟨acts, h⟩
        exact ⟨_, hstep.trans h⟩
      · rintro err' s'' ⟨acts, h⟩
        exact ⟨_, hstep.trans h, _, List.mem_append_left _ (List.mem_singleton.mpr rfl), halibi⟩

/-- A call whose error is thrown. -/
theorem ask_orThrow {act : Option ε → Act} (call : ClientCall V ε α) {f : ε → PrimitiveError}
    {rest : α → ApplyM V β} (hby : ∀ error, (act error).By id)
    (halibi : ∀ err, alibi (act (some err))) (hrest : ∀ a, Consults id alibi (rest a)) :
    Consults id alibi (do
      let answer ← ApplyM.ask (World.ask act call)
      let a ← ApplyM.orThrow f answer
      rest a) :=
  ask call hby (fun a => (ret a).bind hrest)
    (fun err => .inr ⟨halibi err, Asks.raise _⟩)

/-- The same at the end. -/
theorem ask_orThrow_last {act : Option ε → Act} (call : ClientCall V ε α)
    {f : ε → PrimitiveError} (hby : ∀ error, (act error).By id)
    (halibi : ∀ err, alibi (act (some err))) :
    Consults id alibi (do
      let answer ← ApplyM.ask (World.ask act call)
      ApplyM.orThrow f answer) :=
  ask call hby (fun a => ret a)
    (fun err => .inr ⟨halibi err, Asks.raise _⟩)

end Consults

/-- Who has to answer for an error of the apply: a fault, the validator of the
    service, or a start, which is what had to be done. -/
def Act.Blamed (id : ResourceId) (init : InitSystem) (spec : ServiceSpec) (act : Act) : Prop :=
  act.isFault = true ∨ (∃ argv, spec.validateWith = some argv ∧ act = .validated argv false) ∨
    act = .started id init spec.name

/-- However `x` ends, the blame falls on one of its acts; when it ends well, it has
    started the unit. -/
def Starts {α : Type} (id : ResourceId) (init : InitSystem) (spec : ServiceSpec)
    (x : ApplyM V α) : Prop :=
  ∀ s, Triple (· = s) x
    (fun _ s' => ∃ acts, Consulted id s s' acts ∧ .started id init spec.name ∈ acts)
    (fun _ s' => ∃ acts, Consulted id s s' acts ∧ ∃ act ∈ acts, act.Blamed id init spec)

theorem starts_of_ask {α ε : Type} {id : ResourceId} {init : InitSystem} {spec : ServiceSpec}
    {wrap : ε → ClientError} (call : ClientCall V ε Unit) {f : ε → PrimitiveError}
    {rest : Unit → ApplyM V α} (hrest : ∀ a, Asks id (rest a)) :
    Starts id init spec (do
      let answer ← ApplyM.ask
        (World.ask (fun error => .unit (.apply id) init .start spec.name (error.map wrap)) call)
      let a ← ApplyM.orThrow f answer
      rest a) := by
  intro s
  have hby : ∀ error : Option ε,
      (Act.unit (.apply id) init .start spec.name (error.map wrap)).By id := fun _ => rfl
  refine Triple.bind ((triple_ask call hby s).conseq (fun _ hs => hs) (fun _ _ h => h)
    (fun _ _ h => h.elim)) fun answer => Triple.of_state fun s' hstep => ?_
  cases answer with
  | ok a =>
    refine (hrest a s').conseq (fun _ hs => hs) ?_ ?_
    · rintro b s'' ⟨acts, h⟩
      exact ⟨_, hstep.trans h, List.mem_append_left _ (List.mem_singleton.mpr rfl)⟩
    · rintro err s'' ⟨acts, h⟩
      exact ⟨_, hstep.trans h, _, List.mem_append_left _ (List.mem_singleton.mpr rfl),
        .inr (.inr rfl)⟩
  | error err =>
    exact Triple.raise fun s'' hs => ⟨_, hs ▸ hstep, _, List.mem_singleton.mpr rfl, .inl rfl⟩

namespace ServiceEnv

variable {P : Type} (env : ServiceEnv P V) {alibi : Act → Prop}
  (hfault : ∀ act, act.isFault = true → alibi act)

/-! ## The questions before the action -/

section Questions

include hfault

theorem consults_runrDaemonReload (id : ResourceId) (runr : RunrHandle V) :
    Consults id alibi (runrDaemonReload id runr) := by
  refine Consults.read fun s => Consults.write rfl ?_
  split
  · exact Consults.ret ()
  · refine Consults.ask runr.daemonReload (fun _ => rfl) (fun _ => Consults.ret ()) fun err => ?_
    refine .inr ⟨hfault _ rfl, ?_⟩
    cases err with
    | unavailable baseUrl source =>
      refine Asks.bind ?_ fun _ => Asks.raise _
      exact Asks.write fun _ => rfl
    | _ => exact Asks.raise _

theorem consults_runrCurrent (id : ResourceId) (runr : RunrHandle V) (spec : ServiceSpec) :
    Consults id alibi (runrCurrent id runr spec) := by
  refine (consults_runrDaemonReload hfault id runr).bind fun _ => ?_
  exact Consults.ask_orThrow runr.serviceStatuses (fun _ => rfl) (fun _ => hfault _ rfl)
    fun statuses => Consults.ret _

theorem consults_systemdDaemonReload (id : ResourceId) (systemd : SystemdHandle V)
    (spec : ServiceSpec) : Consults id alibi (systemdDaemonReload id systemd spec) := by
  refine Consults.read fun s => ?_
  split
  · exact Consults.ret () s
  · refine (?_ : Consults id alibi _) s
    refine Consults.ask_orThrow (systemd.needsDaemonReload spec.name) (fun _ => rfl)
      (fun _ => hfault _ rfl) fun needed => ?_
    split
    · refine Consults.bind ?_ fun _ => ?_
      · exact fun _ => Triple.write fun _ hs => ⟨[], by rw [hs], by simp [hs], by simp⟩
      · refine Consults.ask systemd.daemonReload (fun _ => rfl) (fun _ => Consults.ret ())
          fun err => .inr ⟨hfault _ rfl, ?_⟩
        refine Asks.bind ?_ fun _ => Asks.raise _
        exact Asks.write fun _ => rfl
    · exact Consults.ret ()

theorem consults_systemdEnable (id : ResourceId) (systemd : SystemdHandle V)
    (spec : ServiceSpec) : Consults id alibi (systemdEnable id systemd spec) := by
  unfold systemdEnable
  split
  · refine Consults.ask_orThrow (systemd.isUnitEnabled spec.name) (fun _ => rfl)
      (fun _ => hfault _ rfl) fun enabled => ?_
    split
    · exact Consults.ask_orThrow_last (systemd.enableUnit spec.name) (fun _ => rfl)
        fun _ => hfault _ rfl
    · exact Consults.ret ()
  · exact Consults.ret ()

theorem consults_systemdCurrent (id : ResourceId) (systemd : SystemdHandle V)
    (spec : ServiceSpec) : Consults id alibi (systemdCurrent id systemd spec) := by
  refine (consults_systemdDaemonReload hfault id systemd spec).bind fun _ => ?_
  refine (consults_systemdEnable hfault id systemd spec).bind fun _ => ?_
  refine Consults.ask (systemd.unitInfo spec.name) (fun _ => rfl) (fun _ => Consults.ret _)
    fun err => ?_
  cases err with
  | noSuchUnit unit => exact .inl (Consults.ret none)
  | _ => exact .inr ⟨hfault _ rfl, Asks.raise _⟩

end Questions

/-! ## The actions -/

theorem starts_runr (id : ResourceId) (runr : RunrHandle V) (spec : ServiceSpec) :
    Starts id .runr spec (runrExecuteStart id runr spec) := by
  refine starts_of_ask (runr.serviceStart spec.name) fun _ => ?_
  refine Asks.bind (Asks.ask (runr.verifyStart spec.name) fun _ => rfl) fun answer => ?_
  exact (Asks.orThrow _ answer).bind fun _ => Asks.ret _

theorem starts_systemd (id : ResourceId) (systemd : SystemdHandle V) (spec : ServiceSpec)
    (before : Option UnitInfo) :
    Starts id .systemd spec (systemdExecuteStart id systemd spec before) := by
  refine starts_of_ask (systemd.startUnit spec.name) fun _ => ?_
  refine Asks.bind (Asks.ask (systemd.unitInfo spec.name) fun _ => rfl) fun answer => ?_
  refine (Asks.orThrow _ answer).bind fun after => ?_
  exact (Asks.orThrow _ _).bind fun _ => Asks.ret _

section Stop

include hfault

theorem consults_runrExecuteStop (id : ResourceId) (runr : RunrHandle V) (spec : ServiceSpec) :
    Consults id alibi (runrExecuteStop id runr spec) :=
  Consults.ask_orThrow (runr.serviceStop spec.name) (fun _ => rfl) (fun _ => hfault _ rfl)
    fun _ => Consults.ret _

theorem consults_systemdExecuteStop (id : ResourceId) (systemd : SystemdHandle V)
    (spec : ServiceSpec) : Consults id alibi (systemdExecuteStop id systemd spec) :=
  Consults.ask_orThrow (systemd.stopUnit spec.name) (fun _ => rfl) (fun _ => hfault _ rfl)
    fun _ => Consults.ret _

end Stop

/-- The validator is not asked through a handle, but its verdict goes on record. -/
theorem consults_runValidateIfConfigured (id : ResourceId) (init : InitSystem)
    (spec : ServiceSpec) :
    Consults id (Act.Blamed id init spec) (env.runValidateIfConfigured spec) := by
  unfold runValidateIfConfigured
  split
  · exact Consults.ret ()
  · exact Consults.ret ()
  · rename_i program args hvalidate
    intro s
    refine Triple.bind ((triple_outside id _ s).conseq (fun _ hs => hs) (fun _ _ h => h)
      (fun _ _ h => h.elim)) fun answer => Triple.of_state fun s' hstep => ?_
    refine Triple.bind (Triple.write (Q := fun _ s'' => Consulted id s s''
      [.validated (program :: args) answer.isOk]) ?_) fun _ => ?_
    · rintro s'' rfl
      have hnote : Consulted id s'' (s''.setWorld (s''.machine.world.note
          [.validated (program :: args) answer.isOk])) [.validated (program :: args) answer.isOk] :=
        ⟨rfl, rfl, by simp [Act.By]⟩
      exact hstep.trans hnote
    · cases answer with
      | ok a => exact Triple.ret fun s'' h => ⟨_, h⟩
      | error err =>
        exact Triple.raise fun s'' h => ⟨_, h, _, List.mem_singleton.mpr rfl,
          .inr (.inl ⟨_, hvalidate, rfl⟩)⟩

theorem asks_runHealthCheckIfConfigured (id : ResourceId) (spec : ServiceSpec) :
    Asks id (env.runHealthCheckIfConfigured spec) := by
  unfold runHealthCheckIfConfigured
  split
  · exact Asks.ret ()
  · refine (Asks.outside _).bind fun verdict => ?_
    split
    · exact Asks.ret ()
    · exact Asks.raise _
    · exact Asks.raise _

/-! ## The journal -/

end ServiceEnv

/-- An operation of the journal leaves the record alone. -/
theorem triple_journal {α : Type} (x : FsM α) (s : RunState V) :
    Triple (· = s) (ApplyM.journal x)
      (fun answer s' => s'.machine.world.record = s.machine.world.record ∧
        match answer with
        | .ok a => x s.machine.fs = .ok a s'.machine.fs
        | .error err => x s.machine.fs = .error err s'.machine.fs) (fun _ _ => False) := by
  intro s₀ hs
  obtain rfl : s₀ = s := hs
  unfold ApplyM.journal Machine.journal
  cases hrun : x s₀.machine.fs with
  | ok a fs => exact ⟨rfl, rfl⟩
  | error err fs => exact ⟨rfl, rfl⟩

/-- Between `s` and `s'`, `e` was handed to the journal. -/
structure Offered (e : DeferEntry) (s s' : RunState V) : Prop where
  record : s'.machine.world.record = s.machine.world.record
  touched : Touched (Journal.Outdone s.machine.fs.dir e) (Journal.Staging e) (· = e)
    s.machine.fs.dir s'.machine.fs.dir

/-- The journal has taken it, or holds what covers it. -/
def Accepted (e : DeferEntry) (s s' : RunState V) : Prop :=
  (s'.machine.fs.dir = s.machine.fs.dir ∧ Journal.Covered s.machine.fs.dir e) ∨
    s'.machine.fs.dir.lookup e.filename = some (.entry e)

/-- The journal has failed. -/
def Refused (e : DeferEntry) (s s' : RunState V) : Prop :=
  ∃ err, Journal.enqueue e s.machine.fs = .error err s'.machine.fs

theorem triple_enqueue {α : Type} (e : DeferEntry) (f : DeferError → PrimitiveError) (a : α)
    (s : RunState V) :
    Triple (· = s) (do
      let answer ← ApplyM.journal (Journal.enqueue e)
      let _ ← ApplyM.orThrow f answer
      pure a)
      (fun _ s' => Offered e s s' ∧ Accepted e s s')
      (fun _ s' => Offered e s s' ∧ Refused e s s') := by
  have henqueue := Journal.enqueue_triple s.machine.fs.dir e
  refine Triple.bind ((triple_journal _ s).conseq (fun _ hs => hs) (fun _ _ h => h)
    (fun _ _ h => h.elim)) fun answer => ?_
  cases answer with
  | ok result =>
    refine Triple.ret fun s' ⟨hrecord, hrun⟩ => ?_
    obtain ⟨htouched, hkept⟩ := henqueue.ok rfl hrun
    exact ⟨⟨hrecord, htouched⟩, hkept⟩
  | error err =>
    exact Triple.raise fun s' ⟨hrecord, hrun⟩ => ⟨⟨hrecord, henqueue.error rfl hrun⟩, err, hrun⟩

/-! ## The whole turn -/

/-- The entries the apply of a service makes for its unit. -/
def DeferEntry.MadeFor (init : InitSystem) (spec : ServiceSpec) (e : DeferEntry) : Prop :=
  ∃ action priority sources now,
    e = ServiceEnv.deferEntry init spec action priority sources now ∧
    (action = .restart ∧ priority = .restart ∨ action = .reload ∧ priority = .reload)

/-- What the apply of a service may have done when it leaves, whichever way. -/
inductive Turn (id : ResourceId) (init : InitSystem) (spec : ServiceSpec) (s s' : RunState V) :
    Prop
  | consulted {acts : List Act} (h : Consulted id s s' acts)
  | stopped {acts : List Act} {t : RunState V} (hstate : spec.state ≠ .running)
      (h : Consulted id s t acts) (hfs : s'.machine.fs = t.machine.fs)
      (hrecord : s'.machine.world.record = t.machine.world.record ++
        [.stopped id init spec.name (Journal.pending t.machine.fs.dir)])
  | enqueued {acts : List Act} {t : RunState V} {e : DeferEntry} (hstate : spec.state = .running)
      (h : Consulted id s t acts) (he : e.MadeFor init spec) (hoffered : Offered e t s')

/-- The record only grows. -/
theorem Turn.record {id : ResourceId} {init : InitSystem} {spec : ServiceSpec}
    {s s' : RunState V} (h : Turn id init spec s s') :
    ∃ acts, s'.machine.world.record = s.machine.world.record ++ acts := by
  cases h with
  | consulted h => exact ⟨_, h.record⟩
  | stopped _ h _ hrecord => exact ⟨_, by rw [hrecord, h.record, List.append_assoc]⟩
  | enqueued _ h _ hoffered => exact ⟨_, hoffered.record.trans h.record⟩

/-- A restart that was asked for has been taken care of: the unit was started, or
    the journal knows. -/
def Heeded (id : ResourceId) (init : InitSystem) (spec : ServiceSpec) (s s' : RunState V) :
    Prop :=
  (∃ acts, s'.machine.world.record = s.machine.world.record ++ acts ∧
    .started id init spec.name ∈ acts) ∨
  ∃ t e, t.machine.fs = s.machine.fs ∧ e.MadeFor init spec ∧ e.action = .restart ∧
    Offered e t s' ∧ Accepted e t s'

/-- What an error of the apply comes from. -/
def Excused (id : ResourceId) (init : InitSystem) (spec : ServiceSpec) (restart : Bool)
    (s s' : RunState V) : Prop :=
  (∃ acts, s'.machine.world.record = s.machine.world.record ++ acts ∧
    ∃ act ∈ acts, act.Blamed id init spec) ∨
  ∃ t e, t.machine.fs = s.machine.fs ∧ e.MadeFor init spec ∧
    (restart = true → e.action = .restart) ∧ Refused e t s'

section After

variable {id : ResourceId} {init : InitSystem} {spec : ServiceSpec} {restart : Bool}
  {s t s' : RunState V} {acts : List Act} (ht : Consulted id s t acts)
include ht

/-! What was asked before does not matter. -/

theorem Turn.after (h : Turn id init spec t s') : Turn id init spec s s' := by
  cases h with
  | consulted h => exact .consulted (ht.trans h)
  | stopped hstate h hfs hrecord => exact .stopped hstate (ht.trans h) hfs hrecord
  | enqueued hstate h he hoffered => exact .enqueued hstate (ht.trans h) he hoffered

theorem Heeded.after (h : Heeded id init spec t s') : Heeded id init spec s s' := by
  rcases h with ⟨acts', hrecord, hstarted⟩ | ⟨u, e, hfs, hrest⟩
  · exact .inl ⟨acts ++ acts', by rw [hrecord, ht.record, List.append_assoc],
      List.mem_append_right _ hstarted⟩
  · exact .inr ⟨u, e, hfs.trans ht.fs, hrest⟩

theorem Excused.after (h : Excused id init spec restart t s') :
    Excused id init spec restart s s' := by
  rcases h with ⟨acts', hrecord, act, hact, hblamed⟩ | ⟨u, e, hfs, hrest⟩
  · exact .inl ⟨acts ++ acts', by rw [hrecord, ht.record, List.append_assoc], act,
      List.mem_append_right _ hact, hblamed⟩
  · exact .inr ⟨u, e, hfs.trans ht.fs, hrest⟩

end After

/-- A turn that ends well. -/
def GoodTurn (id : ResourceId) (init : InitSystem) (spec : ServiceSpec) (restart : Bool)
    (s s' : RunState V) : Prop :=
  Turn id init spec s s' ∧
    (spec.state = .running → restart = true → Heeded id init spec s s')

/-- A turn that ends with an error. -/
def BadTurn (id : ResourceId) (init : InitSystem) (spec : ServiceSpec) (restart : Bool)
    (s s' : RunState V) : Prop :=
  Turn id init spec s s' ∧ Excused id init spec restart s s'

namespace ServiceEnv

/-- The table, read from its entries. -/
theorem decideAction_cases (spec : ServiceSpec) (isUp restart reload : Bool) :
    match decideAction spec isUp restart reload with
    | .noChange => spec.state = .running → restart = false
    | .start => spec.state = .running
    | .stop => spec.state ≠ .running
    | .restart => spec.state = .running
    | .reload => spec.state = .running ∧ restart = false := by
  unfold decideAction
  cases hstate : spec.state <;> cases isUp <;> cases restart <;> cases reload <;> simp

variable {P : Type} (env : ServiceEnv P V)

/-- The four exits of `performAction`, put together. -/
theorem triple_performAction (id : ResourceId) (init : InitSystem) (spec : ServiceSpec)
    (isUp restart reload : Bool) (sources : List String) {start stop : ApplyM V ChangeReport}
    (hstart : Starts id init spec start)
    (hstop : Consults id (Act.Blamed id init spec) stop) (s : RunState V) :
    Triple (· = s)
      (env.performAction id init spec (decideAction spec isUp restart reload) sources start stop)
      (fun _ s' => GoodTurn id init spec restart s s')
      (fun _ s' => BadTurn id init spec restart s s') := by
  have htable := decideAction_cases spec isUp restart reload
  have hvalidate := env.consults_runValidateIfConfigured id init spec
  -- the two deferred actions differ in the entry only
  have hdefer : ∀ action priority,
      (action = .restart ∧ priority = .restart ∨ action = .reload ∧ priority = .reload) →
      spec.state = .running → (restart = true → action = .restart) →
      Triple (· = s) (do
        env.runValidateIfConfigured spec
        env.enqueueDefer init spec action priority sources)
        (fun _ s' => GoodTurn id init spec restart s s')
        (fun _ s' => BadTurn id init spec restart s s') := by
    intro action priority hkind hstate haction
    refine Triple.bind ((hvalidate s).conseq (fun _ hs => hs) (fun _ _ h => h) ?_) fun _ =>
      Triple.of_state fun t ⟨acts, ht⟩ => ?_
    · rintro err s' ⟨acts, h, act, hact, hblamed⟩
      exact ⟨.consulted h, .inl ⟨acts, h.record, act, hact, hblamed⟩⟩
    · intro t' ht'
      obtain rfl : t' = t := ht'
      have hmade : ∀ now, (deferEntry init spec action priority sources now).MadeFor init spec :=
        fun now => ⟨action, priority, sources, now, rfl, hkind⟩
      refine (triple_enqueue _ _ _ t').conseq (fun _ hs => hs) ?_ ?_ t' rfl
      · rintro report s' ⟨hoffered, haccepted⟩
        exact ⟨.enqueued hstate ht (hmade _) hoffered,
          fun _ hrestart => .inr ⟨t', _, ht.fs, hmade _, haction hrestart, hoffered, haccepted⟩⟩
      · rintro err s' ⟨hoffered, hrefused⟩
        exact ⟨.enqueued hstate ht (hmade _) hoffered,
          .inr ⟨t', _, ht.fs, hmade _, haction, hrefused⟩⟩
  have hnote : ∀ (t : RunState V) acts, Consulted id s t acts → spec.state ≠ .running →
      Triple (· = t) (ApplyM.noteStopped id init spec.name) (fun _ s' => Turn id init spec s s')
        (fun _ s' => BadTurn id init spec restart s s') := by
    intro t acts ht hstate
    refine Triple.write fun t' ht' => ?_
    obtain rfl : t' = t := ht'
    exact .stopped hstate ht rfl rfl
  cases haction : decideAction spec isUp restart reload with
  | noChange =>
    rw [haction] at htable
    by_cases hstate : spec.state = .running
    · simp only [performAction, if_neg (not_not_intro hstate)]
      refine Triple.ret fun s' hs => ?_
      obtain rfl : s' = s := hs
      exact ⟨.consulted (.refl s'), fun _ hrestart => absurd (htable hstate) (by simp [hrestart])⟩
    · simp only [performAction, if_pos hstate]
      refine Triple.bind (hnote s [] (.refl s) hstate) fun _ => Triple.ret fun s' h => ?_
      exact ⟨h, fun hrunning => absurd hrunning hstate⟩
  | start =>
    refine Triple.bind ((hstart s).conseq (fun _ hs => hs) (fun _ _ h => h) ?_) fun report =>
      Triple.of_state fun t ⟨acts, ht, hstarted⟩ => ?_
    · rintro err s' ⟨acts, h, act, hact, hblamed⟩
      exact ⟨.consulted h, .inl ⟨acts, h.record, act, hact, hblamed⟩⟩
    · refine Triple.bind ((env.asks_runHealthCheckIfConfigured id spec t).conseq (fun _ hs => hs)
        (fun _ _ h => h) ?_) fun _ => Triple.ret ?_
      · rintro err s' ⟨acts', h⟩
        exact ⟨.consulted (ht.trans h), .inl ⟨_, (ht.trans h).record, _,
          List.mem_append_left _ hstarted, .inr (.inr rfl)⟩⟩
      · rintro s' ⟨acts', h⟩
        exact ⟨.consulted (ht.trans h), fun _ _ => .inl ⟨_, (ht.trans h).record,
          List.mem_append_left _ hstarted⟩⟩
  | stop =>
    rw [haction] at htable
    refine Triple.bind ((hstop s).conseq (fun _ hs => hs) (fun _ _ h => h) ?_) fun report =>
      Triple.of_state fun t ⟨acts, ht⟩ => ?_
    · rintro err s' ⟨acts, h, act, hact, hblamed⟩
      exact ⟨.consulted h, .inl ⟨acts, h.record, act, hact, hblamed⟩⟩
    · refine Triple.bind (hnote t acts ht htable) fun _ => Triple.ret fun s' h => ?_
      exact ⟨h, fun hrunning => absurd hrunning htable⟩
  | restart =>
    rw [haction] at htable
    exact hdefer .restart .restart (.inl ⟨rfl, rfl⟩) htable fun _ => rfl
  | reload =>
    rw [haction] at htable
    exact hdefer .reload .reload (.inr ⟨rfl, rfl⟩) htable.1 fun h => by simp [htable.2] at h

end ServiceEnv

/-- The state in which a service has announced what it wants. -/
def RunState.want (id : ResourceId) (init : InitSystem) (spec : ServiceSpec) (s : RunState V) :
    RunState V :=
  s.setWorld (s.machine.world.note [.wanted id init spec.name spec.state])

namespace ServiceEnv

variable {P : Type} (env : ServiceEnv P V)

def connected : InitSystem → Bool
  | .runr => env.runr.isSome
  | .systemd => env.systemd.isSome

/-- The questions come first, then the action. -/
theorem triple_consult {α : Type} {id : ResourceId} {init : InitSystem} {spec : ServiceSpec}
    {restart : Bool} {ask : ApplyM V α} {act : α → ApplyM V ChangeReport}
    (hask : Consults id (Act.Blamed id init spec) ask)
    (hact : ∀ a s, Triple (· = s) (act a)
      (fun _ s' => GoodTurn id init spec restart s s')
      (fun _ s' => BadTurn id init spec restart s s'))
    (s : RunState V) :
    Triple (· = s) (ask >>= act)
      (fun _ s' => GoodTurn id init spec restart s s')
      (fun _ s' => BadTurn id init spec restart s s') := by
  refine Triple.bind ((hask s).conseq (fun _ hs => hs) (fun _ _ h => h) ?_) fun a =>
    Triple.of_state fun t ⟨acts, ht⟩ => ?_
  · rintro err s' ⟨acts, h, act', hact', hblamed⟩
    exact ⟨.consulted h, .inl ⟨acts, h.record, act', hact', hblamed⟩⟩
  · refine (hact a t).conseq (fun _ hs => hs) ?_ ?_
    · rintro report s' ⟨hturn, hheeded⟩
      exact ⟨hturn.after ht, fun hstate hrestart => (hheeded hstate hrestart).after ht⟩
    · rintro err s' ⟨hturn, hexcused⟩
      exact ⟨hturn.after ht, hexcused.after ht⟩

/-- **The turn of a service**, from the moment it says what it wants. -/
theorem triple_run (init : InitSystem) (r : Resource P) {diff : Diff P}
    (changed : Finset ResourceId) {spec : ServiceSpec}
    (hdecode : env.decode init r.payload = .ok spec) (hdiff : diff ≠ .noChange) (s : RunState V) :
    Triple (· = s) (env.run init r diff changed)
      (fun _ s' => GoodTurn r.id init spec (triggered r.restartOn changed)
        (s.want r.id init spec) s')
      (fun _ s' => Turn r.id init spec (s.want r.id init spec) s' ∧
        (env.connected init = true → BadTurn r.id init spec (triggered r.restartOn changed)
          (s.want r.id init spec) s')) := by
  have hfault : ∀ act : Act, act.isFault = true → act.Blamed r.id init spec :=
    fun act h => .inl h
  have hrun : ∀ x : ApplyM V ChangeReport, env.run init r diff changed = (do
      ApplyM.note [.wanted r.id init spec.name spec.state]; x) →
      (∀ t, Triple (· = t) x
        (fun _ s' => GoodTurn r.id init spec (triggered r.restartOn changed) t s')
        (fun _ s' => Turn r.id init spec t s' ∧ (env.connected init = true →
          BadTurn r.id init spec (triggered r.restartOn changed) t s'))) →
      Triple (· = s) (env.run init r diff changed)
        (fun _ s' => GoodTurn r.id init spec (triggered r.restartOn changed)
          (s.want r.id init spec) s')
        (fun _ s' => Turn r.id init spec (s.want r.id init spec) s' ∧
          (env.connected init = true → BadTurn r.id init spec (triggered r.restartOn changed)
            (s.want r.id init spec) s')) := by
    intro x hx htriple
    rw [hx]
    refine Triple.bind (Triple.write (Q := fun _ t => t = s.want r.id init spec) ?_) fun _ =>
      htriple _
    rintro s' rfl
    rfl
  cases init with
  | runr =>
    refine hrun _ (by
      unfold run runrRun
      cases diff with
      | noChange => exact absurd rfl hdiff
      | add description payload => simp only [hdecode]; rfl
      | update source target description => simp only [hdecode]; rfl) fun t => ?_
    cases hhandle : env.runr with
    | none =>
      refine Triple.raise fun s' hs => ?_
      obtain rfl : s' = t := hs
      exact ⟨.consulted (Consulted.refl s'), fun hconnected => by
        simp [connected, hhandle] at hconnected⟩
    | some runr =>
      exact (triple_consult (consults_runrCurrent hfault r.id runr spec)
        (fun current t => env.triple_performAction r.id .runr spec _ _ _ _
          (starts_runr r.id runr spec) (consults_runrExecuteStop hfault r.id runr spec) t)
        t).conseq (fun _ hs => hs) (fun _ _ h => h) (fun _ _ h => ⟨h.1, fun _ => h⟩)
  | systemd =>
    refine hrun _ (by
      unfold run systemdRun
      cases diff with
      | noChange => exact absurd rfl hdiff
      | add description payload => simp only [hdecode]; rfl
      | update source target description => simp only [hdecode]; rfl) fun t => ?_
    cases hhandle : env.systemd with
    | none =>
      refine Triple.raise fun s' hs => ?_
      obtain rfl : s' = t := hs
      exact ⟨.consulted (Consulted.refl s'), fun hconnected => by
        simp [connected, hhandle] at hconnected⟩
    | some systemd =>
      exact (triple_consult (consults_systemdCurrent hfault r.id systemd spec)
        (fun before t => env.triple_performAction r.id .systemd spec _ _ _ _
          (starts_systemd r.id systemd spec before)
          (consults_systemdExecuteStop hfault r.id systemd spec) t)
        t).conseq (fun _ hs => hs) (fun _ _ h => h) (fun _ _ h => ⟨h.1, fun _ => h⟩)

/-! ## The primitives -/

/-- The apply of a service changes nothing, or is a turn. -/
theorem apply_cases (init : InitSystem) (r : Resource P) (diff : Diff P)
    (ctx : ApplyCtx (RunState V)) :
    ((env.primitive init).apply r diff ctx).2.changedResources = ctx.changedResources ∧
    (((env.primitive init).apply r diff ctx).2.state = ctx.state ∨
      ∃ spec, env.decode init r.payload = .ok spec ∧ Turn r.id init spec
        (ctx.state.want r.id init spec) ((env.primitive init).apply r diff ctx).2.state) := by
  have hidle : env.run init r diff ctx.changedResources ctx.state = .ok .noChange ctx.state ∨
      (∃ err, env.run init r diff ctx.changedResources ctx.state = .error err ctx.state) ∨
      ∃ spec, diff ≠ .noChange ∧ env.decode init r.payload = .ok spec := by
    cases diff with
    | noChange => exact .inl (by cases init <;> rfl)
    | _ =>
      cases hdecode : env.decode init r.payload with
      | ok spec => exact .inr (.inr ⟨spec, by simp, rfl⟩)
      | error err =>
        refine .inr (.inl ⟨err, ?_⟩)
        cases init <;> simp only [run, runrRun, systemdRun, hdecode] <;> rfl
  simp only [primitive]
  rcases hidle with hrun | ⟨err, hrun⟩ | ⟨spec, hdiff, hdecode⟩
  · rw [hrun]
    exact ⟨rfl, .inl rfl⟩
  · rw [hrun]
    exact ⟨rfl, .inl rfl⟩
  · have hturn := env.triple_run init r ctx.changedResources hdecode hdiff ctx.state ctx.state rfl
    cases hrun : env.run init r diff ctx.changedResources ctx.state with
    | ok report s' =>
      rw [hrun] at hturn
      exact ⟨rfl, .inr ⟨spec, hdecode, hturn.1⟩⟩
    | error err s' =>
      rw [hrun] at hturn
      exact ⟨rfl, .inr ⟨spec, hdecode, hturn.1⟩⟩

/-- A service that was asked to restart takes care of it or has an excuse. -/
theorem apply_heeds {init : InitSystem} (r : Resource P) {diff : Diff P}
    (ctx : ApplyCtx (RunState V)) {spec : ServiceSpec}
    (hdecode : env.decode init r.payload = .ok spec) (hdiff : diff ≠ .noChange)
    (hstate : spec.state = .running)
    (hrestart : triggered r.restartOn ctx.changedResources = true)
    (hconnected : env.connected init = true) :
    Heeded r.id init spec (ctx.state.want r.id init spec)
      ((env.primitive init).apply r diff ctx).2.state ∨
    Excused r.id init spec true (ctx.state.want r.id init spec)
      ((env.primitive init).apply r diff ctx).2.state := by
  have hturn := env.triple_run init r ctx.changedResources hdecode hdiff ctx.state ctx.state rfl
  simp only [primitive]
  cases hrun : env.run init r diff ctx.changedResources ctx.state with
  | ok report s' =>
    rw [hrun] at hturn
    exact .inl (hturn.2 hstate hrestart)
  | error err s' =>
    rw [hrun, hrestart] at hturn
    exact .inr (hturn.2 hconnected).2

end ServiceEnv

/-! ## Signals -/

namespace SignalEnv

variable {P : Type} (env : SignalEnv P V) (utcNow : V → Nat) (journalRoot : String)

/-- It was sent, or offered to the journal, or came to nothing. -/
def Signalled (id : ResourceId) (s s' : RunState V) : Prop :=
  Consulted id s s' [] ∨ ∃ spec argv now, Offered (signalEntry spec argv now) s s'

theorem Signalled.record {id : ResourceId} {s s' : RunState V} (h : Signalled id s s') :
    s'.machine.world.record = s.machine.world.record := by
  rcases h with hconsulted | ⟨spec, argv, now, hoffered⟩
  · simpa using hconsulted.record
  · exact hoffered.record

theorem run_signalled (r : Resource P) (diff : Diff P) :
    Leaves (env.run utcNow journalRoot r diff) (Signalled r.id) := by
  have hraise : ∀ err, Leaves (throw err : ApplyM V ChangeReport) (Signalled r.id) :=
    fun err => Leaves.raise (fun s => .inl (.refl s)) err
  have hsend : ∀ spec argv, Leaves (if spec.deferred then
      enqueueDefer utcNow journalRoot spec argv else env.executeSync spec argv)
      (Signalled r.id) := by
    intro spec argv
    split
    · intro s s₀ hs
      obtain rfl : s₀ = s := hs
      exact (triple_enqueue _ _ _ s₀).conseq (fun _ hs => hs)
        (fun _ _ h => .inr ⟨spec, argv, _, h.1⟩) (fun _ _ h => .inr ⟨spec, argv, _, h.1⟩) s₀ rfl
    · intro s
      refine Triple.bind ((triple_outside r.id _ s).conseq (fun _ hs => hs) (fun _ _ h => h)
        (fun _ _ h => h.elim)) fun answer => ?_
      cases answer with
      | ok _ => exact Triple.ret fun s' h => .inl h
      | error err => exact Triple.raise fun s' h => .inl h
  have hbuild : ∀ spec, Leaves (do
      let argv ← ApplyM.orThrow (fun e => e) (buildSignalArgv spec)
      if spec.deferred then enqueueDefer utcNow journalRoot spec argv
      else env.executeSync spec argv) (Signalled r.id) := by
    intro spec
    cases buildSignalArgv spec with
    | error err => exact hraise err
    | ok argv => exact hsend spec argv
  unfold run
  split
  · exact Leaves.ret (fun s => .inl (.refl s)) ChangeReport.noChange
  all_goals
    cases hdecode : env.decode r.payload with
    | error err => exact hraise err
    | ok spec => exact hbuild spec

theorem apply_cases (r : Resource P) (diff : Diff P) (ctx : ApplyCtx (RunState V)) :
    ((env.primitive utcNow journalRoot).apply r diff ctx).2.changedResources =
      ctx.changedResources ∧
    Signalled r.id ctx.state ((env.primitive utcNow journalRoot).apply r diff ctx).2.state := by
  have hrun := env.run_signalled utcNow journalRoot r diff ctx.state ctx.state rfl
  simp only [primitive]
  cases h : env.run utcNow journalRoot r diff ctx.state with
  | ok report s' =>
    rw [h] at hrun
    exact ⟨rfl, hrun⟩
  | error err s' =>
    rw [h] at hrun
    exact ⟨rfl, hrun⟩

end SignalEnv

end Bosun
