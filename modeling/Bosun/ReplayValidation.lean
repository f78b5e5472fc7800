import Bosun.ReplayCycles

/-!
# Validators and the replay

An entry of the journal may carry the command that validates the configuration
it is about.  The primitive runs that command before it writes the entry; the
replay, which may come many runs later, carries out the action without running
it again.  `validated_iff` says which runs of cycles nevertheless dispatch
nothing unvalidated: those that come to no such entry.
-/

namespace Bosun

/-- The entry an act is a dispatch of. -/
def Act.entry : Act → Option DeferEntry
  | .unit (.replay e) _ _ _ _ | .query (.replay e) _ _ _ => some e
  | _ => none

/-- In one cycle, the validators have their say. -/
structure Validated (acts : List Act) : Prop where
  /-- No restart and no reload goes out unless the validator has passed before. -/
  passed : ∀ before after e init op name error argv,
    acts = before ++ .unit (.replay e) init op name error :: after →
    op = .restart ∨ op = .reload → e.validateCmd = some argv → .validated argv true ∈ before
  /-- Nothing goes out for an entry whose validator has failed. -/
  failed : ∀ before after act e argv, acts = before ++ act :: after →
    act.entry = some e → e.validateCmd = some argv → .validated argv false ∉ before

namespace RealDispatchClient

variable {V : Type} (client : RealDispatchClient V)

/-- The replay would send this entry out, and it has a validator. -/
def unvalidated (e : DeferEntry) : Bool :=
  e.validateCmd.isSome && e.route.any client.connected &&
    (e.action.unitOp = some .restart || e.action.unitOp = some .reload)

end RealDispatchClient

/-- The entries a loop comes to, each with the machine just before its dispatch. -/
def ReplayArgs.passes {W : Type} (args : ReplayArgs W) :
    List DeferEntry → ReplayReport → Machine W → List (DeferEntry × Machine W)
  | [], _, _ => []
  | entry :: entries, report, m =>
    let (cancelled, world) := args.platform.isCancelled m.world
    let m := { m with world := world }
    if cancelled then []
    else (entry, m) ::
      match args.replayEntry entry report m with
      | (.ok report, m) => passes args entries report m
      | (.error _, _) => []

def Cycle.passes {V : Type} (c : Cycle V) (m : Machine (World V)) :
    List (DeferEntry × Machine (World V)) :=
  match m.journal Journal.listSorted with
  | (.ok entries, m) => c.backends.replayArgs.passes entries .zero m
  | (.error _, _) => []

/-- The record of a cycle is the record of its dispatches. -/
theorem record_replayEntries {V : Type} (backends : Backends V) (entries : List DeferEntry)
    (report : ReplayReport) (m : Machine (World V)) :
    (backends.replayArgs.replayEntries entries report m).2.world.record = m.world.record ++
      (backends.replayArgs.passes entries report m).flatMap
        fun p => backends.client.actsOf p.1 p.2.world := by
  induction entries generalizing report m with
  | nil => simp [ReplayArgs.replayEntries, ReplayArgs.passes]
  | cons e entries ih =>
    cases hcancelled : backends.replayArgs.platform.cancelled
        (backends.replayArgs.platform.tick m.world) with
    | true =>
      simp only [ReplayArgs.replayEntries, ReplayArgs.passes, Platform.isCancelled, hcancelled,
        if_true, List.flatMap_nil, List.append_nil]
      rfl
    | false =>
      simp only [ReplayArgs.replayEntries, ReplayArgs.passes, Platform.isCancelled, hcancelled,
        Bool.false_eq_true, if_false, List.flatMap_cons]
      obtain ⟨fate, hreached⟩ := backends.replayArgs.replayEntry_reached e report
        { m with world := backends.replayArgs.platform.tick m.world }
      have hrecord : (backends.replayArgs.replayEntry e report
          { m with world := backends.replayArgs.platform.tick m.world }).2.world.record =
          m.world.record ++ backends.client.actsOf e (backends.replayArgs.platform.tick m.world) :=
        hreached.record.trans (backends.client.record_dispatch e _).1
      rcases hrun : backends.replayArgs.replayEntry e report
        { m with world := backends.replayArgs.platform.tick m.world } with ⟨_ | report', m'⟩
      · rw [hrun] at hrecord
        simpa using hrecord
      · rw [hrun] at hrecord
        dsimp only at hrecord ⊢
        rw [ih, hrecord, List.append_assoc]

theorem Cycle.acts_eq {V : Type} (c : Cycle V) (m : Machine (World V)) :
    c.acts m = (c.passes m).flatMap fun p => c.backends.client.actsOf p.1 p.2.world := by
  unfold Cycle.acts Cycle.finish Cycle.passes ReplayArgs.replayWithHealthCheck
  have hworld := m.world_journal Journal.listSorted
  rcases hlist : m.journal Journal.listSorted with ⟨_ | entries, m'⟩
  · rw [hlist] at hworld
    simp only at hworld
    simp [hworld]
  · rw [hlist] at hworld
    simp only at hworld
    simp only [record_replayEntries, hworld, List.drop_left]

theorem Cycle.mem_acts_iff {V : Type} (c : Cycle V) (m : Machine (World V)) (act : Act) :
    act ∈ c.acts m ↔ ∃ p ∈ c.passes m, act ∈ c.backends.client.actsOf p.1 p.2.world := by
  rw [c.acts_eq m, List.mem_flatMap]

/-- The replay validates nothing. -/
theorem Cycle.validated_not_mem {V : Type} (c : Cycle V) (m : Machine (World V))
    (argv : List String) (passed : Bool) : .validated argv passed ∉ c.acts m := by
  intro hmem
  obtain ⟨p, -, hact⟩ := (c.mem_acts_iff m _).mp hmem
  rcases (c.backends.client.record_dispatch p.1 p.2.world).2 with
    ⟨hnil, -⟩ | ⟨init, error, -, -, hone⟩
  · simp [hnil] at hact
  · rw [hone, List.mem_singleton] at hact
    unfold DeferEntry.actOf at hact
    cases hop : p.1.action.unitOp <;> simp [hop] at hact

/-- One cycle: what it has to leave out is what it comes to unvalidated. -/
theorem validated_cycle_iff {V : Type} (c : Cycle V) (m : Machine (World V)) :
    Validated (c.acts m) ↔ ∀ p ∈ c.passes m, c.backends.client.unvalidated p.1 = false := by
  constructor
  · intro h p hp
    by_contra hunvalidated
    rw [Bool.not_eq_false] at hunvalidated
    simp only [RealDispatchClient.unvalidated, Bool.and_eq_true, Bool.or_eq_true,
      decide_eq_true_eq] at hunvalidated
    obtain ⟨⟨hsome, hconnected⟩, hop⟩ := hunvalidated
    obtain ⟨argv, hargv⟩ := Option.isSome_iff_exists.mp hsome
    rcases (c.backends.client.record_dispatch p.1 p.2.world).2 with
      ⟨-, hnot⟩ | ⟨init, error, -, -, hone⟩
    · rw [hconnected] at hnot
      cases hnot
    · have hmem : p.1.actOf init error ∈ c.acts m :=
        (c.mem_acts_iff m _).mpr ⟨p, hp, by simp [hone]⟩
      obtain ⟨before, after, hacts⟩ := List.append_of_mem hmem
      -- the act is that of a restart or a reload, so something has to come before it
      have hbefore : .validated argv true ∈ before := by
        rcases hop with hop | hop
        · exact h.passed before after p.1 init .restart p.1.target error argv
            (by simpa [DeferEntry.actOf, hop] using hacts) (.inl rfl) hargv
        · exact h.passed before after p.1 init .reload p.1.target error argv
            (by simpa [DeferEntry.actOf, hop] using hacts) (.inr rfl) hargv
      exact c.validated_not_mem m argv true (hacts ▸ List.mem_append_left _ hbefore)
  · intro h
    refine ⟨fun before after e init op name error argv hacts hop hvalidate => ?_,
      fun before after act e argv hacts _ _ hbefore => ?_⟩
    · have hmem : Act.unit (.replay e) init op name error ∈ c.acts m := by simp [hacts]
      obtain ⟨p, hp, hact⟩ := (c.mem_acts_iff m _).mp hmem
      rcases (c.backends.client.record_dispatch p.1 p.2.world).2 with
        ⟨hnil, -⟩ | ⟨init', error', hroute, hconnected, hone⟩
      · simp [hnil] at hact
      · rw [hone, List.mem_singleton] at hact
        have hfalse := h p hp
        unfold DeferEntry.actOf at hact
        cases hunitOp : p.1.action.unitOp with
        | none => simp [hunitOp] at hact
        | some op' =>
          simp only [hunitOp, Act.unit.injEq, Caller.replay.injEq] at hact
          obtain ⟨rfl, -, rfl, -⟩ := hact
          rcases hop with rfl | rfl <;>
            simp [RealDispatchClient.unvalidated, hvalidate, hroute, hconnected, hunitOp] at hfalse
    · exact c.validated_not_mem m argv false (hacts ▸ List.mem_append_left _ hbefore)

/-- **Which runs honour the validators**: those whose cycles come to no entry that
    they would send out unvalidated.  The replay itself runs no validator. -/
theorem validated_iff {V : Type} (cycles : List (Cycle V)) (m : Machine (World V)) :
    (∀ step ∈ steps cycles m, Validated (step.1.acts step.2)) ↔
      ∀ step ∈ steps cycles m, ∀ p ∈ step.1.passes step.2,
        step.1.backends.client.unvalidated p.1 = false := by
  refine ⟨fun h step hstep => ?_, fun h step hstep => ?_⟩
  · exact (validated_cycle_iff step.1 step.2).mp (h step hstep)
  · exact (validated_cycle_iff step.1 step.2).mpr (h step hstep)

/-- A cycle with a systemd that does what it is told. -/
def obedientCycle : Cycle Nat :=
  ⟨⟨⟨none, some SystemdHandle.obedient, Platform.quiet, Processes.bare⟩,
    fun _ v => (.ok (), v)⟩, fun m => m⟩

/-- A restart that is to be preceded by a check of the configuration. -/
def guardedRestart : DeferEntry :=
  { Journal.plainEntry "systemd" .restart "nginx" with validateCmd := some ["nginx", "-t"] }

theorem guardedRestart_not_validated :
    ¬ ∀ step ∈ steps [obedientCycle] ⟨onDisk guardedRestart, ⟨0, []⟩, []⟩,
      Validated (step.1.acts step.2) := by
  intro h
  have hacts : obedientCycle.acts ⟨onDisk guardedRestart, ⟨0, []⟩, []⟩ =
      [.unit (.replay guardedRestart) .systemd .restart "nginx" none] := by decide
  have hvalidated := h (obedientCycle, ⟨onDisk guardedRestart, ⟨0, []⟩, []⟩) List.mem_cons_self
  rw [hacts] at hvalidated
  exact List.not_mem_nil (hvalidated.passed [] [] guardedRestart .systemd .restart "nginx" none
    ["nginx", "-t"] rfl (.inl rfl) rfl)

end Bosun
