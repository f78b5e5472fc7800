import Bosun.StopRequests

/-!
# The dry run

`Orchestrator::plan_only` plans every resource and applies none.  Plans and failures go into two
lists of the report, the three kinds of diffs are counted, and the exit code is computed from the
counters.
-/

namespace Bosun

structure ResourcePlan (P : Type) where
  id : ResourceId
  kind : ResourceKind
  diff : Diff P
  annotations : List String

structure PlanSummary where
  add : Nat
  update : Nat
  noChange : Nat

def PlanSummary.zero : PlanSummary := ⟨0, 0, 0⟩

structure PlanFailure where
  id : ResourceId
  kind : ResourceKind
  message : String

structure PlanReport (P : Type) where
  resources : List (ResourcePlan P)
  summary : PlanSummary
  errors : List PlanFailure

namespace PlanReport

variable {P : Type} (report : PlanReport P)

def hasDrift : Bool := 0 < report.summary.add || 0 < report.summary.update

theorem hasDrift_iff : report.hasDrift = true ↔
    0 < report.summary.add ∨ 0 < report.summary.update := by
  rw [hasDrift, Bool.or_eq_true, decide_eq_true_iff, decide_eq_true_iff]

/-- The dry run does not ask for it. -/
def hasErrors : Bool := !report.errors.isEmpty

end PlanReport

def DRY_RUN_DRIFT : Nat := 2
def EVAL_ERROR : Nat := 3

namespace ApplyArgs

variable {P S : Type} (args : ApplyArgs P S)

/-! ## `plan_only` -/

/-- The plan of one resource. -/
def planOne (id : ResourceId) (state : S) : Except PlanFailure (ResourcePlan P) × S :=
  match args.registry.get id with
  | none =>
    (.error ⟨id, unknownKind, "resource missing from registry during topo iteration"⟩, state)
  | some r =>
    match args.primitives r.kind with
    | none =>
      (.error ⟨id, r.kind, "no primitive registered for kind '" ++ r.kind.asStr ++ "'"⟩, state)
    | some primitive =>
      let (answer, state) := primitive.plan r state
      match callPrimitive ("plan " ++ r.id.asStr) answer with
      | .ok diff => (.ok ⟨id, r.kind, diff, []⟩, state)
      | .error e => (.error ⟨id, r.kind, e.display⟩, state)

def recordPlan (report : PlanReport P) :
    Except PlanFailure (ResourcePlan P) → PlanReport P
  | .error failure => { report with errors := report.errors ++ [failure] }
  | .ok plan =>
    let summary := match plan.diff with
      | .noChange => { report.summary with noChange := report.summary.noChange + 1 }
      | .add _ _ => { report.summary with add := report.summary.add + 1 }
      | .update _ _ _ => { report.summary with update := report.summary.update + 1 }
    { report with resources := report.resources ++ [plan], summary := summary }

/-- `for id in order`. -/
def planLoop : List ResourceId → PlanReport P → S → PlanReport P × S
  | [], report, state => (report, state)
  | id :: order, report, state =>
    let (answer, state) := args.planOne id state
    planLoop order (recordPlan report answer) state

def planOnly (it : Registry.HashIter) (state : S) :
    Except RegistryError (PlanReport P) := do
  let order ← args.registry.topologicalOrder it
  return (args.planLoop order ⟨[], .zero, []⟩ state).1

/-- The exit code of `bosun run --dry-run` once the registry stands. -/
def dryRunExit (it : Registry.HashIter) (state : S) : Nat :=
  match args.planOnly it state with
  | .ok report => if report.hasDrift then DRY_RUN_DRIFT else SUCCESS
  | .error _ => EVAL_ERROR

/-! ## What the resources answer -/

/-- What comes of each resource, one after the other. -/
def planAnswers : List ResourceId → S → List (ResourceId × Except PlanFailure (ResourcePlan P))
  | [], _ => []
  | id :: order, state =>
    (id, (args.planOne id state).1) :: planAnswers order (args.planOne id state).2

theorem planAnswers_ids (order : List ResourceId) : ∀ state,
    (args.planAnswers order state).map Prod.fst = order := by
  induction order with
  | nil =>
    intro state
    rfl
  | cons id order ih =>
    intro state
    rw [planAnswers, List.map_cons, ih]

/-- A plan that is not `NoChange`. -/
def IsDrift (answer : Except PlanFailure (ResourcePlan P)) : Prop :=
  ∃ plan, answer = .ok plan ∧ plan.diff ≠ .noChange

theorem hasDrift_recordPlan (report : PlanReport P)
    (answer : Except PlanFailure (ResourcePlan P)) :
    (recordPlan report answer).hasDrift = true ↔ report.hasDrift = true ∨ IsDrift answer := by
  rw [PlanReport.hasDrift_iff, PlanReport.hasDrift_iff]
  cases answer with
  | error failure => simp [recordPlan, IsDrift]
  | ok plan =>
    obtain ⟨id, kind, diff, annotations⟩ := plan
    cases diff <;> simp [recordPlan, IsDrift]

/-- The counters show a drift exactly when some resource drifts. -/
theorem hasDrift_planLoop (order : List ResourceId) : ∀ (report : PlanReport P) (state : S),
    (args.planLoop order report state).1.hasDrift = true ↔
      report.hasDrift = true ∨ ∃ p ∈ args.planAnswers order state, IsDrift p.2 := by
  induction order with
  | nil =>
    intro report state
    simp [planLoop, planAnswers]
  | cons id order ih =>
    intro report state
    rw [planLoop, ih, hasDrift_recordPlan, planAnswers, or_assoc]
    simp only [List.exists_mem_cons_iff]

/-- Every resource was planned, and nothing is to be done for it. -/
def AllInPlace (order : List ResourceId) (state : S) : Prop :=
  ∀ p ∈ args.planAnswers order state, ∃ plan, p.2 = .ok plan ∧ plan.diff = .noChange

/-- **The exit code of a dry run** says that everything is in place only when it is, exactly if
    some resource drifts or none fails to be planned. -/
theorem dryRunExit_iff (it : Registry.HashIter) (state : S) :
    (args.dryRunExit it state = SUCCESS → ∃ order, args.registry.topologicalOrder it = .ok order ∧
      order.Perm args.registry.ids ∧ (args.planAnswers order state).map Prod.fst = order ∧
      args.AllInPlace order state) ↔
    ∀ order, args.registry.topologicalOrder it = .ok order →
      (∃ p ∈ args.planAnswers order state, IsDrift p.2) ∨
      ∀ p ∈ args.planAnswers order state, ∃ plan, p.2 = .ok plan := by
  cases horder : args.registry.topologicalOrder it with
  | error e => simp [dryRunExit, planOnly, horder, bind, Except.bind, EVAL_ERROR, SUCCESS]
  | ok order =>
    have hexit : args.dryRunExit it state = SUCCESS ↔
        ¬ ∃ p ∈ args.planAnswers order state, IsDrift p.2 := by
      have hdrift := args.hasDrift_planLoop order ⟨[], .zero, []⟩ state
      have hzero : (⟨[], .zero, []⟩ : PlanReport P).hasDrift = false := rfl
      rw [hzero] at hdrift
      simp only [Bool.false_eq_true, false_or] at hdrift
      rw [← hdrift]
      simp only [dryRunExit, planOnly, horder, bind, Except.bind, pure, Except.pure]
      cases (args.planLoop order ⟨[], .zero, []⟩ state).1.hasDrift <;>
        simp [DRY_RUN_DRIFT, SUCCESS]
    rw [hexit]
    constructor
    · rintro h order' ⟨⟩
      by_cases hdrift : ∃ p ∈ args.planAnswers order state, IsDrift p.2
      · exact .inl hdrift
      · right
        obtain ⟨_, ⟨⟩, -, -, hplace⟩ := h hdrift
        intro p hp
        obtain ⟨plan, hplan, -⟩ := hplace p hp
        exact ⟨plan, hplan⟩
    · intro h hdrift
      refine ⟨order, rfl, (Registry.topologicalOrder_ok horder).1, args.planAnswers_ids order state,
        ?_⟩
      intro p hp
      obtain ⟨plan, hplan⟩ := (h order rfl).resolve_left hdrift p hp
      refine ⟨plan, hplan, ?_⟩
      by_contra hdiff
      exact hdrift ⟨p, hp, plan, hplan, hdiff⟩

end ApplyArgs

/-- A file whose plan fails. -/
def unplannable : ApplyArgs Unit Nat :=
  { confAndService with
    primitives := fun _ => some
      ⟨fun _ s => (.returned (.error (.io "read /etc/hosts" "permission denied")), s),
       fun _ _ ctx => (.returned (.ok .noChange), ctx)⟩
    registry := ⟨[hostsFile], by decide⟩ }

/-- The only resource cannot be planned, and the dry run is a success. -/
theorem unplannable_success :
    unplannable.dryRunExit ⟨id, fun _ => .rfl⟩ 0 = SUCCESS ∧
    unplannable.registry.topologicalOrder ⟨id, fun _ => .rfl⟩ = .ok [hostsFile.id] ∧
    ¬ unplannable.AllInPlace [hostsFile.id] 0 := by
  refine ⟨by decide, by decide, ?_⟩
  intro h
  obtain ⟨plan, hplan, -⟩ := h _ List.mem_cons_self
  cases hplan

end Bosun
