import Bosun.ApplyCalls
import Bosun.HealthCheck
import Bosun.RunAccounting

/-!
# Stopping at a signal and at the deadline

A run is told to stop by its token, which SIGTERM and SIGINT fire, or by its deadline.  Between
two resources the orchestrator looks at the token while the pacer sleeps, and nowhere else; the
deadline it leaves to the primitives.  The health checks leave it to whoever fires the token.

`PassHeeds` says what has to be the case in one pass of the loop for a stop to be obeyed there.
-/

namespace Bosun

/-! ## Clock and token go on -/

namespace Platform

variable {S : Type} (plat : Platform S)

/-- `t` may come after `s`: the clock has not gone back, and a token that had fired has. -/
def Later (s t : S) : Prop :=
  plat.clock s ≤ plat.clock t ∧ (plat.cancelled s = true → plat.cancelled t = true)

theorem later_refl (s : S) : plat.Later s s := ⟨Nat.le_refl _, fun h => h⟩

variable {plat}

theorem Later.trans {s t u : S} (hst : plat.Later s t) (htu : plat.Later t u) :
    plat.Later s u := ⟨hst.1.trans htu.1, fun h => htu.2 (hst.2 h)⟩

/-- A stop is for good. -/
theorem Later.interrupted {s t : S} {deadline : Nat} (h : plat.Later s t)
    (hs : plat.Interrupted deadline s) : plat.Interrupted deadline t :=
  hs.imp h.2 fun hle => hle.trans h.1

variable (plat)

theorem later_tick (s : S) : plat.Later s (plat.tick s) :=
  ⟨plat.clock_le_tick s, plat.cancelled_tick s⟩

theorem later_sleep (d : Nat) (s : S) : plat.Later s (plat.sleep d s) :=
  ⟨(Nat.le_add_right _ d).trans (plat.clock_add_le_sleep d s), plat.cancelled_sleep d s⟩

theorem later_cancellableSleep (total : Nat) (s : S) :
    plat.Later s (plat.cancellableSleep total s).2 :=
  plat.cancellableSleep_induction (plat.Later s) (fun _ h => h.trans (plat.later_tick _))
    (fun _ _ h => h.trans (plat.later_sleep _ _)) total (plat.later_refl s)

/-- A token that has fired is seen before anything is slept. -/
theorem cancellableSleep_of_cancelled {total : Nat} (htotal : total ≠ 0) {s : S}
    (hfired : plat.cancelled (plat.tick s) = true) :
    plat.cancellableSleep total s = (false, plat.tick s) := by
  have hlt : 0 < total := Nat.pos_of_ne_zero htotal
  simp [cancellableSleep, sleepLoop, hlt, isCancelled, hfired]

end Platform

/-- The outcomes of a resource that the run left alone. -/
def Outcome.isStopped : Outcome → Bool
  | skipped | interrupted _ => true
  | noChange | changed | failed _ | deferred _ => false

/-! ## One pass of the apply loop -/

namespace ApplyArgs

variable {P S : Type} (args : ApplyArgs P S)

/-- Nothing the loop calls turns back the clock or takes back the signal. -/
structure Timely : Prop where
  plan : ∀ r primitive s, args.primitives r.kind = some primitive →
    args.platform.Later s (primitive.plan r s).2
  markDirty : ∀ kind s, args.platform.Later s (args.markDirty kind s)
  apply : ∀ r primitive diff ctx, args.primitives r.kind = some primitive →
    args.platform.Later ctx.state (primitive.apply r diff ctx).2.state

variable {args} in
theorem Timely.keeps (h : args.Timely) (deadline : Nat) :
    args.Keeps fun ctx => args.platform.Interrupted deadline ctx.state where
  pause total ctx hctx := (args.platform.later_cancellableSleep total ctx.state).interrupted hctx
  plan r primitive ctx hprimitive hctx := (h.plan r primitive ctx.state hprimitive).interrupted hctx
  markDirty kind ctx hctx := (h.markDirty kind ctx.state).interrupted hctx
  apply r primitive diff ctx hprimitive hctx :=
    (h.apply r primitive diff ctx hprimitive).interrupted hctx
  recordChanged _ _ hctx := hctx

section Pass

variable (deadline interval idx : Nat) (id : ResourceId) (s : ApplyLoop S)

/-- The state in which the pacer's sleep is begun; `cancellable_sleep` looks at the token first. -/
def pauseBegun : Option S :=
  if 0 < idx ∧ interval ≠ 0 ∧ s.aborted = false then
    let (cancelled, state) := args.platform.isCancelled s.ctx.state
    if cancelled then none else some state
  else none

/-- The loop when the turn of the resource begins.  There is no turn once the run is aborted, nor
    when the pause was cut. -/
def turn : Option (ApplyLoop S) :=
  if 0 < idx ∧ interval ≠ 0 ∧ s.aborted = false then
    let (slept, state) := args.platform.cancellableSleep interval s.ctx.state
    if slept then some { s with ctx := { s.ctx with state := state } } else none
  else if s.aborted then none
  else some s

/-- The run was told to stop before the turn of the resource. -/
def StoppedBefore : Prop :=
  args.platform.Interrupted deadline s.ctx.state ∨
    ∃ t, args.turn interval idx s = some t ∧ args.platform.Interrupted deadline t.ctx.state

/-- The pass is not a turn of the resource, or leaves nothing of it to do: a dependency of its has
    failed, or its primitive answers `Cancelled` before anything is planned. -/
def Refuses (t : ApplyLoop S) : Prop :=
  ∃ r, args.registry.get id = some r ∧
    ((∃ dep ∈ r.dependsOn, dep ∈ t.failedOrInterrupted) ∨
      ∃ primitive, args.primitives r.kind = some primitive ∧
        (primitive.plan r t.ctx.state).1 = .returned (.error .cancelled))

/-- The pass obeys a stop: nothing is begun after it, the resource whose `apply` was called has its
    own result, and a resource whose turn had not begun is left alone. -/
structure PassObeys : Prop where
  pause : ∀ t, args.pauseBegun interval idx s = some t → ¬ args.platform.Interrupted deadline t
  apply : ∀ call, args.handedOver interval idx id s = some call →
    ¬ args.platform.Interrupted deadline call.ctx.state ∧
      args.Recorded call s (args.iteration interval idx id s)
  later : args.StoppedBefore deadline interval idx s →
    ∃ o, (args.iteration interval idx id s).resources = s.resources ++ [o] ∧
      o.outcome.isStopped = true

/-- What it takes for that.  When a pause is due, somebody has fired the token if the deadline is
    over; when the turn begins after a stop, the resource is refused; and no stop comes between
    the beginning of the turn and the call of `apply`. -/
structure PassHeeds : Prop where
  pause : 0 < idx → interval ≠ 0 → s.aborted = false →
    args.platform.FiredAt deadline (args.platform.tick s.ctx.state)
  turn : ∀ t, args.turn interval idx s = some t →
    args.platform.Interrupted deadline t.ctx.state → args.Refuses id t
  call : ∀ t call, args.turn interval idx s = some t →
    ¬ args.platform.Interrupted deadline t.ctx.state → args.processed id t = some call →
    ¬ args.platform.Interrupted deadline call.ctx.state

variable {interval idx s}

/-- A pass with a turn is that turn. -/
theorem turn_eq_some {t : ApplyLoop S} (h : args.turn interval idx s = some t) :
    args.iteration interval idx id s = args.processResource id t ∧
      args.handedOver interval idx id s = args.processed id t ∧
      t.resources = s.resources ∧ args.platform.Later s.ctx.state t.ctx.state := by
  unfold turn at h
  unfold iteration handedOver
  by_cases hpaces : 0 < idx ∧ interval ≠ 0 ∧ s.aborted = false
  · simp only [if_pos hpaces] at h ⊢
    have hlater := args.platform.later_cancellableSleep interval s.ctx.state
    cases hslept : (args.platform.cancellableSleep interval s.ctx.state).1 with
    | false => simp [hslept] at h
    | true =>
      simp only [hslept, if_true, Option.some.injEq] at h ⊢
      subst h
      exact ⟨rfl, rfl, rfl, hlater⟩
  · rw [if_neg hpaces] at h ⊢
    rw [if_neg hpaces]
    cases haborted : s.aborted with
    | true => simp [haborted] at h
    | false =>
      simp only [haborted, Bool.false_eq_true, if_false, Option.some.injEq] at h ⊢
      subst h
      exact ⟨rfl, rfl, rfl, args.platform.later_refl _⟩

/-- A pass without a turn leaves the resource alone. -/
theorem turn_eq_none (h : args.turn interval idx s = none) :
    args.handedOver interval idx id s = none ∧
      ∃ o, (args.iteration interval idx id s).resources = s.resources ++ [o] ∧
        o.outcome.isStopped = true := by
  unfold turn at h
  unfold iteration handedOver
  by_cases hpaces : 0 < idx ∧ interval ≠ 0 ∧ s.aborted = false
  · simp only [if_pos hpaces] at h ⊢
    cases hslept : (args.platform.cancellableSleep interval s.ctx.state).1 with
    | true => simp [hslept] at h
    | false => exact ⟨rfl, _, rfl, rfl⟩
  · rw [if_neg hpaces] at h ⊢
    rw [if_neg hpaces]
    cases haborted : s.aborted with
    | true => exact ⟨rfl, _, rfl, rfl⟩
    | false => simp [haborted] at h

variable {id}

/-- A refused resource is not applied. -/
theorem Refuses.processed {t : ApplyLoop S} (h : args.Refuses id t) :
    args.processed id t = none ∧
      ∃ o, (args.processResource id t).resources = t.resources ++ [o] ∧
        o.outcome.isStopped = true := by
  obtain ⟨r, hget, hrefused⟩ := h
  unfold ApplyArgs.processed processResource
  simp only [hget]
  cases hfind : r.dependsOn.find? fun dep => dep ∈ t.failedOrInterrupted with
  | some dep => exact ⟨rfl, _, rfl, rfl⟩
  | none =>
    rcases hrefused with ⟨dep, hdep, hfailed⟩ | ⟨primitive, hprimitive, hplan⟩
    · exact absurd hfailed (by simpa using List.find?_eq_none.mp hfind dep hdep)
    · simp only [hprimitive, planned, planResource, hplan, callPrimitive]
      exact ⟨trivial, _, rfl, rfl⟩

/-- A resource that is not applied and still is left alone was refused. -/
theorem refuses_of_isStopped {t : ApplyLoop S} {o : ResourceApplyOutcome}
    (hcall : args.processed id t = none)
    (hres : (args.processResource id t).resources = t.resources ++ [o])
    (hleft : o.outcome.isStopped = true) : args.Refuses id t := by
  unfold processed at hcall
  unfold processResource at hres
  cases hget : args.registry.get id with
  | none =>
    simp only [hget, ApplyLoop.fail, ApplyLoop.push, List.append_cancel_left_eq,
      List.cons.injEq, and_true] at hres
    subst hres
    cases hleft
  | some r =>
    simp only [hget] at hcall hres
    refine ⟨r, hget, ?_⟩
    cases hfind : r.dependsOn.find? fun dep => dep ∈ t.failedOrInterrupted with
    | some dep =>
      left
      have hfailed := List.find?_some hfind
      exact ⟨dep, List.mem_of_find?_eq_some hfind, by simpa using hfailed⟩
    | none =>
      right
      simp only [hfind] at hcall hres
      cases hprimitive : args.primitives r.kind with
      | none =>
        simp only [hprimitive, ApplyLoop.fail, ApplyLoop.push, List.append_cancel_left_eq,
          List.cons.injEq, and_true] at hres
        subst hres
        cases hleft
      | some primitive =>
        simp only [hprimitive] at hcall hres
        refine ⟨primitive, rfl, ?_⟩
        unfold planned at hcall
        unfold planResource at hres
        rcases hplan : primitive.plan r t.ctx.state with ⟨answer, state⟩
        simp only [hplan] at hcall hres
        apply (@callPrimitive_eq_cancelled _ ("plan " ++ r.id.asStr) _).mp
        cases hanswer : callPrimitive ("plan " ++ r.id.asStr) answer with
        | ok diff =>
          rw [hanswer] at hcall hres
          cases diff with
          | noChange =>
            simp only [ApplyLoop.call, ApplyLoop.unchanged, ApplyLoop.push,
              List.append_cancel_left_eq, List.cons.injEq, and_true] at hres
            subst hres
            cases hleft
          | add description payload => cases hcall
          | update source target description => cases hcall
        | error err =>
          by_contra hother
          have hfailed : ∀ message, o ≠ ⟨r.id, r.kind, .failed message, message⟩ := by
            rintro message rfl
            cases hleft
          rw [hanswer] at hres
          cases err <;> first
            | exact hother rfl
            | exact hfailed _ (by
                simpa [ApplyLoop.call, ApplyLoop.fail, ApplyLoop.push, eq_comm] using hres)

variable {args deadline}

/-- A stop before the turn is one when the turn begins. -/
theorem StoppedBefore.turn (h : args.StoppedBefore deadline interval idx s) {t : ApplyLoop S}
    (hturn : args.turn interval idx s = some t) :
    args.platform.Interrupted deadline t.ctx.state := by
  rcases h with hs | ⟨t', hturn', ht⟩
  · exact (turn_eq_some args ⟨""⟩ hturn).2.2.2.interrupted hs
  · obtain rfl : t = t' := Option.some.inj (hturn.symm.trans hturn')
    exact ht

/-- A stop before the turn is one when `apply` is called. -/
theorem Timely.processed (htimely : args.Timely) {t : ApplyLoop S} {call : ApplyCall P S}
    (hcall : args.processed id t = some call)
    (ht : args.platform.Interrupted deadline t.ctx.state) :
    args.platform.Interrupted deadline call.ctx.state := by
  have hrun : args.handedOver 0 0 id { t with aborted := false } = some call := by
    unfold handedOver
    rw [if_neg (by simp), if_neg (by simp)]
    exact hcall
  exact (htimely.keeps deadline).handedOver hrun ht

/-- **One pass.**  It obeys a stop exactly when it heeds it. -/
theorem passObeys_iff (htimely : args.Timely) :
    args.PassObeys deadline interval idx id s ↔ args.PassHeeds deadline interval idx id s := by
  constructor
  · intro h
    refine ⟨?_, ?_, ?_⟩
    · intro hidx hinterval hgoing hover
      by_contra hfired
      refine h.pause (args.platform.tick s.ctx.state) ?_ (.inr hover)
      simp [pauseBegun, hidx, hinterval, hgoing, Platform.isCancelled, hfired]
    · intro t hturn ht
      obtain ⟨hpass, hhanded, hres, -⟩ := turn_eq_some args id hturn
      obtain ⟨o, ho, hleft⟩ := h.later (.inr ⟨t, hturn, ht⟩)
      rw [hpass, ← hres] at ho
      cases hcall : args.processed id t with
      | none => exact refuses_of_isStopped args hcall ho hleft
      | some call =>
        -- the call would have been made after the stop
        exact absurd (htimely.processed hcall ht) (h.apply call (hhanded.trans hcall)).1
    · intro t call hturn _ hcall
      exact (h.apply call ((turn_eq_some args id hturn).2.1.trans hcall)).1
  · intro h
    refine ⟨?_, ?_, ?_⟩
    · intro t hbegun
      unfold pauseBegun at hbegun
      split at hbegun
      · rename_i hpaces
        have hwatched := h.pause hpaces.1 hpaces.2.1 hpaces.2.2
        by_cases hfired : args.platform.cancelled (args.platform.tick s.ctx.state) = true
        · simp [Platform.isCancelled, hfired] at hbegun
        · simp only [Platform.isCancelled, hfired, Bool.false_eq_true, if_false,
            Option.some.injEq] at hbegun
          subst hbegun
          rintro (hnow | hover)
          · exact hfired hnow
          · exact hfired (hwatched hover)
      · cases hbegun
    · intro call hhanded
      have hrecorded := args.handedOver_spec interval idx id s
      rw [hhanded] at hrecorded
      refine ⟨?_, hrecorded⟩
      cases hturn : args.turn interval idx s with
      | none => simp [(turn_eq_none args id hturn).1] at hhanded
      | some t =>
        rw [(turn_eq_some args id hturn).2.1] at hhanded
        by_cases ht : args.platform.Interrupted deadline t.ctx.state
        · simp [(h.turn t hturn ht).processed] at hhanded
        · exact h.call t call hturn ht hhanded
    · intro hstop
      cases hturn : args.turn interval idx s with
      | none => exact (turn_eq_none args id hturn).2
      | some t =>
        obtain ⟨hpass, -, hres, -⟩ := turn_eq_some args id hturn
        rw [hpass, ← hres]
        exact (h.turn t hturn (hstop.turn hturn)).processed.2

end Pass

end ApplyArgs

/-! ## The exit code -/

def SUCCESS : Nat := 0
def APPLY_PARTIAL_FAILURE : Nat := 1
def APPLY_INTERRUPTED : Nat := 130

/-- The exit code of a run with this report. -/
def ApplyReport.exitCode (report : ApplyReport) : Nat :=
  if report.hasInterruptions then APPLY_INTERRUPTED
  else if report.hasFailures then APPLY_PARTIAL_FAILURE
  else SUCCESS

section Runs

variable {P S : Type} {args : ApplyArgs P S}

theorem Outcome.unsettled_of_isStopped {outcome : Outcome} (h : outcome.isStopped = true) :
    outcome.isSettled = false := by
  cases outcome <;> first | rfl | cases h

theorem Outcome.unsettled_of_stops {opts : ApplyOpts} {outcome : Outcome}
    (h : opts.stops outcome = true) : outcome.isSettled = false := by
  cases outcome <;> first | rfl | cases h

/-- **The exit code.**  A run is a success only when every resource was settled. -/
theorem settled_of_success {order : List ResourceId} {ctx : ApplyCtx S}
    (h : (args.run order ctx).report.exitCode = SUCCESS) :
    ∀ o ∈ (args.run order ctx).resources, o.outcome.isSettled = true := by
  have hsummary := run_summary args order ctx
  have hnone : (args.run order ctx).summary.interrupted = 0 ∧
      (args.run order ctx).summary.failed = 0 := by
    by_cases hinterrupted : 0 < (args.run order ctx).summary.interrupted
    · simp [ApplyReport.exitCode, ApplyReport.hasInterruptions, ApplyLoop.report, hinterrupted,
        APPLY_INTERRUPTED, SUCCESS] at h
    · by_cases hfailed : 0 < (args.run order ctx).summary.failed
      · simp [ApplyReport.exitCode, ApplyReport.hasInterruptions, ApplyReport.hasFailures,
          ApplyLoop.report, hinterrupted, hfailed, APPLY_PARTIAL_FAILURE, SUCCESS] at h
      · omega
  rw [hsummary] at hnone
  have hinterrupted := List.countP_eq_zero.mp hnone.1
  have hfailed := List.countP_eq_zero.mp hnone.2
  by_contra hnot
  -- the first unsettled one has no cause before it
  have hsome : ((args.run order ctx).resources.find? fun o => !o.outcome.isSettled) ≠ none := by
    simpa using hnot
  obtain ⟨o, hfirst⟩ := Option.ne_none_iff_exists'.mp hsome
  obtain ⟨hunsettled, before, after, heq, hbefore⟩ := List.find?_eq_some_iff_append.mp hfirst
  have hmem : o ∈ (args.run order ctx).resources := by simp [heq]
  have hskipped : o.outcome = .skipped := by
    have hi := hinterrupted o hmem
    have hf := hfailed o hmem
    cases hout : o.outcome <;>
      simp [hout, Outcome.isInterrupted, Outcome.isFailed, Outcome.isSettled] at hi hf hunsettled ⊢
  rcases (run_aborts args order ctx).cause before o after heq hskipped with
    ⟨o', ho', hstops⟩ | ⟨o', ho', -, hcause⟩
  · simpa [Outcome.unsettled_of_stops hstops] using hbefore o' ho'
  · simpa [hcause] using hbefore o' ho'

/-! ## Whole runs -/

namespace ApplyArgs

variable (args)

/-- The loop after the first resources of an order. -/
def upTo (order : List ResourceId) (ctx : ApplyCtx S) (done : List ResourceId) : ApplyLoop S :=
  args.loop (args.opts.pacer.intervalFor order.length) 0 done (.start ctx)

/-- The run obeys a stop at the token and at the deadline. -/
structure Obeys (deadline : Nat) (order : List ResourceId) (ctx : ApplyCtx S) : Prop where
  pass : ∀ done id rest, order = done ++ id :: rest →
    args.PassObeys deadline (args.opts.pacer.intervalFor order.length) done.length id
      (args.upTo order ctx done)
  /-- From a stop on, every resource is reported `Interrupted` or `Skipped`. -/
  later : ∀ done id rest, order = done ++ id :: rest →
    args.StoppedBefore deadline (args.opts.pacer.intervalFor order.length) done.length
      (args.upTo order ctx done) →
    ∃ left, (args.run order ctx).resources = (args.upTo order ctx done).resources ++ left ∧
      left.map (·.id) = id :: rest ∧ ∀ o ∈ left, o.outcome.isStopped = true
  told : ∀ done id rest, order = done ++ id :: rest →
    args.StoppedBefore deadline (args.opts.pacer.intervalFor order.length) done.length
      (args.upTo order ctx done) →
    (args.run order ctx).report.exitCode ≠ SUCCESS

/-- Every pass of the run heeds a stop. -/
def Heeds (deadline : Nat) (order : List ResourceId) (ctx : ApplyCtx S) : Prop :=
  ∀ done id rest, order = done ++ id :: rest →
    args.PassHeeds deadline (args.opts.pacer.intervalFor order.length) done.length id
      (args.upTo order ctx done)

variable {args} {deadline interval : Nat}

/-- A stop before a turn is one at the end of the pass. -/
theorem StoppedBefore.iteration (htimely : args.Timely) {idx : Nat} {s : ApplyLoop S}
    (h : args.StoppedBefore deadline interval idx s) (id : ResourceId) :
    args.platform.Interrupted deadline (args.iteration interval idx id s).ctx.state := by
  cases hturn : args.turn interval idx s with
  | some t =>
    rw [(turn_eq_some args id hturn).1]
    exact (htimely.keeps deadline).processResource id (h.turn hturn)
  | none =>
    rcases h with hs | ⟨t, ht, -⟩
    · exact (htimely.keeps deadline).iteration interval idx id hs
    · rw [hturn] at ht
      cases ht

/-- **The rest of the run.**  When the passes obey, a stop leaves everything from here on alone. -/
theorem left_alone (htimely : args.Timely) (rest : List ResourceId) : ∀ {idx : Nat}
    {s : ApplyLoop S},
    (∀ before id after, rest = before ++ id :: after →
      args.PassObeys deadline interval (idx + before.length) id
        (args.loop interval idx before s)) →
    (rest ≠ [] → args.StoppedBefore deadline interval idx s) →
    ∃ left, (args.loop interval idx rest s).resources = s.resources ++ left ∧
      ∀ o ∈ left, o.outcome.isStopped = true := by
  induction rest with
  | nil =>
    intro idx s _ _
    exact ⟨[], by simp [loop], by simp⟩
  | cons id rest ih =>
    intro idx s hpasses hstop
    have hstop := hstop (List.cons_ne_nil _ _)
    obtain ⟨o, ho, hleft⟩ := (hpasses [] id rest rfl).later hstop
    have hstop' := hstop.iteration htimely id
    obtain ⟨left, hres, hall⟩ := @ih (idx + 1) (args.iteration interval idx id s) (by
      intro before id' after heq
      have hpass := hpasses (id :: before) id' after (by rw [heq]; rfl)
      have hidx : idx + (id :: before).length = idx + 1 + before.length := by
        simp only [List.length_cons]
        omega
      rw [hidx] at hpass
      exact hpass) (fun _ => .inl hstop')
    have ho' : (args.iteration interval idx id s).resources = s.resources ++ [o] := ho
    refine ⟨o :: left, ?_, ?_⟩
    · rw [loop, hres, ho', List.append_assoc]
      rfl
    · intro o' ho'
      rcases List.mem_cons.mp ho' with rfl | ho'
      · exact hleft
      · exact hall o' ho'

theorem upTo_ids (order : List ResourceId) (ctx : ApplyCtx S) (done : List ResourceId) :
    (args.upTo order ctx done).resources.map (·.id) = done := by
  refine loop_induction args _ (fun done s => s.resources.map (·.id) = done) ?_ 0
    (List.nil_append done).symm rfl
  intro done id rest s s' o calls _ hinv hid hpass
  rw [hpass.resources, List.map_append, hinv, List.map_singleton, hid]

theorem obeys_iff (htimely : args.Timely) {order : List ResourceId} {ctx : ApplyCtx S} :
    args.Obeys deadline order ctx ↔ args.Heeds deadline order ctx := by
  constructor
  · intro h done id rest heq
    exact (passObeys_iff htimely).mp (h.pass done id rest heq)
  · intro h
    have hpass : ∀ done id rest, order = done ++ id :: rest →
        args.PassObeys deadline (args.opts.pacer.intervalFor order.length) done.length id
          (args.upTo order ctx done) := by
      intro done id rest heq
      exact (passObeys_iff htimely).mpr (h done id rest heq)
    have hlater : ∀ done id rest, order = done ++ id :: rest →
        args.StoppedBefore deadline (args.opts.pacer.intervalFor order.length) done.length
          (args.upTo order ctx done) →
        ∃ left, (args.run order ctx).resources = (args.upTo order ctx done).resources ++ left ∧
          left.map (·.id) = id :: rest ∧ ∀ o ∈ left, o.outcome.isStopped = true := by
      intro done id rest heq hstop
      have hsplit : args.run order ctx = args.loop (args.opts.pacer.intervalFor order.length)
          done.length (id :: rest) (args.upTo order ctx done) := by
        have happend := loop_append args (args.opts.pacer.intervalFor order.length) 0 done
          (id :: rest) (.start ctx)
        rw [← heq, Nat.zero_add] at happend
        exact happend
      obtain ⟨left, hres, hall⟩ := left_alone htimely (id :: rest)
        (s := args.upTo order ctx done) (by
          intro before id' after hrest
          have hpasses := hpass (done ++ before) id' after (by rw [heq, hrest, List.append_assoc])
          rw [List.length_append] at hpasses
          have hupTo : args.upTo order ctx (done ++ before) =
              args.loop (args.opts.pacer.intervalFor order.length) done.length before
                (args.upTo order ctx done) := by
            rw [upTo, loop_append, Nat.zero_add]
            rfl
          rw [hupTo] at hpasses
          exact hpasses) (fun _ => hstop)
      rw [← hsplit] at hres
      refine ⟨left, hres, ?_, hall⟩
      have hids := run_ids args order ctx
      rw [hres, List.map_append, upTo_ids] at hids
      exact List.append_cancel_left (hids.trans heq)
    refine ⟨hpass, hlater, ?_⟩
    intro done id rest heq hstop hsuccess
    obtain ⟨left, hres, hids, hall⟩ := hlater done id rest heq hstop
    obtain ⟨o, left, rfl⟩ := List.exists_cons_of_ne_nil (l := left) (by
      rintro rfl
      cases hids)
    have hsettled := settled_of_success hsuccess o (by rw [hres]; simp)
    rw [Outcome.unsettled_of_isStopped (hall o List.mem_cons_self)] at hsettled
    cases hsettled

end ApplyArgs

end Runs

/-! ## The replay -/

namespace ReplayArgs

variable {W : Type} (args : ReplayArgs W)

/-- The entries a cycle hands to the client, each with the world it does so in. -/
def dispatches : List DeferEntry → ReplayReport → Machine W → List (DeferEntry × W)
  | [], _, _ => []
  | entry :: entries, report, m =>
    let (cancelled, world) := args.platform.isCancelled m.world
    if cancelled then []
    else
      (entry, world) ::
        match args.replayEntry entry report { m with world := world } with
        | (.ok report, m) => dispatches entries report m
        | (.error _, _) => []

/-- The dispatches of a record. -/
def dispatchedIn (trace : List Event) : List (DeferEntry × Except DispatchError Unit) :=
  trace.filterMap fun
    | .dispatched entry answer => some (entry, answer)
    | .healthChecked _ _ => none

theorem trace_journal {α : Type} (x : FsM α) (m : Machine W) :
    (m.journal x).2.trace = m.trace := by
  unfold Machine.journal
  split <;> rfl

theorem trace_removeExecuted (entry : DeferEntry) (report : ReplayReport) (m : Machine W) :
    (removeExecuted entry report m).2.trace = m.trace := by
  have hremoved := trace_journal (Journal.remove entry) m
  unfold removeExecuted
  rcases hrun : m.journal (Journal.remove entry) with ⟨_ | _, m'⟩
  · rw [hrun] at hremoved
    exact hremoved
  · rw [hrun] at hremoved
    exact hremoved

theorem trace_spendAttempt (count : ReplayReport → ReplayReport) (entry : DeferEntry)
    (report : ReplayReport) (m : Machine W) :
    (spendAttempt count entry report m).2.trace = m.trace := by
  have hbumped := trace_journal (Journal.bumpAttempt entry) m
  unfold spendAttempt
  rcases hbump : m.journal (Journal.bumpAttempt entry) with ⟨_ | updated, m'⟩
  · rw [hbump] at hbumped
    exact hbumped
  · rw [hbump] at hbumped
    dsimp only at hbumped ⊢
    split
    · have hmoved := trace_journal (Journal.moveToManualClear updated) m'
      rcases hmove : m'.journal (Journal.moveToManualClear updated) with ⟨_ | _, m''⟩
      · rw [hmove] at hmoved
        exact hmoved.trans hbumped
      · rw [hmove] at hmoved
        exact hmoved.trans hbumped
    · exact hbumped

/-- One entry is handed to the client once. -/
theorem dispatchedIn_replayEntry (entry : DeferEntry) (report : ReplayReport) (m : Machine W) :
    dispatchedIn (args.replayEntry entry report m).2.trace =
      dispatchedIn m.trace ++ [(entry, (args.client entry m.world).1)] := by
  unfold replayEntry
  rcases args.client entry m.world with ⟨answer, world⟩
  match answer with
  | .error .clientUnavailable => simp [Machine.log, dispatchedIn]
  | .error (.action message) => simp [trace_spendAttempt, Machine.log, dispatchedIn]
  | .ok () =>
    dsimp only
    unfold checkHealth
    cases entry.healthCheck with
    | none => simp [trace_removeExecuted, Machine.log, dispatchedIn]
    | some check =>
      rcases hrunner : args.healthCheckRunner check world with ⟨verdict, world'⟩
      have hworld :
          ({ m with world := world }.log [.dispatched entry (.ok ())]).world = world := rfl
      simp only [hworld, hrunner]
      match verdict with
      | .ok () => simp [trace_removeExecuted, Machine.log, dispatchedIn]
      | .error .cancelled => simp [Machine.log, dispatchedIn]
      | .error (.cmdExitNonZero _ _ _) | .error (.cmdTimeout _ _) | .error (.cmdSpawnError _)
      | .error (.urlBadStatus _ _ _ _) | .error (.urlTransport _ _ _) =>
        simp [trace_spendAttempt, Machine.log, dispatchedIn]

/-- `dispatches` are the dispatches of the cycle. -/
theorem dispatchedIn_replayEntries (entries : List DeferEntry) :
    ∀ (report : ReplayReport) (m : Machine W),
      dispatchedIn (args.replayEntries entries report m).2.trace = dispatchedIn m.trace ++
        (args.dispatches entries report m).map fun d => (d.1, (args.client d.1 d.2).1) := by
  induction entries with
  | nil =>
    intro report m
    simp [replayEntries, dispatches]
  | cons entry entries ih =>
    intro report m
    unfold replayEntries dispatches
    cases hfired : args.platform.cancelled (args.platform.tick m.world) with
    | true => simp [Platform.isCancelled, hfired]
    | false =>
      simp only [Platform.isCancelled, hfired, Bool.false_eq_true, if_false, List.map_cons]
      have hentry := args.dispatchedIn_replayEntry entry report
        { m with world := args.platform.tick m.world }
      rcases hrun : args.replayEntry entry report { m with world := args.platform.tick m.world }
        with ⟨_ | report', m'⟩
      · rw [hrun] at hentry
        simpa using hentry
      · rw [hrun] at hentry
        dsimp only at hentry ⊢
        rw [ih, hentry, List.append_assoc]
        rfl

/-- **The replay obeys the token.**  No entry is dispatched after it has fired. -/
theorem not_cancelled_of_dispatched (entries : List DeferEntry) :
    ∀ (report : ReplayReport) (m : Machine W), ∀ d ∈ args.dispatches entries report m,
      args.platform.cancelled d.2 = false := by
  induction entries with
  | nil =>
    intro report m d hd
    cases hd
  | cons entry entries ih =>
    intro report m d hd
    unfold dispatches at hd
    cases hfired : args.platform.cancelled (args.platform.tick m.world) with
    | true => simp [Platform.isCancelled, hfired] at hd
    | false =>
      simp only [Platform.isCancelled, hfired, Bool.false_eq_true, if_false] at hd
      rcases List.mem_cons.mp hd with rfl | hd
      · exact hfired
      · rcases hrun : args.replayEntry entry report { m with world := args.platform.tick m.world }
          with ⟨_ | report', m'⟩
        · rw [hrun] at hd
          cases hd
        · rw [hrun] at hd
          exact ih report' m' d hd

/-- A cycle. -/
def cycleDispatches (m : Machine W) : List (DeferEntry × W) :=
  match m.journal Journal.listSorted with
  | (.error _, _) => []
  | (.ok entries, m) => args.dispatches entries .zero m

end ReplayArgs

/-! ## Samples -/

/-- A clock, and a token somebody else fires. -/
def Platform.signalled : Platform (Nat × Bool) where
  clock s := s.1
  cancelled s := s.2
  tick s := s
  sleep d s := (s.1 + d, s.2)
  clock_le_tick s := Platform.quiet.clock_le_tick s.1
  clock_add_le_sleep d s := Platform.quiet.clock_add_le_sleep d s.1
  cancelled_tick _ h := h
  cancelled_sleep _ _ h := h

/-- Files, without a pacer; SIGTERM comes while the first of them is written. -/
def signalledFiles (registry : Registry Unit) : ApplyArgs Unit (Nat × Bool) where
  primitives _ := some
    ⟨fun _ s => (.returned (.ok (.add "create" ())), s),
     fun _ _ ctx => (.returned (.ok (.ofChanged "created")),
      { ctx with state := (ctx.state.1, true) })⟩
  registry := registry
  markDirty _ s := s
  opts := ⟨false, .disabled⟩
  platform := .signalled

theorem signalledFiles_timely (registry : Registry Unit) : (signalledFiles registry).Timely := by
  refine ⟨?_, ?_, ?_⟩
  · rintro r primitive s ⟨⟩
    exact Platform.later_refl _ s
  · intro kind s
    exact Platform.later_refl _ s
  · rintro r primitive diff ctx ⟨⟩
    exact ⟨Nat.le_refl _, fun _ => rfl⟩

def hostsFile : Resource Unit := ⟨⟨"file.content:/etc/hosts"⟩, ⟨"file.content"⟩, 1, (), [], [], []⟩
def motdFile : Resource Unit := ⟨⟨"file.content:/etc/motd"⟩, ⟨"file.content"⟩, 1, (), [], [], []⟩

/-- Attempts that fail after ten seconds. -/
def slowProbes : Probes Nat where
  cmdOnce _ timeout s := (.timeout, s + timeout)
  urlOnce _ timeout _ s := (.transport "timed out", s + timeout)

/-- Attempts that pass at once. -/
def promptProbes {S : Type} : Probes S where
  cmdOnce _ _ s := (.success, s)
  urlOnce _ _ _ s := (.success, s)

/-! ## Everything together -/

/-- **A stop is obeyed exactly as far as it is heeded.**  The apply phase stops at the token and at
    the deadline when each of its passes heeds a stop; the health checks stop at the deadline when
    somebody fires the token then; the replay always stops at the token. -/
theorem stop_obeyed_iff {P S W : Type} {args : ApplyArgs P S} (htimely : args.Timely)
    (deadline : Nat) (order : List ResourceId) (ctx : ApplyCtx S) (probes : Probes S)
    (check : HealthCheck) (s : S) (replay : ReplayArgs W) (m : Machine W) :
    (args.Obeys deadline order ctx ∧
      (∀ t ∈ (runHealthCheck args.platform probes check s).begun,
        ¬ args.platform.Interrupted deadline t) ∧
      ∀ d ∈ replay.cycleDispatches m, replay.platform.cancelled d.2 = false) ↔
    args.Heeds deadline order ctx ∧
      ∀ t ∈ (runHealthCheck args.platform probes check s).polled,
        args.platform.FiredAt deadline t := by
  have hreplay : ∀ d ∈ replay.cycleDispatches m, replay.platform.cancelled d.2 = false := by
    intro d hd
    unfold ReplayArgs.cycleDispatches at hd
    split at hd
    · cases hd
    · exact replay.not_cancelled_of_dispatched _ _ _ d hd
  rw [ApplyArgs.obeys_iff htimely, runHealthCheck_obeys_iff]
  constructor
  · rintro ⟨hruns, hchecks, -⟩
    exact ⟨hruns, hchecks⟩
  · rintro ⟨hruns, hchecks⟩
    exact ⟨hruns, hchecks, hreplay⟩

/-- With a pacer the token is looked at between the two files. -/
def pacedFiles : ApplyArgs Unit (Nat × Bool) where
  __ := signalledFiles ⟨[hostsFile, motdFile], by decide⟩
  opts := ⟨false, ⟨fromSecs 60, fromSecs 5, fromSecs 30⟩⟩

theorem pacedFiles_timely : pacedFiles.Timely :=
  have h := signalledFiles_timely ⟨[hostsFile, motdFile], by decide⟩
  ⟨h.plan, h.markDirty, h.apply⟩

/-- A signal while the first file is written is heeded in the pause, and the second is left. -/
theorem stop_obeyed_hosts :
    pacedFiles.Obeys (fromSecs 3600) [hostsFile.id, motdFile.id] ⟨∅, (0, false)⟩ ∧
    (pacedFiles.run [hostsFile.id, motdFile.id] ⟨∅, (0, false)⟩).report.exitCode ≠ SUCCESS := by
  refine ⟨((stop_obeyed_iff pacedFiles_timely (fromSecs 3600) [hostsFile.id, motdFile.id]
    ⟨∅, (0, false)⟩ promptProbes (.cmd ["true"] none none none)
    (0, false) (⟨fun _ w => (.ok (), w), fun _ w => (.ok (), w), .quiet⟩ : ReplayArgs Nat)
    ⟨⟨∅, 0, fun _ => none, fun _ => some 0⟩, 0, []⟩).mpr ⟨?_, ?_⟩).1, by decide⟩
  · rintro done id rest heq
    match done with
    | [] =>
      obtain ⟨rfl, rfl⟩ : hostsFile.id = id ∧ [motdFile.id] = rest := by simpa using heq
      refine ⟨fun hidx => absurd hidx (Nat.lt_irrefl 0), ?_, ?_⟩
      · rintro t ⟨⟩ hstop
        exact absurd hstop (by decide)
      · rintro t call ⟨⟩ - ⟨⟩
        decide
    | [first] =>
      obtain ⟨rfl, rfl, rfl⟩ : hostsFile.id = first ∧ motdFile.id = id ∧ [] = rest := by
        simpa using heq
      -- the pause is cut, and there is no turn
      refine ⟨fun _ _ _ _ => by decide, ?_, ?_⟩
      · rintro t ⟨⟩
      · rintro t call ⟨⟩
    | first :: second :: done => simp at heq
  · intro t ht hover
    have hpolled : (runHealthCheck Platform.signalled promptProbes
        (.cmd ["true"] none none none) (0, false)).polled = [(0, false)] := by decide +kernel
    obtain rfl : t = (0, false) := List.mem_singleton.mp (hpolled ▸ ht)
    exact absurd hover (by decide)

/-- After the signal another file is written and the run is a success; and a health check whose
    first attempt lasts till after the deadline is attempted again. -/
theorem stop_ignored :
    ¬ (signalledFiles ⟨[hostsFile, motdFile], by decide⟩).Obeys (fromSecs 3600)
      [hostsFile.id, motdFile.id] ⟨∅, (0, false)⟩ ∧
    ((signalledFiles ⟨[hostsFile, motdFile], by decide⟩).run [hostsFile.id, motdFile.id]
      ⟨∅, (0, false)⟩).report.exitCode = SUCCESS ∧
    ∃ t ∈ (runHealthCheck .quiet slowProbes (.cmd ["probe"] none none none) 0).begun,
      Platform.quiet.Interrupted (fromSecs 5) t := by
  refine ⟨?_, by decide, ?_⟩
  · intro h
    exact ((h.pass [hostsFile.id] motdFile.id [] rfl).apply _ rfl).1 (.inl rfl)
  · refine ⟨12 * 10 ^ 9, ?_, by decide⟩
    decide +kernel

end Bosun
