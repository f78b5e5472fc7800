import Bosun.RunNotifications

/-!
# Convergence of a run

What does a run that goes through leave behind?  Each resource has a goal, its apply reaches it,
and what comes later may spoil it again.  `Converges` is what is asked of the primitives, of the
pauses and of the fact cache, one call at a time; `run_converges` is what follows for a whole
run: if every resource ends as `NoChange` or `Changed` and nothing spoils what was reached
before it, all goals hold at the end.
-/

namespace Bosun

variable {P S : Type}

/-- The resource is where the run wanted it, by now. -/
def Outcome.Reached (o : Outcome) : Prop := o = .noChange ∨ o = .changed

/-- `Inv` and all goals stay. -/
def Steady (Inv : S → Prop) (goal : Resource P → S → Prop) (s s' : S) : Prop :=
  Inv s → Inv s' ∧ ∀ r, goal r s → goal r s'

/-- `Inv` stays and the goal of `r` is reached; what `r` spares stays. -/
def Advances (Inv : S → Prop) (goal : Resource P → S → Prop)
    (spares : Resource P → Resource P → Prop) (r : Resource P) (s s' : S) : Prop :=
  Inv s → Inv s' ∧ goal r s' ∧ ∀ r', spares r r' → goal r' s → goal r' s'

variable {Inv : S → Prop} {goal : Resource P → S → Prop} {spares : Resource P → Resource P → Prop}

theorem Steady.advances {r : Resource P} {s t u : S} (h : Steady Inv goal s t)
    (h' : Advances Inv goal spares r t u) : Advances Inv goal spares r s u := by
  intro hs
  obtain ⟨ht, hkeeps⟩ := h hs
  obtain ⟨hu, hgoal, hspares⟩ := h' ht
  exact ⟨hu, hgoal, fun r' hr' hg => hspares r' hr' (hkeeps r' hg)⟩

structure Converges (args : ApplyArgs P S) (Inv : S → Prop) (goal : Resource P → S → Prop)
    (spares : Resource P → Resource P → Prop) : Prop where
  pause : ∀ total s, Steady Inv goal s (args.platform.cancellableSleep total s).2
  plan : ∀ r ∈ args.registry.resources, ∀ primitive s, args.primitives r.kind = some primitive →
    Steady Inv goal s (primitive.plan r s).2
  /-- A plan finds nothing to do only when there is nothing to do. -/
  planned : ∀ r ∈ args.registry.resources, ∀ primitive s,
    args.primitives r.kind = some primitive → Inv s →
    (primitive.plan r s).1 = .returned (.ok .noChange) → goal r (primitive.plan r s).2
  markDirty : ∀ r ∈ args.registry.resources, ∀ s, Steady Inv goal s (args.markDirty r.kind s)
  apply : ∀ r ∈ args.registry.resources, ∀ primitive diff ctx report,
    args.primitives r.kind = some primitive → diff ≠ .noChange →
    (primitive.apply r diff ctx).1 = .returned (.ok report) →
    report.deferred = false →
    Advances Inv goal spares r ctx.state (primitive.apply r diff ctx).2.state

theorem Outcome.Reached.pushed {outcomes : List ResourceApplyOutcome}
    {o pushed : ResourceApplyOutcome}
    (h : o.outcome.Reached) (hpushed : outcomes ++ [pushed] = outcomes ++ [o]) :
    pushed.outcome.Reached := by
  rwa [List.singleton_injective (List.append_cancel_left hpushed)]

theorem callPrimitive_ok {α : Type} {context : String} {answer : Call α} {a : α}
    (h : callPrimitive context answer = .ok a) : answer = .returned (.ok a) := by
  cases answer with
  | returned result => exact congrArg Call.returned h
  | panicked payload => cases h

namespace ApplyArgs

variable (args : ApplyArgs P S)

/-- Only an apply that reports success, and no defer, is one that got there. -/
theorem recordApply_reached {id : ResourceId} {kind : ResourceKind}
    {result : Except PrimitiveError ChangeReport} {s : ApplyLoop S} {o : ResourceApplyOutcome}
    (hpushed : (args.recordApply id kind result s).resources = s.resources ++ [o])
    (hreached : o.outcome.Reached) : ∃ report, result = .ok report ∧ report.deferred = false := by
  unfold recordApply at hpushed
  split at hpushed
  · rename_i report
    by_cases hdeferred : report.deferred = true
    · rw [if_pos hdeferred] at hpushed
      rcases hreached.pushed hpushed with h | h <;> cases h
    · exact ⟨report, rfl, (Bool.not_eq_true _).mp hdeferred⟩
  · rcases hreached.pushed hpushed with h | h <;> cases h
  · split at hpushed
    · rcases hreached.pushed hpushed with h | h <;> cases h
    · rcases hreached.pushed hpushed with h | h <;> cases h

end ApplyArgs

namespace Converges

variable {args : ApplyArgs P S} (h : Converges args Inv goal spares)
include h

theorem planResource {r : Resource P} (hr : r ∈ args.registry.resources)
    {primitive : Primitive P S} {s : ApplyLoop S} {o : ResourceApplyOutcome}
    (hprimitive : args.primitives r.kind = some primitive)
    (hpushed : (args.planResource primitive r s).resources = s.resources ++ [o])
    (hreached : o.outcome.Reached) :
    Advances Inv goal spares r s.ctx.state (args.planResource primitive r s).ctx.state := by
  have hplan := h.plan r hr primitive s.ctx.state hprimitive
  have hplanned := h.planned r hr primitive s.ctx.state hprimitive
  unfold ApplyArgs.planResource at hpushed ⊢
  rcases hanswer : primitive.plan r s.ctx.state with ⟨answer, state⟩
  rw [hanswer] at hplan hplanned
  simp only [hanswer] at hpushed ⊢
  split at hpushed
  · rename_i hnoChange
    intro hs
    exact ⟨(hplan hs).1, hplanned hs (callPrimitive_ok hnoChange), fun r' _ => (hplan hs).2 r'⟩
  · rename_i diff hdiff hok
    refine Steady.advances hplan (Steady.advances (h.markDirty r hr state) ?_)
    rw [ApplyArgs.applyDiff] at hpushed ⊢
    dsimp only at hpushed ⊢
    obtain ⟨report, hreport, hdeferred⟩ := args.recordApply_reached hpushed hreached
    rw [RunArgs.state_recordApply]
    exact h.apply r hr primitive diff _ report hprimitive (fun heq => hdiff heq)
      (callPrimitive_ok hreport) hdeferred
  · rcases hreached.pushed hpushed with h | h <;> cases h
  · rcases hreached.pushed hpushed with h | h <;> cases h

theorem processResource {id : ResourceId} {s : ApplyLoop S} {o : ResourceApplyOutcome}
    (hpushed : (args.processResource id s).resources = s.resources ++ [o])
    (hreached : o.outcome.Reached) :
    ∃ r, args.registry.get id = some r ∧
      Advances Inv goal spares r s.ctx.state (args.processResource id s).ctx.state := by
  unfold ApplyArgs.processResource at hpushed ⊢
  split at hpushed
  · rcases hreached.pushed hpushed with h | h <;> cases h
  · rename_i r hget
    refine ⟨r, hget, ?_⟩
    split at hpushed
    · rcases hreached.pushed hpushed with h | h <;> cases h
    · split at hpushed
      · rcases hreached.pushed hpushed with h | h <;> cases h
      · rename_i primitive hprimitive
        exact h.planResource (Registry.get_eq_some.mp hget).1 hprimitive hpushed hreached

/-- A pass that ends well gets its resource there. -/
theorem iteration (interval idx : Nat) {id : ResourceId} {s : ApplyLoop S}
    {o : ResourceApplyOutcome}
    (hpushed : (args.iteration interval idx id s).resources = s.resources ++ [o])
    (hreached : o.outcome.Reached) :
    ∃ r, args.registry.get id = some r ∧
      Advances Inv goal spares r s.ctx.state (args.iteration interval idx id s).ctx.state := by
  unfold ApplyArgs.iteration at hpushed ⊢
  by_cases hpaces : 0 < idx ∧ interval ≠ 0 ∧ s.aborted = false
  · have hpause := h.pause interval s.ctx.state
    simp only [if_pos hpaces] at hpushed ⊢
    rcases hsleep : args.platform.cancellableSleep interval s.ctx.state with ⟨slept, state⟩
    simp only [hsleep] at hpushed hpause ⊢
    cases slept with
    | true =>
      simp only [if_true] at hpushed ⊢
      obtain ⟨r, hget, hadvances⟩ := h.processResource hpushed hreached
      exact ⟨r, hget, Steady.advances hpause hadvances⟩
    | false =>
      rcases hreached.pushed hpushed with h | h <;> cases h
  · simp only [if_neg hpaces] at hpushed ⊢
    cases haborted : s.aborted with
    | true =>
      simp only [haborted, if_true] at hpushed
      rcases hreached.pushed hpushed with h | h <;> cases h
    | false =>
      simp only [haborted] at hpushed ⊢
      exact h.processResource hpushed hreached

end Converges

/-- Nothing that comes later in the order spoils what came before it. -/
def Undisturbed (args : ApplyArgs P S) (spares : Resource P → Resource P → Prop)
    (order : List ResourceId) : Prop :=
  order.Pairwise fun early late => ∀ r r', args.registry.get early = some r →
    args.registry.get late = some r' → spares r' r

/-- **A run converges.**  If every resource of the order ends as `NoChange` or `Changed`, all goals
    hold when the run is over. -/
theorem loop_converges {args : ApplyArgs P S} (h : Converges args Inv goal spares)
    (interval : Nat) (rest : List ResourceId) : ∀ (idx : Nat) (done : List ResourceId)
    (s : ApplyLoop S), Undisturbed args spares (done ++ rest) → Inv s.ctx.state →
    (∀ id ∈ done, ∀ r, args.registry.get id = some r → goal r s.ctx.state) →
    (∀ o ∈ (args.loop interval idx rest s).resources, o.outcome.Reached) →
    Inv (args.loop interval idx rest s).ctx.state ∧
      ∀ id ∈ done ++ rest, ∀ r, args.registry.get id = some r →
        goal r (args.loop interval idx rest s).ctx.state := by
  induction rest with
  | nil =>
    intro idx done s _ hinv hdone _
    exact ⟨hinv, by rwa [List.append_nil]⟩
  | cons id rest ih =>
    intro idx done s horder hinv hdone hreached
    obtain ⟨o, _, _, hpass⟩ := iteration_pass args interval idx id s
    have hpushed := hpass.resources
    have hlast : o.outcome.Reached := by
      refine hreached o ((RunArgs.prefix_loop args interval (idx + 1) rest _).subset ?_)
      simp [hpushed]
    obtain ⟨r, hget, hadvances⟩ := h.iteration interval idx hpushed hlast
    obtain ⟨hinv', hgoal, hspares⟩ := hadvances hinv
    have horder' : Undisturbed args spares ((done ++ [id]) ++ rest) := by
      rwa [List.append_assoc, List.singleton_append]
    have hdone' : ∀ id' ∈ done ++ [id], ∀ r', args.registry.get id' = some r' →
        goal r' (args.iteration interval idx id s).ctx.state := by
      intro id' hid' r' hget'
      rcases List.mem_append.mp hid' with hid' | hid'
      · -- what came before is spared
        have hpair := (List.pairwise_append.mp horder).2.2 id' hid' id List.mem_cons_self
        exact hspares r' (hpair r' r hget' hget) (hdone id' hid' r' hget')
      · obtain rfl := List.mem_singleton.mp hid'
        obtain rfl := Option.some.inj (hget.symm.trans hget')
        exact hgoal
    have := ih (idx + 1) (done ++ [id]) _ horder' hinv' hdone' hreached
    rwa [List.append_assoc, List.singleton_append] at this

theorem run_converges {args : ApplyArgs P S} (h : Converges args Inv goal spares)
    {order : List ResourceId} (horder : Undisturbed args spares order) {ctx : ApplyCtx S}
    (hinv : Inv ctx.state)
    (hreached : ∀ o ∈ (args.run order ctx).resources, o.outcome.Reached) :
    Inv (args.run order ctx).ctx.state ∧
      ∀ id ∈ order, ∀ r, args.registry.get id = some r →
        goal r (args.run order ctx).ctx.state :=
  loop_converges h _ order 0 [] (.start ctx) horder hinv (fun _ hid => absurd hid (by simp))
    hreached

end Bosun
