import Mathlib.Data.List.Count
import Bosun.ApplyRun

/-!
# What the report of a run accounts for

`Accounted` collects what the loop keeps in parallel: one outcome for each
resource in the order, counters that count these outcomes, a changed set that is
the set of ids with outcome `Changed`, a `mark_dirty` for each `apply` and for
nothing else, and an abort flag that turns everything behind it into `Skipped`.
-/

namespace Bosun

namespace Outcome

def isChanged : Outcome → Bool
  | changed => true
  | _ => false

def isNoChange : Outcome → Bool
  | noChange => true
  | _ => false

def isFailed : Outcome → Bool
  | failed _ => true
  | _ => false

def isSkipped : Outcome → Bool
  | skipped => true
  | _ => false

def isDeferred : Outcome → Bool
  | deferred _ => true
  | _ => false

def isInterrupted : Outcome → Bool
  | interrupted _ => true
  | _ => false

end Outcome

variable {P S : Type} {args : ApplyArgs P S}

/-! ## Counters -/

/-- The summary that a list of outcomes adds up to. -/
def ApplySummary.tally (outcomes : List ResourceApplyOutcome) : ApplySummary where
  changed := outcomes.countP (fun o => o.outcome.isChanged)
  noChange := outcomes.countP (fun o => o.outcome.isNoChange)
  failed := outcomes.countP (fun o => o.outcome.isFailed)
  skipped := outcomes.countP (fun o => o.outcome.isSkipped)
  deferred := outcomes.countP (fun o => o.outcome.isDeferred)
  interrupted := outcomes.countP (fun o => o.outcome.isInterrupted)

def ApplySummary.total (summary : ApplySummary) : Nat :=
  summary.changed + summary.noChange + summary.failed + summary.skipped +
    summary.deferred + summary.interrupted

theorem tally_snoc (outcomes : List ResourceApplyOutcome) (o : ResourceApplyOutcome) :
    ApplySummary.tally (outcomes ++ [o]) = (ApplySummary.tally outcomes).count o.outcome := by
  cases hout : o.outcome <;>
    simp [ApplySummary.tally, ApplySummary.count, hout, Outcome.isChanged, Outcome.isNoChange,
      Outcome.isFailed, Outcome.isSkipped, Outcome.isDeferred, Outcome.isInterrupted]

theorem total_count (summary : ApplySummary) (outcome : Outcome) :
    (summary.count outcome).total = summary.total + 1 := by
  cases outcome <;> simp [ApplySummary.count, ApplySummary.total] <;> omega

theorem total_tally (outcomes : List ResourceApplyOutcome) :
    (ApplySummary.tally outcomes).total = outcomes.length := by
  induction outcomes using List.reverseRecOn with
  | nil => rfl
  | append_singleton outcomes o ih => rw [tally_snoc, total_count, ih, List.length_append]; rfl

theorem run_summary (args : ApplyArgs P S) (order : List ResourceId) (ctx : ApplyCtx S) :
    (args.run order ctx).summary = .tally (args.run order ctx).resources := by
  refine run_induction args order ctx (fun _ s => s.summary = .tally s.resources) rfl ?_
  intro done id rest s s' o calls _ hinv _ hpass
  rw [hpass.summary, hpass.resources, tally_snoc, hinv]

/-! ## The changed set -/

/-- `changed` is the set of ids whose outcome is `Changed`. -/
def ChangedIds (changed : Finset ResourceId) (outcomes : List ResourceApplyOutcome) : Prop :=
  ∀ id, id ∈ changed ↔ ∃ o ∈ outcomes, o.id = id ∧ o.outcome = .changed

theorem ChangedIds.snoc {changed : Finset ResourceId} {outcomes : List ResourceApplyOutcome}
    (h : ChangedIds changed outcomes) (o : ResourceApplyOutcome) :
    ChangedIds (if o.outcome = .changed then insert o.id changed else changed)
      (outcomes ++ [o]) := by
  intro id
  by_cases hc : o.outcome = .changed
  · rw [if_pos hc, Finset.mem_insert, h id]
    simp only [List.mem_append, List.mem_singleton, or_and_right, exists_or, exists_eq_left, hc,
      and_true]
    rw [or_comm, eq_comm]
  · simp [h id, or_and_right, exists_or, hc]

/-- The outcomes shown to a primitive are those of everything before it, and the
    changed set shown to it is that of these outcomes. -/
def ShownChanged (s : ApplyLoop S) : Prop :=
  ∀ id changed seen, .apply id changed seen ∈ s.calls →
    (∃ o after, s.resources = seen ++ o :: after ∧ o.id = id) ∧ ChangedIds changed seen

theorem run_changed (order : List ResourceId) {ctx : ApplyCtx S}
    (hfresh : ctx.changedResources = ∅)
    (hrec : ∀ kind primitive, args.primitives kind = some primitive →
      primitive.RecordsOnlyItself) :
    ChangedIds (args.run order ctx).ctx.changedResources (args.run order ctx).resources ∧
      ShownChanged (args.run order ctx) := by
  refine run_induction args order ctx (fun _ s =>
    ChangedIds s.ctx.changedResources s.resources ∧ ShownChanged s) ?_ ?_
  · exact ⟨by simp [ChangedIds, ApplyLoop.start, hfresh], by simp [ShownChanged, ApplyLoop.start]⟩
  · rintro done id rest s s' o calls _ ⟨hchanged, hshown⟩ - hpass
    refine ⟨?_, ?_⟩
    · rw [hpass.changed hrec, hpass.resources]
      exact hchanged.snoc o
    · intro id changed seen hmem
      rw [hpass.calls_eq] at hmem
      rw [hpass.resources]
      rcases List.mem_append.mp hmem with hmem | hmem
      · obtain ⟨⟨o', after, heq, hid⟩, hseen⟩ := hshown id changed seen hmem
        exact ⟨⟨o', after ++ [o], by simp [heq], hid⟩, hseen⟩
      · obtain ⟨rfl, rfl, rfl⟩ := hpass.shown id changed seen hmem
        exact ⟨⟨o, [], rfl, rfl⟩, hchanged⟩

/-! ## Calls -/

/-- The calls made for one resource. -/
def ApplyLoop.callsOf (s : ApplyLoop S) (id : ResourceId) : List PrimitiveCall :=
  s.calls.filter (fun c => c.id = id)

/-- Each resource has had its conversation, and nobody else was called. -/
structure Conversed (done : List ResourceId) (s : ApplyLoop S) : Prop where
  ids : s.resources.map (·.id) = done
  called : ∀ c ∈ s.calls, c.id ∈ done
  conversation : ∀ o ∈ s.resources, Conversation o (s.callsOf o.id)

theorem Conversed.pass {done : List ResourceId} {s s' : ApplyLoop S}
    {o : ResourceApplyOutcome} {calls : List PrimitiveCall} (h : Conversed done s)
    (hpass : Pass args s s' o calls) (hnew : o.id ∉ done) :
    Conversed (done ++ [o.id]) s' := by
  have hids := hpass.conversation.id_eq
  refine ⟨by simp [hpass.resources, h.ids], ?_, ?_⟩
  · intro c hc
    rw [hpass.calls_eq] at hc
    rcases List.mem_append.mp hc with hc | hc
    · exact List.mem_append_left _ (h.called c hc)
    · simp [hids c hc]
  · intro o' ho'
    rw [hpass.resources] at ho'
    rw [ApplyLoop.callsOf, hpass.calls_eq, List.filter_append]
    rcases List.mem_append.mp ho' with ho' | ho'
    · -- an earlier resource: none of the new calls is for it
      have hdone : o'.id ∈ done := h.ids ▸ List.mem_map_of_mem ho'
      have hnone : calls.filter (fun c => c.id = o'.id) = [] := by
        refine List.filter_eq_nil_iff.mpr fun c hc => ?_
        have hne : o.id ≠ o'.id := fun heq => hnew (heq ▸ hdone)
        simpa [hids c hc] using hne
      rw [hnone, List.append_nil]
      exact h.conversation o' ho'
    · -- this resource: no earlier call was for it
      obtain rfl := List.mem_singleton.mp ho'
      have hnone : s.calls.filter (fun c => c.id = o'.id) = [] := by
        refine List.filter_eq_nil_iff.mpr fun c hc => ?_
        have hne : c.id ≠ o'.id := fun heq => hnew (heq ▸ h.called c hc)
        simpa using hne
      have hall : calls.filter (fun c => c.id = o'.id) = calls :=
        List.filter_eq_self.mpr fun c hc => by simp [hids c hc]
      rw [hnone, hall, List.nil_append]
      exact hpass.conversation

theorem run_conversed (args : ApplyArgs P S) {order : List ResourceId} (hnodup : order.Nodup)
    (ctx : ApplyCtx S) : Conversed order (args.run order ctx) := by
  refine run_induction args order ctx Conversed
    ⟨rfl, by simp [ApplyLoop.start], by simp [ApplyLoop.start]⟩ ?_
  rintro done id rest s s' o calls rfl hinv rfl hpass
  refine hinv.pass hpass fun hmem => ?_
  exact List.disjoint_of_nodup_append hnodup hmem (by simp)

/-! ## Aborts -/

/-- Behind an outcome that stops the run everything is skipped, and whatever is
    skipped has such an outcome or an unsettled dependency before it. -/
structure Aborts (args : ApplyArgs P S) (s : ApplyLoop S) : Prop where
  flags : Flags args s
  after : ∀ before o after, s.resources = before ++ o :: after →
    args.opts.stops o.outcome = true → ∀ o' ∈ after, o'.outcome = .skipped
  cause : ∀ before o after, s.resources = before ++ o :: after → o.outcome = .skipped →
    (∃ o' ∈ before, args.opts.stops o'.outcome = true) ∨
    ∃ o' ∈ before, args.registry.HardDep o.id o'.id ∧ o'.outcome.isSettled = false

theorem append_cons_snoc {α : Type} {xs before after : List α} {x y : α}
    (h : xs ++ [x] = before ++ y :: after) :
    (after = [] ∧ xs = before ∧ x = y) ∨
      ∃ after', after = after' ++ [x] ∧ xs = before ++ y :: after' := by
  rcases List.eq_nil_or_concat after with rfl | ⟨after', z, rfl⟩
  · left
    simpa using h
  · right
    rw [List.concat_eq_append, ← List.cons_append, ← List.append_assoc] at h
    obtain ⟨hxs, hz⟩ := List.append_inj' h rfl
    obtain rfl : x = z := by simpa using hz
    exact ⟨after', List.concat_eq_append, hxs⟩

theorem Aborts.pass {s s' : ApplyLoop S} {o : ResourceApplyOutcome}
    {calls : List PrimitiveCall} (h : Aborts args s) (hpass : Pass args s s' o calls) :
    Aborts args s' := by
  refine ⟨h.flags.pass hpass, ?_, ?_⟩
  · intro before o₁ after heq hstops o₂ ho₂
    rw [hpass.resources] at heq
    rcases append_cons_snoc heq with ⟨rfl, -, -⟩ | ⟨after', rfl, hold⟩
    · exact absurd ho₂ List.not_mem_nil
    · rcases List.mem_append.mp ho₂ with ho₂ | ho₂
      · exact h.after before o₁ after' hold hstops o₂ ho₂
      · -- the flag was up when the new outcome was pushed
        obtain rfl := List.mem_singleton.mp ho₂
        have habort : s.aborted = true := by
          rw [h.flags.aborted, hold]
          simp [hstops]
        exact (hpass.afterAbort habort).1
  · intro before o₁ after heq hskipped
    rw [hpass.resources] at heq
    rcases append_cons_snoc heq with ⟨-, rfl, rfl⟩ | ⟨after', -, hold⟩
    · cases habort : s.aborted with
      | true =>
        left
        rw [h.flags.aborted] at habort
        simpa using habort
      | false =>
        right
        obtain ⟨r, hget, dep, hdep, hfailed⟩ := hpass.skipped habort hskipped
        obtain ⟨o', ho', rfl, hunsettled⟩ := h.flags.failed dep hfailed
        exact ⟨o', ho', ⟨r, hget, hdep⟩, hunsettled⟩
    · exact h.cause before o₁ after' hold hskipped

theorem run_aborts (args : ApplyArgs P S) (order : List ResourceId) (ctx : ApplyCtx S) :
    Aborts args (args.run order ctx) := by
  refine run_induction args order ctx (fun _ s => Aborts args s)
    ⟨flags_start args ctx, by simp [ApplyLoop.start], by simp [ApplyLoop.start]⟩ ?_
  rintro done id rest s s' o calls _ hinv _ hpass
  exact hinv.pass hpass

/-! ## The whole account -/

structure Accounted (args : ApplyArgs P S) (order : List ResourceId) (s : ApplyLoop S) :
    Prop where
  /-- One outcome for each registered resource, in topological order. -/
  outcomes : s.report.resources.map (·.id) = order ∧ order.Perm args.registry.ids
  counters : s.report.summary = .tally s.report.resources
  total : s.report.summary.total = args.registry.resources.length
  changed : ChangedIds s.ctx.changedResources s.report.resources
  visible : ∀ id changed seen, .apply id changed seen ∈ s.calls →
    (∃ o after, s.report.resources = seen ++ o :: after ∧ o.id = id) ∧ ChangedIds changed seen
  /-- `mark_dirty` goes with `apply`, and with the kind of the resource. -/
  dirty : ∀ id, (∃ kind, .markDirty id kind ∈ s.calls) ↔
    ∃ changed seen, .apply id changed seen ∈ s.calls
  dirtyKind : ∀ id kind, .markDirty id kind ∈ s.calls →
    ∃ r, args.registry.get id = some r ∧ kind = r.kind
  /-- In particular each of the three calls is made at most once for a resource,
      and `mark_dirty` comes right before `apply`. -/
  conversation : ∀ o ∈ s.report.resources, Conversation o (s.callsOf o.id)
  noChange : ∀ id, .plan id true ∈ s.calls → ∀ kind, .markDirty id kind ∉ s.calls
  silent : ∀ o ∈ s.report.resources, o.outcome = .skipped → ∀ c ∈ s.calls, c.id ≠ o.id
  /-- After an `Interrupted`, and after a `Failed` that ends the run, no
      primitive is called and everything is skipped. -/
  abort : ∀ before o after, s.report.resources = before ++ o :: after →
    (o.outcome.isInterrupted = true ∨
      (o.outcome.isFailed = true ∧ args.opts.continueOnError = false)) →
    ∀ o' ∈ after, o'.outcome = .skipped ∧ ∀ c ∈ s.calls, c.id ≠ o'.id
  /-- Nothing else stops the run, a `Deferred` in particular: what is skipped
      comes after such an outcome or depends on something left unsettled. -/
  goesOn : ∀ before o after, s.report.resources = before ++ o :: after →
    o.outcome = .skipped →
    (∃ o' ∈ before, o'.outcome.isInterrupted = true ∨
      (o'.outcome.isFailed = true ∧ args.opts.continueOnError = false)) ∨
    ∃ o' ∈ before, args.registry.HardDep o.id o'.id ∧
      (o'.outcome.isFailed = true ∨ o'.outcome.isInterrupted = true ∨
        o'.outcome.isSkipped = true)

theorem stops_iff (opts : ApplyOpts) (outcome : Outcome) :
    opts.stops outcome = true ↔ outcome.isInterrupted = true ∨
      (outcome.isFailed = true ∧ opts.continueOnError = false) := by
  cases outcome <;> simp [ApplyOpts.stops, Outcome.isInterrupted, Outcome.isFailed]

theorem unsettled_iff (outcome : Outcome) :
    outcome.isSettled = false ↔ outcome.isFailed = true ∨ outcome.isInterrupted = true ∨
      outcome.isSkipped = true := by
  cases outcome <;>
    simp [Outcome.isSettled, Outcome.isInterrupted, Outcome.isFailed, Outcome.isSkipped]

namespace Conversation

variable {o : ResourceApplyOutcome} {calls : List PrimitiveCall} (h : Conversation o calls)
include h

theorem markDirty_iff :
    (∃ kind, .markDirty o.id kind ∈ calls) ↔ ∃ changed seen, .apply o.id changed seen ∈ calls := by
  cases h <;> simp

theorem markDirty_kind {kind : ResourceKind} (hmem : .markDirty o.id kind ∈ calls) :
    kind = o.kind := by
  cases h with
  | silent | planned => simp at hmem
  | applied => simpa using hmem

theorem not_markDirty (hmem : .plan o.id true ∈ calls) (kind : ResourceKind) :
    .markDirty o.id kind ∉ calls := by
  cases h <;> simp at hmem ⊢

end Conversation

theorem mem_callsOf {s : ApplyLoop S} {c : PrimitiveCall} {id : ResourceId} :
    c ∈ s.callsOf id ↔ c ∈ s.calls ∧ c.id = id := by simp [ApplyLoop.callsOf]

namespace Conversed

variable {order : List ResourceId} {s : ApplyLoop S} (h : Conversed order s)
include h

/-- The conversation a call belongs to. -/
theorem of_mem {c : PrimitiveCall} (hc : c ∈ s.calls) :
    ∃ o ∈ s.resources, o.id = c.id ∧ Conversation o (s.callsOf o.id) := by
  have hid : c.id ∈ s.resources.map (·.id) := h.ids ▸ h.called c hc
  obtain ⟨o, ho, hoid⟩ := List.mem_map.mp hid
  exact ⟨o, ho, hoid, h.conversation o ho⟩

theorem dirty_iff (id : ResourceId) : (∃ kind, .markDirty id kind ∈ s.calls) ↔
    ∃ changed seen, .apply id changed seen ∈ s.calls := by
  constructor
  · rintro ⟨kind, hmem⟩
    obtain ⟨o, -, rfl, hconv⟩ := h.of_mem hmem
    obtain ⟨changed, seen, hmem'⟩ := hconv.markDirty_iff.mp ⟨kind, mem_callsOf.mpr ⟨hmem, rfl⟩⟩
    exact ⟨changed, seen, (mem_callsOf.mp hmem').1⟩
  · rintro ⟨changed, seen, hmem⟩
    obtain ⟨o, -, rfl, hconv⟩ := h.of_mem hmem
    obtain ⟨kind, hmem'⟩ := hconv.markDirty_iff.mpr
      ⟨changed, seen, mem_callsOf.mpr ⟨hmem, rfl⟩⟩
    exact ⟨kind, (mem_callsOf.mp hmem').1⟩

theorem dirty_kind {id : ResourceId} {kind : ResourceKind} (hmem : .markDirty id kind ∈ s.calls) :
    ∃ o ∈ s.resources, o.id = id ∧ kind = o.kind := by
  obtain ⟨o, ho, rfl, hconv⟩ := h.of_mem hmem
  exact ⟨o, ho, rfl, hconv.markDirty_kind (mem_callsOf.mpr ⟨hmem, rfl⟩)⟩

theorem not_dirty {id : ResourceId} (hmem : .plan id true ∈ s.calls) (kind : ResourceKind) :
    .markDirty id kind ∉ s.calls := by
  intro hdirty
  obtain ⟨o, -, rfl, hconv⟩ := h.of_mem hmem
  exact hconv.not_markDirty (mem_callsOf.mpr ⟨hmem, rfl⟩) kind (mem_callsOf.mpr ⟨hdirty, rfl⟩)

theorem silent {o : ResourceApplyOutcome} (ho : o ∈ s.resources) (hskipped : o.outcome = .skipped) :
    ∀ c ∈ s.calls, c.id ≠ o.id := by
  intro c hc hid
  have hnil := (h.conversation o ho).nil_of_skipped hskipped
  exact absurd (mem_callsOf.mpr ⟨hc, hid⟩) (by simp [hnil])

end Conversed

theorem run_kinds (args : ApplyArgs P S) (order : List ResourceId) (ctx : ApplyCtx S) :
    ∀ o ∈ (args.run order ctx).resources, o.kind = args.kindOf o.id := by
  refine run_induction args order ctx (fun _ s => ∀ o ∈ s.resources, o.kind = args.kindOf o.id)
    (by simp [ApplyLoop.start]) ?_
  intro done id rest s s' o calls _ hinv _ hpass o' ho'
  rw [hpass.resources, List.mem_append, List.mem_singleton] at ho'
  rcases ho' with ho' | rfl
  · exact hinv o' ho'
  · exact hpass.kind

/-- **Run accounting and abort discipline.**  A registry that the topological
    order accepts gives a report, and everything the loop keeps agrees with it. -/
theorem accounted (args : ApplyArgs P S) (it : Registry.HashIter) (ctx : ApplyCtx S)
    (hknown : ¬ args.registry.HasUnknownHandle) (hacyclic : args.registry.Acyclic)
    (hfresh : ctx.changedResources = ∅)
    (hrec : ∀ kind primitive, args.primitives kind = some primitive →
      primitive.RecordsOnlyItself) :
    ∃ order, args.registry.topologicalOrder it = .ok order ∧
      args.apply it ctx = .ok ((args.run order ctx).report, (args.run order ctx).ctx) ∧
      Accounted args order (args.run order ctx) := by
  obtain ⟨order, horder⟩ := (Registry.complete_iff hknown it).mpr hacyclic
  have hperm := (Registry.topologicalOrder_ok horder).1
  have hids := run_ids args order ctx
  have hsummary := run_summary args order ctx
  have hconv := run_conversed args (hperm.nodup_iff.mpr args.registry.nodup) ctx
  have haborts := run_aborts args order ctx
  obtain ⟨hchanged, hshown⟩ := run_changed order hfresh hrec
  refine ⟨order, horder, by rw [ApplyArgs.apply, horder]; rfl, ?_⟩
  refine
    { outcomes := ⟨hids, hperm⟩
      counters := hsummary
      total := ?_
      changed := hchanged
      visible := hshown
      dirty := hconv.dirty_iff
      dirtyKind := ?_
      conversation := hconv.conversation
      noChange := fun id hmem => hconv.not_dirty hmem
      silent := fun o ho hskipped => hconv.silent ho hskipped
      abort := ?_
      goesOn := ?_ }
  · have hlen : (args.run order ctx).resources.length = args.registry.resources.length := by
      rw [← List.length_map (·.id), hids, hperm.length_eq, Registry.ids, List.length_map]
    rw [ApplyLoop.report, hsummary, total_tally, hlen]
  · intro id kind hmem
    obtain ⟨o, ho, rfl, rfl⟩ := hconv.dirty_kind hmem
    have hid : o.id ∈ args.registry.ids := hperm.subset (hids ▸ List.mem_map_of_mem ho)
    obtain ⟨r, hget, -⟩ := Registry.get_of_mem hid
    exact ⟨r, hget, (run_kinds args order ctx o ho).trans (kindOf_eq hget)⟩
  · intro before o after heq hstops o' ho'
    have hskipped := haborts.after before o after heq ((stops_iff _ _).mpr hstops) o' ho'
    have heq' : (args.run order ctx).resources = before ++ o :: after := heq
    have hmem : o' ∈ (args.run order ctx).resources := by simp [heq', ho']
    exact ⟨hskipped, hconv.silent hmem hskipped⟩
  · intro before o after heq hskipped
    rcases haborts.cause before o after heq hskipped with ⟨o', ho', hstops⟩ | ⟨o', ho', hdep, hu⟩
    · exact .inl ⟨o', ho', (stops_iff _ _).mp hstops⟩
    · exact .inr ⟨o', ho', hdep, (unsettled_iff _).mp hu⟩

theorem confAndService_known : ¬ confAndService.registry.HasUnknownHandle := by
  simp [Registry.HasUnknownHandle, confAndService, Resource.edges, Registry.ids]

theorem confAndService_acyclic : confAndService.registry.Acyclic :=
  (Registry.complete_iff confAndService_known ⟨id, fun _ => .rfl⟩).mp
    ⟨_, confAndService_order⟩

theorem accounted_confAndService :
    ∃ order, confAndService.registry.topologicalOrder ⟨id, fun _ => .rfl⟩ = .ok order ∧
      (confAndService.run order ⟨∅, 0⟩).report.summary.changed = 2 ∧
      Accounted confAndService order (confAndService.run order ⟨∅, 0⟩) := by
  obtain ⟨order, horder, -, hacc⟩ := accounted confAndService ⟨id, fun _ => .rfl⟩ ⟨∅, 0⟩
    confAndService_known confAndService_acyclic rfl (by
      rintro kind primitive ⟨⟩ r diff ctx
      exact .inl rfl)
  obtain rfl : [⟨"file.content:/etc/nginx.conf"⟩, ⟨"runr.service:nginx"⟩] = order :=
    Except.ok.inj (confAndService_order.symm.trans horder)
  exact ⟨_, horder, by decide, hacc⟩

end Bosun
