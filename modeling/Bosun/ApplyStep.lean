import Bosun.Orchestrator

/-!
# One pass of the apply loop

`iteration_pass` says once what a pass can do: which outcome it pushes, and what
that outcome means for the counters, the abort flag, the failed ids, the changed
ids and the calls made to the primitive.  No later proof unfolds the loop body.
-/

namespace Bosun

namespace ApplyOpts

/-- The outcomes after which nothing is applied any more. -/
def stops (opts : ApplyOpts) : Outcome → Bool
  | .interrupted _ => true
  | .failed _ => !opts.continueOnError
  | _ => false

end ApplyOpts

/-- The counter that goes with an outcome. -/
def ApplySummary.count (summary : ApplySummary) : Outcome → ApplySummary
  | .changed => { summary with changed := summary.changed + 1 }
  | .noChange => { summary with noChange := summary.noChange + 1 }
  | .failed _ => { summary with failed := summary.failed + 1 }
  | .skipped => { summary with skipped := summary.skipped + 1 }
  | .deferred _ => { summary with deferred := summary.deferred + 1 }
  | .interrupted _ => { summary with interrupted := summary.interrupted + 1 }

/-- A primitive that records nothing in the changed set but its own resource,
    and that only when it reports a change (as `cert.tls` does). -/
def Primitive.RecordsOnlyItself {P S : Type} (primitive : Primitive P S) : Prop :=
  ∀ r diff ctx,
    (primitive.apply r diff ctx).2.changedResources = ctx.changedResources ∨
    ((primitive.apply r diff ctx).2.changedResources = insert r.id ctx.changedResources ∧
      ∃ report, (primitive.apply r diff ctx).1 = .returned (.ok report) ∧
        report.changed = true ∧ report.deferred = false)

variable {P S : Type}

/-- Why a pass ends in `Interrupted`: the token was seen in the pacer's pause, or
    the primitive answered `Cancelled`, and `ctx` is the context since then. -/
def Interruption (args : ApplyArgs P S) (id : ResourceId) (ctx : ApplyCtx S) : Prop :=
  args.platform.cancelled ctx.state = true ∨
  ∃ r primitive, args.registry.get id = some r ∧ args.primitives r.kind = some primitive ∧
    ((∃ state, primitive.plan r state = (.returned (.error .cancelled), ctx.state)) ∨
      ∃ diff before, primitive.apply r diff before = (.returned (.error .cancelled), ctx))

/-- What the loop says to the primitive of one resource. -/
inductive Conversation (o : ResourceApplyOutcome) : List PrimitiveCall → Prop
  /-- Nothing: the resource fails or is skipped before its primitive is found. -/
  | silent (h : o.outcome.isSettled = false) : Conversation o []
  /-- Only `plan`, which found no change, or failed. -/
  | planned (noChange : Bool) (hskipped : o.outcome ≠ .skipped)
      (h : o.outcome.isSettled = true → noChange = true ∧ o.outcome = .noChange)
      (hnoChange : noChange = true → o.outcome = .noChange) :
      Conversation o [.plan o.id noChange]
  | applied (changed : Finset ResourceId) (seen : List ResourceApplyOutcome)
      (hskipped : o.outcome ≠ .skipped) :
      Conversation o [.plan o.id false, .markDirty o.id o.kind, .apply o.id changed seen]

/-- A pass of the loop from `s` to `s'` that pushes `o` and makes `calls`. -/
structure Pass (args : ApplyArgs P S) (s s' : ApplyLoop S) (o : ResourceApplyOutcome)
    (calls : List PrimitiveCall) : Prop where
  kind : o.kind = args.kindOf o.id
  resources : s'.resources = s.resources ++ [o]
  summary : s'.summary = s.summary.count o.outcome
  aborted : s'.aborted = (s.aborted || args.opts.stops o.outcome)
  failed : s'.failedOrInterrupted =
    if s.aborted = true ∨ o.outcome.isSettled = true then s.failedOrInterrupted
    else insert o.id s.failedOrInterrupted
  changed : (∀ kind primitive, args.primitives kind = some primitive →
      primitive.RecordsOnlyItself) →
    s'.ctx.changedResources =
      if o.outcome = .changed then insert o.id s.ctx.changedResources
      else s.ctx.changedResources
  recorded : o.outcome = .changed → o.id ∈ s'.ctx.changedResources
  calls_eq : s'.calls = s.calls ++ calls
  conversation : Conversation o calls
  shown : ∀ id changed seen, .apply id changed seen ∈ calls →
    id = o.id ∧ changed = s.ctx.changedResources ∧ seen = s.resources
  afterAbort : s.aborted = true → o.outcome = .skipped ∧ calls = [] ∧ s'.ctx = s.ctx
  /-- A primitive is called only while the run goes on and no direct dependency
      is among the failed ids. -/
  ready : calls ≠ [] → s.aborted = false ∧ ∃ r, args.registry.get o.id = some r ∧
    ∀ dep ∈ r.dependsOn, dep ∉ s.failedOrInterrupted
  skipped : s.aborted = false → o.outcome = .skipped →
    ∃ r, args.registry.get o.id = some r ∧ ∃ dep ∈ r.dependsOn, dep ∈ s.failedOrInterrupted
  interrupted : ∀ reason, o.outcome = .interrupted reason → Interruption args o.id s'.ctx

namespace Conversation

theorem settled_ne_nil {o : ResourceApplyOutcome} {calls : List PrimitiveCall}
    (h : Conversation o calls) (hs : o.outcome.isSettled = true) : calls ≠ [] := by
  cases h with
  | silent hnot => rw [hs] at hnot; cases hnot
  | planned | applied => simp

theorem id_eq {o : ResourceApplyOutcome} {calls : List PrimitiveCall}
    (h : Conversation o calls) : ∀ c ∈ calls, c.id = o.id := by
  cases h <;> simp [PrimitiveCall.id]

theorem nil_of_skipped {o : ResourceApplyOutcome} {calls : List PrimitiveCall}
    (h : Conversation o calls) (hs : o.outcome = .skipped) : calls = [] := by
  cases h with
  | silent => rfl
  | planned _ hskipped | applied _ _ hskipped => exact absurd hs hskipped

end Conversation

/-! ## The exits -/

/-- The updates every exit makes to the state `t` it is reached from, written
    once as functions of the outcome. -/
structure Exit (args : ApplyArgs P S) (t s' : ApplyLoop S) (o : ResourceApplyOutcome) :
    Prop where
  resources : s'.resources = t.resources ++ [o]
  summary : s'.summary = t.summary.count o.outcome
  aborted : s'.aborted = (t.aborted || args.opts.stops o.outcome)
  failed : s'.failedOrInterrupted =
    if o.outcome.isSettled = true then t.failedOrInterrupted
    else insert o.id t.failedOrInterrupted
  ctx : s'.ctx = if o.outcome = .changed then t.ctx.recordChanged o.id else t.ctx
  calls : s'.calls = t.calls

section Exits

variable (args : ApplyArgs P S) (t : ApplyLoop S) (id : ResourceId) (kind : ResourceKind)

theorem exit_fail (error message : String) :
    Exit args t (t.fail args.opts id kind error message) ⟨id, kind, .failed error, message⟩ :=
  ⟨rfl, rfl, rfl, rfl, rfl, rfl⟩

theorem exit_interrupt (reason : String) :
    Exit args t (t.interrupt id kind reason) ⟨id, kind, .interrupted reason, reason⟩ :=
  ⟨rfl, rfl, (Bool.or_true _).symm, rfl, rfl, rfl⟩

theorem exit_skipDependent (failedDep : ResourceId) :
    Exit args t (t.skipDependent id kind failedDep) ⟨id, kind, .skipped,
      "skipped: transitive failure of dependency '" ++ failedDep.asStr ++ "'"⟩ :=
  ⟨rfl, rfl, (Bool.or_false _).symm, rfl, rfl, rfl⟩

theorem exit_unchanged (message : String) :
    Exit args t (t.unchanged id kind message) ⟨id, kind, .noChange, message⟩ :=
  ⟨rfl, rfl, (Bool.or_false _).symm, rfl, rfl, rfl⟩

theorem exit_change (message : String) :
    Exit args t (t.change id kind message) ⟨id, kind, .changed, message⟩ :=
  ⟨rfl, rfl, (Bool.or_false _).symm, rfl, rfl, rfl⟩

theorem exit_defer (reason : String) :
    Exit args t (t.defer id kind reason) ⟨id, kind, .deferred reason, reason⟩ :=
  ⟨rfl, rfl, (Bool.or_false _).symm, rfl, rfl, rfl⟩

end Exits

/-- `t` is the state somewhere inside the pass of `id` that began in `s`: only
    the context has changed, and `calls` have been made. -/
structure Inside (args : ApplyArgs P S) (id : ResourceId) (s t : ApplyLoop S)
    (calls : List PrimitiveCall) : Prop where
  resources : t.resources = s.resources
  summary : t.summary = s.summary
  notAborted : s.aborted = false
  aborted : t.aborted = false
  failed : t.failedOrInterrupted = s.failedOrInterrupted
  calls_eq : t.calls = s.calls ++ calls
  shown : ∀ id' changed seen, .apply id' changed seen ∈ calls →
    id' = id ∧ changed = s.ctx.changedResources ∧ seen = s.resources
  ready : calls ≠ [] → ∃ r, args.registry.get id = some r ∧
    ∀ dep ∈ r.dependsOn, dep ∉ s.failedOrInterrupted

/-- A pass that leaves through an exit. -/
theorem Inside.pass {args : ApplyArgs P S} {s t s' : ApplyLoop S} {o : ResourceApplyOutcome}
    {calls : List PrimitiveCall} (hin : Inside args o.id s t calls) (hexit : Exit args t s' o)
    (hkind : o.kind = args.kindOf o.id) (hconv : Conversation o calls)
    (hchanged : (∀ kind primitive, args.primitives kind = some primitive →
        primitive.RecordsOnlyItself) →
      t.ctx.changedResources = s.ctx.changedResources ∨
      (o.outcome = .changed ∧
        t.ctx.changedResources = insert o.id s.ctx.changedResources))
    (hskipped : o.outcome = .skipped → ∃ r, args.registry.get o.id = some r ∧
      ∃ dep ∈ r.dependsOn, dep ∈ s.failedOrInterrupted)
    (hinterrupted : ∀ reason, o.outcome = .interrupted reason →
      Interruption args o.id t.ctx) :
    Pass args s s' o calls where
  kind := hkind
  resources := by rw [hexit.resources, hin.resources]
  summary := by rw [hexit.summary, hin.summary]
  aborted := by rw [hexit.aborted, hin.aborted, hin.notAborted]
  failed := by simp [hexit.failed, hin.failed, hin.notAborted]
  changed hrec := by
    rw [hexit.ctx]
    rcases hchanged hrec with hsame | ⟨hc, hins⟩
    · split
      · rw [ApplyCtx.recordChanged, hsame]
      · exact hsame
    · rw [if_pos hc, if_pos hc, ApplyCtx.recordChanged, hins, Finset.insert_idem]
  recorded hc := by
    rw [hexit.ctx, if_pos hc]
    exact Finset.mem_insert_self _ _
  calls_eq := by rw [hexit.calls, hin.calls_eq]
  conversation := hconv
  shown := hin.shown
  afterAbort habort := by simp [hin.notAborted] at habort
  ready hcalls := ⟨hin.notAborted, hin.ready hcalls⟩
  skipped _ := hskipped
  interrupted reason hreason := by
    rw [hexit.ctx, if_neg (by simp [hreason])]
    exact hinterrupted reason hreason

/-! ## The body of the loop -/

section Body

variable (args : ApplyArgs P S) {s : ApplyLoop S}

variable {args} in
theorem kindOf_eq {r : Resource P} {id : ResourceId} (h : args.registry.get id = some r) :
    args.kindOf id = r.kind := by simp [ApplyArgs.kindOf, h]

theorem inside_ctx (id : ResourceId) (habort : s.aborted = false) (ctx : ApplyCtx S) :
    Inside args id s { s with ctx := ctx } [] :=
  ⟨rfl, rfl, habort, habort, rfl, (List.append_nil _).symm, by simp, by simp⟩

/-- The answer of `apply` is turned into an outcome. -/
theorem recordApply_exit (id : ResourceId) (kind : ResourceKind)
    (result : Except PrimitiveError ChangeReport) (t : ApplyLoop S) :
    ∃ o : ResourceApplyOutcome, Exit args t (args.recordApply id kind result t) o ∧
      o.id = id ∧ o.kind = kind ∧ o.outcome ≠ .skipped ∧
      (o.outcome = .changed ↔ ∃ report, result = .ok report ∧
        report.changed = true ∧ report.deferred = false) ∧
      ∀ reason, o.outcome = .interrupted reason → result = .error .cancelled := by
  cases result with
  | ok report =>
    by_cases hd : report.deferred = true
    · simp only [ApplyArgs.recordApply, if_pos hd]
      exact ⟨_, exit_defer args t id kind _, rfl, rfl, by simp, by simp [hd], by simp⟩
    · by_cases hc : report.changed = true
      · simp only [ApplyArgs.recordApply, if_neg hd, if_pos hc]
        exact ⟨_, exit_change args t id kind _, rfl, rfl, by simp, by simpa [hc] using hd, by simp⟩
      · simp only [ApplyArgs.recordApply, if_neg hd, if_neg hc]
        exact ⟨_, exit_unchanged args t id kind _, rfl, rfl, by simp, by simp [hc], by simp⟩
  | error err =>
    by_cases hcancel : err = .cancelled
    · subst hcancel
      exact ⟨_, exit_interrupt args t id kind _, rfl, rfl, by simp, by simp, fun _ _ => rfl⟩
    · have heq : args.recordApply id kind (.error err) t =
          if err.isDeferrable then t.defer id kind err.display
          else t.fail args.opts id kind err.describe.2 err.describe.1 := by
        cases err <;> first | rfl | exact absurd rfl hcancel
      rw [heq]
      by_cases hd : err.isDeferrable = true
      · rw [if_pos hd]
        exact ⟨_, exit_defer args t id kind _, rfl, rfl, by simp, by simp, by simp⟩
      · rw [if_neg hd]
        exact ⟨_, exit_fail args t id kind _ _, rfl, rfl, by simp, by simp, by simp⟩

theorem applyDiff_pass {primitive : Primitive P S} {r : Resource P} {diff : Diff P}
    (habort : s.aborted = false) (hget : args.registry.get r.id = some r)
    (hprim : args.primitives r.kind = some primitive)
    (hdeps : ∀ dep ∈ r.dependsOn, dep ∉ s.failedOrInterrupted) (state : S) :
    ∃ o calls, o.id = r.id ∧ Pass args s (args.applyDiff primitive r diff
      ({ s with ctx := { s.ctx with state := state } }.call (.plan r.id false))) o calls := by
  let ctx : ApplyCtx S := { s.ctx with state := args.markDirty r.kind state }
  let calls : List PrimitiveCall := [.plan r.id false, .markDirty r.id r.kind,
    .apply r.id s.ctx.changedResources s.resources]
  let t : ApplyLoop S :=
    { s with ctx := (primitive.apply r diff ctx).2, calls := s.calls ++ calls }
  have hin : Inside args r.id s t calls := by
    refine ⟨rfl, rfl, habort, habort, rfl, rfl, ?_, fun _ => ⟨r, hget, hdeps⟩⟩
    intro id' changed seen hmem
    simpa [calls] using hmem
  have heq : args.applyDiff primitive r diff
      ({ s with ctx := { s.ctx with state := state } }.call (.plan r.id false)) =
      args.recordApply r.id r.kind
        (callPrimitive ("apply " ++ r.id.asStr) (primitive.apply r diff ctx).1) t := by
    simp [ApplyArgs.applyDiff, ApplyLoop.call, t, calls, ctx]
  obtain ⟨⟨oid, okind, outcome, message⟩, hexit, hid, hkind, hskip, hchanged, hcancel⟩ :=
    recordApply_exit args r.id r.kind
      (callPrimitive ("apply " ++ r.id.asStr) (primitive.apply r diff ctx).1) t
  dsimp only at hid hkind hskip hchanged hcancel
  subst hid hkind
  refine ⟨⟨r.id, r.kind, outcome, message⟩, calls, rfl, heq ▸ hin.pass hexit
    (kindOf_eq hget).symm (.applied _ _ hskip) ?_ (fun h => absurd h hskip) ?_⟩
  · intro hrec
    rcases hrec r.kind primitive hprim r diff ctx with hsame | ⟨hins, report, hret, hc, hd⟩
    · exact .inl hsame
    · exact .inr ⟨hchanged.mpr ⟨report, by rw [hret]; rfl, hc, hd⟩, hins⟩
  · intro reason hreason
    have hret := callPrimitive_eq_cancelled.mp (hcancel reason hreason)
    exact .inr ⟨r, primitive, hget, hprim, .inr ⟨diff, ctx, Prod.ext hret rfl⟩⟩

theorem planResource_pass {primitive : Primitive P S} {r : Resource P}
    (habort : s.aborted = false) (hget : args.registry.get r.id = some r)
    (hprim : args.primitives r.kind = some primitive)
    (hdeps : ∀ dep ∈ r.dependsOn, dep ∉ s.failedOrInterrupted) :
    ∃ o calls, o.id = r.id ∧ Pass args s (args.planResource primitive r s) o calls := by
  have hkind := kindOf_eq hget
  have hin : ∀ noChange, Inside args r.id s
      ({ s with ctx := { s.ctx with state := (primitive.plan r s.ctx.state).2 } }.call
        (.plan r.id noChange)) [.plan r.id noChange] := fun noChange =>
    ⟨rfl, rfl, habort, habort, rfl, rfl, by simp, fun _ => ⟨r, hget, hdeps⟩⟩
  cases hres : callPrimitive ("plan " ++ r.id.asStr) (primitive.plan r s.ctx.state).1 with
  | ok diff =>
    cases diff with
    | noChange =>
      simp only [ApplyArgs.planResource, hres, ApplyArgs.isNoChange]
      exact ⟨_, _, rfl, (hin true).pass (exit_unchanged args _ _ _ _) hkind.symm
        (.planned true (by simp) (by simp) (by simp)) (fun _ => .inl rfl) (by simp) (by simp)⟩
    | add description payload =>
      simp only [ApplyArgs.planResource, hres, ApplyArgs.isNoChange]
      exact applyDiff_pass args habort hget hprim hdeps _
    | update source target description =>
      simp only [ApplyArgs.planResource, hres, ApplyArgs.isNoChange]
      exact applyDiff_pass args habort hget hprim hdeps _
  | error err =>
    by_cases hcancel : err = .cancelled
    · subst hcancel
      simp only [ApplyArgs.planResource, hres, ApplyArgs.isNoChange]
      have hret := callPrimitive_eq_cancelled.mp hres
      exact ⟨_, _, rfl, (hin false).pass (exit_interrupt args _ _ _ _) hkind.symm
        (.planned false (by simp) (by simp [Outcome.isSettled]) (by simp))
        (fun _ => .inl rfl) (by simp)
        (fun _ _ => .inr ⟨r, primitive, hget, hprim, .inl ⟨_, Prod.ext hret rfl⟩⟩)⟩
    · have heq : args.planResource primitive r s =
          ({ s with ctx := { s.ctx with state := (primitive.plan r s.ctx.state).2 } }.call
            (.plan r.id false)).fail args.opts r.id r.kind ("plan failed: " ++ err.display)
            ("plan failed: " ++ err.display) := by
        simp only [ApplyArgs.planResource, hres, ApplyArgs.isNoChange]
      rw [heq]
      exact ⟨_, _, rfl, (hin false).pass (exit_fail args _ _ _ _ _) hkind.symm
        (.planned false (by simp) (by simp [Outcome.isSettled]) (by simp))
        (fun _ => .inl rfl) (by simp) (by simp)⟩

theorem processResource_pass (habort : s.aborted = false) (id : ResourceId) :
    ∃ o calls, o.id = id ∧ Pass args s (args.processResource id s) o calls := by
  have hin : Inside args id s s [] := inside_ctx args id habort s.ctx
  cases hget : args.registry.get id with
  | none =>
    simp only [ApplyArgs.processResource, hget]
    exact ⟨_, [], rfl, hin.pass (exit_fail args s id _ _ _)
      (by simp [ApplyArgs.kindOf, hget]) (.silent rfl) (fun _ => .inl rfl) (by simp) (by simp)⟩
  | some r =>
    obtain ⟨-, rfl⟩ := Registry.get_eq_some.mp hget
    have hkind := kindOf_eq hget
    cases hfind : r.dependsOn.find? (fun dep => dep ∈ s.failedOrInterrupted) with
    | some failedDep =>
      simp only [ApplyArgs.processResource, hget, hfind]
      refine ⟨_, [], rfl, hin.pass (exit_skipDependent args s r.id r.kind failedDep)
        hkind.symm (.silent rfl) (fun _ => .inl rfl)
        (fun _ => ⟨r, hget, failedDep, ?_, ?_⟩) (by simp)⟩
      · exact List.mem_of_find?_eq_some hfind
      · simpa using List.find?_some hfind
    | none =>
      have hdeps : ∀ dep ∈ r.dependsOn, dep ∉ s.failedOrInterrupted := fun dep hdep => by
        simpa using List.find?_eq_none.mp hfind dep hdep
      cases hprim : args.primitives r.kind with
      | none =>
        simp only [ApplyArgs.processResource, hget, hfind, hprim]
        exact ⟨_, [], rfl, hin.pass (exit_fail args s r.id r.kind _ _) hkind.symm
          (.silent rfl) (fun _ => .inl rfl) (by simp) (by simp)⟩
      | some primitive =>
        simp only [ApplyArgs.processResource, hget, hfind, hprim]
        exact planResource_pass args habort hget hprim hdeps

/-- **One pass.**  Whatever the primitives answer and whenever the token fires,
    a pass of the loop pushes one outcome and does what `Pass` says. -/
theorem iteration_pass (interval idx : Nat) (id : ResourceId)
    (s : ApplyLoop S) :
    ∃ o calls, o.id = id ∧ Pass args s (args.iteration interval idx id s) o calls := by
  by_cases hpace : 0 < idx ∧ interval ≠ 0 ∧ s.aborted = false
  · have habort := hpace.2.2
    have hin := inside_ctx args id habort
      { s.ctx with state := (args.platform.cancellableSleep interval s.ctx.state).2 }
    simp only [ApplyArgs.iteration, if_pos hpace]
    cases hslept : (args.platform.cancellableSleep interval s.ctx.state).1 with
    | false =>
      have hfired := args.platform.cancelled_of_cancellableSleep hslept
      exact ⟨_, [], rfl, hin.pass (exit_interrupt args _ id _ _) rfl (.silent rfl)
        (fun _ => .inl rfl) (by simp) (fun _ _ => .inl hfired)⟩
    | true =>
      obtain ⟨o, calls, hid, hpass⟩ := processResource_pass args
        (s := { s with ctx := { s.ctx with
          state := (args.platform.cancellableSleep interval s.ctx.state).2 } }) habort id
      refine ⟨o, calls, hid, ?_⟩
      -- the pause has changed nothing that a pass speaks about
      exact ⟨hpass.kind, hpass.resources, hpass.summary, hpass.aborted, hpass.failed,
        hpass.changed, hpass.recorded, hpass.calls_eq, hpass.conversation, hpass.shown,
        fun h => by simp [habort] at h, hpass.ready, hpass.skipped, hpass.interrupted⟩
  · simp only [ApplyArgs.iteration, if_neg hpace]
    cases habort : s.aborted with
    | false => simpa using processResource_pass args habort id
    | true =>
      refine ⟨⟨id, args.kindOf id, .skipped, "skipped: aborted after earlier failure"⟩, [], rfl,
        ⟨rfl, rfl, rfl, (Bool.or_false _).symm, ?_, ?_, by simp, ?_, .silent rfl, by simp, ?_,
          by simp, ?_, by simp⟩⟩
      · simp [habort, ApplyLoop.skipAborted, ApplyLoop.push]
      · simp [ApplyLoop.skipAborted, ApplyLoop.push]
      · simp [ApplyLoop.skipAborted, ApplyLoop.push]
      · simp [ApplyLoop.skipAborted, ApplyLoop.push]
      · simp [habort]

end Body

end Bosun
