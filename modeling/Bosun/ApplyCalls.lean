import Bosun.ApplyRun

/-!
# What `apply` of a primitive is called with

One pass of the loop calls `apply` at most once, and before it does it has
paused, looked at the dependencies, planned and marked the facts dirty.
`handedOver` is the context that is left then; the rest of the pass only looks at
the answer.
-/

namespace Bosun

variable {P S : Type}

/-- One call of `apply`. -/
structure ApplyCall (P S : Type) where
  primitive : Primitive P S
  resource : Resource P
  diff : Diff P
  ctx : ApplyCtx S

namespace ApplyCall

variable (call : ApplyCall P S)

def answer : Call ChangeReport := (call.primitive.apply call.resource call.diff call.ctx).1

def after : ApplyCtx S := (call.primitive.apply call.resource call.diff call.ctx).2

end ApplyCall

namespace ApplyArgs

variable (args : ApplyArgs P S)

/-- The call that `planResource` comes to. -/
def planned (primitive : Primitive P S) (r : Resource P) (ctx : ApplyCtx S) :
    Option (ApplyCall P S) :=
  let (answer, state) := primitive.plan r ctx.state
  match callPrimitive ("plan " ++ r.id.asStr) answer with
  | .ok .noChange | .error _ => none
  | .ok diff => some ⟨primitive, r, diff, { ctx with state := args.markDirty r.kind state }⟩

/-- The call that the turn of a resource comes to. -/
def processed (id : ResourceId) (s : ApplyLoop S) : Option (ApplyCall P S) :=
  match args.registry.get id with
  | none => none
  | some r =>
    match r.dependsOn.find? (fun dep => dep ∈ s.failedOrInterrupted) with
    | some _ => none
    | none =>
      match args.primitives r.kind with
      | none => none
      | some primitive => args.planned primitive r s.ctx

/-- The call that one pass of the loop comes to, if to any. -/
def handedOver (interval idx : Nat) (id : ResourceId) (s : ApplyLoop S) :
    Option (ApplyCall P S) :=
  if 0 < idx ∧ interval ≠ 0 ∧ s.aborted = false then
    let (slept, state) := args.platform.cancellableSleep interval s.ctx.state
    if slept then args.processed id { s with ctx := { s.ctx with state := state } } else none
  else if s.aborted then none
  else args.processed id s

/-- `s'` is what the loop makes of the answer to this call, made when the loop was
    at `s`. -/
def Recorded (call : ApplyCall P S) (s s' : ApplyLoop S) : Prop :=
  ∃ t : ApplyLoop S, t.ctx = call.after ∧ t.resources = s.resources ∧
    t.calls = s.calls ++ [.plan call.resource.id false,
      .markDirty call.resource.id call.resource.kind,
      .apply call.resource.id call.ctx.changedResources s.resources] ∧
    s' = args.recordApply call.resource.id call.resource.kind
      (callPrimitive ("apply " ++ call.resource.id.asStr) call.answer) t

/-- No `apply` was called. -/
def Uncalled (s s' : ApplyLoop S) : Prop :=
  ∀ id changed seen, .apply id changed seen ∈ s'.calls → .apply id changed seen ∈ s.calls

theorem planned_spec (primitive : Primitive P S) (r : Resource P) (s : ApplyLoop S) :
    match args.planned primitive r s.ctx with
    | some call => args.Recorded call s (args.planResource primitive r s)
    | none => Uncalled s (args.planResource primitive r s) := by
  unfold planned planResource
  rcases primitive.plan r s.ctx.state with ⟨answer, state⟩
  have hquiet : ∀ noChange : Bool, ∀ t : ApplyLoop S,
      t.calls = s.calls ++ [.plan r.id noChange] → Uncalled s t := by
    intro noChange t ht id changed seen hmem
    rw [ht] at hmem
    simpa using hmem
  dsimp only
  match callPrimitive ("plan " ++ r.id.asStr) answer with
  | .ok .noChange => exact hquiet true _ rfl
  | .ok (.add description payload) =>
    refine ⟨_, ?_, ?_, ?_, rfl⟩
    · rfl
    · rfl
    · simp [ApplyLoop.call, isNoChange]
  | .ok (.update source target description) =>
    refine ⟨_, ?_, ?_, ?_, rfl⟩
    · rfl
    · rfl
    · simp [ApplyLoop.call, isNoChange]
  | .error .cancelled => exact hquiet false _ rfl
  | .error (.io _ _) | .error (.invalidPayload _) | .error (.exec _ _ _) | .error (.dpkgLocked _)
  | .error (.chownNotPermitted _ _) | .error .invalidTarget | .error (.panic _ _)
  | .error (.apply _) | .error (.runrUnavailable _ _) | .error (.systemdUnavailable _)
  | .error (.validation _ _) | .error (.healthCheckFailed _ _) | .error (.deferIo _ _) =>
    exact hquiet false _ rfl

theorem processed_spec (id : ResourceId) (s : ApplyLoop S) :
    match args.processed id s with
    | some call => args.Recorded call s (args.processResource id s)
    | none => Uncalled s (args.processResource id s) := by
  unfold processed processResource
  cases hget : args.registry.get id with
  | none => exact fun _ _ _ h => h
  | some r =>
    cases hfind : r.dependsOn.find? fun dep => dep ∈ s.failedOrInterrupted with
    | some dep =>
      simp only [hfind]
      exact fun _ _ _ h => h
    | none =>
      cases hprimitive : args.primitives r.kind with
      | none =>
        simp only [hfind, hprimitive]
        exact fun _ _ _ h => h
      | some primitive =>
        simp only [hfind, hprimitive]
        exact args.planned_spec primitive r s

/-- **`handedOver` is what `apply` is called with.** -/
theorem handedOver_spec (interval idx : Nat) (id : ResourceId) (s : ApplyLoop S) :
    match args.handedOver interval idx id s with
    | some call => args.Recorded call s (args.iteration interval idx id s)
    | none => Uncalled s (args.iteration interval idx id s) := by
  unfold handedOver iteration
  by_cases hpaces : 0 < idx ∧ interval ≠ 0 ∧ s.aborted = false
  · simp only [if_pos hpaces]
    rcases args.platform.cancellableSleep interval s.ctx.state with ⟨slept, state⟩
    cases slept with
    | true =>
      have hprocessed := args.processed_spec id { s with ctx := { s.ctx with state := state } }
      simp only [if_true]
      cases hcall : args.processed id { s with ctx := { s.ctx with state := state } } with
      | some call =>
        rw [hcall] at hprocessed
        exact hprocessed
      | none =>
        rw [hcall] at hprocessed
        exact hprocessed
    | false => exact fun _ _ _ h => h
  · simp only [if_neg hpaces]
    cases haborted : s.aborted with
    | true => exact fun _ _ _ h => h
    | false => exact args.processed_spec id s

/-- The primitive of a call is the one for the kind of its resource. -/
theorem primitive_of_handedOver {interval idx : Nat} {id : ResourceId} {s : ApplyLoop S}
    {call : ApplyCall P S} (h : args.handedOver interval idx id s = some call) :
    args.registry.get id = some call.resource ∧
      args.primitives call.resource.kind = some call.primitive ∧ call.diff ≠ .noChange := by
  have hplanned : ∀ primitive r ctx, args.planned primitive r ctx = some call →
      call.primitive = primitive ∧ call.resource = r ∧ call.diff ≠ .noChange := by
    intro primitive r ctx hcall
    unfold planned at hcall
    dsimp only at hcall
    split at hcall
    · cases hcall
    · cases hcall
    · rename_i diff hnot _
      obtain rfl := Option.some.inj hcall
      exact ⟨rfl, rfl, hnot⟩
  have hprocessed : ∀ t : ApplyLoop S, args.processed id t = some call →
      args.registry.get id = some call.resource ∧
        args.primitives call.resource.kind = some call.primitive ∧ call.diff ≠ .noChange := by
    intro t hcall
    unfold processed at hcall
    cases hget : args.registry.get id with
    | none => simp [hget] at hcall
    | some r =>
      cases hfind : r.dependsOn.find? fun dep => dep ∈ t.failedOrInterrupted with
      | some dep => simp only [hget, hfind] at hcall; cases hcall
      | none =>
        cases hprimitive : args.primitives r.kind with
        | none => simp only [hget, hfind, hprimitive] at hcall; cases hcall
        | some primitive =>
          simp only [hget, hfind, hprimitive] at hcall
          obtain ⟨rfl, rfl, hdiff⟩ := hplanned _ _ _ hcall
          exact ⟨rfl, hprimitive, hdiff⟩
  unfold handedOver at h
  split at h
  · rcases hpause : args.platform.cancellableSleep interval s.ctx.state with ⟨slept, state⟩
    simp only [hpause] at h
    split at h
    · exact hprocessed _ h
    · cases h
  · split at h
    · cases h
    · exact hprocessed _ h

namespace KeepsAround

variable {args} {Inv : ApplyCtx S → Prop} (h : args.KeepsAround Inv) {interval idx : Nat}
  {id : ResourceId} {s : ApplyLoop S} {call : ApplyCall P S}
include h

/-- What pauses, plans and marks preserve holds when `apply` is called. -/
theorem handedOver (hcall : args.handedOver interval idx id s = some call) (hs : Inv s.ctx) :
    Inv call.ctx := by
  have hprocessed : ∀ t : ApplyLoop S, Inv t.ctx → args.processed id t = some call →
      Inv call.ctx := by
    intro t ht hcall
    unfold processed at hcall
    split at hcall
    · cases hcall
    · rename_i r hget
      split at hcall
      · cases hcall
      · split at hcall
        · cases hcall
        · rename_i primitive hprimitive
          have hplan := h.plan r primitive t.ctx hprimitive ht
          unfold planned at hcall
          dsimp only at hcall
          split at hcall
          · cases hcall
          · cases hcall
          · obtain rfl := Option.some.inj hcall
            exact h.markDirty r.kind _ hplan
  unfold ApplyArgs.handedOver at hcall
  split at hcall
  · have hpause := h.pause interval s.ctx hs
    rcases hsleep : args.platform.cancellableSleep interval s.ctx.state with ⟨slept, state⟩
    simp only [hsleep] at hcall hpause
    split at hcall
    · exact hprocessed _ hpause hcall
    · cases hcall
  · split at hcall
    · cases hcall
    · exact hprocessed s hs hcall

/-- A pass in which nothing is called. -/
theorem uncalled (hcall : args.handedOver interval idx id s = none) (hs : Inv s.ctx) :
    Inv (args.iteration interval idx id s).ctx := by
  have hplanned : ∀ r primitive (t : ApplyLoop S), args.primitives r.kind = some primitive →
      Inv t.ctx → args.planned primitive r t.ctx = none →
      Inv (args.planResource primitive r t).ctx := by
    intro r primitive t hprimitive ht hcall
    have hplan := h.plan r primitive t.ctx hprimitive ht
    unfold planned at hcall
    unfold planResource
    rcases hanswer : primitive.plan r t.ctx.state with ⟨answer, state⟩
    simp only [hanswer] at hcall hplan ⊢
    cases hresult : callPrimitive ("plan " ++ r.id.asStr) answer with
    | ok diff =>
      cases diff with
      | noChange => exact hplan
      | add description payload => simp [hresult] at hcall
      | update source target description => simp [hresult] at hcall
    | error err =>
      cases err <;> exact hplan
  have hprocessed : ∀ t : ApplyLoop S, Inv t.ctx → args.processed id t = none →
      Inv (args.processResource id t).ctx := by
    intro t ht hcall
    unfold processed at hcall
    unfold processResource
    cases hget : args.registry.get id with
    | none => exact ht
    | some r =>
      cases hfind : r.dependsOn.find? fun dep => dep ∈ t.failedOrInterrupted with
      | some dep =>
        simp only [hfind]
        exact ht
      | none =>
        cases hprimitive : args.primitives r.kind with
        | none =>
          simp only [hfind, hprimitive]
          exact ht
        | some primitive =>
          simp only [hget, hfind, hprimitive] at hcall ⊢
          exact hplanned r primitive t hprimitive ht hcall
  unfold ApplyArgs.handedOver at hcall
  unfold ApplyArgs.iteration
  split at hcall
  · rename_i hpaces
    rw [if_pos hpaces]
    have hpause := h.pause interval s.ctx hs
    rcases hsleep : args.platform.cancellableSleep interval s.ctx.state with ⟨slept, state⟩
    simp only [hsleep] at hcall hpause ⊢
    split at hcall
    · rename_i hslept
      simp only [hslept, if_true]
      exact hprocessed _ hpause hcall
    · rename_i hslept
      simp only [hslept]
      exact hpause
  · rename_i hpaces
    rw [if_neg hpaces]
    split at hcall
    · rename_i haborted
      rw [if_pos haborted]
      exact hs
    · rename_i haborted
      rw [if_neg haborted]
      exact hprocessed s hs hcall

/-- A pass that calls `apply`. -/
theorem called (hcall : args.handedOver interval idx id s = some call) (hafter : Inv call.after) :
    Inv (args.iteration interval idx id s).ctx := by
  have hspec := args.handedOver_spec interval idx id s
  rw [hcall] at hspec
  obtain ⟨t, hctx, -, -, heq⟩ := hspec
  rw [heq]
  exact h.recordApply _ _ _ (hctx ▸ hafter)

/-- **What the passes preserve around their calls, and each call preserves, the loop preserves.** -/
theorem loop (done : List ResourceId)
    (hcalls : ∀ earlier id later call, done = earlier ++ id :: later →
      args.handedOver interval earlier.length id (args.loop interval 0 earlier s) = some call →
      Inv call.ctx → Inv call.after)
    (hs : Inv s.ctx) : Inv (args.loop interval 0 done s).ctx := by
  induction done using List.reverseRecOn with
  | nil => exact hs
  | append_singleton done id ih =>
    have hdone := ih fun earlier id' later call heq =>
      hcalls earlier id' (later ++ [id]) call (by simp [heq])
    rw [loop_append, Nat.zero_add]
    show Inv (args.iteration interval done.length id (args.loop interval 0 done s)).ctx
    cases hcall : args.handedOver interval done.length id (args.loop interval 0 done s) with
    | none => exact h.uncalled hcall hdone
    | some call =>
      exact h.called hcall (hcalls done id [] call rfl hcall (h.handedOver hcall hdone))

end KeepsAround

end ApplyArgs

end Bosun
