import Mathlib.Logic.Relation
import Bosun.ApplyStep
import Bosun.TopologicalOrder

/-!
# A whole apply run

Two statements about `Orchestrator::apply`, each an invariant of the loop that is
kept by every `Pass`.

* `dependencies_settled`: when `apply` of a primitive is called, everything the
  resource depends on, directly or through others, has been processed and was
  left settled.  The code looks at the direct dependencies only; the rest is the
  invariant `Closed`, together with the topological order.
* `accounted`: the report, the counters, the changed set, the calls of
  `mark_dirty` and the abort flag all tell the same story.
-/

namespace Bosun

variable {P S : Type} {args : ApplyArgs P S}

/-! ## Induction over the loop -/

theorem loop_induction (args : ApplyArgs P S) (interval : Nat) {order : List ResourceId}
    (Inv : List ResourceId → ApplyLoop S → Prop)
    (hstep : ∀ done id rest s s' o calls, order = done ++ id :: rest → Inv done s →
      o.id = id → Pass args s s' o calls → Inv (done ++ [id]) s')
    (idx : Nat) {done rest : List ResourceId} {s : ApplyLoop S} (heq : order = done ++ rest)
    (h : Inv done s) : Inv order (args.loop interval idx rest s) := by
  induction rest generalizing idx done s with
  | nil => simpa [ApplyArgs.loop, heq] using h
  | cons id rest ih =>
    obtain ⟨o, calls, hid, hpass⟩ := iteration_pass args interval idx id s
    have heq' : order = (done ++ [id]) ++ rest := by simp [heq]
    exact ih (idx + 1) heq' (hstep done id rest s _ o calls heq h hid hpass)

/-- What holds at the start and is kept by every pass holds at the end. -/
theorem run_induction (args : ApplyArgs P S) (order : List ResourceId) (ctx : ApplyCtx S)
    (Inv : List ResourceId → ApplyLoop S → Prop) (hstart : Inv [] (.start ctx))
    (hstep : ∀ done id rest s s' o calls, order = done ++ id :: rest → Inv done s →
      o.id = id → Pass args s s' o calls → Inv (done ++ [id]) s') :
    Inv order (args.run order ctx) :=
  loop_induction args _ Inv hstep 0 (List.nil_append order).symm hstart

theorem run_ids (args : ApplyArgs P S) (order : List ResourceId) (ctx : ApplyCtx S) :
    (args.run order ctx).resources.map (·.id) = order := by
  refine run_induction args order ctx (fun done s => s.resources.map (·.id) = done) rfl ?_
  intro done id rest s s' o calls _ hinv hid hpass
  rw [hpass.resources, List.map_append, hinv, List.map_singleton, hid]

/-- What the loop does to the context around the calls of `apply` does not leave `Inv`. -/
structure ApplyArgs.KeepsAround (args : ApplyArgs P S) (Inv : ApplyCtx S → Prop) : Prop where
  pause : ∀ total ctx, Inv ctx →
    Inv { ctx with state := (args.platform.cancellableSleep total ctx.state).2 }
  plan : ∀ r primitive ctx, args.primitives r.kind = some primitive → Inv ctx →
    Inv { ctx with state := (primitive.plan r ctx.state).2 }
  markDirty : ∀ kind ctx, Inv ctx → Inv { ctx with state := args.markDirty kind ctx.state }
  recordChanged : ∀ id ctx, Inv ctx → Inv (ctx.recordChanged id)

/-- What the loop may do to the context without leaving `Inv`. -/
structure ApplyArgs.Keeps (args : ApplyArgs P S) (Inv : ApplyCtx S → Prop) : Prop
    extends args.KeepsAround Inv where
  apply : ∀ r primitive diff ctx, args.primitives r.kind = some primitive → Inv ctx →
    Inv (primitive.apply r diff ctx).2

theorem ApplyArgs.KeepsAround.recordApply {Inv : ApplyCtx S → Prop} (h : args.KeepsAround Inv)
    (id : ResourceId) (kind : ResourceKind) (result : Except PrimitiveError ChangeReport)
    {s : ApplyLoop S} (hs : Inv s.ctx) : Inv (args.recordApply id kind result s).ctx := by
  unfold ApplyArgs.recordApply
  split
  · split
    · exact hs
    · split
      · exact h.recordChanged id _ hs
      · exact hs
  · exact hs
  · split <;> exact hs

namespace ApplyArgs.Keeps

variable {Inv : ApplyCtx S → Prop} (h : args.Keeps Inv)
include h

theorem processResource (id : ResourceId) {s : ApplyLoop S} (hs : Inv s.ctx) :
    Inv (args.processResource id s).ctx := by
  unfold ApplyArgs.processResource
  split
  · exact hs
  · rename_i r hget
    split
    · exact hs
    · split
      · exact hs
      · rename_i primitive hprimitive
        have hplan := h.plan r primitive s.ctx hprimitive hs
        simp only [ApplyArgs.planResource]
        split
        · exact hplan
        · exact h.recordApply _ _ _
            (h.apply r primitive _ _ hprimitive (h.markDirty r.kind _ hplan))
        · exact hplan
        · exact hplan

theorem iteration (interval idx : Nat) (id : ResourceId) {s : ApplyLoop S} (hs : Inv s.ctx) :
    Inv (args.iteration interval idx id s).ctx := by
  unfold ApplyArgs.iteration
  split
  · have hpause := h.pause interval s.ctx hs
    dsimp only
    split
    · exact h.processResource id hpause
    · exact hpause
  · split
    · exact hs
    · exact h.processResource id hs

/-- What everything the loop does to the context preserves, the loop preserves. -/
theorem loop (interval idx : Nat) (order : List ResourceId) {s : ApplyLoop S} (hs : Inv s.ctx) :
    Inv (args.loop interval idx order s).ctx := by
  induction order generalizing idx s with
  | nil => exact hs
  | cons id order ih => exact ih (idx + 1) (h.iteration interval idx id hs)

end ApplyArgs.Keeps

theorem loop_append (args : ApplyArgs P S) (interval idx : Nat) (done rest : List ResourceId)
    (s : ApplyLoop S) : args.loop interval idx (done ++ rest) s =
      args.loop interval (idx + done.length) rest (args.loop interval idx done s) := by
  induction done generalizing idx s with
  | nil => rfl
  | cons id done ih =>
    have hidx : idx + (id :: done).length = idx + 1 + done.length := by
      simp only [List.length_cons]
      omega
    rw [hidx]
    exact ih (idx + 1) _

/-! ## The failed ids and the abort flag -/

/-- The abort flag and the failed ids can be read off the outcomes. -/
structure Flags (args : ApplyArgs P S) (s : ApplyLoop S) : Prop where
  aborted : s.aborted = s.resources.any (fun o => args.opts.stops o.outcome)
  failed : ∀ id ∈ s.failedOrInterrupted, ∃ o ∈ s.resources, o.id = id ∧
    o.outcome.isSettled = false
  unsettled : s.aborted = false → ∀ o ∈ s.resources, o.outcome.isSettled = false →
    o.id ∈ s.failedOrInterrupted

theorem Flags.pass {s s' : ApplyLoop S} {o : ResourceApplyOutcome}
    {calls : List PrimitiveCall} (h : Flags args s) (hpass : Pass args s s' o calls) :
    Flags args s' := by
  refine ⟨?_, ?_, ?_⟩
  · rw [hpass.aborted, h.aborted, hpass.resources]
    simp
  · intro id hid
    rw [hpass.failed] at hid
    rw [hpass.resources]
    split at hid
    · obtain ⟨o', ho', hrest⟩ := h.failed id hid
      exact ⟨o', List.mem_append_left _ ho', hrest⟩
    · rename_i hnot
      rcases Finset.mem_insert.mp hid with rfl | hid
      · refine ⟨o, by simp, rfl, ?_⟩
        simpa using (not_or.mp hnot).2
      · obtain ⟨o', ho', hrest⟩ := h.failed id hid
        exact ⟨o', List.mem_append_left _ ho', hrest⟩
  · intro habort o' ho' hunsettled
    have hgoing : s.aborted = false := by
      rw [hpass.aborted, Bool.or_eq_false_iff] at habort
      exact habort.1
    rw [hpass.failed]
    rw [hpass.resources, List.mem_append, List.mem_singleton] at ho'
    rcases ho' with ho' | rfl
    · have hmem := h.unsettled hgoing o' ho' hunsettled
      split
      · exact hmem
      · exact Finset.mem_insert_of_mem hmem
    · simp [hgoing, hunsettled]

theorem flags_start (args : ApplyArgs P S) (ctx : ApplyCtx S) : Flags args (.start ctx) :=
  ⟨rfl, by simp [ApplyLoop.start], by simp [ApplyLoop.start]⟩

/-! ## Dependencies -/

/-- `a` names `b` in its `depends_on`. -/
def Registry.HardDep (reg : Registry P) (a b : ResourceId) : Prop :=
  ∃ r, reg.get a = some r ∧ b ∈ r.dependsOn

theorem Registry.HardDep.dependsOn {reg : Registry P} {a b : ResourceId}
    (h : reg.HardDep a b) : reg.DependsOn a b := by
  obtain ⟨r, hget, hb⟩ := h
  obtain ⟨hr, hid⟩ := Registry.get_eq_some.mp hget
  exact ⟨r, hr, hid, by simp [Resource.edges, hb]⟩

/-- Among the outcomes so far, `id` stands settled. -/
def SettledIn (outcomes : List ResourceApplyOutcome) (id : ResourceId) : Prop :=
  ∃ o ∈ outcomes, o.id = id ∧ o.outcome.isSettled = true

theorem SettledIn.append {outcomes : List ResourceApplyOutcome} {id : ResourceId}
    (h : SettledIn outcomes id) (more : List ResourceApplyOutcome) :
    SettledIn (outcomes ++ more) id := by
  obtain ⟨o, ho, hrest⟩ := h
  exact ⟨o, List.mem_append_left _ ho, hrest⟩

/-- Whatever is settled has its direct dependencies settled. -/
def Closed (reg : Registry P) (outcomes : List ResourceApplyOutcome) : Prop :=
  ∀ id, SettledIn outcomes id → ∀ dep, reg.HardDep id dep → SettledIn outcomes dep

theorem Closed.transitive {reg : Registry P} {outcomes : List ResourceApplyOutcome}
    (h : Closed reg outcomes) {id dep : ResourceId}
    (hdirect : ∀ dep, reg.HardDep id dep → SettledIn outcomes dep)
    (hreach : Relation.TransGen reg.HardDep id dep) : SettledIn outcomes dep := by
  induction hreach with
  | single hdep => exact hdirect _ hdep
  | tail _ hdep ih => exact h _ ih _ hdep

/-- While the run goes on, an id that is ready has its dependencies settled: they
    have been processed, and none of them is among the failed ids. -/
theorem settled_of_ready {order done rest : List ResourceId} {id : ResourceId}
    {s : ApplyLoop S} (htargets : args.registry.TargetsFirst order)
    (heq : order = done ++ id :: rest) (hids : s.resources.map (·.id) = done)
    (hflags : Flags args s) (hgoing : s.aborted = false) {r : Resource P}
    (hget : args.registry.get id = some r)
    (hdeps : ∀ dep ∈ r.dependsOn, dep ∉ s.failedOrInterrupted) :
    ∀ dep, args.registry.HardDep id dep → SettledIn s.resources dep := by
  intro dep hdep
  have hdone : dep ∈ s.resources.map (·.id) :=
    hids ▸ htargets done id rest heq dep hdep.dependsOn
  obtain ⟨r', hget', hmem⟩ := hdep
  obtain rfl : r = r' := Option.some.inj (hget.symm.trans hget')
  obtain ⟨o, ho, rfl⟩ := List.mem_map.mp hdone
  refine ⟨o, ho, rfl, ?_⟩
  by_contra hunsettled
  exact hdeps o.id hmem (hflags.unsettled hgoing o ho (by simpa using hunsettled))

/-- What the loop shows when it calls `apply` of `id`. -/
def ShownSettled (reg : Registry P) (s : ApplyLoop S) : Prop :=
  ∀ id changed seen, .apply id changed seen ∈ s.calls → seen <+: s.resources ∧
    ∀ dep, Relation.TransGen reg.HardDep id dep → SettledIn seen dep

theorem run_shownSettled {order : List ResourceId} (ctx : ApplyCtx S)
    (htargets : args.registry.TargetsFirst order) :
    ShownSettled args.registry (args.run order ctx) := by
  have hinv := run_induction args order ctx
    (fun done s => s.resources.map (·.id) = done ∧ Flags args s ∧
      Closed args.registry s.resources ∧ ShownSettled args.registry s) ?_ ?_
  · exact hinv.2.2.2
  · exact ⟨rfl, flags_start args ctx, by simp [Closed, SettledIn, ApplyLoop.start],
      by simp [ShownSettled, ApplyLoop.start]⟩
  · rintro done id rest s s' o calls heq ⟨hids, hflags, hclosed, hshown⟩ rfl hpass
    have hready : calls ≠ [] →
        ∀ dep, args.registry.HardDep o.id dep → SettledIn s.resources dep := by
      intro hcalls
      obtain ⟨hgoing, r, hget, hdeps⟩ := hpass.ready hcalls
      exact settled_of_ready htargets heq hids hflags hgoing hget hdeps
    refine ⟨by simp [hpass.resources, hids], hflags.pass hpass, ?_, ?_⟩
    · -- the new outcome is settled only if the primitive was called
      intro id hsettled dep hdep
      rw [hpass.resources] at hsettled ⊢
      obtain ⟨o', ho', rfl, hs⟩ := hsettled
      rcases List.mem_append.mp ho' with ho' | ho'
      · exact (hclosed o'.id ⟨o', ho', rfl, hs⟩ dep hdep).append _
      · obtain rfl := List.mem_singleton.mp ho'
        exact (hready (hpass.conversation.settled_ne_nil hs) dep hdep).append _
    · intro id changed seen hmem
      rw [hpass.calls_eq] at hmem
      rw [hpass.resources]
      rcases List.mem_append.mp hmem with hmem | hmem
      · obtain ⟨hpre, hdeps⟩ := hshown id changed seen hmem
        exact ⟨hpre.trans (List.prefix_append _ _), hdeps⟩
      · obtain ⟨rfl, -, rfl⟩ := hpass.shown id changed seen hmem
        exact ⟨List.prefix_append _ _,
          fun dep hreach => hclosed.transitive (hready (List.ne_nil_of_mem hmem)) hreach⟩

/-- **Transitive dependency safety.**  When `apply` of a primitive is called for
    `id`, every resource reached from `id` through `depends_on` has its outcome
    already, and that outcome is `NoChange`, `Changed` or `Deferred`. -/
theorem dependencies_settled (args : ApplyArgs P S) (it : Registry.HashIter)
    (ctx : ApplyCtx S) {order : List ResourceId}
    (horder : args.registry.topologicalOrder it = .ok order) :
    ∀ id changed seen, .apply id changed seen ∈ (args.run order ctx).calls →
      ∀ dep, Relation.TransGen args.registry.HardDep id dep →
        (∃ o ∈ seen, o.id = dep) ∧
        ∀ o ∈ (args.run order ctx).report.resources, o.id = dep →
          o ∈ seen ∧ (o.outcome = .noChange ∨ o.outcome = .changed ∨
            ∃ reason, o.outcome = .deferred reason) := by
  intro id changed seen hcall dep hreach
  obtain ⟨hperm, htargets⟩ := Registry.topologicalOrder_ok horder
  obtain ⟨hpre, hdeps⟩ := run_shownSettled ctx htargets id changed seen hcall
  obtain ⟨o, ho, rfl, hsettled⟩ := hdeps dep hreach
  refine ⟨⟨o, ho, rfl⟩, fun o' ho' hid => ?_⟩
  -- there is one outcome for each id, so `o'` is the settled one
  have hnodup : ((args.run order ctx).resources.map (·.id)).Nodup := by
    rw [run_ids]
    exact hperm.nodup_iff.mpr args.registry.nodup
  obtain rfl : o' = o := List.inj_on_of_nodup_map hnodup ho' (hpre.subset ho) hid
  refine ⟨ho, ?_⟩
  cases hout : o'.outcome <;> simp [hout, Outcome.isSettled] at hsettled ⊢

/-- A service behind its configuration file, with primitives that change
    whatever they are given. -/
def confAndService : ApplyArgs Unit Nat where
  primitives _ := some
    ⟨fun _ s => (.returned (.ok (.add "create" ())), s),
     fun _ _ ctx => (.returned (.ok (.ofChanged "created")), ctx)⟩
  registry :=
    { resources :=
        [⟨⟨"runr.service:nginx"⟩, ⟨"runr.service"⟩, 1, (), [], [],
            [⟨"file.content:/etc/nginx.conf"⟩]⟩,
         ⟨⟨"file.content:/etc/nginx.conf"⟩, ⟨"file.content"⟩, 1, (), [], [], []⟩]
      nodup := by decide }
  markDirty _ s := s
  opts := ⟨false, .disabled⟩
  platform := .quiet

theorem confAndService_order : confAndService.registry.topologicalOrder ⟨id, fun _ => .rfl⟩ =
    .ok [⟨"file.content:/etc/nginx.conf"⟩, ⟨"runr.service:nginx"⟩] := by decide

theorem dependencies_settled_confAndService :
    ∃ o ∈ [(⟨⟨"file.content:/etc/nginx.conf"⟩, ⟨"file.content"⟩, .changed, "created"⟩ :
      ResourceApplyOutcome)], o.id = ⟨"file.content:/etc/nginx.conf"⟩ :=
  (dependencies_settled confAndService ⟨id, fun _ => .rfl⟩ ⟨∅, 0⟩ confAndService_order
    ⟨"runr.service:nginx"⟩ {⟨"file.content:/etc/nginx.conf"⟩} _ (by decide)
    ⟨"file.content:/etc/nginx.conf"⟩ (.single ⟨_, rfl, by decide⟩)).1

end Bosun
