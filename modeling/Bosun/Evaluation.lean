import Bosun.ApplyRun
import Bosun.Registration

/-!
# Evaluating a manifest

`evaluator.rs` over `evaluate_manifest`: the statements of the modules run one after the other,
and those that call a function of a resource register it.  What Starlark itself computes is a
parameter (`StarlarkCode`).  One thing is asked of it: a handle cannot be made in Starlark, so
whatever handles a statement passes on are held already or were returned to it before.

`evaluate_induction` is the one induction over an evaluation that succeeds, through all modules
it loads.  From it: the edges of the registry point backwards, so that `topological_order` cannot
fail; the store of sensitive values fits the payloads, so that no `file.content` is refused
for its contents; and `service.unit` registers the services of one init system.
-/

namespace Bosun

/-! ## The statements -/

/-- A function of the manifest that declares a resource. -/
inductive Declaration
  | primitive (kindStr : String)
  | serviceUnit
deriving DecidableEq, Repr

/-- The run of a statement that loads nothing.  `H` is all that Starlark holds; a statement that
    is stopped, by an error of its own or at the deadline, ends the evaluation. -/
inductive Script (H : Type)
  | done (heap : H)
  | stopped (recorded : List StarlarkGlueError) (raw : String)
  | call (fn : Declaration) (kwargs : List (StarValue × StarValue))
      (resume : ResourceId → Script H)

namespace Script

variable {H : Type}

/-- Every handle that is passed on or kept is among those known. -/
def Earned (held : H → Set ResourceId) : Script H → Set ResourceId → Prop
  | done heap, known => held heap ⊆ known
  | stopped _ _, _ => True
  | call _ kwargs resume, known =>
    (∀ id, Mentions kwargs id → id ∈ known) ∧ ∀ id, (resume id).Earned held (insert id known)

/-- The functions it calls. -/
def Only (allowed : Declaration → Prop) : Script H → Prop
  | done _ => True
  | stopped _ _ => True
  | call fn _ resume => allowed fn ∧ ∀ id, (resume id).Only allowed

end Script

/-- The modules, and the language they are written in. -/
structure StarlarkCode (H : Type) where
  exec : String → Nat → H → Script H
  bindSymbols : String → Nat → FrozenModule → H → Except String H
  report : String → Nat → String → String
  freeze : String → H → Except String Unit
  buildBuiltins : Except String Unit
  start : H
  /-- the handles that something held refers to -/
  held : H → Set ResourceId
  held_start : held start = ∅
  exec_earned : ∀ file i heap, (exec file i heap).Earned held (held heap)
  bind_held : ∀ file i m heap heap', bindSymbols file i m heap = .ok heap' →
    held heap' ⊆ held heap

def StarlarkCode.Only {H : Type} (code : StarlarkCode H) (allowed : Declaration → Prop) : Prop :=
  ∀ file i heap, (code.exec file i heap).Only allowed

/-- Nothing is asked. -/
theorem StarlarkCode.only_all {H : Type} (code : StarlarkCode H) : code.Only fun _ => True := by
  intro file i heap
  induction code.exec file i heap with
  | done _ => trivial
  | stopped _ _ => trivial
  | call _ _ _ ih => exact ⟨trivial, ih⟩

structure EvalWorld (P H : Type) where
  state : EvalState P
  heap : H

section Evaluate

variable {P H : Type} (env : EvalEnv P)

def callDeclaration : Declaration → List (StarValue × StarValue) → EvalState P →
    Except CallFailure ResourceId × EvalState P
  | .primitive kindStr => registerPrimitiveCall env kindStr
  | .serviceUnit => dispatchServiceUnit env

def runScript : Script H → EvalWorld P H → Executed (EvalWorld P H)
  | .done heap, w => ⟨.ok (), [], { w with heap }⟩
  | .stopped recorded raw, w => ⟨.error raw, recorded, w⟩
  | .call fn kwargs resume, w =>
    match callDeclaration env fn kwargs w.state with
    | (.error failure, state) => ⟨.error failure.raw, failure.recorded, { w with state }⟩
    | (.ok id, state) => runScript (resume id) { w with state }

variable (code : StarlarkCode H)

/-- What the loader runs the modules with. -/
def starlark : Starlark (EvalWorld P H) where
  exec file i w := runScript env (code.exec file i w.heap) w
  bindSymbols file i m w :=
    match code.bindSymbols file i m w.heap with
    | .ok heap => ⟨.ok (), [], { w with heap }⟩
    | .error raw => ⟨.error raw, [], w⟩
  report := code.report
  freeze file w := code.freeze file w.heap
  buildBuiltins := code.buildBuiltins

/-- `let _ = out.add(r)` -/
def Registry.addQuietly (out : Registry P) (r : Resource P) : Registry P :=
  match out.add r with
  | .ok (_, out) => out
  | .error _ => out

/-- A new registry with the same resources. -/
def Registry.copy (reg : Registry P) : Registry P :=
  reg.resources.foldl .addQuietly .empty

/-- `Evaluator::evaluate`; it starts from an empty registry and a new store.  `shared` says that
    somebody else still has the registry when the evaluation is over. -/
def evaluate (b : Bundle) (parse : Parser) (shared : Bool) (fuel : Nat) :
    Option (Except StarlarkGlueError (Registry P) × SensitiveStore) :=
  match evaluateManifest b parse (starlark env code) fuel ⟨.new, code.start⟩ with
  | none => none
  | some (.error e, s) => some (.error e, s.world.state.sensitive)
  | some (.ok (), s) =>
    let registry := s.world.state.registry
    some (.ok (if shared then registry.copy else registry), s.world.state.sensitive)

end Evaluate

/-! ## The loader keeps what the statements keep -/

section Loader

variable {W : Type} (b : Bundle) (parse : Parser) {lib : Starlark W} {Inv : W → Prop}

/-- Statements that succeed keep it. -/
structure Starlark.Keeps (lib : Starlark W) (Inv : W → Prop) : Prop where
  exec : ∀ file i w, Inv w → (lib.exec file i w).result = .ok () → Inv (lib.exec file i w).world
  bindSymbols : ∀ file i m w, Inv w → (lib.bindSymbols file i m w).result = .ok () →
    Inv (lib.bindSymbols file i m w).world

/-- What succeeds keeps it. -/
def KeepsWorld {ε α : Type} (Inv : W → Prop) (s : LoadState W) (run : LoadM W ε α) : Prop :=
  ∀ a s', run = some (.ok a, s') → Inv s.world → Inv s'.world

theorem evalStmts_keeps (hlib : lib.Keeps Inv)
    {inner : String → LoadState W → LoadM W String FrozenModule}
    (hinner : ∀ path s, KeepsWorld Inv s (inner path s)) (file : String) (stmts : List Stmt) :
    ∀ i s, KeepsWorld Inv s (evalStmts lib inner file i stmts s) := by
  induction stmts with
  | nil =>
    rintro i s a s' ⟨⟩ hs
    exact hs
  | cons stmt stmts ih =>
    intro i s a s' hrun hs
    cases stmt with
    | other =>
      rw [evalStmts] at hrun
      cases hresult : (lib.exec file i s.world).result with
      | error message =>
        simp only [hresult] at hrun
        cases hrun
      | ok u =>
        simp only [hresult] at hrun
        exact ih _ _ a s' hrun (hlib.exec file i s.world hs hresult)
    | load path =>
      rw [evalStmts] at hrun
      cases hload : inner path s with
      | none =>
        rw [hload] at hrun
        cases hrun
      | some x =>
        obtain ⟨r, s₁⟩ := x
        cases r with
        | error message =>
          simp only [hload] at hrun
          cases hrun
        | ok m =>
          have hs₁ := hinner path s m s₁ hload hs
          simp only [hload] at hrun
          cases hresult : (lib.bindSymbols file i m s₁.world).result with
          | error message =>
            simp only [hresult] at hrun
            cases hrun
          | ok u =>
            simp only [hresult] at hrun
            exact ih _ _ a s' hrun (hlib.bindSymbols file i m s₁.world hs₁ hresult)

theorem parseAndEval_keeps (hlib : lib.Keeps Inv)
    {inner : String → LoadState W → LoadM W String FrozenModule}
    (hinner : ∀ path s, KeepsWorld Inv s (inner path s)) (file : String) (s : LoadState W) :
    KeepsWorld Inv s (parseAndEval b parse lib inner file s) := by
  intro m s' hrun hs
  unfold parseAndEval at hrun
  split at hrun
  · cases hrun
  · dsimp only at hrun
    split at hrun
    · cases hrun
    · rename_i stmts _
      split at hrun
      · cases hrun
      · cases hrun
      · rename_i s₁ heval
        have hs₁ := evalStmts_keeps hlib hinner file stmts 0 _ _ _ heval hs
        split at hrun
        · cases hrun
        · cases hrun
          exact hs₁

theorem loadRoleOrLib_keeps (hlib : lib.Keeps Inv)
    {inner : String → LoadState W → LoadM W String FrozenModule}
    (hinner : ∀ path s, KeepsWorld Inv s (inner path s)) (loadPath : String) (s : LoadState W) :
    KeepsWorld Inv s (loadRoleOrLib b parse lib inner loadPath s) := by
  intro m s' hrun hs
  unfold loadRoleOrLib at hrun
  split at hrun
  · cases hrun
  · rename_i resolved _
    split at hrun
    · cases hrun
      exact hs
    · split at hrun
      · cases hrun
      · cases hrun
      · rename_i s₁ heval
        have hs₁ := parseAndEval_keeps b parse hlib hinner resolved (s.push resolved) _ _ heval hs
        cases hrun
        exact hs₁

theorem load_keeps (hlib : lib.Keeps Inv) (fuel : Nat) :
    ∀ path s, KeepsWorld Inv s (load b parse lib fuel path s) := by
  induction fuel with
  | zero =>
    rintro path s m s' ⟨⟩
  | succ fuel ih =>
    intro path s m s' hrun hs
    rw [load, loadWith] at hrun
    split at hrun
    · cases hrun
      exact hs
    · split at hrun
      · split at hrun
        · cases hrun
        · cases hrun
        · rename_i hload
          cases hrun
          exact loadRoleOrLib_keeps b parse hlib ih path s _ _ hload hs
      · cases hrun

/-- What the statements of all modules keep holds when the manifest is through. -/
theorem evaluateManifest_keeps (hlib : lib.Keeps Inv) (fuel : Nat) {w : W} (hw : Inv w)
    {s : LoadState W} (hrun : evaluateManifest b parse lib fuel w = some (.ok (), s)) :
    Inv s.world := by
  unfold evaluateManifest at hrun
  split at hrun
  · cases hrun
  · dsimp only at hrun
    split at hrun
    · cases hrun
    · rename_i stmts _
      split at hrun
      · cases hrun
      · split at hrun
        · cases hrun
        · split at hrun
          · cases hrun
          · cases hrun
        · rename_i s₁ heval
          have hs₁ := evalStmts_keeps hlib (load_keeps b parse hlib fuel) b.entry stmts 0 _ _ _
            heval hw
          split at hrun
          · cases hrun
          · cases hrun
            exact hs₁

end Loader

/-! ## Induction over an evaluation -/

section Induction

variable {P H : Type} {env : EvalEnv P} {code : StarlarkCode H} {allowed : Declaration → Prop}

/-- The kind that a function registers. -/
def Declaration.Resolves (env : EvalEnv P) (kindStr : String) : Declaration → Prop
  | primitive k => k = kindStr
  | serviceUnit => resolveServiceUnitKind env = .ok kindStr

/-- A call that a manifest of these functions may make, and what it does to the state. -/
structure Registers (env : EvalEnv P) (allowed : Declaration → Prop) (s s' : EvalState P)
    (fn : Declaration) (r : Resource P) (contents : Option String) : Prop where
  allowed : allowed fn
  declared : ∃ kindStr kwargs, fn.Resolves env kindStr ∧
    declare env kindStr kwargs = .ok (r, contents)
  backward : ∀ dep ∈ r.edges, dep ∈ s.registry.ids
  fresh : r.id ∉ s.registry.ids
  registered : s'.registry.resources = s.registry.resources ++ [r]
  kept : s'.sensitive = (s.keep r.id contents).sensitive

theorem Registers.ids {s s' : EvalState P} {fn : Declaration} {r : Resource P}
    {contents : Option String} (h : Registers env allowed s s' fn r contents) :
    s'.registry.ids = s.registry.ids ++ [r.id] := by
  rw [Registry.ids, h.registered, List.map_append, List.map_singleton, Registry.ids]

theorem callDeclaration_registers {fn : Declaration} {kwargs : List (StarValue × StarValue)}
    {s s' : EvalState P} {id : ResourceId} (hallowed : allowed fn)
    (hknown : ∀ dep, Mentions kwargs dep → dep ∈ s.registry.ids)
    (h : callDeclaration env fn kwargs s = (.ok id, s')) :
    ∃ r contents, r.id = id ∧ Registers env allowed s s' fn r contents := by
  have hprimitive : ∀ kindStr, fn.Resolves env kindStr →
      registerPrimitiveCall env kindStr kwargs s = (.ok id, s') →
      ∃ r contents, r.id = id ∧ Registers env allowed s s' fn r contents := by
    intro kindStr hresolves hcall
    obtain ⟨r, contents, hdeclare, hid, hnew, hregistered, hkept⟩ := registerPrimitiveCall_ok hcall
    exact ⟨r, contents, hid, hallowed, ⟨kindStr, kwargs, hresolves, hdeclare⟩,
      fun dep hdep => hknown dep ((declare_ok hdeclare).2.1 dep hdep), hnew, hregistered, hkept⟩
  cases fn with
  | primitive kindStr => exact hprimitive kindStr rfl h
  | serviceUnit =>
    obtain ⟨kindStr, hkind, hcall⟩ := dispatchServiceUnit_ok h
    exact hprimitive kindStr hkind hcall

variable {Inv : EvalState P → Prop}

/-- What Starlark holds has been registered. -/
def EvalWorld.Holds (code : StarlarkCode H) (Inv : EvalState P → Prop) (w : EvalWorld P H) :
    Prop :=
  Inv w.state ∧ ∀ id ∈ code.held w.heap, id ∈ w.state.registry.ids

theorem runScript_keeps
    (hstep : ∀ s s' fn r contents, Inv s → Registers env allowed s s' fn r contents → Inv s')
    (script : Script H) : ∀ (w : EvalWorld P H) (known : Set ResourceId),
      script.Only allowed → script.Earned code.held known →
      (∀ id ∈ known, id ∈ w.state.registry.ids) → Inv w.state →
      (runScript env script w).result = .ok () →
      (runScript env script w).world.Holds code Inv := by
  induction script with
  | done heap =>
    intro w known _ hearned hknown hw _
    exact ⟨hw, fun id hid => hknown id (hearned hid)⟩
  | stopped recorded raw =>
    rintro w known _ _ _ _ ⟨⟩
  | call fn kwargs resume ih =>
    intro w known honly hearned hknown hw hresult
    rw [runScript] at hresult ⊢
    split at hresult
    · cases hresult
    · rename_i id state hcall
      obtain ⟨r, contents, rfl, hregisters⟩ := callDeclaration_registers honly.1
        (fun dep hdep => hknown dep (hearned.1 dep hdep)) hcall
      refine ih r.id _ (insert r.id known) (honly.2 r.id) (hearned.2 r.id) ?_
        (hstep _ _ _ _ _ hw hregisters) hresult
      rintro id (rfl | hid)
      · simp [hregisters.ids]
      · rw [hregisters.ids]
        exact List.mem_append_left _ (hknown id hid)

theorem starlark_keeps (honly : code.Only allowed)
    (hstep : ∀ s s' fn r contents, Inv s → Registers env allowed s s' fn r contents → Inv s') :
    (starlark env code).Keeps (EvalWorld.Holds code Inv) where
  exec file i w hw hresult :=
    runScript_keeps hstep _ w _ (honly file i w.heap) (code.exec_earned file i w.heap) hw.2 hw.1
      hresult
  bindSymbols file i m w hw hresult := by
    simp only [starlark] at hresult ⊢
    split at hresult
    · rename_i heap hbind
      exact ⟨hw.1, fun id hid => hw.2 id (code.bind_held file i m _ _ hbind hid)⟩
    · cases hresult

/-! The copy of the registry. -/

theorem foldl_addQuietly (resources : List (Resource P)) : ∀ out : Registry P,
    ((out.resources ++ resources).map Resource.id).Nodup →
    (resources.foldl .addQuietly out).resources = out.resources ++ resources := by
  induction resources with
  | nil =>
    intro out _
    rw [List.foldl_nil, List.append_nil]
  | cons r resources ih =>
    intro out hnodup
    have hnew : r.id ∉ out.ids := by
      rw [List.map_append, List.map_cons, List.nodup_append] at hnodup
      intro hmem
      exact hnodup.2.2 r.id hmem r.id List.mem_cons_self rfl
    have hadd : (out.addQuietly r).resources = out.resources ++ [r] := by
      simp [Registry.addQuietly, Registry.add, hnew]
    rw [List.foldl_cons, ih, hadd]
    · simp
    · simpa [hadd] using hnodup

theorem Registry.copy_eq (reg : Registry P) : reg.copy = reg := by
  have hresources : reg.copy.resources = reg.resources :=
    foldl_addQuietly reg.resources .empty (by simpa [Registry.empty] using reg.nodup)
  cases hcopy : reg.copy
  cases reg
  rw [hcopy] at hresources
  simpa using hresources

variable (Inv) in
/-- **Induction over an evaluation.**  What holds of the empty registry and is kept by every
    call that is answered holds when the manifest is through. -/
theorem evaluate_induction {b : Bundle} {parse : Parser} {shared : Bool} {fuel : Nat}
    {registry : Registry P} {sensitive : SensitiveStore} (honly : code.Only allowed)
    (hnew : Inv .new)
    (hstep : ∀ s s' fn r contents, Inv s → Registers env allowed s s' fn r contents → Inv s')
    (h : evaluate env code b parse shared fuel = some (.ok registry, sensitive)) :
    Inv ⟨registry, sensitive⟩ := by
  unfold evaluate at h
  split at h
  · cases h
  · cases h
  · rename_i s hrun
    have hkeeps := evaluateManifest_keeps b parse (starlark_keeps honly hstep) fuel
      (w := ⟨.new, code.start⟩) ⟨hnew, by simp [code.held_start]⟩ hrun
    dsimp only at h
    rw [Registry.copy_eq, ite_self] at h
    obtain ⟨hregistry, hsensitive⟩ := Prod.mk.inj (Option.some.inj h)
    obtain rfl := Except.ok.inj hregistry
    obtain rfl := hsensitive
    exact hkeeps.1

end Induction

/-! ## The order of the registry -/

namespace Registry

variable {P : Type} {reg : Registry P}

/-- A resource that is registered last comes behind everything. -/
theorem targetsFirst_of_append {r : Resource P} {before : Registry P}
    (hresources : reg.resources = before.resources ++ [r])
    (hfresh : r.id ∉ before.ids) (hbackward : ∀ dep ∈ r.edges, dep ∈ before.ids)
    (h : before.TargetsFirst before.ids) : reg.TargetsFirst reg.ids := by
  have hids : reg.ids = before.ids ++ [r.id] := by
    rw [ids, hresources, List.map_append, List.map_singleton, ids]
  rintro front id rest heq dep ⟨r', hr', rfl, hdep⟩
  rw [hids] at heq
  rw [hresources, List.mem_append, List.mem_singleton] at hr'
  rcases List.eq_nil_or_concat rest with rfl | ⟨rest, last, rfl⟩
  · -- the last one, whose targets are among those before
    obtain ⟨rfl, hlast⟩ := List.append_inj' heq rfl
    rcases hr' with hr' | rfl
    · exact absurd (mem_ids_of_mem hr') ((List.singleton_inj.mp hlast) ▸ hfresh)
    · exact hbackward dep hdep
  · rw [List.concat_eq_append, ← List.cons_append, ← List.append_assoc] at heq
    obtain ⟨hfront, -⟩ := List.append_inj' heq rfl
    rcases hr' with hr' | rfl
    · exact h front r'.id rest hfront dep ⟨r', hr', rfl, hdep⟩
    · exact absurd (hfront ▸ List.mem_append_right _ List.mem_cons_self) hfresh

theorem idxOf_lt_of_targetsFirst (h : reg.TargetsFirst reg.ids) {a b : ResourceId}
    (hab : reg.DependsOn a b) : b ∈ reg.ids ∧ reg.ids.idxOf b < reg.ids.idxOf a := by
  obtain ⟨front, rest, heq⟩ := List.append_of_mem hab.mem_ids
  have hb : b ∈ front := h front a rest heq b hab
  have ha : a ∉ front := by
    intro hmem
    have hnodup : reg.ids.Nodup := reg.nodup
    rw [heq, List.nodup_append] at hnodup
    exact hnodup.2.2 a hmem a List.mem_cons_self rfl
  rw [heq]
  refine ⟨List.mem_append_left _ hb, ?_⟩
  rw [List.idxOf_append_of_mem hb, List.idxOf_append_of_notMem ha]
  have := List.idxOf_lt_length_of_mem hb
  omega

/-- Where the order of registration is an order, there is always one. -/
theorem orderly_of_targetsFirst (h : reg.TargetsFirst reg.ids) :
    ¬ reg.HasUnknownHandle ∧ reg.Acyclic := by
  constructor
  · rintro ⟨r, hr, dep, hdep, hout⟩
    exact hout (idxOf_lt_of_targetsFirst h ⟨r, hr, rfl, hdep⟩).1
  · intro id hcycle
    have hlt : ∀ a b, Relation.TransGen reg.DependsOn a b →
        reg.ids.idxOf b < reg.ids.idxOf a := by
      intro a b hab
      induction hab with
      | single hdep => exact (idxOf_lt_of_targetsFirst h hdep).2
      | tail _ hdep ih => exact (idxOf_lt_of_targetsFirst h hdep).2.trans ih
    exact absurd (hlt id id hcycle) (lt_irrefl _)

end Registry

section Order

variable {P H : Type} {env : EvalEnv P} {code : StarlarkCode H} {b : Bundle} {parse : Parser}

/-- **A manifest cannot declare a cycle.**  Every edge of the registry leads to a resource that
    was registered before, so the order is always found, in whatever order the hash map is
    iterated, and neither error of `topological_order` comes after an evaluation. -/
theorem topologicalOrder_of_evaluate {shared : Bool} {fuel : Nat} {registry : Registry P}
    {sensitive : SensitiveStore}
    (h : evaluate env code b parse shared fuel = some (.ok registry, sensitive)) :
    registry.TargetsFirst registry.ids ∧
    ∀ it, ∃ order, registry.topologicalOrder it = .ok order ∧ registry.TargetsFirst order := by
  have hids : registry.TargetsFirst registry.ids := by
    refine evaluate_induction (fun s => s.registry.TargetsFirst s.registry.ids)
      code.only_all ?_ ?_ h
    · rintro front id rest heq
      simp [EvalState.new, Registry.empty, Registry.ids] at heq
    · intro s s' fn r contents hs hregisters
      exact Registry.targetsFirst_of_append hregisters.registered hregisters.fresh
        hregisters.backward hs
  refine ⟨hids, fun it => ?_⟩
  obtain ⟨hknown, hacyclic⟩ := Registry.orderly_of_targetsFirst hids
  obtain ⟨order, horder⟩ := (Registry.complete_iff hknown it).mpr hacyclic
  exact ⟨order, horder, (Registry.topologicalOrder_ok horder).2⟩

/-! A manifest with two files and a service. -/

def appFiles : List String := ["/b", "/b/main.star"]

def appDisk : Disk where
  canonicalize := fun path => if path ∈ appFiles then .ok path else .error .notFound
  isSymlink := fun _ => .ok false
  readToString := fun _ => .ok ""

/-- There are no roles and no libraries. -/
def appBundle : Bundle where
  root := "/b"
  entry := "/b/main.star"
  disk := appDisk
  files := appFiles
  root_canonical := by decide
  entry_resolved := ⟨"main.star", by decide⟩
  files_complete := by
    intro candidate file h _
    by_cases hmem : candidate ∈ appFiles
    · simp only [appDisk, if_pos hmem, Except.ok.injEq] at h
      exact h ▸ hmem
    · simp [appDisk, if_neg hmem] at h

/-- Two files, and a service that is restarted with the second. -/
def appScript : Script (List ResourceId) :=
  .call (.primitive "file.content")
    [(.str "path", .str "/etc/app.env"), (.str "contents", .str "A=1")] fun vars =>
  .call (.primitive "file.content")
    [(.str "path", .str "/etc/app.conf"), (.str "contents", .str "on")] fun conf =>
  .call .serviceUnit [(.str "name", .str "app"), (.str "restart_on", .list [.handle conf])]
    fun app => .done [app, conf, vars]

def appCode : StarlarkCode (List ResourceId) where
  exec _ _ _ := appScript
  bindSymbols _ _ _ heap := .ok heap
  report _ _ message := message
  freeze _ _ := .ok ()
  buildBuiltins := .ok ()
  start := []
  held heap := {id | id ∈ heap}
  held_start := by simp
  exec_earned file i heap := by
    simp [appScript, Script.Earned, Mentions, StarValue.Lists, Set.subset_def]
  bind_held file i m heap heap' h := by
    cases h
    exact subset_rfl

/-- Of the contents of the two files. -/
def appSha256 (bytes : Bytes) : String :=
  if bytes = Utf8.encode "on".toList then
    "b8d31e852725afb1e26d53bab6095b2bff1749c9275be13ed1c05a56ed31ec09"
  else "f1d316d330440dea46d96ad43f6562ff9411c1b84700794dcd584f18146a18f6"

/-- A host with systemd. -/
def appEnv : EvalEnv (Option FileContentSpec) where
  primitives kind :=
    if kind = ⟨"file.content"⟩ then some (fileContentDeclares some)
    else if kind = ⟨"systemd.service"⟩ then some ⟨["name"], fun _ => .returned (.ok none)⟩
    else none
  initSystem := collectInitSystem "/proc/1/comm" (.ok "systemd\n")
  sha256Hex := appSha256
  noSerialize := "bosun.handle is not serializable"
  renderJson _ := ""

def evaluateApp : Option
    (Except StarlarkGlueError (Registry (Option FileContentSpec)) × SensitiveStore) :=
  evaluate appEnv appCode appBundle (fun _ _ => .ok [.other]) true 0

theorem topologicalOrder_of_evaluate_app : ∃ registry sensitive,
    evaluateApp = some (.ok registry, sensitive) ∧
    registry.ids = [⟨"file.content:/etc/app.env"⟩, ⟨"file.content:/etc/app.conf"⟩,
      ⟨"systemd.service:app"⟩] ∧
    ∀ it, ∃ order, registry.topologicalOrder it = .ok order ∧ registry.TargetsFirst order :=
  ⟨_, _, rfl, rfl, (topologicalOrder_of_evaluate (rfl : evaluate appEnv appCode appBundle
    (fun _ _ => .ok [.other]) true 0 = some (.ok _, _))).2⟩

end Order

/-! ## The contents of `file.content` -/

section Contents

variable {P H : Type} {env : EvalEnv P} {code : StarlarkCode H} {b : Bundle} {parse : Parser}
  {tools : FileTools P} {encode : FileContentSpec → P}

/-- The kind `file.content`, and what is known of the code around it: it is registered, its
    payload is read back as it was written, and both crates compute the same digest. -/
structure FileContentEnv (env : EvalEnv P) (tools : FileTools P)
    (encode : FileContentSpec → P) : Prop where
  registered : env.primitives ⟨"file.content"⟩ = some (fileContentDeclares encode)
  decode_encode : ∀ spec, tools.fileSpec (encode spec) = .ok spec
  digest : env.sha256Hex = tools.sha256Hex

/-- These contents are those the payload of the resource was made for. -/
def FitsContents (tools : FileTools P) (r : Resource P) (text : String) : Prop :=
  ∃ spec, tools.fileSpec r.payload = .ok spec ∧
    spec.contentSize = (Utf8.encode text.toList).length ∧
    checkContents tools spec (some (Utf8.encode text.toList)) = .ok (Utf8.encode text.toList)

/-- The store has the contents of each `file.content`, and nothing else. -/
structure StoreFits (tools : FileTools P) (s : EvalState P) : Prop where
  kept : ∀ r ∈ s.registry.resources, r.kind = ⟨"file.content"⟩ →
    ∃ text, s.sensitive.inner r.id = some text ∧ FitsContents tools r text
  only : ∀ id text, s.sensitive.inner id = some text →
    ∃ r ∈ s.registry.resources, r.id = id ∧ r.kind = ⟨"file.content"⟩

theorem fitsContents_of_declared (henv : FileContentEnv env tools encode) {args args' : CallArgs}
    {contents : Option String} {r : Resource P}
    (hsealed : Sealed env "file.content" args args' contents)
    (hdeclared : Declared "file.content" ⟨"file.content"⟩ (fileContentDeclares encode) args' r) :
    ∃ text, contents = some text ∧ FitsContents tools r text := by
  rw [Sealed, if_pos rfl] at hsealed
  obtain ⟨text, rfl, -, hsha, hsize⟩ := hsealed
  have hpayload := hdeclared.payload
  simp only [fileContentDeclares, callPrimitive] at hpayload
  cases hspec : fileContentSpec args' with
  | error e =>
    rw [hspec] at hpayload
    cases hpayload
  | ok spec =>
    rw [hspec] at hpayload
    obtain ⟨hdigest, hlength⟩ := fileContentSpec_ok hspec hsha hsize
    refine ⟨text, rfl, spec, ?_, hlength, ?_⟩
    · rw [← Except.ok.inj hpayload, henv.decode_encode]
    · rw [checkContents, hdigest, ← henv.digest]
      exact if_pos rfl

theorem StoreFits.registers (henv : FileContentEnv env tools encode) {s s' : EvalState P}
    {fn : Declaration} {r : Resource P} {contents : Option String}
    {allowed : Declaration → Prop} (hs : StoreFits tools s)
    (h : Registers env allowed s s' fn r contents) : StoreFits tools s' := by
  obtain ⟨kindStr, kwargs, -, hdeclare⟩ := h.declared
  obtain ⟨hkind, -, primitive, args, args', hprimitive, hsealed, hdeclared⟩ := declare_ok hdeclare
  -- the id is new, so what was stored before is stored still
  have hother : ∀ r' ∈ s.registry.resources, s'.sensitive.inner r'.id =
      s.sensitive.inner r'.id := by
    intro r' hr'
    have hne : r'.id ≠ r.id := fun heq => h.fresh (heq ▸ Registry.mem_ids_of_mem hr')
    rw [h.kept]
    cases contents with
    | none => rfl
    | some text => exact SensitiveStore.put_inner_other hne text _
  have hown : kindStr = "file.content" →
      ∃ text, s'.sensitive.inner r.id = some text ∧ FitsContents tools r text := by
    rintro rfl
    obtain rfl : fileContentDeclares encode = primitive :=
      Option.some.inj (henv.registered.symm.trans hprimitive)
    obtain ⟨text, rfl, hfits⟩ := fitsContents_of_declared henv hsealed hdeclared
    exact ⟨text, by rw [h.kept]; exact SensitiveStore.put_inner_same r.id text _, hfits⟩
  constructor
  · intro r' hr' hkind'
    rw [h.registered, List.mem_append, List.mem_singleton] at hr'
    rcases hr' with hr' | rfl
    · rw [hother r' hr']
      exact hs.kept r' hr' hkind'
    · exact hown (ResourceKind.mk.inj (hkind.symm.trans hkind'))
  · intro id text hid
    rw [h.registered]
    by_cases hcontent : id = r.id ∧ contents ≠ none
    · obtain ⟨rfl, hcontents⟩ := hcontent
      refine ⟨r, by simp, rfl, ?_⟩
      by_cases hfile : kindStr = "file.content"
      · rw [hkind, hfile]
      · rw [Sealed, if_neg hfile] at hsealed
        exact absurd hsealed hcontents
    · have hbefore : s.sensitive.inner id = some text := by
        rw [← hid, h.kept]
        cases contents with
        | none => rfl
        | some text' =>
          exact (SensitiveStore.put_inner_other (fun heq => hcontent ⟨heq, by simp⟩) text' _).symm
      obtain ⟨r', hr', hid', hkind'⟩ := hs.only id text hbefore
      exact ⟨r', List.mem_append_left _ hr', hid', hkind'⟩

theorem storeFits_of_evaluate (henv : FileContentEnv env tools encode) {shared : Bool}
    {fuel : Nat} {registry : Registry P} {sensitive : SensitiveStore}
    (h : evaluate env code b parse shared fuel = some (.ok registry, sensitive)) :
    StoreFits tools ⟨registry, sensitive⟩ := by
  refine evaluate_induction (StoreFits tools) code.only_all ⟨?_, ?_⟩ ?_ h
  · rintro r hr
    cases hr
  · rintro id text hid
    cases hid
  · intro s s' fn r contents hs hregisters
    exact hs.registers henv hregisters

end Contents

/-! ## From the evaluation to the apply -/

/-- The primitives leave the store of sensitive values alone, but for `file.content`, which takes
    what is under its own id. -/
structure TakesOwn {P S : Type} (args : ApplyArgs P S) (store : S → SensitiveStore) : Prop where
  pause : ∀ total s, store (args.platform.cancellableSleep total s).2 = store s
  plan : ∀ r primitive s, args.primitives r.kind = some primitive →
    store (primitive.plan r s).2 = store s
  markDirty : ∀ kind s, store (args.markDirty kind s) = store s
  apply : ∀ r primitive diff ctx id, args.primitives r.kind = some primitive → id ≠ r.id →
    (store (primitive.apply r diff ctx).2.state).inner id = (store ctx.state).inner id

namespace TakesOwn

variable {P S : Type} {args : ApplyArgs P S} {store : S → SensitiveStore}

theorem recordApply (id : ResourceId) (kind : ResourceKind)
    (result : Except PrimitiveError ChangeReport) (s : ApplyLoop S) :
    (args.recordApply id kind result s).ctx.state = s.ctx.state := by
  unfold ApplyArgs.recordApply
  split
  · split
    · rfl
    · split <;> rfl
  · rfl
  · split <;> rfl

theorem processResource (h : TakesOwn args store) {id other : ResourceId} (hne : other ≠ id)
    (s : ApplyLoop S) : (store (args.processResource id s).ctx.state).inner other =
      (store s.ctx.state).inner other := by
  unfold ApplyArgs.processResource
  split
  · rfl
  · rename_i r hget
    obtain ⟨-, rfl⟩ := Registry.get_eq_some.mp hget
    split
    · rfl
    · split
      · rfl
      · rename_i primitive hprimitive
        have hplan := h.plan r primitive s.ctx.state hprimitive
        simp only [ApplyArgs.planResource]
        split
        · exact congrArg (·.inner other) hplan
        · rw [ApplyArgs.applyDiff]
          dsimp only
          rw [recordApply]
          exact (h.apply r primitive _ _ other hprimitive hne).trans
            (congrArg (·.inner other) ((h.markDirty r.kind _).trans hplan))
        · exact congrArg (·.inner other) hplan
        · exact congrArg (·.inner other) hplan

theorem iteration (h : TakesOwn args store) (interval idx : Nat) {id other : ResourceId}
    (hne : other ≠ id) (s : ApplyLoop S) :
    (store (args.iteration interval idx id s).ctx.state).inner other =
      (store s.ctx.state).inner other := by
  unfold ApplyArgs.iteration
  split
  · have hpause := congrArg (·.inner other) (h.pause interval s.ctx.state)
    dsimp only
    split
    · exact (h.processResource hne _).trans hpause
    · exact hpause
  · split
    · rfl
    · exact h.processResource hne s

/-- What is under an id stays there until its turn. -/
theorem loop (h : TakesOwn args store) (interval : Nat) {other : ResourceId}
    (done : List ResourceId) : ∀ (idx : Nat) (s : ApplyLoop S), other ∉ done →
    (store (args.loop interval idx done s).ctx.state).inner other =
      (store s.ctx.state).inner other := by
  induction done with
  | nil =>
    intro idx s _
    rfl
  | cons id done ih =>
    intro idx s hother
    rw [List.mem_cons, not_or] at hother
    rw [ApplyArgs.loop, ih (idx + 1) _ hother.2]
    exact h.iteration interval idx hother.1 s

end TakesOwn

/-- **Contents survive from the manifest to the apply.**  When the turn of a `file.content` comes
    in an apply of what was evaluated, the store has contents for it of the size and with the
    digest of its payload, whatever the primitives before it have done. -/
theorem contents_at_turn {P H S : Type} {env : EvalEnv P} {code : StarlarkCode H} {b : Bundle}
    {parse : Parser} {shared : Bool} {fuel : Nat} {tools : FileTools P}
    {encode : FileContentSpec → P} {sensitive : SensitiveStore} {args : ApplyArgs P S}
    {store : S → SensitiveStore} (henv : FileContentEnv env tools encode)
    (h : evaluate env code b parse shared fuel = some (.ok args.registry, sensitive))
    (htakes : TakesOwn args store) (ctx : ApplyCtx S) (hctx : store ctx.state = sensitive)
    {it : Registry.HashIter} {order done rest : List ResourceId} {r : Resource P}
    (horder : args.registry.topologicalOrder it = .ok order) (hturn : order = done ++ r.id :: rest)
    (hr : r ∈ args.registry.resources) (hkind : r.kind = ⟨"file.content"⟩) (interval : Nat) :
    ∃ text,
      (store (args.loop interval 0 done (.start ctx)).ctx.state).inner r.id = some text ∧
      FitsContents tools r text := by
  obtain ⟨text, htext, hfits⟩ := (storeFits_of_evaluate henv h).kept r hr hkind
  refine ⟨text, ?_, hfits⟩
  have hnotDone : r.id ∉ done := by
    have hnodup : order.Nodup :=
      (Registry.topologicalOrder_ok horder).1.nodup_iff.mpr args.registry.nodup
    rw [hturn, List.nodup_append] at hnodup
    intro hmem
    exact hnodup.2.2 r.id hmem r.id List.mem_cons_self rfl
  rw [htakes.loop interval done 0 _ hnotDone]
  exact (congrArg (·.inner r.id) hctx).trans htext

/-! The apply of the manifest with two files and a service. -/

def appTools : FileTools (Option FileContentSpec) where
  fileSpec payload := payload.elim (.error "invalid type: null") .ok
  observed _ := none
  wanted := some
  sha256Hex := appSha256
  validator _ _ := .ok ()

/-- What the primitives of the two resources do with the store. -/
def takingPrimitive (takes : Bool) : Primitive (Option FileContentSpec) (Nat × SensitiveStore) where
  plan r s := (.returned (.ok (.add "create" r.payload)), s)
  apply r _ ctx := (.returned (.ok (.ofChanged "created")),
    { ctx with state := (ctx.state.1, if takes then (ctx.state.2.take r.id).2 else ctx.state.2) })

def appVars : Resource (Option FileContentSpec) :=
  ⟨⟨"file.content:/etc/app.env"⟩, ⟨"file.content"⟩, 1, some ⟨"/etc/app.env", 0o644, none, none,
    "f1d316d330440dea46d96ad43f6562ff9411c1b84700794dcd584f18146a18f6", 3, none⟩, [], [], []⟩

def appConf : Resource (Option FileContentSpec) :=
  ⟨⟨"file.content:/etc/app.conf"⟩, ⟨"file.content"⟩, 1, some ⟨"/etc/app.conf", 0o644, none, none,
    "b8d31e852725afb1e26d53bab6095b2bff1749c9275be13ed1c05a56ed31ec09", 2, none⟩, [], [], []⟩

def appRegistry : Registry (Option FileContentSpec) where
  resources :=
    [appVars, appConf,
     ⟨⟨"systemd.service:app"⟩, ⟨"systemd.service"⟩, 1, none, [],
        [⟨"file.content:/etc/app.conf"⟩], []⟩]
  nodup := by decide

def appArgs : ApplyArgs (Option FileContentSpec) (Nat × SensitiveStore) where
  primitives kind := some (takingPrimitive (kind = ⟨"file.content"⟩))
  registry := appRegistry
  markDirty _ s := s
  opts := ⟨false, .disabled⟩
  platform :=
    { clock := Prod.fst
      cancelled := fun _ => false
      tick := id
      sleep := fun d s => (s.1 + d, s.2)
      clock_le_tick := fun _ => le_rfl
      clock_add_le_sleep := fun _ _ => le_rfl
      cancelled_tick := fun _ h => h
      cancelled_sleep := fun _ _ h => h }

theorem appArgs_takesOwn : TakesOwn appArgs Prod.snd where
  pause total s := appArgs.platform.cancellableSleep_induction (fun s' => s'.2 = s.2)
    (fun _ h => h) (fun _ _ h => h) total rfl
  plan r primitive s h := by
    obtain rfl := Option.some.inj h
    rfl
  markDirty _ _ := rfl
  apply r primitive diff ctx id h hne := by
    obtain rfl := Option.some.inj h
    by_cases htakes : r.kind = ⟨"file.content"⟩
    · simpa [takingPrimitive, htakes] using SensitiveStore.take_inner_other hne ctx.state.2
    · simp [takingPrimitive, htakes]

/-- The store of the evaluation. -/
def appStore : SensitiveStore :=
  (SensitiveStore.new.put ⟨"file.content:/etc/app.env"⟩ "A=1").put
    ⟨"file.content:/etc/app.conf"⟩ "on"

/-- The first file has been written. -/
theorem contents_at_turn_app : ∃ text,
    (appArgs.loop 0 0 [⟨"file.content:/etc/app.env"⟩] (.start ⟨∅, (0, appStore)⟩)).ctx.state.2.inner
        ⟨"file.content:/etc/app.conf"⟩ = some text ∧
      FitsContents appTools appConf text :=
  contents_at_turn ⟨rfl, fun _ => rfl, rfl⟩
    (rfl : evaluate appEnv appCode appBundle (fun _ _ => .ok [.other]) true 0 =
      some (.ok appArgs.registry, _))
    appArgs_takesOwn ⟨∅, (0, appStore)⟩ rfl
    (by decide : appArgs.registry.topologicalOrder ⟨id, fun _ => .rfl⟩ =
      .ok [⟨"file.content:/etc/app.env"⟩, ⟨"file.content:/etc/app.conf"⟩, ⟨"systemd.service:app"⟩])
    rfl (List.mem_cons_of_mem _ List.mem_cons_self) rfl 0

/-! ## `service.unit` -/

/-- The value of the fact was collected, now or in an earlier run. -/
def IsCollected (path : String) (fact : FactValue (Value Unit)) : Prop :=
  ∀ value, fact.value = some value →
    ∃ comm, (collectInitSystem path (.ok comm)).value = some value

/-- The init systems with which a kind of service goes. -/
def serviceInits : List (String × List String) :=
  [("runr.service", ["runr"]), ("systemd.service", ["systemd", "mixed-systemd-runr"])]

theorem resolveServiceUnitKind_ok {P : Type} {env : EvalEnv P} {kindStr : String}
    (h : resolveServiceUnitKind env = .ok kindStr) :
    ∃ inits init, (kindStr, inits) ∈ serviceInits ∧ init ∈ inits ∧
      env.initSystem.value = some (.string init) := by
  unfold resolveServiceUnitKind at h
  split at h
  · cases h
  · rename_i init hvalue
    split at h
    · rename_i hinit
      obtain rfl := Except.ok.inj h
      refine ⟨["systemd", "mixed-systemd-runr"], init, by simp [serviceInits], ?_, hvalue⟩
      rcases hinit with rfl | rfl <;> simp
    · split at h
      · rename_i hinit
        obtain rfl := Except.ok.inj h
        exact ⟨["runr"], init, by simp [serviceInits], by simp [hinit], hvalue⟩
      · cases h
  · cases h

theorem classifyInit_cases (raw : String) : classifyInit raw = "systemd" ∨
    classifyInit raw = "runit" ∨ classifyInit raw = "init" ∨ classifyInit raw = "unknown" := by
  unfold classifyInit
  dsimp only
  split
  · exact .inl rfl
  · split
    · exact .inr (.inl rfl)
    · split
      · exact .inr (.inr (.inl rfl))
      · exact .inr (.inr (.inr rfl))

/-- A manifest that declares its services with `service.unit`. -/
def UsesServiceUnit : Declaration → Prop
  | .primitive kindStr => kindStr ∉ serviceInits.map Prod.fst
  | .serviceUnit => True

/-- **Portable services.**  A manifest that leaves the choice to `service.unit` has services of
    one init system only, the one the fact names.  The collector names no runr: with a fact
    that was collected, all of them are units of systemd. -/
theorem serviceUnit_portable {P H : Type} {env : EvalEnv P} {code : StarlarkCode H} {b : Bundle}
    {parse : Parser} {shared : Bool} {fuel : Nat} {registry : Registry P}
    {sensitive : SensitiveStore} (honly : code.Only UsesServiceUnit)
    (h : evaluate env code b parse shared fuel = some (.ok registry, sensitive)) :
    (∀ r ∈ registry.resources, ∀ inits, (r.kind.asStr, inits) ∈ serviceInits →
      ∃ init ∈ inits, env.initSystem.value = some (.string init)) ∧
    (∀ path, IsCollected path env.initSystem →
      ∀ r ∈ registry.resources, r.kind ≠ ⟨"runr.service"⟩) := by
  have hfact : ∀ r ∈ registry.resources, ∀ inits, (r.kind.asStr, inits) ∈ serviceInits →
      ∃ init ∈ inits, env.initSystem.value = some (.string init) := by
    refine evaluate_induction (fun s => ∀ r ∈ s.registry.resources, ∀ inits,
      (r.kind.asStr, inits) ∈ serviceInits →
        ∃ init ∈ inits, env.initSystem.value = some (.string init)) honly ?_ ?_ h
    · rintro r hr
      cases hr
    · intro s s' fn r contents hs hregisters r' hr' inits hinits
      rw [hregisters.registered, List.mem_append, List.mem_singleton] at hr'
      rcases hr' with hr' | rfl
      · exact hs r' hr' inits hinits
      · obtain ⟨kindStr, kwargs, hresolves, hdeclare⟩ := hregisters.declared
        have hkind : r'.kind.asStr = kindStr := congrArg ResourceKind.asStr (declare_ok hdeclare).1
        rw [hkind] at hinits
        cases fn with
        | primitive k =>
          obtain rfl : k = kindStr := hresolves
          exact absurd (List.mem_map_of_mem hinits) hregisters.allowed
        | serviceUnit =>
          obtain ⟨inits', init, hmem, hinit, hvalue⟩ := resolveServiceUnitKind_ok hresolves
          have hsame : inits = inits' := by
            simp only [serviceInits, List.mem_cons, Prod.mk.injEq, List.not_mem_nil, or_false]
              at hinits hmem
            rcases hinits with ⟨rfl, rfl⟩ | ⟨rfl, rfl⟩ <;> rcases hmem with ⟨hk, rfl⟩ | ⟨hk, rfl⟩
            · rfl
            · exact absurd hk (by decide)
            · exact absurd hk (by decide)
            · rfl
          exact ⟨init, hsame ▸ hinit, hvalue⟩
  refine ⟨hfact, fun path hcollected r hr hrunr => ?_⟩
  obtain ⟨init, hinit, hvalue⟩ := hfact r hr ["runr"] (by rw [hrunr]; simp [serviceInits])
  obtain rfl := List.mem_singleton.mp hinit
  obtain ⟨comm, hcomm⟩ := hcollected _ hvalue
  have hclass : classifyInit comm = "runr" := by
    simpa [collectInitSystem, FactValue.value] using hcomm
  rcases classifyInit_cases comm with h | h | h | h <;> rw [h] at hclass <;>
    exact absurd hclass (by decide)

theorem serviceUnit_portable_app :
    (appRegistry.resources.filter fun r => r.kind = ⟨"runr.service"⟩) = [] := by
  have hfile : UsesServiceUnit (.primitive "file.content") := by
    unfold UsesServiceUnit
    decide
  have honly : appCode.Only UsesServiceUnit := fun _ _ _ =>
    ⟨hfile, fun _ => ⟨hfile, fun _ => ⟨trivial, fun _ => trivial⟩⟩⟩
  have hnone := (serviceUnit_portable honly
    (rfl : evaluate appEnv appCode appBundle (fun _ _ => .ok [.other]) true 0 =
      some (.ok appRegistry, _))).2 "/proc/1/comm" (fun _ h => ⟨"systemd\n", h⟩)
  exact List.filter_eq_nil_iff.mpr fun r hr hkind => hnone r hr (of_decide_eq_true hkind)

end Bosun
