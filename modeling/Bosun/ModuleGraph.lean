import Bosun.Library.Trace
import Bosun.ModuleLoading
import Mathlib.Data.Finset.Card
import Mathlib.Logic.Relation

/-!
# Modules are loaded once and in order

The files of a bundle and the `load` statements in them form a graph.  Where no cycle can
be reached from the entry manifest, loading ends, every module is evaluated once, after the
modules it loads, and all who load it are given the same frozen module.  A cycle is not
noticed: the cache is filled when a module has been evaluated, so a module that is still
being evaluated is started again.
-/

namespace Bosun

open Relation

namespace Bundle

variable (b : Bundle) (parse : Parser)

def statements (file : String) : Option (List Stmt) :=
  match b.disk.readToString file with
  | .error _ => none
  | .ok source => (parse file source).toOption

/-- One file has a `load` statement whose path resolves to the other, however it is spelled. -/
def Loads (p q : String) : Prop :=
  ∃ stmts path, b.statements parse p = some stmts ∧ .load path ∈ stmts ∧
    b.resolveModule path = .ok q

def CycleReachable : Prop :=
  ∃ p, ReflTransGen (b.Loads parse) b.entry p ∧ TransGen (b.Loads parse) p p

variable {b parse}

theorem statements_eq {file source : String} {stmts : List Stmt}
    (hread : b.disk.readToString file = .ok source) (hparse : parse file source = .ok stmts) :
    b.statements parse file = some stmts := by
  simp [statements, hread, hparse, Except.toOption]

/-- The builtins are no file. -/
theorem resolveModule_builtins {q : String} : b.resolveModule "@bosun/builtins" ≠ .ok q := by
  have hpath : modulePath "@bosun/builtins" = none := by decide
  simp [resolveModule, hpath]

theorem resolveModule_unsupported {path q : String}
    (h : ((stripPrefix path "@roles/").isSome || (stripPrefix path "@lib/").isSome) = false) :
    b.resolveModule path ≠ .ok q := by
  simp only [Bool.or_eq_false_iff, Option.isSome_eq_false_iff, Option.isNone_iff_eq_none] at h
  simp [resolveModule, modulePath, h.1, h.2]

end Bundle

/-! ## What an event may follow -/

section Order

variable (b : Bundle) (parse : Parser)

/-- A file is parsed and evaluated once, a module is received when it has been evaluated,
    and a file has been evaluated when everything it loads has been received. -/
def Admits (older : List LoadEvent) : LoadEvent → Prop
  | .parsed file => .parsed file ∉ older
  | .received _ path module => ∀ q, b.resolveModule path = .ok q →
      .evaluated q ∈ older ∧
      ∀ loader' path' module', .received loader' path' module' ∈ older →
        b.resolveModule path' = .ok q → module' = module
  | .evaluated file => .evaluated file ∉ older ∧ .parsed file ∈ older ∧
      ∀ stmts path, b.statements parse file = some stmts → .load path ∈ stmts →
        ∃ module, .received file path module ∈ older

variable {b parse} {trace : List LoadEvent}

theorem parsed_once (h : Lawful (Admits b parse) trace) (p : String) :
    trace.count (.parsed p) ≤ 1 :=
  h.count_le_one fun _ hadmits => hadmits

theorem evaluated_once (h : Lawful (Admits b parse) trace) (p : String) :
    trace.count (.evaluated p) ≤ 1 :=
  h.count_le_one fun _ hadmits => hadmits.1

/-- All who load a file are given the same module. -/
theorem same_module (h : Lawful (Admits b parse) trace) {l l' path path' q : String}
    {m m' : FrozenModule} (hl : .received l path m ∈ trace) (hl' : .received l' path' m' ∈ trace)
    (hq : b.resolveModule path = .ok q) (hq' : b.resolveModule path' = .ok q) : m = m' := by
  let R : LoadEvent → LoadEvent → Prop := fun e e' => ∀ l path m l' path' m' q,
    e = .received l path m → e' = .received l' path' m' →
    b.resolveModule path = .ok q → b.resolveModule path' = .ok q → m = m'
  have hpair : trace.Pairwise R := by
    apply h.pairwise
    rintro older e hadmits e' he' l path m l' path' m' q rfl rfl hq hq'
    exact ((hadmits q hq).2 l' path' m' he' hq').symm
  have hrefl : ∀ e ∈ trace, R e e := by
    rintro e - l path m l' path' m' q rfl heq - -
    cases heq
    rfl
  have hsymm : Std.Symm R := by
    constructor
    intro e e' hR l path m l' path' m' q he he' hq hq'
    exact (hR l' path' m' l path m q he' he hq' hq).symm
  exact hpair.forall_of_forall hrefl hl hl' l path m l' path' m' q rfl rfl hq hq'

theorem loads_evaluated {newer older : List LoadEvent} {p q : String}
    (h : Lawful (Admits b parse) (newer ++ .evaluated p :: older)) (hload : b.Loads parse p q) :
    .evaluated q ∈ older := by
  obtain ⟨stmts, path, hstmts, hmem, hresolve⟩ := hload
  obtain ⟨-, -, hreceived⟩ := h.admitted
  obtain ⟨module, hm⟩ := hreceived stmts path hstmts hmem
  have holder : Lawful (Admits b parse) older := (h.of_append).tail
  obtain ⟨oldest, hsuffix, hadmits⟩ := holder.admitted_of_mem hm
  exact hsuffix.subset (hadmits q hresolve).1

theorem reachable_evaluated (h : Lawful (Admits b parse) trace) {p q : String}
    (hp : .evaluated p ∈ trace) (hreach : ReflTransGen (b.Loads parse) p q) :
    .evaluated q ∈ trace := by
  induction hreach with
  | refl => exact hp
  | @tail q r _ hload ih =>
    obtain ⟨newer, older, rfl⟩ := List.append_of_mem ih
    have hr := loads_evaluated h hload
    simp [hr]

theorem parsed_of_evaluated (h : Lawful (Admits b parse) trace) {p : String}
    (hp : .evaluated p ∈ trace) : .parsed p ∈ trace := by
  obtain ⟨older, hsuffix, -, hparsed, -⟩ := h.admitted_of_mem hp
  exact hsuffix.subset hparsed

end Order

/-! ## The invariant of the loader -/

section Invariant

variable (b : Bundle) (parse : Parser)

/-- Between two statements of a module: what has been parsed is either finished, and then in
    the cache, or on the stack, and then not. -/
structure Sound (stack : List String) (cache : List (String × FrozenModule))
    (trace : List LoadEvent) : Prop where
  lawful : Lawful (Admits b parse) trace
  parsed : ∀ p, .parsed p ∈ trace → p ∈ stack ∨ ∃ m, cache.lookup p = some m
  evaluated : ∀ p, .evaluated p ∈ trace → ∃ m, cache.lookup p = some m
  cached : ∀ p m, cache.lookup p = some m → .evaluated p ∈ trace
  onStack : ∀ p ∈ stack, cache.lookup p = none
  received : ∀ l path m q, .received l path m ∈ trace → b.resolveModule path = .ok q →
    cache.lookup q = some m

variable {b parse} {stack : List String} {cache : List (String × FrozenModule)}
  {trace : List LoadEvent} {q : String}

theorem Sound.entered (h : Sound b parse stack cache trace) (hcache : cache.lookup q = none) :
    Sound b parse (q :: stack) cache trace where
  lawful := h.lawful
  parsed := by
    intro p hp
    rcases h.parsed p hp with hstack | hcached
    · exact .inl (List.mem_cons_of_mem q hstack)
    · exact .inr hcached
  evaluated := h.evaluated
  cached := h.cached
  onStack := by
    intro p hp
    rcases List.mem_cons.mp hp with rfl | hp
    · exact hcache
    · exact h.onStack p hp
  received := h.received

theorem Sound.not_parsed (h : Sound b parse stack cache trace) (hcache : cache.lookup q = none)
    (hstack : q ∉ stack) : .parsed q ∉ trace := by
  intro hq
  rcases h.parsed q hq with hq | ⟨m, hm⟩
  · exact hstack hq
  · simp [hcache] at hm

/-- The parse of the module on top of the stack. -/
theorem Sound.parsing (h : Sound b parse (q :: stack) cache trace) (hq : .parsed q ∉ trace) :
    Sound b parse (q :: stack) cache (.parsed q :: trace) where
  lawful := .cons hq h.lawful
  parsed := by
    intro p hp
    rcases List.mem_cons.mp hp with heq | hp
    · cases heq
      exact .inl List.mem_cons_self
    · exact h.parsed p hp
  evaluated := by
    intro p hp
    exact h.evaluated p (by simpa using hp)
  cached := by
    intro p m hm
    exact List.mem_cons_of_mem _ (h.cached p m hm)
  onStack := h.onStack
  received := by
    intro l path m r hr hresolve
    exact h.received l path m r (by simpa using hr) hresolve

theorem Sound.receive (h : Sound b parse stack cache trace) (l path : String) {m : FrozenModule}
    (hm : ∀ q, b.resolveModule path = .ok q → cache.lookup q = some m) :
    Sound b parse stack cache (.received l path m :: trace) where
  lawful := by
    apply Lawful.cons _ h.lawful
    intro q hq
    constructor
    · exact h.cached q m (hm q hq)
    · intro l' path' m' hreceived hq'
      have hm' := h.received l' path' m' q hreceived hq'
      exact Option.some.inj (hm'.symm.trans (hm q hq))
  parsed := by
    intro p hp
    exact h.parsed p (by simpa using hp)
  evaluated := by
    intro p hp
    exact h.evaluated p (by simpa using hp)
  cached := by
    intro p m' hm'
    exact List.mem_cons_of_mem _ (h.cached p m' hm')
  onStack := h.onStack
  received := by
    intro l' path' m' q hreceived hq
    rcases List.mem_cons.mp hreceived with heq | hreceived
    · cases heq
      exact hm q hq
    · exact h.received l' path' m' q hreceived hq

theorem Sound.admits_evaluated (h : Sound b parse (q :: stack) cache trace)
    (hparsed : .parsed q ∈ trace)
    (hloads : ∀ stmts path, b.statements parse q = some stmts → .load path ∈ stmts →
      ∃ m, .received q path m ∈ trace) :
    Admits b parse trace (.evaluated q) := by
  constructor
  · intro hq
    obtain ⟨m, hm⟩ := h.evaluated q hq
    simp [h.onStack q List.mem_cons_self] at hm
  · exact ⟨hparsed, hloads⟩

/-- The module on top of the stack is finished and goes into the cache. -/
theorem Sound.finish (h : Sound b parse (q :: stack) cache trace) (hstack : q ∉ stack)
    (hadmits : Admits b parse trace (.evaluated q)) (m : FrozenModule) :
    Sound b parse stack ((q, m) :: cache) (.evaluated q :: trace) := by
  have hself : ((q, m) :: cache).lookup q = some m := by simp
  have hother : ∀ p, p ≠ q → ((q, m) :: cache).lookup p = cache.lookup p := by
    intro p hp
    have hne : (p == q) = false := by simpa using hp
    simp only [List.lookup_cons, hne]
  have hkept : ∀ p m', cache.lookup p = some m' → ((q, m) :: cache).lookup p = some m' := by
    intro p m' hm'
    have hp : p ≠ q := by
      rintro rfl
      simp [h.onStack p List.mem_cons_self] at hm'
    rw [hother p hp, hm']
  constructor
  case lawful => exact .cons hadmits h.lawful
  case parsed =>
    intro p hp
    rcases h.parsed p (by simpa using hp) with hp | ⟨m', hm'⟩
    · rcases List.mem_cons.mp hp with rfl | hp
      · exact .inr ⟨m, hself⟩
      · exact .inl hp
    · exact .inr ⟨m', hkept p m' hm'⟩
  case evaluated =>
    intro p hp
    rcases List.mem_cons.mp hp with heq | hp
    · cases heq
      exact ⟨m, hself⟩
    · obtain ⟨m', hm'⟩ := h.evaluated p hp
      exact ⟨m', hkept p m' hm'⟩
  case cached =>
    intro p m' hm'
    by_cases hp : p = q
    · simp [hp]
    · rw [hother p hp] at hm'
      exact List.mem_cons_of_mem _ (h.cached p m' hm')
  case onStack =>
    intro p hp
    have hpq : p ≠ q := fun heq => hstack (heq ▸ hp)
    rw [hother p hpq]
    exact h.onStack p (List.mem_cons_of_mem q hp)
  case received =>
    intro l path m' r hr hresolve
    exact hkept r m' (h.received l path m' r (by simpa using hr) hresolve)

end Invariant

/-! ## One call of the loader -/

section Calls

variable {W : Type} (b : Bundle) (parse : Parser) (lib : Starlark W)

/-- How a call leaves the state: the stack as it was, and the invariant if nothing failed.
    After an error nothing more is loaded, and the order of the events is all that counts. -/
structure Ends {ε α : Type} (s : LoadState W) (r : Except ε α) (s' : LoadState W) : Prop where
  stack : s'.currentModule = s.currentModule
  grown : s.trace <:+ s'.trace
  lawful : Lawful (Admits b parse) s'.trace
  sound : ∀ a, r = .ok a → Sound b parse s'.currentModule s'.cache s'.trace

/-- The loader, called with `stack` on the stack of modules, for a path that names nothing on
    it: it returns, and what it returns is in the cache. -/
def Serves (inner : String → LoadState W → LoadM W String FrozenModule) (stack : List String) :
    Prop :=
  ∀ path s, s.currentModule = stack → Sound b parse stack s.cache s.trace →
    (∀ q, b.resolveModule path = .ok q → ∀ p ∈ stack, TransGen (b.Loads parse) p q) →
    ∃ r s', inner path s = some (r, s') ∧ Ends b parse s r s' ∧
      ∀ m q, r = .ok m → b.resolveModule path = .ok q → s'.cache.lookup q = some m

variable {b parse} {stack : List String}

theorem Ends.trans {ε ε' α β : Type} {s s' s'' : LoadState W} {r : Except ε α} {r' : Except ε' β}
    (h : Ends b parse s r s') (h' : Ends b parse s' r' s'') : Ends b parse s r' s'' where
  stack := h'.stack.trans h.stack
  grown := h.grown.trans h'.grown
  lawful := h'.lawful
  sound := h'.sound

/-- The statements of a module.  What they load has been received when none has failed. -/
theorem evalStmts_ends {inner : String → LoadState W → LoadM W String FrozenModule}
    (hinner : Serves b parse inner stack) (file : String) (stmts : List Stmt) :
    ∀ i (s : LoadState W), s.currentModule = stack → Sound b parse stack s.cache s.trace →
    (∀ path q, .load path ∈ stmts → b.resolveModule path = .ok q →
      ∀ p ∈ stack, TransGen (b.Loads parse) p q) →
    ∃ r s', evalStmts lib inner file i stmts s = some (r, s') ∧ Ends b parse s r s' ∧
      (r = .ok () → ∀ path, .load path ∈ stmts → ∃ m, .received file path m ∈ s'.trace) := by
  induction stmts with
  | nil =>
    intro i s hstack hsound _
    have hends : Ends b parse s (.ok () : Except String Unit) s :=
      ⟨rfl, List.suffix_refl _, hsound.lawful, fun _ _ => hstack ▸ hsound⟩
    exact ⟨.ok (), s, rfl, hends, by simp⟩
  | cons stmt rest ih =>
    intro i s hstack hsound hreach
    have hrest : ∀ path q, .load path ∈ rest → b.resolveModule path = .ok q →
        ∀ p ∈ stack, TransGen (b.Loads parse) p q := by
      intro path q hmem
      exact hreach path q (List.mem_cons_of_mem stmt hmem)
    cases stmt with
    | other =>
      cases hx : (lib.exec file i s.world).result with
      | error message =>
        have hends : Ends b parse s (.error message : Except String Unit)
            (s.absorb (lib.exec file i s.world)) :=
          ⟨rfl, List.suffix_refl _, hsound.lawful, by simp⟩
        exact ⟨.error message, _, by simp [evalStmts, hx], hends, by simp⟩
      | ok _ =>
        obtain ⟨r, s', hrun, hends, hreceived⟩ :=
          ih (i + 1) (s.absorb (lib.exec file i s.world)) hstack hsound hrest
        refine ⟨r, s', by simp [evalStmts, hx, hrun], ⟨hends.stack, hends.grown, hends.lawful,
          hends.sound⟩, ?_⟩
        intro hr path hmem
        exact hreceived hr path (by simpa using hmem)
    | load path =>
      obtain ⟨r, s₁, hload, hends, hcached⟩ := hinner path s hstack hsound
        fun q => hreach path q List.mem_cons_self
      cases r with
      | error message =>
        have hends' : Ends b parse s (.error (lib.report file i message) : Except String Unit) s₁ :=
          ⟨hends.stack, hends.grown, hends.lawful, by simp⟩
        exact ⟨.error (lib.report file i message), s₁, by simp [evalStmts, hload], hends', by simp⟩
      | ok m =>
        have hstack₁ : s₁.currentModule = stack := hends.stack.trans hstack
        have hsound₁ : Sound b parse stack s₁.cache (.received file path m :: s₁.trace) :=
          (hstack₁ ▸ hends.sound m rfl).receive file path fun q => hcached m q rfl
        -- the module is received whether or not its symbols can be bound
        let s₂ := (s₁.record (.received file path m)).absorb (lib.bindSymbols file i m s₁.world)
        have hgrown : s.trace <:+ s₂.trace := hends.grown.trans (List.suffix_cons _ _)
        cases hx : (lib.bindSymbols file i m s₁.world).result with
        | error message =>
          have hends' : Ends b parse s (.error message : Except String Unit) s₂ :=
            ⟨hends.stack, hgrown, hsound₁.lawful, by simp⟩
          exact ⟨.error message, s₂, by simp [evalStmts, hload, hx, s₂], hends', by simp⟩
        | ok _ =>
          obtain ⟨r, s', hrun, hends', hreceived⟩ := ih (i + 1) s₂ hstack₁ hsound₁ hrest
          refine ⟨r, s', by simp [evalStmts, hload, hx, hrun, s₂], ⟨hends'.stack.trans hends.stack,
            hgrown.trans hends'.grown, hends'.lawful, hends'.sound⟩, ?_⟩
          intro hr path' hmem
          rcases List.mem_cons.mp hmem with heq | hmem
          · cases heq
            exact ⟨m, hends'.grown.subset List.mem_cons_self⟩
          · exact hreceived hr path' hmem

/-- A file that is neither in the cache nor on the stack is parsed and evaluated.  The state
    is the one behind the guard, with the file on top of the stack. -/
theorem parseAndEval_ends {inner : String → LoadState W → LoadM W String FrozenModule} {q : String}
    (hinner : Serves b parse inner (q :: stack)) (hq : q ∉ stack) {s : LoadState W}
    (hstack : s.currentModule = stack) (hsound : Sound b parse stack s.cache s.trace)
    (hcache : s.cache.lookup q = none)
    (hreach : ∀ p ∈ stack, TransGen (b.Loads parse) p q) :
    ∃ r s', parseAndEval b parse lib inner q (s.push q) = some (r, s') ∧
      s'.currentModule = q :: stack ∧ s.trace <:+ s'.trace ∧ Lawful (Admits b parse) s'.trace ∧
      ∀ m, r = .ok m → Sound b parse stack ((q, m) :: s'.cache) s'.trace := by
  have hstack' : (s.push q).currentModule = q :: stack := by simp [LoadState.push, hstack]
  have hentered := hsound.entered hcache
  have hparsing := hentered.parsing (hsound.not_parsed hcache hq)
  cases hread : b.disk.readToString q with
  | error e =>
    exact ⟨.error (.bundle (.io q)), s.push q, by simp [parseAndEval, hread], hstack',
      List.suffix_refl _, hsound.lawful, by simp⟩
  | ok source =>
    let s₁ := (s.push q).record (.parsed q)
    have hgrown₁ : s.trace <:+ s₁.trace := List.suffix_cons _ _
    cases hparse : parse q source with
    | error message =>
      exact ⟨.error (.syntaxError q message), s₁, by simp [parseAndEval, hread, hparse, s₁],
        hstack', hgrown₁, hparsing.lawful, by simp⟩
    | ok stmts =>
      have hstmts := Bundle.statements_eq hread hparse
      -- whatever is on the stack reaches the modules that this one loads
      have hnext : ∀ path r, .load path ∈ stmts → b.resolveModule path = .ok r →
          ∀ p ∈ q :: stack, TransGen (b.Loads parse) p r := by
        intro path r hmem hresolve p hp
        have hload : b.Loads parse q r := ⟨stmts, path, hstmts, hmem, hresolve⟩
        rcases List.mem_cons.mp hp with rfl | hp
        · exact .single hload
        · exact (hreach p hp).tail hload
      obtain ⟨r, s₂, hrun, hends, hreceived⟩ :=
        evalStmts_ends lib hinner q stmts 0 s₁ hstack' hparsing hnext
      have hgrown₂ : s.trace <:+ s₂.trace := hgrown₁.trans hends.grown
      have hstack₂ : s₂.currentModule = q :: stack := hends.stack.trans hstack'
      cases r with
      | error message =>
        exact ⟨.error (.eval message), s₂, by simp [parseAndEval, hread, hparse, hrun, s₁],
          hstack₂, hgrown₂, hends.lawful, by simp⟩
      | ok _ =>
        have hsound₂ : Sound b parse (q :: stack) s₂.cache s₂.trace := hstack₂ ▸ hends.sound () rfl
        have hadmits : Admits b parse s₂.trace (.evaluated q) := by
          apply hsound₂.admits_evaluated (hends.grown.subset List.mem_cons_self)
          intro stmts' path hstmts' hmem
          obtain rfl : stmts = stmts' := Option.some.inj (hstmts.symm.trans hstmts')
          exact hreceived rfl path hmem
        let s₃ := s₂.record (.evaluated q)
        have hgrown₃ : s.trace <:+ s₃.trace := hgrown₂.trans (List.suffix_cons _ _)
        have hlawful₃ : Lawful (Admits b parse) s₃.trace := .cons hadmits hsound₂.lawful
        cases hfreeze : lib.freeze q (s₂.record (.evaluated q)).world with
        | error message =>
          exact ⟨.error (.eval ("module freeze: " ++ message)), s₃,
            by simp [parseAndEval, hread, hparse, hrun, hfreeze, s₁, s₃], hstack₂, hgrown₃,
            hlawful₃, by simp⟩
        | ok _ =>
          refine ⟨.ok (.evaluated q s₃.serial), (s₃.frozen q).2,
            by simp [parseAndEval, hread, hparse, hrun, hfreeze, s₁, s₃, LoadState.frozen],
            hstack₂, hgrown₃, hlawful₃, ?_⟩
          intro m _
          exact hsound₂.finish hq hadmits m

theorem loadRoleOrLib_serves {inner : String → LoadState W → LoadM W String FrozenModule}
    (hinner : ∀ q ∈ b.files, q ∉ stack → Serves b parse inner (q :: stack))
    {path : String} {s : LoadState W} (hstack : s.currentModule = stack)
    (hsound : Sound b parse stack s.cache s.trace)
    (hreach : ∀ q, b.resolveModule path = .ok q → q ∉ stack ∧
      ∀ p ∈ stack, TransGen (b.Loads parse) p q) :
    ∃ r s', loadRoleOrLib b parse lib inner path s = some (r, s') ∧ Ends b parse s r s' ∧
      ∀ m q, r = .ok m → b.resolveModule path = .ok q → s'.cache.lookup q = some m := by
  have hsame : ∀ r : Except StarlarkGlueError FrozenModule, Ends b parse s r s := fun _ =>
    ⟨rfl, List.suffix_refl _, hsound.lawful, fun _ _ => hstack ▸ hsound⟩
  cases hresolve : b.resolveModule path with
  | error e => exact ⟨.error (.bundle e), s, by simp [loadRoleOrLib, hresolve], hsame _, by simp⟩
  | ok q =>
    cases hcache : s.cache.lookup q with
    | some m =>
      refine ⟨.ok m, s, by simp [loadRoleOrLib, hresolve, hcache], hsame _, ?_⟩
      rintro m' q' ⟨⟩ ⟨⟩
      exact hcache
    | none =>
      obtain ⟨hq, habove⟩ := hreach q hresolve
      obtain ⟨r, s', hrun, hstack', hgrown, hlawful, hok⟩ := parseAndEval_ends lib
        (hinner q (b.resolveModule_mem hresolve) hq) hq hstack hsound hcache habove
      have hpop : s'.currentModule.tail = stack := by simp [hstack']
      cases r with
      | error e =>
        have hends : Ends b parse s (.error e : Except StarlarkGlueError FrozenModule) s'.pop :=
          ⟨hpop.trans hstack.symm, hgrown, hlawful, by simp⟩
        exact ⟨.error e, s'.pop, by simp [loadRoleOrLib, hresolve, hcache, hrun], hends, by simp⟩
      | ok m =>
        let s'' := (s'.insert q m).pop
        have hstack'' : s''.currentModule = stack := hpop
        have hends : Ends b parse s (.ok m : Except StarlarkGlueError FrozenModule) s'' :=
          ⟨hpop.trans hstack.symm, hgrown, hlawful, fun _ _ => hstack''.symm ▸ hok m rfl⟩
        refine ⟨.ok m, s'', by simp [loadRoleOrLib, hresolve, hcache, hrun, s''], hends, ?_⟩
        rintro m' q' ⟨⟩ ⟨⟩
        simp [s'', LoadState.insert, LoadState.pop]

theorem loadWith_serves {inner : String → LoadState W → LoadM W String FrozenModule}
    (hinner : ∀ q ∈ b.files, q ∉ stack → Serves b parse inner (q :: stack))
    (hacyclic : ∀ q, (∀ p ∈ stack, TransGen (b.Loads parse) p q) → q ∉ stack) :
    Serves b parse (loadWith b parse lib inner) stack := by
  intro path s hstack hsound hreach
  have hsame : ∀ (r : Except String FrozenModule) s', s'.currentModule = s.currentModule →
      s'.cache = s.cache → s'.trace = s.trace → Ends b parse s r s' := by
    intro r s' hstack' hcache htrace
    constructor
    · exact hstack'
    · rw [htrace]
    · rw [htrace]
      exact hsound.lawful
    · intro _ _
      rw [hstack', hcache, htrace]
      exact hstack ▸ hsound
  by_cases hbuiltins : path = "@bosun/builtins"
  · subst hbuiltins
    refine ⟨.ok .builtins, s, by simp [loadWith], hsame _ _ rfl rfl rfl, ?_⟩
    intro m q _ hq
    exact absurd hq Bundle.resolveModule_builtins
  · cases hlead : (stripPrefix path "@roles/").isSome || (stripPrefix path "@lib/").isSome with
    | false =>
      let err := StarlarkGlueError.bundle (.unsupportedLoadPath path)
      exact ⟨.error err.display, s.pushError err, by simp [loadWith, hbuiltins, hlead, err],
        hsame _ _ rfl rfl rfl, by simp⟩
    | true =>
      obtain ⟨r, s', hrun, hends, hcached⟩ := loadRoleOrLib_serves lib hinner hstack hsound
        fun q hq => ⟨hacyclic q (hreach q hq), hreach q hq⟩
      cases r with
      | error e =>
        exact ⟨.error (s'.pushError e).lastErrorMessage, s'.pushError e,
          by simp [loadWith, hbuiltins, hlead, hrun], ⟨hends.stack, hends.grown, hends.lawful,
          by simp⟩, by simp⟩
      | ok m =>
        refine ⟨.ok m, s', by simp [loadWith, hbuiltins, hlead, hrun], ⟨hends.stack, hends.grown,
          hends.lawful, fun _ _ => hends.sound m rfl⟩, ?_⟩
        intro m' q hm'
        exact hcached m' q (by rw [Except.ok.inj hm'])

end Calls

/-! ## Termination -/

section Termination

variable {W : Type} (b : Bundle) (parse : Parser) (lib : Starlark W)

/-- The files that are not being evaluated. -/
def room (stack : List String) : Nat := (b.files.toFinset \ stack.toFinset).card

variable {b parse lib}

theorem room_push {stack : List String} {q : String} (hfile : q ∈ b.files) (hq : q ∉ stack) :
    room b (q :: stack) < room b stack := by
  apply Finset.card_lt_card
  rw [Finset.ssubset_iff_of_subset]
  · exact ⟨q, by simp [hfile, hq], by simp⟩
  · apply Finset.sdiff_subset_sdiff (Finset.Subset.refl _)
    simp

/-- Without a cycle the number of files bounds the depth of the calls. -/
theorem load_serves (lib : Starlark W) (hacyclic : ¬ b.CycleReachable parse) (fuel : Nat) :
    ∀ stack, b.entry ∈ stack → room b stack < fuel →
      Serves b parse (load b parse lib fuel) stack := by
  induction fuel with
  | zero =>
    intro stack _ hroom
    exact absurd hroom (Nat.not_lt_zero _)
  | succ fuel ih =>
    intro stack hentry hroom
    apply loadWith_serves
    · intro q hfile hq
      have hless := room_push hfile hq
      exact ih (q :: stack) (List.mem_cons_of_mem q hentry) (by omega)
    · intro q hreach hq
      exact hacyclic ⟨q, (hreach b.entry hentry).to_reflTransGen, hreach q hq⟩

theorem evalStmts_mono {inner inner' : String → LoadState W → LoadM W String FrozenModule}
    (h : ∀ path s x, inner path s = some x → inner' path s = some x) (file : String)
    (stmts : List Stmt) : ∀ i s x, evalStmts lib inner file i stmts s = some x →
      evalStmts lib inner' file i stmts s = some x := by
  induction stmts with
  | nil =>
    intro i s x hx
    exact hx
  | cons stmt rest ih =>
    intro i s x hx
    cases stmt with
    | other =>
      simp only [evalStmts] at hx ⊢
      split at hx
      · exact hx
      · exact ih _ _ _ hx
    | load path =>
      simp only [evalStmts] at hx ⊢
      cases hload : inner path s with
      | none => simp [hload] at hx
      | some y =>
        rw [h path s y hload]
        rw [hload] at hx
        obtain ⟨r, s'⟩ := y
        cases r with
        | error message => exact hx
        | ok m =>
          simp only at hx ⊢
          split at hx
          · exact hx
          · exact ih _ _ _ hx

theorem parseAndEval_mono {inner inner' : String → LoadState W → LoadM W String FrozenModule}
    (h : ∀ path s x, inner path s = some x → inner' path s = some x) (file : String)
    (s : LoadState W) (x : Except StarlarkGlueError FrozenModule × LoadState W)
    (hx : parseAndEval b parse lib inner file s = some x) :
    parseAndEval b parse lib inner' file s = some x := by
  unfold parseAndEval at hx ⊢
  cases hread : b.disk.readToString file with
  | error e => simpa [hread] using hx
  | ok source =>
    simp only [hread] at hx ⊢
    cases hparse : parse file source with
    | error message => simpa [hparse] using hx
    | ok stmts =>
      simp only [hparse] at hx ⊢
      cases hrun : evalStmts lib inner file 0 stmts (s.record (.parsed file)) with
      | none => simp [hrun] at hx
      | some y =>
        rw [evalStmts_mono h file stmts 0 _ y hrun]
        rwa [hrun] at hx

theorem loadWith_mono {inner inner' : String → LoadState W → LoadM W String FrozenModule}
    (h : ∀ path s x, inner path s = some x → inner' path s = some x) (path : String)
    (s : LoadState W) (x : Except String FrozenModule × LoadState W)
    (hx : loadWith b parse lib inner path s = some x) :
    loadWith b parse lib inner' path s = some x := by
  unfold loadWith at hx ⊢
  split
  · simpa [*] using hx
  · rename_i hbuiltins
    rw [if_neg hbuiltins] at hx
    split
    · rename_i hlead
      rw [if_pos hlead] at hx
      cases hrun : loadRoleOrLib b parse lib inner path s with
      | none => simp [hrun] at hx
      | some y =>
        have hrun' : loadRoleOrLib b parse lib inner' path s = some y := by
          unfold loadRoleOrLib at hrun ⊢
          cases hresolve : b.resolveModule path with
          | error e => simpa [hresolve] using hrun
          | ok q =>
            simp only [hresolve] at hrun ⊢
            cases hcache : s.cache.lookup q with
            | some m => simpa [hcache] using hrun
            | none =>
              simp only [hcache] at hrun ⊢
              cases heval : parseAndEval b parse lib inner q (s.push q) with
              | none => simp [heval] at hrun
              | some z =>
                rw [parseAndEval_mono h q _ z heval]
                rwa [heval] at hrun
        rw [hrun']
        rwa [hrun] at hx
    · rename_i hlead
      rwa [if_neg hlead] at hx

/-- An answer found with few nested calls is the answer with more. -/
theorem load_mono (fuel : Nat) : ∀ path s x, load b parse lib fuel path s = some x →
    load b parse lib (fuel + 1) path s = some x := by
  induction fuel with
  | zero =>
    intro path s x hx
    cases hx
  | succ fuel ih =>
    intro path s x hx
    exact loadWith_mono ih path s x hx

theorem evaluateManifest_mono {fuel more : Nat} (h : fuel ≤ more) {w : W}
    {x : Except StarlarkGlueError Unit × LoadState W}
    (hx : evaluateManifest b parse lib fuel w = some x) :
    evaluateManifest b parse lib more w = some x := by
  induction more, h using Nat.le_induction with
  | base => exact hx
  | succ more _ ih =>
    unfold evaluateManifest at ih ⊢
    cases hread : b.disk.readToString b.entry with
    | error e => simpa [hread] using ih
    | ok source =>
      simp only [hread] at ih ⊢
      cases hparse : parse b.entry source with
      | error message => simpa [hparse] using ih
      | ok stmts =>
        simp only [hparse] at ih ⊢
        cases hbuild : lib.buildBuiltins with
        | error message => simpa [hbuild] using ih
        | ok _ =>
          simp only [hbuild] at ih ⊢
          cases hrun : evalStmts lib (load b parse lib more) b.entry 0 stmts
              (((LoadState.start w).record (.parsed b.entry)).push b.entry) with
          | none => simp [hrun] at ih
          | some y =>
            rw [evalStmts_mono (load_mono more) b.entry stmts 0 _ y hrun]
            rwa [hrun] at ih

end Termination

/-! ## The whole evaluation -/

section Whole

variable {W : Type} (b : Bundle) (parse : Parser)

/-- What an evaluation leaves behind, failed or not. -/
structure Orderly (r : Except StarlarkGlueError Unit) (s : LoadState W) : Prop where
  stack : s.currentModule = []
  parsedOnce : ∀ p, s.trace.count (.parsed p) ≤ 1
  evaluatedOnce : ∀ p, s.trace.count (.evaluated p) ≤ 1
  sameModule : ∀ l l' path path' q m m', .received l path m ∈ s.trace →
    .received l' path' m' ∈ s.trace → b.resolveModule path = .ok q →
    b.resolveModule path' = .ok q → m = m'
  /-- the events after it are listed before it -/
  afterLoads : ∀ newer older p q, s.trace = newer ++ .evaluated p :: older →
    b.Loads parse p q → .evaluated q ∈ older
  served : ∀ p stmts path, .evaluated p ∈ s.trace → b.statements parse p = some stmts →
    .load path ∈ stmts → ∃ m, .received p path m ∈ s.trace
  complete : ∀ p q, .evaluated p ∈ s.trace → ReflTransGen (b.Loads parse) p q →
    s.trace.count (.parsed q) = 1 ∧ s.trace.count (.evaluated q) = 1
  succeeded : r = .ok () → .evaluated b.entry ∈ s.trace

/-- Loading ends, whatever the statements of the modules do besides loading; a cycle is
    reported, and without one every module is loaded once and in order. -/
def LoadsWell : Prop :=
  ∀ (W : Type) (lib : Starlark W) (w : W), ∃ r s,
    (∃ bound, ∀ fuel, bound ≤ fuel → evaluateManifest b parse lib fuel w = some (r, s)) ∧
    (b.CycleReachable parse → ∃ message, r = .error (.loadCycle message)) ∧
    (¬ b.CycleReachable parse → Orderly b parse r s)

variable {b parse}

theorem count_eq_one {ε : Type} [DecidableEq ε] {trace : List ε} {e : ε} (hle : trace.count e ≤ 1)
    (hmem : e ∈ trace) : trace.count e = 1 :=
  le_antisymm hle (List.count_pos_iff.mpr hmem)

theorem Orderly.of_lawful {r : Except StarlarkGlueError Unit} {s : LoadState W}
    (hstack : s.currentModule = []) (h : Lawful (Admits b parse) s.trace)
    (hok : r = .ok () → .evaluated b.entry ∈ s.trace) : Orderly b parse r s where
  stack := hstack
  parsedOnce := parsed_once h
  evaluatedOnce := evaluated_once h
  sameModule := by
    intro l l' path path' q m m' hl hl' hq hq'
    exact same_module h hl hl' hq hq'
  afterLoads := by
    intro newer older p q htrace hload
    rw [htrace] at h
    exact loads_evaluated h hload
  served := by
    intro p stmts path hp hstmts hmem
    obtain ⟨older, hsuffix, -, -, hloads⟩ := h.admitted_of_mem hp
    obtain ⟨m, hm⟩ := hloads stmts path hstmts hmem
    exact ⟨m, hsuffix.subset hm⟩
  complete := by
    intro p q hp hreach
    have hq := reachable_evaluated h hp hreach
    exact ⟨count_eq_one (parsed_once h q) (parsed_of_evaluated h hq),
      count_eq_one (evaluated_once h q) hq⟩
  succeeded := hok

/-- Without a cycle the evaluation ends with the files for a bound, and is orderly. -/
theorem evaluateManifest_orderly (hacyclic : ¬ b.CycleReachable parse) (lib : Starlark W) (w : W)
    {fuel : Nat} (hfuel : room b [b.entry] < fuel) :
    ∃ r s, evaluateManifest b parse lib fuel w = some (r, s) ∧ Orderly b parse r s := by
  let s₁ := (LoadState.start w).record (.parsed b.entry)
  have hparsed : Lawful (Admits b parse) s₁.trace := .cons List.not_mem_nil .nil
  cases hread : b.disk.readToString b.entry with
  | error e =>
    exact ⟨.error (.bundle (.io b.entry)), LoadState.start w, by simp [evaluateManifest, hread],
      .of_lawful rfl .nil (by simp)⟩
  | ok source =>
    cases hparse : parse b.entry source with
    | error message =>
      exact ⟨.error (.syntaxError b.entry message), s₁, by
        simp [evaluateManifest, hread, hparse, s₁], .of_lawful rfl hparsed (by simp)⟩
    | ok stmts =>
      cases hbuild : lib.buildBuiltins with
      | error message =>
        exact ⟨.error (.eval ("failed to build @bosun/builtins module: " ++ message)), s₁, by
          simp [evaluateManifest, hread, hparse, hbuild, s₁], .of_lawful rfl hparsed (by simp)⟩
      | ok _ =>
        have hstmts := Bundle.statements_eq hread hparse
        have hstart : Sound b parse [b.entry] [] [.parsed b.entry] := by
          exact ⟨hparsed, by simp, by simp, by simp, by simp, by simp⟩
        obtain ⟨r, s₂, hrun, hends, hreceived⟩ := evalStmts_ends lib
          (load_serves lib hacyclic fuel [b.entry] List.mem_cons_self hfuel) b.entry stmts 0
          (s₁.push b.entry) rfl hstart (by
            intro path q hmem hresolve p hp
            obtain rfl := List.mem_singleton.mp hp
            exact .single ⟨stmts, path, hstmts, hmem, hresolve⟩)
        have hpop : s₂.currentModule.tail = [] := by rw [hends.stack]; rfl
        cases r with
        | error raw =>
          cases herrors : s₂.errors with
          | nil =>
            exact ⟨.error (classifyEvalError raw), s₂.pop, by
              simp [evaluateManifest, hread, hparse, hbuild, hrun, herrors, s₁],
              .of_lawful hpop hends.lawful (by simp)⟩
          | cons first others =>
            exact ⟨.error first, { s₂.pop with errors := [] }, by
              simp [evaluateManifest, hread, hparse, hbuild, hrun, herrors, s₁],
              .of_lawful hpop hends.lawful (by simp)⟩
        | ok _ =>
          have hstack₂ : s₂.currentModule = [b.entry] := hends.stack
          have hsound₂ : Sound b parse [b.entry] s₂.cache s₂.trace := hstack₂ ▸ hends.sound () rfl
          have hadmits : Admits b parse s₂.trace (.evaluated b.entry) := by
            apply hsound₂.admits_evaluated (hends.grown.subset List.mem_cons_self)
            intro stmts' path hstmts' hmem
            obtain rfl : stmts = stmts' := Option.some.inj (hstmts.symm.trans hstmts')
            exact hreceived rfl path hmem
          let s₃ := s₂.record (.evaluated b.entry)
          have hlawful₃ : Lawful (Admits b parse) s₃.trace := .cons hadmits hsound₂.lawful
          cases herrors : (s₂.record (.evaluated b.entry)).errors with
          | nil =>
            exact ⟨.ok (), s₃.pop, by
              simp [evaluateManifest, hread, hparse, hbuild, hrun, herrors, s₁, s₃],
              .of_lawful hpop hlawful₃ (fun _ => List.mem_cons_self)⟩
          | cons first others =>
            exact ⟨.error first, { s₃.pop with errors := [] }, by
              simp [evaluateManifest, hread, hparse, hbuild, hrun, herrors, s₁, s₃],
              .of_lawful hpop hlawful₃ (by simp)⟩

end Whole

end Bosun
