import Bosun.ModuleGraph

/-!
# Load cycles are not reported

`classify_eval_error` makes a `LoadCycle` out of a message with the words "Cyclic load".
No code of the repository writes such a message: when no statement fails by itself, every
failure is one that the loader has recorded, and those are errors of the bundle, of the
syntax or of an evaluation.
-/

namespace Bosun

open Relation

variable (b : Bundle) (parse : Parser)

/-- Statements that do nothing besides loading. -/
def quiet : Starlark Unit where
  exec := fun _ _ w => ⟨.ok (), [], w⟩
  bindSymbols := fun _ _ _ w => ⟨.ok (), [], w⟩
  report := fun _ _ message => message
  freeze := fun _ _ => .ok ()
  buildBuiltins := .ok ()

def NoCycleError (s : LoadState Unit) : Prop :=
  ∀ e ∈ s.errors, ∀ message, e ≠ .loadCycle message

/-- A call that is not about cycles: it records no such error, and it fails only with an error
    recorded. -/
def Plainly {ε α : Type} (s : LoadState Unit) (x : LoadM Unit ε α) : Prop :=
  NoCycleError s → ∀ r s', x = some (r, s') →
    NoCycleError s' ∧ ∀ e, r = .error e → s'.errors ≠ []

theorem evalStmts_plainly {inner : String → LoadState Unit → LoadM Unit String FrozenModule}
    (hinner : ∀ path s, Plainly s (inner path s)) (file : String) (stmts : List Stmt) :
    ∀ i s, Plainly s (evalStmts quiet inner file i stmts s) := by
  induction stmts with
  | nil =>
    intro i s hs r s' hrun
    cases hrun
    exact ⟨hs, by simp⟩
  | cons stmt rest ih =>
    intro i s hs r s' hrun
    cases stmt with
    | other =>
      have hsame : NoCycleError (s.absorb (quiet.exec file i s.world)) := by
        intro e he
        exact hs e (by simpa [LoadState.absorb, quiet] using he)
      exact ih (i + 1) _ hsame r s' hrun
    | load path =>
      simp only [evalStmts] at hrun
      cases hload : inner path s with
      | none => simp [hload] at hrun
      | some y =>
        obtain ⟨r₁, s₁⟩ := y
        obtain ⟨hs₁, hfailed⟩ := hinner path s hs r₁ s₁ hload
        rw [hload] at hrun
        cases r₁ with
        | error message =>
          cases hrun
          exact ⟨hs₁, fun _ _ => hfailed message rfl⟩
        | ok m =>
          have hsame : NoCycleError ((s₁.record (.received file path m)).absorb
              (quiet.bindSymbols file i m s₁.world)) := by
            intro e he
            exact hs₁ e (by simpa [LoadState.absorb, LoadState.record, quiet] using he)
          exact ih (i + 1) _ hsame r s' hrun

theorem parseAndEval_plainly {inner : String → LoadState Unit → LoadM Unit String FrozenModule}
    (hinner : ∀ path s, Plainly s (inner path s)) (file : String) {s s' : LoadState Unit}
    (hs : NoCycleError s) {r : Except StarlarkGlueError FrozenModule}
    (hrun : parseAndEval b parse quiet inner file s = some (r, s')) :
    NoCycleError s' ∧ ∀ e, r = .error e → ∀ message, e ≠ .loadCycle message := by
  unfold parseAndEval at hrun
  cases hread : b.disk.readToString file with
  | error _ =>
    rw [hread] at hrun
    cases hrun
    exact ⟨hs, by rintro e ⟨⟩; simp⟩
  | ok source =>
    simp only [hread] at hrun
    cases hparse : parse file source with
    | error message =>
      simp only [hparse] at hrun
      cases hrun
      exact ⟨hs, by rintro e ⟨⟩; simp⟩
    | ok stmts =>
      simp only [hparse] at hrun
      cases heval : evalStmts quiet inner file 0 stmts (s.record (.parsed file)) with
      | none => simp [heval] at hrun
      | some y =>
        obtain ⟨r₁, s₁⟩ := y
        obtain ⟨hs₁, -⟩ := evalStmts_plainly hinner file stmts 0 (s.record (.parsed file)) hs
          r₁ s₁ heval
        rw [heval] at hrun
        cases r₁ with
        | error message =>
          cases hrun
          exact ⟨hs₁, by rintro e ⟨⟩; simp⟩
        | ok _ =>
          cases hrun
          exact ⟨hs₁, by simp⟩

theorem loadWith_plainly {inner : String → LoadState Unit → LoadM Unit String FrozenModule}
    (hinner : ∀ path s, Plainly s (inner path s)) (path : String) (s : LoadState Unit) :
    Plainly s (loadWith b parse quiet inner path s) := by
  intro hs r s' hrun
  have hpush : ∀ (s₁ : LoadState Unit) e, NoCycleError s₁ → (∀ message, e ≠ .loadCycle message) →
      NoCycleError (s₁.pushError e) := by
    intro s₁ e hs₁ he e' he'
    rcases List.mem_append.mp he' with he' | he'
    · exact hs₁ e' he'
    · exact List.mem_singleton.mp he' ▸ he
  have hloader : ∀ r₁ s₁, loadRoleOrLib b parse quiet inner path s = some (r₁, s₁) →
      NoCycleError s₁ ∧ ∀ e, r₁ = .error e → ∀ message, e ≠ .loadCycle message := by
    intro r₁ s₁ hload
    unfold loadRoleOrLib at hload
    cases hresolve : b.resolveModule path with
    | error e =>
      rw [hresolve] at hload
      cases hload
      exact ⟨hs, by rintro e ⟨⟩; simp⟩
    | ok q =>
      simp only [hresolve] at hload
      cases hcache : s.cache.lookup q with
      | some m =>
        rw [hcache] at hload
        cases hload
        exact ⟨hs, by simp⟩
      | none =>
        simp only [hcache] at hload
        cases heval : parseAndEval b parse quiet inner q (s.push q) with
        | none => simp [heval] at hload
        | some y =>
          obtain ⟨r₂, s₂⟩ := y
          have hplain := parseAndEval_plainly b parse hinner q (s := s.push q) hs heval
          rw [heval] at hload
          cases r₂ <;> cases hload
          · exact hplain
          · exact ⟨hplain.1, by simp⟩
  unfold loadWith at hrun
  split at hrun
  · cases hrun
    exact ⟨hs, by simp⟩
  · split at hrun
    · cases hload : loadRoleOrLib b parse quiet inner path s with
      | none => simp [hload] at hrun
      | some y =>
        obtain ⟨r₁, s₁⟩ := y
        obtain ⟨hs₁, hno⟩ := hloader r₁ s₁ hload
        rw [hload] at hrun
        cases r₁ with
        | error e =>
          cases hrun
          exact ⟨hpush s₁ e hs₁ (hno e rfl), by simp [LoadState.pushError]⟩
        | ok m =>
          cases hrun
          exact ⟨hs₁, by simp⟩
    · cases hrun
      exact ⟨hpush s _ hs (by simp), by simp [LoadState.pushError]⟩

theorem load_plainly (fuel : Nat) : ∀ path s, Plainly s (load b parse quiet fuel path s) := by
  induction fuel with
  | zero =>
    intro path s _ r s' hrun
    cases hrun
  | succ fuel ih =>
    intro path s
    exact loadWith_plainly b parse ih path s

/-- With quiet statements no evaluation ends with a `LoadCycle`. -/
theorem evaluateManifest_quiet (fuel : Nat) {r : Except StarlarkGlueError Unit}
    {s : LoadState Unit} (hrun : evaluateManifest b parse quiet fuel () = some (r, s))
    (message : String) : r ≠ .error (.loadCycle message) := by
  unfold evaluateManifest at hrun
  cases hread : b.disk.readToString b.entry with
  | error _ =>
    rw [hread] at hrun
    cases hrun
    simp
  | ok source =>
    simp only [hread] at hrun
    cases hparse : parse b.entry source with
    | error text =>
      rw [hparse] at hrun
      cases hrun
      simp
    | ok stmts =>
      simp only [hparse, quiet] at hrun
      have hstart :
          NoCycleError (((LoadState.start ()).record (.parsed b.entry)).push b.entry) := by
        intro e he
        cases he
      have hplain := evalStmts_plainly (load_plainly b parse fuel) b.entry stmts 0 _ hstart
      split at hrun
      · cases hrun
      · rename_i raw s₁ heval
        obtain ⟨hs₁, hfailed⟩ := hplain _ s₁ heval
        split at hrun
        · rename_i first others herrors
          cases hrun
          intro heq
          exact hs₁ first (by simp [herrors]) message (Except.error.inj heq)
        · rename_i herrors
          exact absurd herrors (hfailed raw rfl)
      · rename_i s₁ heval
        obtain ⟨hs₁, -⟩ := hplain _ s₁ heval
        split at hrun
        · rename_i first others herrors
          cases hrun
          intro heq
          exact hs₁ first (by simpa [LoadState.record] using herrors ▸ List.mem_cons_self) message
            (Except.error.inj heq)
        · cases hrun
          simp

/-- **Loading is right where no cycle can be reached, and only there.** -/
theorem loadsWell_iff (b : Bundle) (parse : Parser) :
    LoadsWell b parse ↔ ¬ b.CycleReachable parse := by
  constructor
  · intro hwell hcycle
    obtain ⟨r, s, ⟨bound, hrun⟩, hreported, -⟩ := hwell Unit quiet ()
    obtain ⟨message, hr⟩ := hreported hcycle
    exact evaluateManifest_quiet b parse bound (hrun bound le_rfl) message hr
  · intro hacyclic W lib w
    obtain ⟨r, s, hrun, horderly⟩ :=
      evaluateManifest_orderly hacyclic lib w (Nat.lt_succ_self (room b [b.entry]))
    refine ⟨r, s, ⟨_, fun fuel hfuel => evaluateManifest_mono hfuel hrun⟩, ?_, fun _ => horderly⟩
    intro hcycle
    exact absurd hcycle hacyclic

/-! ## A library that loads itself -/

def selfLoadingFiles : List String := ["/b", "/b/main.star", "/b/_lib/a/main.star"]

def selfLoadingDisk : Disk where
  canonicalize := fun path => if path ∈ selfLoadingFiles then .ok path else .error .notFound
  isSymlink := fun _ => .ok false
  readToString := fun _ => .ok "load(\"@lib/a\", \"x\")"

/-- `main.star` and `_lib/a/main.star`, below `/b`. -/
def selfLoading : Bundle where
  root := "/b"
  entry := "/b/main.star"
  disk := selfLoadingDisk
  files := selfLoadingFiles
  root_canonical := by decide
  entry_resolved := ⟨"main.star", by decide⟩
  files_complete := by
    intro candidate file h _
    by_cases hmem : candidate ∈ selfLoadingFiles
    · simp only [selfLoadingDisk, if_pos hmem, Except.ok.injEq] at h
      exact h ▸ hmem
    · simp [selfLoadingDisk, if_neg hmem] at h

/-- Both files consist of that one statement. -/
def parseSelfLoading : Parser := fun _ _ => .ok [.load "@lib/a"]

theorem selfLoading_reads (file : String) :
    selfLoading.disk.readToString file = .ok "load(\"@lib/a\", \"x\")" := rfl

theorem selfLoading_parses (file source : String) :
    parseSelfLoading file source = .ok [.load "@lib/a"] := rfl

theorem load_selfLoading (fuel : Nat) : ∀ s : LoadState Unit,
    s.cache.lookup "/b/_lib/a/main.star" = none →
    load selfLoading parseSelfLoading quiet fuel "@lib/a" s = none := by
  have hresolve : selfLoading.resolveModule "@lib/a" = .ok "/b/_lib/a/main.star" := by decide
  have hlead : ((stripPrefix "@lib/a" "@roles/").isSome ||
    (stripPrefix "@lib/a" "@lib/").isSome) = true := by decide
  induction fuel with
  | zero =>
    intro s _
    rfl
  | succ fuel ih =>
    intro s hcache
    -- the file is on the stack, and not in the cache
    have hinner := ih ((s.push "/b/_lib/a/main.star").record (.parsed "/b/_lib/a/main.star")) hcache
    have heval : parseAndEval selfLoading parseSelfLoading quiet
        (load selfLoading parseSelfLoading quiet fuel) "/b/_lib/a/main.star"
        (s.push "/b/_lib/a/main.star") = none := by
      simp only [parseAndEval, selfLoading_reads, selfLoading_parses, evalStmts, hinner]
    simp [load, loadWith, hlead, loadRoleOrLib, hresolve, hcache, heval]

/-- The library is started again and again, and nothing is reported. -/
theorem selfLoading_never_reported :
    (∀ fuel, evaluateManifest selfLoading parseSelfLoading quiet fuel () = none) ∧
    ¬ LoadsWell selfLoading parseSelfLoading := by
  have hnone : ∀ fuel, evaluateManifest selfLoading parseSelfLoading quiet fuel () = none := by
    intro fuel
    have hload := load_selfLoading fuel
      (((LoadState.start ()).record (.parsed selfLoading.entry)).push selfLoading.entry) rfl
    have hbuild : quiet.buildBuiltins = .ok () := rfl
    simp only [evaluateManifest, selfLoading_reads, selfLoading_parses, hbuild, evalStmts, hload]
  refine ⟨hnone, ?_⟩
  intro hwell
  obtain ⟨r, s, ⟨bound, hrun⟩, -⟩ := hwell Unit quiet ()
  have := hrun bound le_rfl
  rw [hnone bound] at this
  cases this

end Bosun
