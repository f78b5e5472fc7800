import Bosun.AptInstall

/-!
# Removing a package

`dpkg-query` is asked first, and a package that is not there is left to itself.  Whatever the
query exits with other than 0 is taken for a package that dpkg does not know: 1 says that, any
other exit and a death by a signal say nothing.  `removal_kept_iff` says in which cases the
removal is skipped on no ground.
-/

namespace Bosun

/-- A definite answer: dpkg does not know the package, or it is not installed.  Its
    configuration may be there unless it is to be purged. -/
def SaysGone (purge : Bool) (result : CommandResult) : Prop :=
  result.exitCode = some 1 ∨
    result.exitCode = some 0 ∧ (trim result.stdout.toList = "not-installed".toList ∨
      purge = false ∧ trim result.stdout.toList = "config-files".toList)

/-- The removal is skipped on a definite answer, or where the query failed. -/
theorem needsAction_eq_false {purge : Bool} {result : CommandResult} :
    needsActionForState purge (statusOf result) = false ↔
      result.exitCode ≠ some 0 ∨ SaysGone purge result := by
  have hwords : "config-files".toList ≠ "not-installed".toList := by decide
  unfold statusOf SaysGone
  generalize "not-installed".toList = gone at hwords ⊢
  generalize "config-files".toList = conf at hwords ⊢
  by_cases hzero : result.exitCode = some 0
  · by_cases hgone : trim result.stdout.toList = gone
    · simp [hzero, hgone, needsActionForState]
    · by_cases hconf : trim result.stdout.toList = conf
      · simp [hzero, hconf, hwords, needsActionForState]
      · simp [hzero, hgone, hconf, needsActionForState]
  · simp [hzero, needsActionForState]

/-- An apply that is asked to remove a package. -/
structure AptRemoval {P : Type} (decode : P → Except String AptPackageSpec) where
  resource : Resource P
  spec : AptPackageSpec
  decodes : decode resource.payload = .ok spec
  purge : Bool
  state : spec.state = if purge then .purged else .absent
  diff : Diff P
  asked : diff ≠ .noChange

namespace AptRemoval

variable {P S : Type} {decode : P → Except String AptPackageSpec} (r : AptRemoval decode)
  {plat : Platform S} (env : AptEnv plat) (ctx : AptCtx) (world : S)

def applied : Except PrimitiveError ChangeReport × List AptCall :=
  env.applied ctx decode r.resource r.diff world

/-- The apply reports no change, and no `apt-get` was run. -/
def Skips : Prop :=
  (∃ report, (r.applied env ctx world).1 = .ok report ∧ report.changed = false) ∧
    ∀ c ∈ (r.applied env ctx world).2, c.cmd ≠ "apt-get"

/-- `dpkg-query` has said that the package is gone. -/
def Gone : Prop :=
  ∃ c ∈ (r.applied env ctx world).2, c.cmd = "dpkg-query" ∧
    ∃ result, c.answer = .ok result ∧ SaysGone r.purge result

/-- What `dpkg-query` will answer when it is asked. -/
def queried : Option CommandResult :=
  match env.enter ctx r.spec ⟨world, []⟩ with
  | .ok deadline s =>
    (env.runCommand "dpkg-query" (queryArgs r.spec) deadline s.world).1.toOption
  | .error _ _ => none

theorem runApply_eq : env.runApply ctx decode r.resource r.diff = (do
    let deadline ← env.enter ctx r.spec
    env.runRemove ctx r.spec deadline r.purge) := by
  have hspec : env.runApply ctx decode r.resource r.diff = env.runSpec ctx r.spec := by
    unfold AptEnv.runApply
    cases hdiff : r.diff with
    | noChange => exact absurd hdiff r.asked
    | add _ _ => simp [r.decodes]
    | update _ _ _ => simp [r.decodes]
  rw [hspec]
  unfold AptEnv.runSpec
  cases hpurge : r.purge with
  | true => simp [r.state, hpurge]
  | false => simp [r.state, hpurge]

/-- `apt-get` was run. -/
def RunsApt (calls : List AptCall) : Prop := ∃ c ∈ calls, c.cmd = "apt-get"

theorem triple_removeOrPurge (spec : AptPackageSpec) (deadline : Nat) (purge : Bool)
    (calls : List AptCall) :
    Triple (fun s : AptState S => s.calls = calls) (env.removeOrPurge ctx spec deadline purge)
      (fun _ s => RunsApt s.calls) (fun _ s => RunsApt s.calls) := by
  refine (env.triple_run "apt-get" _ deadline (P := (· = calls)) (Q := fun _ => RunsApt)
    (E := fun _ => RunsApt) ?_ ?_).bind fun result => ?_
  · exact fun calls result _ => ⟨_, List.mem_append_right _ (List.mem_singleton_self _), rfl⟩
  · exact fun calls e _ => ⟨_, List.mem_append_right _ (List.mem_singleton_self _), rfl⟩
  · split
    · exact (env.triple_logNonempty ctx _ _ RunsApt _).bind fun _ => Triple.ret fun _ h => h
    · exact (env.quiet_log ctx _ _).before (P := RunsApt) (fun _ => Triple.raise fun _ h => h)
        fun _ _ h => h

/-- What a removal does with the answer to its query. -/
theorem runRemove_eq (spec : AptPackageSpec) (deadline : Nat) (purge : Bool) {s : AptState S}
    {answer : Except PrimitiveError CommandResult} {asked : S}
    (hquery : env.runCommand "dpkg-query" (queryArgs spec) deadline s.world = (answer, asked)) :
    env.runRemove ctx spec deadline purge s =
      let t : AptState S :=
        ⟨asked, s.calls ++ [⟨"dpkg-query", queryArgs spec, deadline, answer⟩]⟩
      match answer with
      | .error e => .error e t
      | .ok result =>
        if needsActionForState purge (statusOf result) then
          env.removeOrPurge ctx spec deadline purge t
        else .ok .noChange t := by
  have hrun : env.run "dpkg-query" (queryArgs spec) deadline s = AptM.ofExcept answer
      ⟨asked, s.calls ++ [⟨"dpkg-query", queryArgs spec, deadline, answer⟩]⟩ := by
    simp [AptEnv.run, hquery]
  cases answer with
  | error e =>
    have hstatus : env.queryDpkgStatus spec deadline s = _ := AptM.bind_error hrun _
    exact AptM.bind_error hstatus _
  | ok result =>
    have hstatus : env.queryDpkgStatus spec deadline s = _ := AptM.bind_ok hrun _
    refine (AptM.bind_ok hstatus _).trans ?_
    cases hneeds : needsActionForState purge (statusOf result) with
    | false => simp [hneeds]; rfl
    | true => simp [hneeds]

/-- A removal ends in one of three ways. -/
theorem applied_cases :
    (r.queried env ctx world = none ∧ ∃ e, (r.applied env ctx world).1 = .error e) ∨
    (∃ result deadline, r.queried env ctx world = some result ∧
      needsActionForState r.purge (statusOf result) = false ∧
      r.applied env ctx world =
        (.ok .noChange, [⟨"dpkg-query", queryArgs r.spec, deadline, .ok result⟩])) ∨
    (∃ result, r.queried env ctx world = some result ∧
      needsActionForState r.purge (statusOf result) = true ∧
      RunsApt (r.applied env ctx world).2) := by
  have hquiet := env.quiet_enter ctx r.spec
  cases henter : env.enter ctx r.spec ⟨world, []⟩ with
  | error e s =>
    left
    have hend : env.runApply ctx decode r.resource r.diff ⟨world, []⟩ = .error e s := by
      rw [r.runApply_eq, AptM.bind_error henter]
    exact ⟨by simp [queried, henter], e, by simp [applied, AptEnv.applied, hend]⟩
  | ok deadline s =>
    have hcalls : s.calls = [] := hquiet.ok henter
    rcases hquery : env.runCommand "dpkg-query" (queryArgs r.spec) deadline s.world with
      ⟨answer, asked⟩
    have hqueried : r.queried env ctx world = answer.toOption := by simp [queried, henter, hquery]
    have hend : env.runApply ctx decode r.resource r.diff ⟨world, []⟩ =
        env.runRemove ctx r.spec deadline r.purge s := by
      rw [r.runApply_eq, AptM.bind_ok henter]
    rw [runRemove_eq env ctx r.spec deadline r.purge hquery, hcalls, List.nil_append] at hend
    rw [hqueried]
    cases answer with
    | error e => exact .inl ⟨rfl, e, by simp [applied, AptEnv.applied, hend]⟩
    | ok result =>
      right
      cases hneeds : needsActionForState r.purge (statusOf result) with
      | false =>
        exact .inl ⟨result, deadline, rfl, hneeds, by simp [applied, AptEnv.applied, hend, hneeds]⟩
      | true =>
        refine .inr ⟨result, rfl, hneeds, ?_⟩
        have hremove := triple_removeOrPurge env ctx r.spec deadline r.purge
          [⟨"dpkg-query", queryArgs r.spec, deadline, .ok result⟩]
        simp only [hneeds, if_true] at hend
        unfold applied AptEnv.applied
        cases hlast : env.removeOrPurge ctx r.spec deadline r.purge
            ⟨asked, [⟨"dpkg-query", queryArgs r.spec, deadline, .ok result⟩]⟩ with
        | ok report t =>
          rw [hend, hlast]
          exact hremove.ok rfl hlast
        | error e t =>
          rw [hend, hlast]
          exact hremove.error rfl hlast

/-- It fails, it is skipped, or `apt-get` is run; no change is reported without `apt-get`. -/
theorem applied_ends : (∃ e, (r.applied env ctx world).1 = .error e) ∨
    r.Skips env ctx world ∨ RunsApt (r.applied env ctx world).2 := by
  rcases r.applied_cases env ctx world with
    ⟨-, herr⟩ | ⟨result, deadline, -, -, hend⟩ | ⟨result, -, -, hapt⟩
  · exact .inl herr
  · refine .inr (.inl ?_)
    rw [Skips, hend]
    exact ⟨⟨.noChange, rfl, rfl⟩, by simp⟩
  · exact .inr (.inr hapt)

/-- **When a removal is skipped on good grounds.**  A removal fails, is skipped or runs `apt-get`,
    and one that is skipped only if `dpkg-query` gave a definite answer is one whose query, where
    it comes to an end, exits with 0 or 1. -/
theorem removal_kept_iff :
    ((∃ e, (r.applied env ctx world).1 = .error e) ∨ r.Skips env ctx world ∨
      RunsApt (r.applied env ctx world).2) ∧
    ((r.Skips env ctx world → r.Gone env ctx world) ↔
      ∀ result, r.queried env ctx world = some result →
        result.exitCode = some 0 ∨ result.exitCode = some 1) := by
  refine ⟨r.applied_ends env ctx world, ?_⟩
  unfold Skips Gone
  rcases r.applied_cases env ctx world with
    ⟨hnone, e, herr⟩ | ⟨result, deadline, hquery, hneeds, hend⟩ | ⟨result, hquery, hneeds, hapt⟩
  · simp [hnone, herr]
  · rw [needsAction_eq_false] at hneeds
    have hgone : SaysGone r.purge result → result.exitCode = some 0 ∨ result.exitCode = some 1 := by
      rintro (hone | ⟨hzero, -⟩)
      · exact .inr hone
      · exact .inl hzero
    simp only [hend, hquery]
    constructor
    · intro hkept result' hresult
      obtain rfl : result = result' := by simpa using hresult
      obtain ⟨c, hc, -, result', hanswer, hsays⟩ := hkept ⟨⟨.noChange, rfl, rfl⟩, by simp⟩
      obtain rfl := List.mem_singleton.mp hc
      obtain rfl : result = result' := by simpa using hanswer
      exact hgone hsays
    · intro hcode _
      refine ⟨_, List.mem_singleton_self _, rfl, result, rfl, ?_⟩
      rcases hneeds with hnonzero | hsays
      · exact .inl ((hcode result rfl).resolve_left hnonzero)
      · exact hsays
  · -- the removal goes on
    have hzero : result.exitCode = some 0 := by
      by_contra hnonzero
      have hskip := (@needsAction_eq_false r.purge result).mpr (.inl hnonzero)
      exact absurd hneeds (by simp [hskip])
    obtain ⟨c, hc, hcmd⟩ := hapt
    constructor
    · intro _ result' hresult
      obtain rfl : result = result' := by simpa [hquery] using hresult
      exact .inl hzero
    · exact fun _ hskips => absurd hcmd (hskips.2 c hc)

end AptRemoval

def nginxRemoval (purge : Bool) : AptRemoval (P := AptPackageSpec) .ok where
  resource := nginxPackage (if purge then .purged else .absent)
  spec := (nginxPackage (if purge then .purged else .absent)).payload
  decodes := rfl
  purge := purge
  state := by cases purge <;> rfl
  diff := .add "remove nginx" (nginxPackage .absent).payload
  asked := by simp

/-- The status database cannot be read, and the package stays where it is. -/
theorem unreadable_status_skipped :
    let env := AptEnv.scripted fun _ => ⟨some 2, "", "dpkg-query: error: parsing file"⟩
    let ctx : AptCtx := ⟨1000, "/var/log/bosun", "/var/lib/dpkg/lock-frontend"⟩
    (nginxRemoval false).Skips env ctx 0 ∧ ¬ (nginxRemoval false).Gone env ctx 0 := by
  intro env ctx
  have hasked : (nginxRemoval false).queried env ctx 0 =
      some ⟨some 2, "", "dpkg-query: error: parsing file"⟩ := rfl
  unfold AptRemoval.Skips AptRemoval.Gone
  rcases (nginxRemoval false).applied_cases env ctx 0 with
    ⟨hnone, -⟩ | ⟨result, deadline, hquery, -, hend⟩ | ⟨result, hquery, hneeds, -⟩
  · exact absurd hnone (by simp [hasked])
  · obtain rfl : _ = result := Option.some.inj (hasked.symm.trans hquery)
    rw [hend]
    refine ⟨⟨⟨.noChange, rfl, rfl⟩, by simp⟩, ?_⟩
    rintro ⟨c, hc, -, result, hanswer, hsays⟩
    obtain rfl := List.mem_singleton.mp hc
    obtain rfl : _ = result := by simpa using hanswer
    simp [SaysGone] at hsays
  · obtain rfl : _ = result := Option.some.inj (hasked.symm.trans hquery)
    exact absurd hneeds (by simp [statusOf, needsActionForState])

end Bosun
