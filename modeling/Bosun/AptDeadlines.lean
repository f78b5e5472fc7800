import Bosun.AptUpdate

/-!
# Commands that are given up

`RealCommandRunner` gives a command up when the token has fired and when the deadline it was
given is over, and in both cases answers `Cancelled`.  The commands of `apt.package` are given
the deadline of the resource (`timeout_sec`), that of `dpkg --configure -a` or that of one
`apt-get update`, if these come before the deadline of the run; the loop over the updates answers
`Cancelled` as well when there is no time for the next one.

`runApply_explained` says what an apply that answers `Cancelled` has met with: a command that was
given up, an update that was due, or a look at token and deadline of the run.
-/

namespace Bosun

/-! ## The record of an apply that was cut short -/

def AptCall.isUpdate (c : AptCall) : Bool := c.cmd = "apt-get" && c.args = UPDATE_ARGS

theorem AptCall.isUpdate_iff {c : AptCall} :
    c.isUpdate = true ↔ RecoveryCall .candidateMissing c := by
  rw [isUpdate, Bool.and_eq_true, decide_eq_true_iff, decide_eq_true_iff]
  rfl

/-- The last command was given up. -/
def GivenUp (calls : List AptCall) : Prop :=
  ∃ c, calls.getLast? = some c ∧ c.answer = .error .cancelled

/-- The last command was an update that should have been followed by another one. -/
def UpdateDue (calls : List AptCall) : Prop :=
  ∃ c, calls.getLast? = some c ∧ c.isUpdate = true ∧ c.Retriable ∧
    calls.countP AptCall.isUpdate < AptUpdatePolicy.default.maxAttempts

def CutShort (calls : List AptCall) : Prop := GivenUp calls ∨ UpdateDue calls

theorem not_cutShort_nil : ¬ CutShort [] := by
  rintro (⟨c, hc, -⟩ | ⟨c, hc, -⟩) <;> cases hc

theorem cutShort_concat_error {calls : List AptCall} {c : AptCall} {e : PrimitiveError}
    (hanswer : c.answer = .error e) : CutShort (calls ++ [c]) ↔ e = .cancelled := by
  constructor
  · rintro (⟨d, hd, hgiven⟩ | ⟨d, hd, -, hretriable, -⟩) <;> rw [List.getLast?_concat] at hd <;>
      obtain rfl := Option.some.inj hd
    · exact Except.error.inj (hanswer.symm.trans hgiven)
    · exact absurd hanswer (hretriable.not_error e)
  · rintro rfl
    exact .inl ⟨c, List.getLast?_concat, hanswer⟩

/-- A command with a result has not been given up, and only updates are due again. -/
theorem not_cutShort_concat_ok {calls : List AptCall} {c : AptCall} {result : CommandResult}
    (hanswer : c.answer = .ok result) (hother : c.isUpdate = false) :
    ¬ CutShort (calls ++ [c]) := by
  rintro (⟨d, hd, hgiven⟩ | ⟨d, hd, hupdate, -⟩) <;> rw [List.getLast?_concat] at hd <;>
    obtain rfl := Option.some.inj hd
  · cases hanswer.symm.trans hgiven
  · cases hother.symm.trans hupdate

section Explained

variable {S : Type} {plat : Platform S} {deadline : Nat}

/-- What an error says of the commands: it is `Cancelled` when they were cut short, and then
    only, unless the run was to stop. -/
structure Explained (plat : Platform S) (deadline : Nat) (e : PrimitiveError) (s : AptState S) :
    Prop where
  of_cutShort : CutShort s.calls → e = .cancelled
  cutShort : e = .cancelled → CutShort s.calls ∨ plat.Interrupted deadline s.world

def Uncut (s : AptState S) : Prop := ¬ CutShort s.calls

theorem Uncut.explained {s : AptState S} (h : Uncut s) {e : PrimitiveError} (he : e ≠ .cancelled) :
    Explained plat deadline e s := ⟨fun hcut => absurd hcut h, fun hc => absurd hc he⟩

/-! ## Commands and checks -/

namespace AptEnv

variable (env : AptEnv plat) (ctx : AptCtx)

/-- No update has been run, and nothing was cut short. -/
def BeforeUpdates (calls : List AptCall) : Prop :=
  ¬ CutShort calls ∧ calls.countP AptCall.isUpdate = 0

theorem triple_command (deadline : Nat) (cmd : String) (args : List String) (ownDeadline : Nat)
    (hother : ∀ answer, (⟨cmd, args, ownDeadline, answer⟩ : AptCall).isUpdate = false) :
    Triple (fun _ => True) (env.run cmd args ownDeadline) (fun _ => Uncut)
      (Explained plat deadline) := by
  intro s _
  unfold run
  rcases env.runCommand cmd args ownDeadline s.world with ⟨answer, world⟩
  cases answer with
  | ok result => exact not_cutShort_concat_ok rfl (hother _)
  | error e =>
    have hcut : CutShort (s.calls ++ [⟨cmd, args, ownDeadline, .error e⟩]) ↔ e = .cancelled :=
      cutShort_concat_error rfl
    exact ⟨hcut.mp, fun he => .inl (hcut.mpr he)⟩

/-- A first command with a result leaves no update behind. -/
theorem triple_firstCommand (deadline : Nat) (cmd : String) (args : List String)
    (ownDeadline : Nat)
    (hother : ∀ answer, (⟨cmd, args, ownDeadline, answer⟩ : AptCall).isUpdate = false) :
    Triple (fun s => s.calls = []) (env.run cmd args ownDeadline)
      (fun _ s => BeforeUpdates s.calls) (Explained plat deadline) := by
  intro s hs
  have hrun := env.triple_command deadline cmd args ownDeadline hother s trivial
  unfold run at hrun ⊢
  rcases hanswer : env.runCommand cmd args ownDeadline s.world with ⟨answer, world⟩
  rw [hanswer] at hrun
  cases answer with
  | error e => exact hrun
  | ok result =>
    refine ⟨hrun, ?_⟩
    rw [hs]
    simp [hother]

theorem triple_checkCancelOrDeadline {P : List AptCall → Prop}
    (hP : ∀ calls, P calls → ¬ CutShort calls) :
    Triple (fun s => P s.calls) (env.checkCancelOrDeadline ctx) (fun _ s => P s.calls)
      (Explained plat ctx.deadline) := by
  refine Triple.bind (Q := fun stop s => P s.calls ∧
    (stop = true → plat.Interrupted ctx.deadline s.world)) ?_ fun stop => ?_
  · intro s hs
    exact ⟨hs, fun hstop => plat.interrupted_of_cancelledOrPastDeadline hstop⟩
  · cases stop with
    | true =>
      exact Triple.raise fun s hs => ⟨fun hcut => absurd hcut (hP _ hs.1), fun _ => .inr (hs.2 rfl)⟩
    | false => exact Triple.ret fun s hs => hs.1

theorem triple_probeDpkgLock {P : List AptCall → Prop} (hP : ∀ calls, P calls → ¬ CutShort calls) :
    Triple (fun s => P s.calls) (env.probeDpkgLock ctx) (fun _ s => P s.calls)
      (Explained plat deadline) := by
  have hother : ∀ (e : PrimitiveError), e ≠ .cancelled → ∀ s : AptState S, P s.calls →
      Explained plat deadline e s := fun e he s hs => Uncut.explained (hP _ hs) he
  refine Triple.bind (Q := fun _ (s : AptState S) => P s.calls) (fun _ hs => hs) fun opened => ?_
  cases opened with
  | error e => exact Triple.raise (hother _ nofun)
  | ok _ =>
    refine Triple.bind (Q := fun _ (s : AptState S) => P s.calls) (fun _ hs => hs) fun lock => ?_
    match lock with
    | .error e => exact Triple.raise (hother _ nofun)
    | .ok .unlocked => exact Triple.ret fun _ hs => hs
    | .ok (.locked pid) => exact Triple.raise (hother _ nofun)

/-! ## Recoveries -/

theorem triple_runDpkgConfigureA (ownDeadline : Nat) :
    Triple (fun s => BeforeUpdates s.calls) (env.runDpkgConfigureA ownDeadline) (fun _ => Uncut)
      (Explained plat deadline) := by
  refine Triple.bind (Q := fun _ _ => True) (fun _ _ => trivial) fun now => ?_
  refine (env.triple_command _ "dpkg" ["--configure", "-a"] _ fun _ => rfl).bind fun result => ?_
  split
  · exact Triple.ret fun _ hs => hs
  · exact Triple.raise fun _ hs => hs.explained nofun

/-- The loop over the updates is explained by its last call. -/
theorem UpdateEnded.explained {before : List AptCall} {answer : Except PrimitiveError Unit}
    {s : AptState S} {ownDeadline : Nat}
    (h : UpdateEnded plat ownDeadline .default before answer s) (hbefore : BeforeUpdates before) :
    (CutShort s.calls → answer = .error .cancelled) ∧
      (answer = .error .cancelled → CutShort s.calls) := by
  obtain ⟨updates, hcalls, hsound, hlast⟩ := h
  have hcount : s.calls.countP AptCall.isUpdate = updates.length := by
    rw [hcalls, List.countP_append, hbefore.2, Nat.zero_add, List.countP_eq_length]
    exact fun c hc => AptCall.isUpdate_iff.mpr (hsound.own c hc)
  rcases List.eq_nil_or_concat updates with rfl | ⟨earlier, c, rfl⟩
  · obtain ⟨-, hanswer⟩ := hsound.uncalled rfl
    rw [hcalls, List.append_nil, hanswer]
    exact ⟨fun hcut => absurd hcut hbefore.1, nofun⟩
  · rw [List.concat_eq_append] at hcalls hsound hlast hcount
    have hmem : c ∈ earlier ++ [c] := List.mem_append_right _ (List.mem_singleton_self c)
    have hend : s.calls.getLast? = some c := by
      rw [hcalls, ← List.append_assoc, List.getLast?_concat]
    have hupdate : c.isUpdate = true := AptCall.isUpdate_iff.mpr (hsound.own c hmem)
    constructor
    · rintro (⟨d, hd, hgiven⟩ | ⟨d, hd, -, ⟨result, hresult, hne, hclass⟩, hroom⟩) <;>
        obtain rfl := Option.some.inj (hend.symm.trans hd)
      · exact hsound.runnerError c hmem _ hgiven
      · have hreport := hlast c result List.getLast?_concat hresult hne
        rw [hcount] at hroom
        rw [if_pos ⟨hclass, hroom⟩] at hreport
        exact hreport.1
    · rintro hcancelled
      cases hanswer : c.answer with
      | error e =>
        have he := hsound.runnerError c hmem e hanswer
        rw [hcancelled] at he
        exact .inl ⟨c, hend, by rw [hanswer, ← Except.error.inj he]⟩
      | ok result =>
        by_cases hzero : result.exitCode = some 0
        · have hdone := hsound.ok_iff.mpr
            ⟨c, List.getLast?_concat, result, hanswer, hzero⟩
          cases hcancelled.symm.trans hdone
        · have hreport := hlast c result List.getLast?_concat hanswer hzero
          split at hreport
          · next hdue =>
            refine .inr ⟨c, hend, hupdate, ⟨result, hanswer, hzero, hdue.1⟩, ?_⟩
            rw [hcount]
            exact hdue.2
          · cases hcancelled.symm.trans hreport

theorem triple_runAptUpdateWithRetries (ownDeadline : Nat) :
    Triple (fun s => BeforeUpdates s.calls) (env.runAptUpdateWithRetries ownDeadline)
      (fun _ => Uncut) (Explained plat deadline) := by
  intro s hs
  have hended := env.runAptUpdateWithPolicy_ended ownDeadline .default s
  unfold runAptUpdateWithRetries
  unfold AptM.outcome at hended
  cases hrun : env.runAptUpdateWithPolicy ownDeadline .default s with
  | ok a s' =>
    rw [hrun] at hended
    exact fun hcut => nomatch (UpdateEnded.explained hended hs).1 hcut
  | error e s' =>
    rw [hrun] at hended
    have hboth := UpdateEnded.explained hended hs
    exact ⟨fun hcut => Except.error.inj (hboth.1 hcut),
      fun he => .inl (hboth.2 (congrArg Except.error he))⟩

/-- The log of a recovery that failed changes nothing of this. -/
theorem triple_orElse_explained {P : AptState S → Prop} {step : String} {x : AptM S Unit}
    (hx : Triple P x (fun _ => Uncut) (Explained plat deadline)) :
    Triple P (x.orElse fun
      | .exec _ _ excerpt => env.log ctx step excerpt
      | _ => pure ()) (fun _ => Uncut) (Explained plat deadline) := by
  intro s hs
  have hxs := hx s hs
  unfold AptM.orElse
  cases hrun : x s with
  | ok a s' =>
    rw [hrun] at hxs
    exact hxs
  | error e s' =>
    rw [hrun] at hxs
    cases e with
    | exec _ _ excerpt => exact ⟨hxs.of_cutShort, nofun⟩
    | _ => exact hxs

/-! ## The apply -/

theorem isUpdate_install (spec : AptPackageSpec) (ownDeadline : Nat)
    (answer : Except PrimitiveError CommandResult) :
    (⟨"apt-get", installArgs spec, ownDeadline, answer⟩ : AptCall).isUpdate = false := by
  simp [AptCall.isUpdate, installArgs, UPDATE_ARGS]

theorem isUpdate_remove (spec : AptPackageSpec) (purge : Bool) (ownDeadline : Nat)
    (answer : Except PrimitiveError CommandResult) :
    (⟨"apt-get", removeArgs spec purge, ownDeadline, answer⟩ : AptCall).isUpdate = false := by
  cases purge <;> simp [AptCall.isUpdate, removeArgs, actionWord, UPDATE_ARGS]

theorem triple_log_uncut (step stderr : String) {P : List AptCall → Prop}
    {E : PrimitiveError → AptState S → Prop} :
    Triple (fun s => P s.calls) (env.log ctx step stderr) (fun _ s => P s.calls) E :=
  fun _ hs => hs

/-- A log, and then an error of the command itself. -/
theorem triple_fail (step stderr : String) {α : Type} {e : PrimitiveError}
    (he : e ≠ .cancelled) : Triple Uncut (do env.log ctx step stderr; throw e : AptM S α)
      (fun _ => Uncut) (Explained plat deadline) :=
  (env.triple_log_uncut ctx step stderr (P := fun calls => ¬ CutShort calls)).bind fun _ =>
    Triple.raise fun _ hs => Uncut.explained hs he

theorem triple_done (step stderr : String) {α : Type} (a : α) :
    Triple Uncut (do env.logNonempty ctx step stderr; return a : AptM S α)
      (fun _ => Uncut) (Explained plat deadline) :=
  (env.triple_logNonempty ctx step stderr (fun calls => ¬ CutShort calls) _).bind fun _ =>
    Triple.ret fun _ hs => hs

theorem triple_recoverThenRetry_explained (spec : AptPackageSpec) (ownDeadline : Nat)
    (step name : String) {x : AptM S Unit} (first : CommandResult)
    (hx : Triple (fun s => BeforeUpdates s.calls) x (fun _ => Uncut)
      (Explained plat ctx.deadline)) :
    Triple (fun s => BeforeUpdates s.calls)
      (env.recoverThenRetry ctx spec ownDeadline step name x first) (fun _ => Uncut)
      (Explained plat ctx.deadline) := by
  refine (env.triple_log_uncut ctx _ _).bind fun _ => ?_
  refine (env.triple_checkCancelOrDeadline ctx fun _ h => h.1).bind fun _ => ?_
  refine (env.triple_orElse_explained ctx hx).bind fun _ => ?_
  refine (env.triple_checkCancelOrDeadline ctx (P := fun calls => ¬ CutShort calls)
    fun _ h => h).bind fun _ => ?_
  refine ((env.triple_command _ _ _ _ (isUpdate_install spec ownDeadline)).conseq
    (fun _ _ => trivial) (fun _ _ h => h) (fun _ _ h => h)).bind fun retry => ?_
  split
  · exact env.triple_done ctx _ _ _
  · exact env.triple_fail ctx _ _ nofun

theorem triple_runInstall_explained (spec : AptPackageSpec) (ownDeadline : Nat) :
    Triple (fun s => s.calls = []) (env.runInstall ctx spec ownDeadline) (fun _ => Uncut)
      (Explained plat ctx.deadline) := by
  refine (env.triple_firstCommand _ "apt-get" (installArgs spec) ownDeadline
    (isUpdate_install spec ownDeadline)).bind fun result => ?_
  have huncut : ∀ s : AptState S, BeforeUpdates s.calls → Uncut s := fun _ h => h.1
  cases analyzeInstallResult result with
  | success => exact (env.triple_done ctx _ _ _).conseq huncut (fun _ _ h => h) (fun _ _ h => h)
  | dpkgInterrupted =>
    exact env.triple_recoverThenRetry_explained ctx spec ownDeadline _ _ result
      (env.triple_runDpkgConfigureA ownDeadline)
  | candidateMissing =>
    exact env.triple_recoverThenRetry_explained ctx spec ownDeadline _ _ result
      (env.triple_runAptUpdateWithRetries ownDeadline)
  | otherFailure =>
    refine Triple.conseq (env.triple_fail ctx _ _ ?_) huncut (fun _ _ h => h) (fun _ _ h => h)
    nofun

theorem triple_runRemove_explained (spec : AptPackageSpec) (ownDeadline : Nat) (purge : Bool) :
    Triple (fun s => s.calls = []) (env.runRemove ctx spec ownDeadline purge) (fun _ => Uncut)
      (Explained plat ctx.deadline) := by
  refine Triple.bind (Q := fun _ => Uncut) ?_ fun status => ?_
  · refine Triple.bind (Q := fun _ => Uncut) ?_ fun result => Triple.ret fun _ h => h
    exact (env.triple_command _ _ _ _ fun _ => rfl).conseq (fun _ _ => trivial) (fun _ _ h => h)
      (fun _ _ h => h)
  · split
    · exact Triple.ret fun _ h => h
    · refine ((env.triple_command _ _ _ _ (isUpdate_remove spec purge ownDeadline)).conseq
        (fun _ _ => trivial) (fun _ _ h => h) (fun _ _ h => h)).bind fun result => ?_
      split
      · exact env.triple_done ctx _ _ _
      · exact env.triple_fail ctx _ _ nofun

/-- **An apply that answers `Cancelled`** was cut short, or found that the run was to stop; and
    one that was cut short answers nothing else. -/
theorem runApply_explained {P : Type} (decode : P → Except String AptPackageSpec)
    (resource : Resource P) (diff : Diff P) :
    Triple (fun s => s.calls = []) (env.runApply ctx decode resource diff) (fun _ => Uncut)
      (Explained plat ctx.deadline) := by
  have hstart : ∀ calls : List AptCall, calls = [] → ¬ CutShort calls := by
    rintro _ rfl
    exact not_cutShort_nil
  have hspec : ∀ spec, Triple (fun s => s.calls = []) (env.runSpec ctx spec) (fun _ => Uncut)
      (Explained plat ctx.deadline) := by
    intro spec
    refine Triple.bind (Q := fun _ s => s.calls = []) ?_ fun ownDeadline => ?_
    · refine (env.triple_checkCancelOrDeadline ctx (P := (· = [])) hstart).bind fun _ => ?_
      refine (env.triple_probeDpkgLock ctx (P := (· = [])) hstart).bind fun _ => ?_
      exact Triple.bind (Q := fun _ (s : AptState S) => s.calls = []) (fun _ hs => hs)
        fun _ => Triple.ret fun _ hs => hs
    · cases spec.state with
      | present => exact env.triple_runInstall_explained ctx spec ownDeadline
      | absent => exact env.triple_runRemove_explained ctx spec ownDeadline false
      | purged => exact env.triple_runRemove_explained ctx spec ownDeadline true
  unfold runApply
  split
  · exact Triple.ret fun s hs => hstart _ hs
  all_goals
    split
    · refine Triple.raise fun s hs => Uncut.explained (hstart _ hs) fun heq => ?_
      cases heq
    · exact hspec _

end AptEnv

end Explained

/-! ## The runner -/

theorem Platform.endsAt_cancelledOrPastDeadline {S : Type} (plat : Platform S) (deadline : Nat) :
    Processes.EndsAt plat deadline (plat.cancelledOrPastDeadline deadline) where
  clock_le := plat.clock_le_tick
  ends s hover := by
    have hstill := hover.trans (plat.clock_le_tick s)
    simp [Platform.cancelledOrPastDeadline, hstill]

/-- A command is given up only when the token has fired or its own deadline is over. -/
theorem Processes.interrupted_of_runCommand {S : Type} {plat : Platform S}
    (procs : Processes plat) {cmd : String} {args : List String} {deadline : Nat}
    {s : Starting S} (h : (procs.runCommand cmd args deadline s).1 = .error .cancelled) :
    plat.starting.Interrupted deadline (procs.runCommand cmd args deadline s).2 := by
  have hlook : (plat.cancelledOrPastDeadline deadline s.world).1 = true →
      plat.Interrupted deadline (plat.cancelledOrPastDeadline deadline s.world).2 :=
    plat.interrupted_of_cancelledOrPastDeadline
  revert h
  unfold runCommand
  generalize plat.cancelledOrPastDeadline deadline s.world = look at hlook ⊢
  obtain ⟨had, w⟩ := look
  cases had with
  | true => exact fun _ => hlook rfl
  | false =>
    simp only [Bool.false_eq_true, if_false]
    rcases procs.spawn cmd args w with ⟨_ | _, w⟩
    · nofun
    · dsimp only
      rcases hwait : procs.wait deadline (plat.cancelledOrPastDeadline deadline) w with
        ⟨_ | _ | _, w'⟩
      · nofun
      · intro _
        obtain ⟨w₁, hgiven, rfl⟩ :=
          procs.wait_givenUp (plat.endsAt_cancelledOrPastDeadline deadline) hwait
        exact (plat.interrupted_of_cancelledOrPastDeadline hgiven).imp
          (procs.cancelled_kill _) fun hover => hover.trans (procs.clock_le_kill _)
      · nofun

end Bosun
