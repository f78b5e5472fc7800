import Bosun.AptPackage

/-!
# Installing a package

What the commands of an installation can be: an attempt, one recovery of the kind the attempt
calls for, a second attempt.  `AptCommands` lists the shapes such a run can have, whatever the
commands answer and wherever the run is cut short; `install_protocol` reads the rules off them.

A recovery by `apt-get update` is up to three updates, none after one that succeeded.
-/

namespace Bosun

namespace AptCall

/-- The command exited with 0. -/
def Succeeded (c : AptCall) : Prop := ∃ result, c.answer = .ok result ∧ result.exitCode = some 0

def isInstall (c : AptCall) : Bool := c.cmd = "apt-get" && c.args.head? = some "install"

end AptCall

/-! ## Recoveries -/

/-- `c` is a command of the recovery for such a failure. -/
def RecoveryCall : InstallOutcome → AptCall → Prop
  | .dpkgInterrupted, c => c.cmd = "dpkg" ∧ c.args = ["--configure", "-a"]
  | .candidateMissing, c => c.cmd = "apt-get" ∧ c.args = UPDATE_ARGS
  | .success, _ | .otherFailure, _ => False

/-- How often a recovery runs its command. -/
def InstallOutcome.tries : InstallOutcome → Nat
  | .dpkgInterrupted => 1
  | .candidateMissing => AptUpdatePolicy.default.maxAttempts
  | .success | .otherFailure => 0

/-- A recovery that has not succeeded yet. -/
structure FailedRecovery (kind : InstallOutcome) (calls : List AptCall) : Prop where
  failed : ∀ c ∈ calls, RecoveryCall kind c ∧ ¬ c.Succeeded
  bounded : calls.length ≤ kind.tries

/-- One recovery, which succeeded. -/
structure OneRecovery (kind : InstallOutcome) (calls : List AptCall) : Prop where
  ends : ∃ failed last, calls = failed ++ [last] ∧ (∀ c ∈ failed, ¬ c.Succeeded) ∧ last.Succeeded
  own : ∀ c ∈ calls, RecoveryCall kind c
  bounded : calls.length ≤ kind.tries

theorem FailedRecovery.nil (kind : InstallOutcome) : FailedRecovery kind [] :=
  ⟨by simp, Nat.zero_le _⟩

theorem FailedRecovery.add {kind : InstallOutcome} {calls : List AptCall} {c : AptCall}
    (h : FailedRecovery kind calls) (hlt : calls.length < kind.tries) (hown : RecoveryCall kind c)
    (hfailed : ¬ c.Succeeded) : FailedRecovery kind (calls ++ [c]) := by
  refine ⟨?_, by rw [List.length_append]; exact hlt⟩
  intro u hu
  rcases List.mem_append.mp hu with hu | hu
  · exact h.failed u hu
  · obtain rfl := List.mem_singleton.mp hu
    exact ⟨hown, hfailed⟩

theorem FailedRecovery.succeed {kind : InstallOutcome} {calls : List AptCall} {c : AptCall}
    (h : FailedRecovery kind calls) (hlt : calls.length < kind.tries) (hown : RecoveryCall kind c)
    (hdone : c.Succeeded) : OneRecovery kind (calls ++ [c]) := by
  refine ⟨⟨calls, c, rfl, fun u hu => (h.failed u hu).2, hdone⟩, ?_,
    by rw [List.length_append]; exact hlt⟩
  intro u hu
  rcases List.mem_append.mp hu with hu | hu
  · exact (h.failed u hu).1
  · obtain rfl := List.mem_singleton.mp hu
    exact hown

theorem RecoveryCall.not_install {kind : InstallOutcome} {c : AptCall} (h : RecoveryCall kind c) :
    c.isInstall = false := by
  cases kind with
  | dpkgInterrupted => simp [AptCall.isInstall, h.1]
  | candidateMissing => simp [AptCall.isInstall, h.2, UPDATE_ARGS]
  | success => exact h.elim
  | otherFailure => exact h.elim

/-! ## The shapes of a run -/

/-- The commands of an installation; `done` says that it succeeded. -/
inductive AptCommands : Bool → List AptCall → Prop
  | nothing : AptCommands false []
  | once {done : Bool} {a : AptCall} (attempt : a.isInstall = true)
      (ends : done = true ↔ a.Succeeded) : AptCommands done [a]
  | recovery {a : AptCall} {first : CommandResult} {recovery : List AptCall}
      (attempt : a.isInstall = true) (failed : ¬ a.Succeeded) (answer : a.answer = .ok first)
      (own : ∀ c ∈ recovery, RecoveryCall (analyzeInstallResult first) c)
      (bounded : recovery.length ≤ (analyzeInstallResult first).tries) :
      AptCommands false (a :: recovery)
  | again {done : Bool} {a b : AptCall} {first : CommandResult} {recovery : List AptCall}
      (attempt : a.isInstall = true) (answer : a.answer = .ok first)
      (recovered : OneRecovery (analyzeInstallResult first) recovery)
      (retry : b.isInstall = true) (ends : done = true ↔ b.Succeeded) :
      AptCommands done (a :: (recovery ++ [b]))

theorem analyzeInstallResult_eq_success {result : CommandResult} :
    analyzeInstallResult result = .success ↔ result.exitCode = some 0 := by
  unfold analyzeInstallResult
  by_cases hzero : result.exitCode = some 0
  · simp [hzero]
  · simp only [hzero, if_false, iff_false]
    split
    · split
      · simp
      · split <;> simp
    · simp

theorem AptCall.succeeded_iff {c : AptCall} {result : CommandResult} (h : c.answer = .ok result) :
    c.Succeeded ↔ result.exitCode = some 0 := by
  simp [AptCall.Succeeded, h]

theorem AptCall.not_succeeded {c : AptCall} {e : PrimitiveError} (h : c.answer = .error e) :
    ¬ c.Succeeded := by
  simp [AptCall.Succeeded, h]

theorem AptCall.isInstall_attempt (spec : AptPackageSpec) (deadline : Nat)
    (answer : Except PrimitiveError CommandResult) :
    (⟨"apt-get", installArgs spec, deadline, answer⟩ : AptCall).isInstall = true := by
  simp [AptCall.isInstall, installArgs]

/-! ## The commands of a run -/

section Triples

variable {S α : Type} {plat : Platform S} (env : AptEnv plat) (ctx : AptCtx)

/-- No command is run. -/
def AptM.Quiet (x : AptM S α) : Prop := Leaves x fun s s' => s'.calls = s.calls

namespace AptM.Quiet

theorem outside (f : S → α × S) : (AptM.outside f).Quiet := fun _ _ hs => hs ▸ rfl

theorem ret (a : α) : (pure a : AptM S α).Quiet := fun _ _ hs => hs ▸ rfl

theorem raise (e : PrimitiveError) : (throw e : AptM S α).Quiet := fun _ _ hs => hs ▸ rfl

theorem bind {β : Type} {x : AptM S α} {f : α → AptM S β} (hx : x.Quiet) (hf : ∀ a, (f a).Quiet) :
    (x >>= f).Quiet := Leaves.bind (fun _ _ _ h h' => h'.trans h) hx hf

/-- What held of the commands still does. -/
theorem keeps {x : AptM S α} (h : x.Quiet) (P : List AptCall → Prop) :
    Triple (fun s => P s.calls) x (fun _ s => P s.calls) (fun _ s => P s.calls) := by
  refine Triple.of_state fun s hs => (h s).conseq (fun _ h => h) ?_ ?_
  · intro _ s' hsame
    rwa [hsame]
  · intro _ s' hsame
    rwa [hsame]

/-- `x` first, and then the rest. -/
theorem before {β : Type} {x : AptM S α} {f : α → AptM S β} {P : List AptCall → Prop}
    {Q : β → AptState S → Prop} {E : PrimitiveError → AptState S → Prop} (hx : x.Quiet)
    (hf : ∀ a, Triple (fun s => P s.calls) (f a) Q E) (herr : ∀ e s, P s.calls → E e s) :
    Triple (fun s => P s.calls) (x >>= f) Q E :=
  ((hx.keeps P).conseq (fun _ h => h) (fun _ _ h => h) herr).bind hf

end AptM.Quiet

namespace AptEnv

theorem quiet_log (step stderr : String) : (env.log ctx step stderr).Quiet := .outside _

/-- A log does not fail either. -/
theorem triple_logNonempty (step stderr : String) (P : List AptCall → Prop)
    (E : PrimitiveError → AptState S → Prop) :
    Triple (fun s => P s.calls) (env.logNonempty ctx step stderr) (fun _ s => P s.calls) E := by
  unfold logNonempty
  split
  · exact Triple.ret fun _ h => h
  · exact fun s hs => hs

theorem quiet_now : env.now.Quiet := .outside _

theorem quiet_checkCancelOrDeadline : (env.checkCancelOrDeadline ctx).Quiet := by
  refine .bind (.outside _) fun stop => ?_
  cases stop with
  | true => exact .raise _
  | false => exact .ret _

theorem quiet_probeDpkgLock : (env.probeDpkgLock ctx).Quiet := by
  refine .bind (.outside _) fun opened => ?_
  cases opened with
  | error e => exact .raise _
  | ok _ =>
    refine .bind (.outside _) fun lock => ?_
    match lock with
    | .error e => exact .raise _
    | .ok .unlocked => exact .ret _
    | .ok (.locked pid) => exact .raise _

theorem quiet_enter (spec : AptPackageSpec) : (env.enter ctx spec).Quiet :=
  .bind (env.quiet_checkCancelOrDeadline ctx) fun _ => .bind (env.quiet_probeDpkgLock ctx) fun _ =>
    .bind env.quiet_now fun _ => .ret _

theorem quiet_backOff (deadline : Nat) (policy : AptUpdatePolicy) (attempt : Nat) :
    (env.backOff deadline policy attempt).Quiet := by
  refine .bind ?_ fun backoff => .bind env.quiet_now fun now => ?_
  · unfold jitteredBackoff
    split
    · exact .ret _
    · exact .bind (.outside _) fun _ => .ret _
  · split
    · exact .raise _
    · exact .bind env.quiet_now fun _ => .bind env.quiet_now fun _ => .outside _

/-- A command joins the record, with its answer. -/
theorem triple_run (cmd : String) (args : List String) (deadline : Nat)
    {P : List AptCall → Prop} {Q : CommandResult → List AptCall → Prop}
    {E : PrimitiveError → List AptCall → Prop}
    (hok : ∀ calls result, P calls → Q result (calls ++ [⟨cmd, args, deadline, .ok result⟩]))
    (herr : ∀ calls e, P calls → E e (calls ++ [⟨cmd, args, deadline, .error e⟩])) :
    Triple (fun s => P s.calls) (env.run cmd args deadline) (fun result s => Q result s.calls)
      (fun e s => E e s.calls) := by
  intro s hs
  unfold run
  rcases env.runCommand cmd args deadline s.world with ⟨answer, world⟩
  cases answer with
  | ok result => exact hok s.calls result hs
  | error e => exact herr s.calls e hs

/-- After `before`, a recovery that has not succeeded and has so many tries left. -/
def Failing (kind : InstallOutcome) (before : List AptCall) (room : Nat) (calls : List AptCall) :
    Prop :=
  ∃ recovery, calls = before ++ recovery ∧ FailedRecovery kind recovery ∧
    recovery.length + room ≤ kind.tries

def Recovered (kind : InstallOutcome) (before calls : List AptCall) : Prop :=
  ∃ recovery, calls = before ++ recovery ∧ OneRecovery kind recovery

theorem Failing.start {kind : InstallOutcome} (calls : List AptCall) :
    Failing kind calls kind.tries calls :=
  ⟨[], by simp, .nil _, by simp⟩

theorem Failing.give {kind : InstallOutcome} {before calls : List AptCall} {room : Nat}
    (h : Failing kind before room calls) : Failing kind before 0 calls := by
  obtain ⟨recovery, hcalls, hfailed, -⟩ := h
  exact ⟨recovery, hcalls, hfailed, hfailed.bounded⟩

/-- The command of a recovery, run once more. -/
theorem triple_recoveryCall {kind : InstallOutcome} {cmd : String} {args : List String}
    (hown : ∀ deadline answer, RecoveryCall kind ⟨cmd, args, deadline, answer⟩)
    (deadline : Nat) (before : List AptCall) (room : Nat) :
    Triple (fun s => Failing kind before (room + 1) s.calls) (env.run cmd args deadline)
      (fun result s => if result.exitCode = some 0 then Recovered kind before s.calls
        else Failing kind before room s.calls)
      (fun _ s => Failing kind before 0 s.calls) := by
  refine env.triple_run cmd args deadline (P := Failing kind before (room + 1))
    (Q := fun result calls => if result.exitCode = some 0 then Recovered kind before calls
      else Failing kind before room calls) (E := fun _ => Failing kind before 0) ?_ ?_
  · rintro calls result ⟨recovery, rfl, hfailed, hroom⟩
    split
    · next hzero =>
      exact ⟨_, List.append_assoc .., hfailed.succeed (by omega) (hown _ _) ⟨result, rfl, hzero⟩⟩
    · next hnonzero =>
      refine ⟨_, List.append_assoc .., hfailed.add (by omega) (hown _ _) ?_,
        by rw [List.length_append, List.length_singleton]; omega⟩
      rintro ⟨result', hanswer, hzero⟩
      obtain rfl : result = result' := by simpa using hanswer
      exact hnonzero hzero
  · rintro calls e ⟨recovery, rfl, hfailed, hroom⟩
    refine ⟨_, List.append_assoc .., hfailed.add (by omega) (hown _ _) ?_,
      by rw [List.length_append, List.length_singleton]; omega⟩
    rintro ⟨result, hanswer, -⟩
    exact absurd hanswer (by simp)

/-- `x` is such a recovery, whatever was run before it. -/
def Recovers (kind : InstallOutcome) (x : AptM S Unit) : Prop :=
  ∀ before, Triple (fun s => s.calls = before) x (fun _ s => Recovered kind before s.calls)
    (fun _ s => Failing kind before 0 s.calls)

theorem recovers_dpkgConfigureA (deadline : Nat) :
    Recovers .dpkgInterrupted (env.runDpkgConfigureA deadline) := by
  intro before
  refine Triple.conseq (P := fun s => Failing .dpkgInterrupted before 1 s.calls) ?_
    (fun s hs => hs ▸ .start _) (fun _ _ h => h) (fun _ _ h => h)
  refine env.quiet_now.before (fun now => ?_) fun _ _ h => h.give
  have hown : ∀ deadline answer,
      RecoveryCall .dpkgInterrupted ⟨"dpkg", ["--configure", "-a"], deadline, answer⟩ :=
    fun _ _ => ⟨rfl, rfl⟩
  refine (env.triple_recoveryCall hown _ before 0).bind fun result => ?_
  split
  · exact Triple.ret fun _ h => h
  · exact Triple.raise fun _ h => h

/-- The loop, with as many tries left as it has. -/
theorem triple_updateLoop (deadline : Nat) (policy : AptUpdatePolicy) (before : List AptCall)
    (left : Nat) : ∀ last : CommandResult,
    Triple (fun s => Failing .candidateMissing before left s.calls)
      (env.updateLoop deadline policy left last)
      (fun _ s => Recovered .candidateMissing before s.calls)
      (fun _ s => Failing .candidateMissing before 0 s.calls) := by
  have hown : ∀ deadline answer,
      RecoveryCall .candidateMissing ⟨"apt-get", UPDATE_ARGS, deadline, answer⟩ :=
    fun _ _ => ⟨rfl, rfl⟩
  induction left with
  | zero => exact fun last => Triple.raise fun _ h => h
  | succ left ih =>
    intro last
    refine env.quiet_now.before (fun now => ?_) fun _ _ h => h.give
    refine (env.triple_recoveryCall hown _ before left).bind fun result => ?_
    split
    · exact Triple.ret fun _ h => h
    · cases classifyUpdateFailure result.stderr with
      | nonRetriable => exact Triple.raise fun _ h => h.give
      | retriable =>
        dsimp only
        split
        · exact Triple.raise fun _ h => h.give
        · exact (env.quiet_backOff deadline policy _).before (fun _ => ih result)
            fun _ _ h => h.give

theorem recovers_aptUpdate (deadline : Nat) :
    Recovers .candidateMissing (env.runAptUpdateWithRetries deadline) := by
  intro before
  exact (env.triple_updateLoop deadline .default before _ _).conseq (fun s hs => hs ▸ .start _)
    (fun _ _ h => h) (fun _ _ h => h)

/-- What is done about an error runs no command. -/
theorem triple_orElse {P : AptState S → Prop} {Q : α → AptState S → Prop}
    {E : List AptCall → Prop} {x : AptM S α} {onError : PrimitiveError → AptM S Unit}
    (hx : Triple P x Q fun _ s => E s.calls) (hquiet : ∀ e, (onError e).Quiet) :
    Triple P (x.orElse onError) Q fun _ s => E s.calls := by
  intro s hs
  have hxs := hx s hs
  unfold AptM.orElse
  cases hrun : x s with
  | ok a s' =>
    rw [hrun] at hxs
    exact hxs
  | error e s' =>
    rw [hrun] at hxs
    exact (hquiet e).before (Q := Q) (fun _ => Triple.raise fun _ h => h) (fun _ _ h => h) s' hxs

/-! ## An installation -/

/-- What an installation says at its end. -/
abbrev Installed (report : ChangeReport) (s : AptState S) : Prop :=
  report.changed = true ∧ AptCommands true s.calls

abbrev NotInstalled (_ : PrimitiveError) (s : AptState S) : Prop := AptCommands false s.calls

/-- The first attempt has been made, with this result. -/
def Attempted (result : CommandResult) (calls : List AptCall) : Prop :=
  ∃ a : AptCall, calls = [a] ∧ a.isInstall = true ∧ a.answer = .ok result

/-- The second attempt has been made after a recovery for `first`, with this result. -/
def Retried (a : AptCall) (first result : CommandResult) (calls : List AptCall) : Prop :=
  ∃ recovery b, calls = a :: (recovery ++ [b]) ∧
    OneRecovery (analyzeInstallResult first) recovery ∧ b.isInstall = true ∧
    b.answer = .ok result

/-- The first attempt has been made and calls for `recovery`. -/
theorem triple_recoverThenRetry (spec : AptPackageSpec) (deadline : Nat) (step name : String)
    {a : AptCall} {first : CommandResult} {x : AptM S Unit}
    (hrecovers : Recovers (analyzeInstallResult first) x) (hattempt : a.isInstall = true)
    (hanswer : a.answer = .ok first) (hfailed : ¬ a.Succeeded) :
    Triple (fun s => s.calls = [a]) (env.recoverThenRetry ctx spec deadline step name x first)
      Installed NotInstalled := by
  have hcut : ∀ e (s : AptState S), Failing (analyzeInstallResult first) [a] 0 s.calls →
      NotInstalled e s := by
    rintro e s ⟨recovery, hcalls, hrecovery, -⟩
    show AptCommands false s.calls
    rw [hcalls]
    exact .recovery hattempt hfailed hanswer (fun c hc => (hrecovery.failed c hc).1)
      hrecovery.bounded
  have hdone : ∀ e (s : AptState S), Recovered (analyzeInstallResult first) [a] s.calls →
      NotInstalled e s := by
    rintro e s ⟨recovery, hcalls, hrecovery⟩
    show AptCommands false s.calls
    rw [hcalls]
    exact .recovery hattempt hfailed hanswer hrecovery.own hrecovery.bounded
  have hstart : ∀ e (s : AptState S), s.calls = [a] → NotInstalled e s :=
    fun e s hs => hcut e s (by rw [hs]; exact (Failing.start [a]).give)
  refine (env.quiet_log ctx "install" first.stderr).before (P := (· = [a])) (fun _ => ?_) hstart
  refine (env.quiet_checkCancelOrDeadline ctx).before (P := (· = [a])) (fun _ => ?_) hstart
  refine Triple.bind (Q := fun _ s => Recovered (analyzeInstallResult first) [a] s.calls) ?_
    fun _ => (env.quiet_checkCancelOrDeadline ctx).before (fun _ => ?_) hdone
  · refine ((triple_orElse (hrecovers [a]) ?_).conseq (fun _ h => h) (fun _ _ h => h)) hcut
    intro e
    cases e with
    | exec _ _ excerpt => exact env.quiet_log ctx step excerpt
    | _ => exact .ret _
  · refine (env.triple_run "apt-get" (installArgs spec) deadline
      (P := Recovered (analyzeInstallResult first) [a]) (Q := Retried a first)
      (E := fun _ => AptCommands false) ?_ ?_).bind fun retry => ?_
    · rintro calls result ⟨recovery, rfl, hrecovery⟩
      exact ⟨recovery, _, rfl, hrecovery, AptCall.isInstall_attempt spec deadline _, rfl⟩
    · rintro calls e ⟨recovery, rfl, hrecovery⟩
      exact .again hattempt hanswer hrecovery (AptCall.isInstall_attempt spec deadline _)
        (by simp [AptCall.not_succeeded])
    · split
      · next hzero =>
        refine (env.triple_logNonempty ctx _ _ (Retried a first retry) _).bind fun _ => ?_
        refine Triple.ret fun s hs => ?_
        obtain ⟨recovery, b, hcalls, hrecovery, hb, hretry⟩ := hs
        refine ⟨rfl, ?_⟩
        rw [hcalls]
        exact .again hattempt hanswer hrecovery hb (by simp [AptCall.succeeded_iff hretry, hzero])
      · next hnonzero =>
        have hfails : ∀ s : AptState S, Retried a first retry s.calls →
            AptCommands false s.calls := by
          rintro s ⟨recovery, b, hcalls, hrecovery, hb, hretry⟩
          rw [hcalls]
          exact .again hattempt hanswer hrecovery hb
            (by simp [AptCall.succeeded_iff hretry, hnonzero])
        exact (env.quiet_log ctx _ _).before (fun _ => Triple.raise hfails) fun _ => hfails

theorem triple_runInstall (spec : AptPackageSpec) (deadline : Nat) :
    Triple (fun s => s.calls = []) (env.runInstall ctx spec deadline) Installed NotInstalled := by
  refine (env.triple_run "apt-get" (installArgs spec) deadline (P := (· = [])) (Q := Attempted)
    (E := fun _ => AptCommands false) ?_ ?_).bind fun result => ?_
  · rintro calls result rfl
    exact ⟨_, rfl, AptCall.isInstall_attempt spec deadline _, rfl⟩
  · rintro calls e rfl
    exact .once (AptCall.isInstall_attempt spec deadline _) (by simp [AptCall.not_succeeded])
  · have hrecovery : ∀ step name x, Recovers (analyzeInstallResult result) x →
        analyzeInstallResult result ≠ .success →
        Triple (fun s => Attempted result s.calls)
          (env.recoverThenRetry ctx spec deadline step name x result) Installed NotInstalled := by
      intro step name x hrecovers hkind s hs
      obtain ⟨a, hcalls, hattempt, hanswer⟩ := hs
      refine env.triple_recoverThenRetry ctx spec deadline step name hrecovers hattempt hanswer ?_
        s hcalls
      rw [AptCall.succeeded_iff hanswer, ← analyzeInstallResult_eq_success]
      exact hkind
    cases hkind : analyzeInstallResult result with
    | success =>
      refine (env.triple_logNonempty ctx _ _ (Attempted result) _).bind fun _ => ?_
      refine Triple.ret fun s hs => ?_
      obtain ⟨a, hcalls, hattempt, hanswer⟩ := hs
      refine ⟨rfl, ?_⟩
      rw [hcalls]
      exact .once hattempt
        (by simp [AptCall.succeeded_iff hanswer, analyzeInstallResult_eq_success.mp hkind])
    | dpkgInterrupted =>
      exact hrecovery _ _ _ (hkind ▸ env.recovers_dpkgConfigureA deadline) (by simp [hkind])
    | candidateMissing =>
      exact hrecovery _ _ _ (hkind ▸ env.recovers_aptUpdate deadline) (by simp [hkind])
    | otherFailure =>
      have hfails : ∀ s : AptState S, Attempted result s.calls → AptCommands false s.calls := by
        rintro s ⟨a, hcalls, hattempt, hanswer⟩
        rw [hcalls]
        refine .once hattempt ?_
        rw [AptCall.succeeded_iff hanswer, ← analyzeInstallResult_eq_success]
        simp [hkind]
      exact (env.quiet_log ctx _ _).before (fun _ => Triple.raise hfails) fun _ => hfails

end AptEnv

end Triples

/-! ## The protocol -/

/-- The first attempt, the recovery and the second attempt of a run, each of them empty where
    there was none. -/
structure InstallProtocol (calls first recovery second : List AptCall) : Prop where
  order : calls = first ++ recovery ++ second
  attempts : calls.filter AptCall.isInstall = first ++ second
  firstAttempt : first.length ≤ 1
  secondAttempt : second.length ≤ 1
  /-- Commands that are no attempts belong to the recovery that the first attempt called for. -/
  called : recovery ≠ [] → ∃ a result, first = [a] ∧ a.answer = .ok result ∧
    recovery.length ≤ (analyzeInstallResult result).tries ∧
    ∀ c ∈ recovery, RecoveryCall (analyzeInstallResult result) c
  /-- A second attempt follows a recovery of that kind, which succeeded. -/
  recovered : second ≠ [] → ∃ a result, first = [a] ∧ a.answer = .ok result ∧
    OneRecovery (analyzeInstallResult result) recovery

theorem filter_recovery {kind : InstallOutcome} {recovery : List AptCall}
    (h : ∀ c ∈ recovery, RecoveryCall kind c) : recovery.filter AptCall.isInstall = [] := by
  rw [List.filter_eq_nil_iff]
  intro c hc
  simp [(h c hc).not_install]

/-- Every shape follows the protocol, and its flag is the exit of the last attempt. -/
theorem AptCommands.protocol {done : Bool} {calls : List AptCall} (h : AptCommands done calls) :
    ∃ first recovery second, InstallProtocol calls first recovery second ∧
      (done = true ↔ ∃ c, (first ++ second).getLast? = some c ∧ c.Succeeded) := by
  cases h with
  | nothing => exact ⟨[], [], [], ⟨rfl, rfl, by simp, by simp, by simp, by simp⟩, by simp⟩
  | @once _ a attempt ends =>
    exact ⟨[a], [], [], ⟨rfl, by simp [attempt], by simp, by simp, by simp, by simp⟩,
      by simpa using ends⟩
  | @recovery a first recovery attempt failed answer own bounded =>
    refine ⟨[a], recovery, [], ⟨by simp, ?_, by simp, by simp, ?_, by simp⟩, by simpa using failed⟩
    · simp [attempt, filter_recovery own]
    · exact fun _ => ⟨a, first, rfl, answer, bounded, own⟩
  | @again _ a b first recovery attempt answer recovered retry ends =>
    refine ⟨[a], recovery, [b], ⟨by simp, ?_, by simp, by simp, ?_, ?_⟩, by simpa using ends⟩
    · simp [attempt, retry, filter_recovery recovered.own]
    · exact fun _ => ⟨a, first, rfl, answer, recovered.bounded, recovered.own⟩
    · exact fun _ => ⟨a, first, rfl, answer, recovered⟩

section Apply

variable {P S : Type} {plat : Platform S} (env : AptEnv plat) (ctx : AptCtx)
  (decode : P → Except String AptPackageSpec) (resource : Resource P) (diff : Diff P) (world : S)

/-- What an apply returns, and the commands it has run. -/
def AptEnv.applied : Except PrimitiveError ChangeReport × List AptCall :=
  match env.runApply ctx decode resource diff ⟨world, []⟩ with
  | .ok report s => (.ok report, s.calls)
  | .error e s => (.error e, s.calls)

/-- The commands of an apply of a package that is to be present, and what it returns. -/
theorem AptEnv.applied_commands
    (hpresent : ∀ spec, decode resource.payload = .ok spec → spec.state = .present) :
    ∃ done, AptCommands done (env.applied ctx decode resource diff world).2 ∧
      (done = true ↔ ∃ report, (env.applied ctx decode resource diff world).1 = .ok report ∧
        report.changed = true) := by
  have hrun : Triple (fun s : AptState S => s.calls = [])
      (env.runApply ctx decode resource diff)
      (fun report s => ∃ done, AptCommands done s.calls ∧ (done = true ↔ report.changed = true))
      (fun _ s => AptCommands false s.calls) := by
    unfold runApply
    split
    · exact Triple.ret fun s hs => ⟨false, hs ▸ .nothing, by simp [ChangeReport.noChange]⟩
    all_goals
      split
      · exact Triple.raise fun s hs => hs ▸ .nothing
      · rename_i spec hdecode
        refine (env.quiet_enter ctx spec).before (P := (· = [])) (fun deadline => ?_)
          fun _ s hs => hs ▸ .nothing
        rw [hpresent spec hdecode]
        refine (env.triple_runInstall ctx spec deadline).conseq (fun _ h => h)
          (fun report s hdone => ?_) fun _ _ h => h
        exact ⟨true, hdone.2, by simp [hdone.1]⟩
  unfold applied
  cases hend : env.runApply ctx decode resource diff ⟨world, []⟩ with
  | ok report s =>
    obtain ⟨done, hcalls, hdone⟩ := hrun.ok rfl hend
    exact ⟨done, hcalls, by simpa using hdone⟩
  | error e s => exact ⟨false, hrun.error rfl hend, by simp⟩

/-- **The recovery protocol.**  There are at most two attempts.  Between them is one recovery, of
    the kind the first failure calls for, and it succeeded; other commands are not run.  The
    apply reports a change exactly if its last attempt exited with 0. -/
theorem AptEnv.install_protocol
    (hpresent : ∀ spec, decode resource.payload = .ok spec → spec.state = .present) :
    let calls := (env.applied ctx decode resource diff world).2
    (calls.filter AptCall.isInstall).length ≤ 2 ∧
    (∃ first recovery second, InstallProtocol calls first recovery second) ∧
    ((∃ report, (env.applied ctx decode resource diff world).1 = .ok report ∧
        report.changed = true) ↔
      ∃ c, (calls.filter AptCall.isInstall).getLast? = some c ∧ c.Succeeded) := by
  intro calls
  obtain ⟨done, hcalls, hdone⟩ := env.applied_commands ctx decode resource diff world hpresent
  obtain ⟨first, recovery, second, hprotocol, hlast⟩ := hcalls.protocol
  refine ⟨?_, ⟨first, recovery, second, hprotocol⟩, ?_⟩
  · have hfirst := hprotocol.firstAttempt
    have hsecond := hprotocol.secondAttempt
    rw [hprotocol.attempts, List.length_append]
    omega
  · rw [hprotocol.attempts, ← hlast, hdone]

end Apply

/-- A machine on which the commands answer what they are told to, by their number. -/
def AptEnv.scripted (script : Nat → CommandResult) : AptEnv Platform.quiet where
  runCommand _ _ _ n := (.ok (script n), n + 1)
  openLock _ n := (.ok (), n)
  getLock n := (.ok .unlocked, n)
  writeLog _ _ n := n
  scaled base _ n := (base, n)

def nginxPackage (state : AptPackageState) : Resource AptPackageSpec where
  id := ⟨"apt.package:nginx"⟩
  kind := ⟨"apt.package"⟩
  specVersion := 1
  payload := ⟨"nginx", none, state, 600, true, true⟩
  reloadOn := []
  restartOn := []
  dependsOn := []

/-- The first command finds dpkg interrupted; it is configured, and the package is tried again. -/
theorem install_protocol_interrupted :
    let env := AptEnv.scripted fun n =>
      if n = 0 then ⟨some 100, "", "E: dpkg was interrupted"⟩ else ⟨some 0, "", ""⟩
    let applied := env.applied ⟨1000, "/var/log/bosun", "/var/lib/dpkg/lock-frontend"⟩ .ok
      (nginxPackage .present) (.add "install nginx" (nginxPackage .present).payload) 0
    (∃ first recovery second, InstallProtocol applied.2 first recovery second) ∧
    applied.2.map (fun c => (c.cmd, c.args.head?)) =
      [("apt-get", some "install"), ("dpkg", some "--configure"), ("apt-get", some "install")] ∧
    (applied.2.filter AptCall.isInstall).length = 2 ∧
    ((∃ report, applied.1 = .ok report ∧ report.changed = true) ↔
      ∃ c, (applied.2.filter AptCall.isInstall).getLast? = some c ∧ c.Succeeded) := by
  intro env applied
  obtain ⟨-, hprotocol, hreports⟩ := env.install_protocol
    ⟨1000, "/var/log/bosun", "/var/lib/dpkg/lock-frontend"⟩ .ok (nginxPackage .present)
    (.add "install nginx" (nginxPackage .present).payload) 0 fun spec hspec => by
      obtain rfl : (nginxPackage .present).payload = spec := by simpa using hspec
      rfl
  exact ⟨hprotocol, by decide +kernel, by decide +kernel, hreports⟩

end Bosun
