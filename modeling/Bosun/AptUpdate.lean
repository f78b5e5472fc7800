import Bosun.AptInstall
import Bosun.Process

/-!
# `apt-get update`, and again

The loop over the attempts of `run_apt_update_with_policy`, for any policy: which calls it makes,
what it says of them, and when a process is started for one.

The loop looks at the deadline before a pause and the runner before a process; neither looks at
it while the other should.  `aptUpdate_sound` has the answer of the loop: the result of the last
call, but for a retriable failure after which there was no time for another call.
-/

namespace Bosun

open AptEnv (updateFailed)

/-! ## The calls and the answer -/

/-- A failure that is worth another attempt. -/
def AptCall.Retriable (c : AptCall) : Prop :=
  ∃ result, c.answer = .ok result ∧ result.exitCode ≠ some 0 ∧
    classifyUpdateFailure result.stderr = .retriable

/-- What the calls of a loop are, and what it answers to them. -/
structure UpdateSound (policy : AptUpdatePolicy) (updates : List AptCall)
    (answer : Except PrimitiveError Unit) : Prop where
  own : ∀ c ∈ updates, RecoveryCall .candidateMissing c
  bounded : updates.length ≤ policy.maxAttempts
  again : ∀ c ∈ updates.dropLast, c.Retriable
  ok_iff : answer = .ok () ↔ ∃ c, updates.getLast? = some c ∧ c.Succeeded
  runnerError : ∀ c ∈ updates, ∀ e, c.answer = .error e → answer = .error e
  uncalled : updates = [] → policy.maxAttempts = 0 ∧ answer = .error (updateFailed ⟨none, "", ""⟩)

/-- The answer to a failure is the result of the last call. -/
def ReportsLast (updates : List AptCall) (answer : Except PrimitiveError Unit) : Prop :=
  ∀ c result, updates.getLast? = some c → c.answer = .ok result → result.exitCode ≠ some 0 →
    answer = .error (updateFailed result)

/-- Unless another call was due and the deadline is over. -/
def ReportsLastInTime (policy : AptUpdatePolicy) (expired : Prop) (updates : List AptCall)
    (answer : Except PrimitiveError Unit) : Prop :=
  ∀ c result, updates.getLast? = some c → c.answer = .ok result → result.exitCode ≠ some 0 →
    if classifyUpdateFailure result.stderr = .retriable ∧ updates.length < policy.maxAttempts then
      answer = .error .cancelled ∧ expired
    else answer = .error (updateFailed result)

/-- What a computation comes to. -/
def AptM.outcome {S α : Type} (x : AptM S α) (s : AptState S) :
    Except PrimitiveError α × AptState S :=
  match x s with
  | .ok a s => (.ok a, s)
  | .error e s => (.error e, s)

theorem AptM.outcome_of_triple {S α : Type} {x : AptM S α} {s : AptState S}
    {R : Except PrimitiveError α → AptState S → Prop}
    (h : Triple (· = s) x (fun a => R (.ok a)) (fun e => R (.error e))) :
    R (x.outcome s).1 (x.outcome s).2 := by
  have hs := h s rfl
  unfold AptM.outcome
  cases hrun : x s with
  | ok a s' => rwa [hrun] at hs
  | error e s' => rwa [hrun] at hs

/-! ## One call more -/

section Calls

variable {policy : AptUpdatePolicy} {failed : List AptCall} {c : AptCall} {expired : Prop}

/-- The attempts so far: all of them failed, and another one is to be made. -/
structure Trying (policy : AptUpdatePolicy) (left : Nat) (failed : List AptCall) : Prop where
  own : ∀ c ∈ failed, RecoveryCall .candidateMissing c
  retriable : ∀ c ∈ failed, c.Retriable
  room : failed.length + left = policy.maxAttempts
  due : failed ≠ [] → left ≠ 0

theorem AptCall.Retriable.not_error (h : c.Retriable) (e : PrimitiveError) :
    c.answer ≠ .error e := by
  obtain ⟨result, hanswer, -⟩ := h
  simp [hanswer]

theorem Trying.own_add {left : Nat} (h : Trying policy left failed)
    (hown : RecoveryCall .candidateMissing c) :
    ∀ d ∈ failed ++ [c], RecoveryCall .candidateMissing d := by
  intro d hd
  rcases List.mem_append.mp hd with hd | hd
  · exact h.own d hd
  · exact List.mem_singleton.mp hd ▸ hown

/-- The loop ends with the call it has just made. -/
theorem Trying.ends {left : Nat} (h : Trying policy (left + 1) failed)
    (hown : RecoveryCall .candidateMissing c) {answer : Except PrimitiveError Unit}
    (hok : answer = .ok () ↔ c.Succeeded)
    (herror : ∀ e, c.answer = .error e → answer = .error e) :
    UpdateSound policy (failed ++ [c]) answer where
  own := h.own_add hown
  bounded := by
    have hroom := h.room
    rw [List.length_append, List.length_singleton]
    omega
  again := by
    rw [List.dropLast_concat]
    exact h.retriable
  ok_iff := by simp [hok]
  runnerError d hd e he := by
    rcases List.mem_append.mp hd with hd | hd
    · exact absurd he ((h.retriable d hd).not_error e)
    · exact herror e (List.mem_singleton.mp hd ▸ he)
  uncalled hnil := absurd hnil (List.append_ne_nil_of_right_ne_nil _ (List.cons_ne_nil _ _))

theorem Trying.add {left : Nat} (h : Trying policy (left + 1) failed) (hleft : left ≠ 0)
    (hown : RecoveryCall .candidateMissing c) (hretriable : c.Retriable) :
    Trying policy left (failed ++ [c]) where
  own := h.own_add hown
  retriable d hd := by
    rcases List.mem_append.mp hd with hd | hd
    · exact h.retriable d hd
    · exact List.mem_singleton.mp hd ▸ hretriable
  room := by
    have hroom := h.room
    rw [List.length_append, List.length_singleton]
    omega
  due _ := hleft

/-- What is reported of the call the loop ended with. -/
theorem reportsLastInTime_concat {answer : Except PrimitiveError Unit}
    (h : ∀ result, c.answer = .ok result → result.exitCode ≠ some 0 →
      if classifyUpdateFailure result.stderr = .retriable ∧
        failed.length + 1 < policy.maxAttempts then answer = .error .cancelled ∧ expired
      else answer = .error (updateFailed result)) :
    ReportsLastInTime policy expired (failed ++ [c]) answer := by
  intro d result hd
  rw [List.getLast?_concat] at hd
  obtain rfl := Option.some.inj hd
  rw [List.length_append, List.length_singleton]
  exact h result

end Calls

/-! ## The loop -/

namespace AptEnv

variable {S : Type} {plat : Platform S} (env : AptEnv plat)

omit env in
/-- Something outside runs no command and fails not either. -/
theorem triple_outside {α : Type} (f : S → α × S) (calls : List AptCall)
    (E : PrimitiveError → AptState S → Prop) :
    Triple (fun s => s.calls = calls) (AptM.outside f) (fun _ s => s.calls = calls) E :=
  fun _ hs => hs

theorem triple_now (calls : List AptCall) (E : PrimitiveError → AptState S → Prop) :
    Triple (fun s => s.calls = calls) env.now
      (fun now s => s.calls = calls ∧ now = plat.clock s.world) E :=
  fun _ hs => ⟨hs, rfl⟩

/-- There is no pause when the deadline is over. -/
theorem triple_backOff (deadline : Nat) (policy : AptUpdatePolicy) (attempt : Nat)
    (calls : List AptCall) :
    Triple (fun s => s.calls = calls) (env.backOff deadline policy attempt)
      (fun _ s => s.calls = calls)
      (fun e s => s.calls = calls ∧ e = .cancelled ∧ deadline ≤ plat.clock s.world) := by
  refine Triple.bind (Q := fun _ s => s.calls = calls) ?_ fun backoff =>
    (env.triple_now calls _).bind fun now => ?_
  · unfold jitteredBackoff
    split
    · exact Triple.ret fun _ hs => hs
    · exact (triple_outside _ calls _).bind fun _ => Triple.ret fun _ hs => hs
  · split
    · next hover =>
      refine Triple.raise fun s hs => ⟨hs.1, rfl, ?_⟩
      rw [← hs.2]
      exact hover
    · refine Triple.conseq (P := fun s => s.calls = calls) ?_ (fun _ hs => hs.1)
        (fun _ _ hs => hs) (fun _ _ hs => hs)
      exact ((env.triple_now calls _).conseq (fun _ hs => hs) (fun _ _ hs => hs.1)
        (fun _ _ hs => hs)).bind fun _ =>
          ((env.triple_now calls _).conseq (fun _ hs => hs) (fun _ _ hs => hs.1)
            (fun _ _ hs => hs)).bind fun _ => triple_outside _ calls _

/-- How a loop has ended that was begun after `before`. -/
def UpdateEnded (plat : Platform S) (deadline : Nat) (policy : AptUpdatePolicy)
    (before : List AptCall) (answer : Except PrimitiveError Unit) (s : AptState S) : Prop :=
  ∃ updates, s.calls = before ++ updates ∧ UpdateSound policy updates answer ∧
    ReportsLastInTime policy (deadline ≤ plat.clock s.world) updates answer

/-- The rest of a turn whose call has been answered. -/
theorem triple_afterCall {deadline : Nat} {policy : AptUpdatePolicy} {before : List AptCall}
    {left : Nat} {failed : List AptCall} {c : AptCall} {result : CommandResult}
    (htrying : Trying policy (left + 1) failed) (hown : RecoveryCall .candidateMissing c)
    (hanswer : c.answer = .ok result)
    (hnext : left ≠ 0 → c.Retriable → Triple (fun s => s.calls = before ++ (failed ++ [c]))
      (env.updateLoop deadline policy left result)
      (fun answer => UpdateEnded plat deadline policy before (.ok answer))
      (fun e => UpdateEnded plat deadline policy before (.error e))) :
    Triple (fun s => s.calls = before ++ (failed ++ [c]))
      (if result.exitCode = some 0 then pure ()
        else match classifyUpdateFailure result.stderr with
          | .nonRetriable => throw (updateFailed result)
          | .retriable =>
            if left = 0 then throw (updateFailed result)
            else do
              env.backOff deadline policy (policy.maxAttempts - (left + 1))
              env.updateLoop deadline policy left result)
      (fun answer => UpdateEnded plat deadline policy before (.ok answer))
      (fun e => UpdateEnded plat deadline policy before (.error e)) := by
  have hroom := htrying.room
  have hresult : ∀ {result'}, c.answer = .ok result' → result' = result := fun h =>
    Except.ok.inj (h.symm.trans hanswer)
  have hnoError : ∀ {answer : Except PrimitiveError Unit} (e), c.answer = .error e →
      answer = .error e := fun e he => nomatch hanswer.symm.trans he
  by_cases hzero : result.exitCode = some 0
  · simp only [hzero, if_true]
    refine Triple.ret fun s hs => ⟨_, hs, htrying.ends hown ?_ hnoError,
      reportsLastInTime_concat fun result' hresult' hne => ?_⟩
    · exact ⟨fun _ => ⟨result, hanswer, hzero⟩, fun _ => rfl⟩
    · exact absurd (hresult hresult' ▸ hzero) hne
  · simp only [hzero, if_false]
    have hnot : ∀ e : PrimitiveError,
        (.error e : Except PrimitiveError Unit) = .ok () ↔ c.Succeeded := by
      intro e
      rw [AptCall.succeeded_iff hanswer]
      exact ⟨nofun, fun h => absurd h hzero⟩
    cases hclass : classifyUpdateFailure result.stderr with
    | nonRetriable =>
      refine Triple.raise fun s hs => ⟨_, hs, htrying.ends hown (hnot _) hnoError,
        reportsLastInTime_concat fun result' hresult' _ => ?_⟩
      obtain rfl := hresult hresult'
      simp [hclass]
    | retriable =>
      dsimp only
      by_cases hleft : left = 0
      · simp only [hleft, if_true]
        refine Triple.raise fun s hs => ⟨_, hs, htrying.ends hown (hnot _) hnoError,
          reportsLastInTime_concat fun result' hresult' _ => ?_⟩
        obtain rfl := hresult hresult'
        rw [if_neg (by omega)]
      · simp only [hleft, if_false]
        refine ((env.triple_backOff deadline policy _ _).conseq (fun _ hs => hs)
          (fun _ _ hs => hs) ?_).bind fun _ => hnext hleft ⟨result, hanswer, hzero, hclass⟩
        -- no time is left for the call that was due
        rintro e s ⟨hs, rfl, hover⟩
        refine ⟨_, hs, htrying.ends hown (hnot _) hnoError,
          reportsLastInTime_concat fun result' hresult' _ => ?_⟩
        obtain rfl := hresult hresult'
        rw [if_pos ⟨hclass, by omega⟩]
        exact ⟨rfl, hover⟩

/-- The loop after the attempts `failed`. -/
theorem triple_updateLoop_ended (deadline : Nat) (policy : AptUpdatePolicy)
    (before : List AptCall) (left : Nat) : ∀ (failed : List AptCall) (last : CommandResult),
    Trying policy left failed → (left = 0 → last = ⟨none, "", ""⟩) →
    Triple (fun s => s.calls = before ++ failed) (env.updateLoop deadline policy left last)
      (fun answer => UpdateEnded plat deadline policy before (.ok answer))
      (fun e => UpdateEnded plat deadline policy before (.error e)) := by
  induction left with
  | zero =>
    intro failed last htrying hlast
    obtain rfl : failed = [] := by
      by_contra hne
      exact htrying.due hne rfl
    obtain rfl := hlast rfl
    refine Triple.raise fun s hs => ⟨[], hs, ?_, fun c result hc => by simp at hc⟩
    have hroom := htrying.room
    exact ⟨by simp, Nat.zero_le _, by simp, by simp, by simp,
      fun _ => ⟨by simpa using hroom.symm, rfl⟩⟩
  | succ left ih =>
    intro failed last htrying _
    refine ((env.triple_now _ _).conseq (fun _ hs => hs) (fun _ _ hs => hs.1)
      (fun _ _ hs => hs)).bind fun now => ?_
    -- the call, and what is answered to it
    let call (answer : Except PrimitiveError CommandResult) : AptCall :=
      ⟨"apt-get", UPDATE_ARGS, min deadline (now + policy.perAttemptTimeout), answer⟩
    refine Triple.bind (Q := fun result s => s.calls = before ++ (failed ++ [call (.ok result)]))
      ?_ fun result => env.triple_afterCall htrying ⟨rfl, rfl⟩ rfl fun hleft hretriable =>
        ih _ result (htrying.add hleft ⟨rfl, rfl⟩ hretriable) fun h => absurd h hleft
    refine (env.triple_run "apt-get" UPDATE_ARGS _ (P := (· = before ++ failed))
      (Q := fun result calls => calls = before ++ (failed ++ [call (.ok result)]))
      (E := fun e calls => calls = before ++ (failed ++ [call (.error e)])) ?_ ?_).conseq
        (fun _ hs => hs) (fun _ _ hs => hs) ?_
    · rintro calls result rfl
      exact List.append_assoc ..
    · rintro calls e rfl
      exact List.append_assoc ..
    · intro e s hs
      refine ⟨_, hs, htrying.ends ⟨rfl, rfl⟩ ⟨nofun, ?_⟩ fun e' he' => ?_,
        reportsLastInTime_concat fun result hresult => nomatch hresult⟩
      · exact fun h => absurd h (AptCall.not_succeeded rfl)
      · exact congrArg Except.error (Except.error.inj he')

/-- **The answer.**  Whatever the policy is and the calls answer. -/
theorem runAptUpdateWithPolicy_ended (deadline : Nat) (policy : AptUpdatePolicy)
    (s : AptState S) :
    UpdateEnded plat deadline policy s.calls
      (AptM.outcome (env.runAptUpdateWithPolicy deadline policy) s).1
      (AptM.outcome (env.runAptUpdateWithPolicy deadline policy) s).2 := by
  refine AptM.outcome_of_triple
    (R := fun answer => UpdateEnded plat deadline policy s.calls answer) ?_
  have hstart : Trying policy policy.maxAttempts [] :=
    ⟨by simp, by simp, by simp, fun h => absurd rfl h⟩
  exact (env.triple_updateLoop_ended deadline policy s.calls _ [] _ hstart fun _ => rfl).conseq
    (fun s' hs => by rw [hs, List.append_nil]) (fun _ _ h => h) (fun _ _ h => h)

end AptEnv

/-! ## The processes -/

/-- The world, and the worlds in which a process was started; nothing reads those. -/
structure Starting (S : Type) where
  world : S
  started : List S

/-- What happens outside starts no process. -/
def Starting.outside {S α : Type} (f : S → α × S) (s : Starting S) : α × Starting S :=
  ((f s.world).1, { s with world := (f s.world).2 })

def Platform.starting {S : Type} (plat : Platform S) : Platform (Starting S) where
  clock s := plat.clock s.world
  cancelled s := plat.cancelled s.world
  tick s := { s with world := plat.tick s.world }
  sleep d s := { s with world := plat.sleep d s.world }
  clock_le_tick s := plat.clock_le_tick s.world
  clock_add_le_sleep d s := plat.clock_add_le_sleep d s.world
  cancelled_tick s := plat.cancelled_tick s.world
  cancelled_sleep d s := plat.cancelled_sleep d s.world

section Starts

variable {S : Type} {plat : Platform S} (procs : Processes plat) (env : AptEnv plat)

/-- `RealCommandRunner::run`, for any processes; both streams are read all along. -/
def Processes.runCommand (cmd : String) (args : List String) (deadline : Nat) (s : Starting S) :
    Except PrimitiveError CommandResult × Starting S :=
  let (had, w) := plat.cancelledOrPastDeadline deadline s.world
  -- nothing is started then
  if had then (.error .cancelled, { s with world := w })
  else
    let started := s.started ++ [w]
    match procs.spawn cmd args w with
    | (.error e, w) => (.error (.io ("spawn " ++ cmd) e), ⟨w, started⟩)
    | (.ok (), w) =>
      match procs.wait deadline (plat.cancelledOrPastDeadline deadline) w with
      | (.exited status, w) => (.ok ⟨status.code, procs.stdout w, procs.stderr w⟩, ⟨w, started⟩)
      | (.givenUp, w) => (.error .cancelled, ⟨w, started⟩)
      | (.tryWaitFailed e, w) => (.error (.io ("try_wait " ++ cmd) e), ⟨w, started⟩)

/-- The environment with this runner. -/
def AptEnv.starting : AptEnv plat.starting where
  runCommand := procs.runCommand
  openLock path := Starting.outside (env.openLock path)
  getLock := Starting.outside env.getLock
  writeLog path text s := { s with world := env.writeLog path text s.world }
  scaled base jitterPct := Starting.outside (env.scaled base jitterPct)

/-- Whatever was started in between was started in time. -/
def StartedInTime (plat : Platform S) (deadline : Nat) (s s' : AptState (Starting S)) : Prop :=
  ∃ more, s'.world.started = s.world.started ++ more ∧ ∀ w ∈ more, ¬ plat.Interrupted deadline w

namespace StartedInTime

variable {plat : Platform S} {deadline : Nat}

theorem of_eq {s s' : AptState (Starting S)} (h : s'.world.started = s.world.started) :
    StartedInTime plat deadline s s' := ⟨[], by rw [h, List.append_nil], by simp⟩

theorem refl (s : AptState (Starting S)) : StartedInTime plat deadline s s := of_eq rfl

theorem trans (s s' s'' : AptState (Starting S)) (h : StartedInTime plat deadline s s')
    (h' : StartedInTime plat deadline s' s'') : StartedInTime plat deadline s s'' := by
  obtain ⟨more, hmore, hin⟩ := h
  obtain ⟨more', hmore', hin'⟩ := h'
  refine ⟨more ++ more', by rw [hmore', hmore, List.append_assoc], fun w hw => ?_⟩
  rcases List.mem_append.mp hw with hw | hw
  · exact hin w hw
  · exact hin' w hw

theorem leaves_outside {α : Type} {f : Starting S → α × Starting S}
    (hf : ∀ s, (f s).2.started = s.started) :
    Leaves (AptM.outside f) (StartedInTime plat deadline) := by
  rintro s _ rfl
  exact of_eq (hf _)

end StartedInTime

/-- The runner looks before it starts anything. -/
theorem Processes.runCommand_started (cmd : String) (args : List String) (deadline : Nat)
    (s : Starting S) :
    (procs.runCommand cmd args deadline s).2.started = s.started ∨
      ∃ w, ¬ plat.Interrupted deadline w ∧
        (procs.runCommand cmd args deadline s).2.started = s.started ++ [w] := by
  unfold runCommand
  rcases hlook : plat.cancelledOrPastDeadline deadline s.world with ⟨had, w⟩
  cases had with
  | true => exact .inl rfl
  | false =>
    refine .inr ⟨w, ?_, ?_⟩
    · simp only [Platform.cancelledOrPastDeadline, Prod.mk.injEq, Bool.or_eq_false_iff,
        decide_eq_false_iff_not] at hlook
      obtain ⟨⟨hgoing, hearly⟩, rfl⟩ := hlook
      rintro (hfired | hover)
      · cases hgoing.symm.trans hfired
      · exact hearly hover
    · simp only [Bool.false_eq_true, if_false]
      rcases procs.spawn cmd args w with ⟨_ | _, w⟩
      · rfl
      · rcases hwait : procs.wait deadline (plat.cancelledOrPastDeadline deadline) w with
          ⟨_ | _ | _, w'⟩ <;> simp only [hwait]

namespace AptEnv

theorem leaves_run (cmd : String) (args : List String) {attemptDeadline deadline : Nat}
    (hle : attemptDeadline ≤ deadline) :
    Leaves ((env.starting procs).run cmd args attemptDeadline) (StartedInTime plat deadline) := by
  have hlate : ∀ w, ¬ plat.Interrupted attemptDeadline w → ¬ plat.Interrupted deadline w := by
    rintro w hnot (hfired | hover)
    · exact hnot (.inl hfired)
    · exact hnot (.inr (hle.trans hover))
  intro s
  have hrun : ∀ calls, StartedInTime plat deadline s
      ⟨(procs.runCommand cmd args attemptDeadline s.world).2, calls⟩ := by
    intro calls
    rcases procs.runCommand_started cmd args attemptDeadline s.world with h | ⟨w, hw, h⟩
    · exact .of_eq h
    · exact ⟨[w], h, fun w' hw' => List.mem_singleton.mp hw' ▸ hlate w hw⟩
  rintro _ rfl
  unfold run
  simp only [starting]
  rcases hanswer : procs.runCommand cmd args attemptDeadline _ with ⟨_ | _, world⟩ <;>
    rw [hanswer] at hrun <;> exact hrun _

theorem leaves_now (deadline : Nat) :
    Leaves (env.starting procs).now (StartedInTime plat deadline) :=
  StartedInTime.leaves_outside fun _ => rfl

theorem leaves_backOff (globalDeadline deadline : Nat) (policy : AptUpdatePolicy)
    (attempt : Nat) : Leaves ((env.starting procs).backOff globalDeadline policy attempt)
      (StartedInTime plat deadline) := by
  have hnow := env.leaves_now procs deadline
  refine .bind .trans ?_ fun backoff => .bind .trans hnow fun now => ?_
  · unfold jitteredBackoff
    split
    · exact .ret .refl _
    · exact .bind .trans (StartedInTime.leaves_outside fun _ => rfl) fun _ => .ret .refl _
  · split
    · exact .raise .refl _
    · refine .bind .trans hnow fun _ => .bind .trans hnow fun _ =>
        StartedInTime.leaves_outside fun s => ?_
      split <;> rfl

theorem leaves_updateLoop (deadline : Nat) (policy : AptUpdatePolicy) (left : Nat) :
    ∀ last, Leaves ((env.starting procs).updateLoop deadline policy left last)
      (StartedInTime plat deadline) := by
  induction left with
  | zero => exact fun last => .raise .refl _
  | succ left ih =>
    intro last
    refine .bind .trans (env.leaves_now procs deadline) fun now =>
      .bind .trans (env.leaves_run procs _ _ (Nat.min_le_left _ _)) fun result => ?_
    split
    · exact .ret .refl _
    · cases classifyUpdateFailure result.stderr with
      | nonRetriable => exact .raise .refl _
      | retriable =>
        dsimp only
        split
        · exact .raise .refl _
        · exact .bind .trans (env.leaves_backOff procs deadline deadline policy _) fun _ =>
            ih result

end AptEnv

/-- **The retry loop.**  Its calls and its answer for every runner, and when it starts a process
    with the runner it is used with. -/
theorem aptUpdate_sound (policy : AptUpdatePolicy) (deadline : Nat) :
    (∀ s : AptState S, ∃ updates,
      let ended := AptM.outcome (env.runAptUpdateWithPolicy deadline policy) s
      ended.2.calls = s.calls ++ updates ∧ UpdateSound policy updates ended.1 ∧
        ReportsLastInTime policy (deadline ≤ plat.clock ended.2.world) updates ended.1) ∧
    ∀ s : AptState (Starting S), StartedInTime plat deadline s
      (AptM.outcome ((env.starting procs).runAptUpdateWithPolicy deadline policy) s).2 := by
  refine ⟨fun s => env.runAptUpdateWithPolicy_ended deadline policy s, fun s => ?_⟩
  exact AptM.outcome_of_triple (R := fun _ => StartedInTime plat deadline s)
    (env.leaves_updateLoop procs deadline policy _ _ s)

end Starts

/-! ## No time left -/

/-- What apt says of a mirror that does not answer. -/
def TIMED_OUT : String := "Connection failed [IP: 192.0.2.1 80] timed out"

/-- Updates that take all the time they are given, and then fail for the network. -/
def AptEnv.slowMirror : AptEnv Platform.quiet where
  runCommand _ _ deadline _ := (.ok ⟨some 100, "", TIMED_OUT⟩, deadline)
  openLock _ s := (.ok (), s)
  getLock s := (.ok .unlocked, s)
  writeLog _ _ s := s
  scaled base _ s := (base, s)

/-- The call before the deadline failed, and the answer is not its result. -/
theorem slowMirror_not_reported :
    ¬ ∃ updates,
      let ended := AptM.outcome (AptEnv.slowMirror.runAptUpdateWithPolicy 10 .default) ⟨0, []⟩
      ended.2.calls = updates ∧ UpdateSound .default updates ended.1 ∧
        ReportsLast updates ended.1 := by
  rintro ⟨updates, hcalls, -, hreports⟩
  have hretriable : classifyUpdateFailure TIMED_OUT = .retriable := by decide +kernel
  have hrun : AptM.outcome (AptEnv.slowMirror.runAptUpdateWithPolicy 10 .default) ⟨0, []⟩ =
      (.error .cancelled,
        ⟨10, [⟨"apt-get", UPDATE_ARGS, 10, .ok ⟨some 100, "", TIMED_OUT⟩⟩]⟩) := by
    rfl
  rw [hrun] at hcalls hreports
  obtain rfl := hcalls
  cases hreports _ _ rfl rfl (by decide)

end Bosun
