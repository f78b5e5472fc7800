import Bosun.Platform

/-!
# Child processes

A child is started, asked now and then whether it has finished, and killed when
it has had its time.  `wait` is that loop; what counts as having had its time is
a parameter, since one caller looks at the time alone and another at the cancel
token as well.

One child runs at a time, so a `Processes` needs no handles for them.  Whatever
a child does, it turns back neither the clock nor the token.
-/

namespace Bosun

/-- The code is missing when a signal ended the process. -/
structure ExitStatus where
  code : Option Int
deriving DecidableEq, Repr

def ExitStatus.success (status : ExitStatus) : Bool := status.code = some 0

structure Processes {S : Type} (plat : Platform S) where
  spawn : String → List String → S → Except String Unit × S
  /-- `Child::try_wait` -/
  tryWait : S → Except String (Option ExitStatus) × S
  /-- kill and reap -/
  kill : S → S
  /-- all of the output, decoded lossily like every output here -/
  stdout : S → String
  stderr : S → String
  /-- the first bytes of stderr, so many of them -/
  stderrExcerpt : Nat → S → String
  clock_le_spawn : ∀ cmd args s, plat.clock s ≤ plat.clock (spawn cmd args s).2
  clock_le_tryWait : ∀ s, plat.clock s ≤ plat.clock (tryWait s).2
  clock_le_kill : ∀ s, plat.clock s ≤ plat.clock (kill s)
  cancelled_spawn : ∀ cmd args s, plat.cancelled s = true →
    plat.cancelled (spawn cmd args s).2 = true
  cancelled_tryWait : ∀ s, plat.cancelled s = true → plat.cancelled (tryWait s).2 = true
  cancelled_kill : ∀ s, plat.cancelled s = true → plat.cancelled (kill s) = true

theorem Platform.quiet_clock_le (s : Nat) : quiet.clock s ≤ quiet.clock s := Nat.le_refl _

theorem Platform.quiet_clock_le_spawn (_cmd : String) (_args : List String) (s : Nat) :
    quiet.clock s ≤ quiet.clock s := Nat.le_refl _

/-- A machine on which no program can be started. -/
def Processes.bare : Processes Platform.quiet where
  spawn _ _ s := (.error "No such file or directory (os error 2)", s)
  tryWait s := (.ok none, s)
  kill s := s
  stdout _ := ""
  stderr _ := ""
  stderrExcerpt _ _ := ""
  clock_le_spawn := Platform.quiet_clock_le_spawn
  clock_le_tryWait := Platform.quiet_clock_le
  clock_le_kill := Platform.quiet_clock_le
  cancelled_spawn _ _ _ h := h
  cancelled_tryWait _ h := h
  cancelled_kill _ h := h

/-- How a wait ends. -/
inductive WaitOutcome
  | exited (status : ExitStatus)
  | givenUp
  | tryWaitFailed (error : String)
deriving DecidableEq, Repr

namespace Processes

variable {S : Type} {plat : Platform S} (procs : Processes plat)

/-- One turn of the polling loop; no outcome when the child goes on.  `giveUp`
    looks at clock and token and says whether the child has had its time. -/
def turn (giveUp : S → Bool × S) (s : S) : Option WaitOutcome × S :=
  match procs.tryWait s with
  | (.ok (some status), s) => (some (.exited status), s)
  | (.ok none, s) =>
    let (had, s) := giveUp s
    if had then (some .givenUp, procs.kill s) else (none, s)
  | (.error error, s) => (some (.tryWaitFailed error), s)

/-- At most `fuel` turns, with a pause after each. -/
def waitLoop (giveUp : S → Bool × S) : Nat → S → WaitOutcome × S
  | 0, s => (.givenUp, procs.kill s)
  | fuel + 1, s =>
    match procs.turn giveUp s with
    | (some outcome, s) => (outcome, s)
    | (none, s) => waitLoop giveUp fuel (plat.sleep Platform.POLL s)

/-- The loop with the turns it takes the clock to reach `deadline`. -/
def wait (deadline : Nat) (giveUp : S → Bool × S) (s : S) : WaitOutcome × S :=
  procs.waitLoop giveUp ((deadline - plat.clock s) / Platform.POLL + 2) s

/-- At `deadline` the child has had its time. -/
structure EndsAt (plat : Platform S) (deadline : Nat) (giveUp : S → Bool × S) : Prop where
  clock_le : ∀ s, plat.clock s ≤ plat.clock (giveUp s).2
  ends : ∀ s, deadline ≤ plat.clock s → (giveUp s).1 = true

section Wait

variable {deadline : Nat} {giveUp : S → Bool × S} (h : EndsAt plat deadline giveUp)
include h

/-- A turn after which the child goes on began before the deadline, and took
    no time back. -/
theorem turn_goesOn {s s' : S} (hturn : procs.turn giveUp s = (none, s')) :
    plat.clock s < deadline ∧ plat.clock s ≤ plat.clock s' := by
  have htry := procs.clock_le_tryWait s
  unfold turn at hturn
  rcases hpoll : procs.tryWait s with ⟨answer, s₁⟩
  simp only [hpoll] at htry hturn
  match answer with
  | .ok (some status) => simp at hturn
  | .error error => simp at hturn
  | .ok none =>
    have hgive := h.clock_le s₁
    have hends := h.ends s₁
    rcases hhad : giveUp s₁ with ⟨had, s₂⟩
    simp only [hhad] at hturn hgive hends
    cases had with
    | true => simp at hturn
    | false =>
      obtain rfl : s₂ = s' := by simpa using hturn
      have hlt : plat.clock s₁ < deadline := by
        by_contra hle
        exact absurd (hends (by omega)) (by simp)
      omega

omit h in
theorem turn_givenUp {s s' : S} (hturn : procs.turn giveUp s = (some .givenUp, s')) :
    ∃ s₁, (giveUp s₁).1 = true ∧ s' = procs.kill (giveUp s₁).2 := by
  unfold turn at hturn
  rcases hpoll : procs.tryWait s with ⟨_ | _ | status, s₁⟩ <;> simp only [hpoll] at hturn
  · simp at hturn
  · refine ⟨s₁, ?_⟩
    rcases hhad : giveUp s₁ with ⟨had, s₂⟩
    cases had with
    | false => simp [hhad] at hturn
    | true => exact ⟨rfl, by simpa [hhad] using hturn.symm⟩
  · simp at hturn

/-- The bound on the turns is never what ends the loop. -/
theorem waitLoop_add (fuel more : Nat) {s : S}
    (hfuel : deadline ≤ plat.clock s + fuel * Platform.POLL) :
    procs.waitLoop giveUp (fuel + 1 + more) s = procs.waitLoop giveUp (fuel + 1) s := by
  induction fuel generalizing s with
  | zero =>
    rw [Nat.zero_add, Nat.add_comm 1 more]
    unfold waitLoop
    rcases hturn : procs.turn giveUp s with ⟨_ | outcome, s₁⟩
    · have := (procs.turn_goesOn h hturn).1
      omega
    · rfl
  | succ fuel ih =>
    rw [show fuel + 1 + 1 + more = (fuel + 1 + more) + 1 by omega]
    simp only [waitLoop.eq_2]
    rcases hturn : procs.turn giveUp s with ⟨_ | outcome, s₁⟩
    · have hclock := (procs.turn_goesOn h hturn).2
      have hsleep := plat.clock_add_le_sleep Platform.POLL s₁
      rw [Nat.add_mul, Nat.one_mul] at hfuel
      exact ih (by omega)
    · rfl

omit h in
theorem deadline_le_turns (deadline : Nat) (s : S) : deadline ≤
    plat.clock s + ((deadline - plat.clock s) / Platform.POLL + 1) * Platform.POLL := by
  have := Nat.lt_div_mul_add (a := deadline - plat.clock s) (b := Platform.POLL) (by decide)
  rw [Nat.add_mul]
  omega

theorem wait_eq (more : Nat) (s : S) :
    procs.waitLoop giveUp ((deadline - plat.clock s) / Platform.POLL + 2 + more) s =
      procs.wait deadline giveUp s :=
  procs.waitLoop_add h _ more (deadline_le_turns deadline s)

/-- A child is killed only after it has had its time. -/
theorem wait_givenUp {s s' : S} (hwait : procs.wait deadline giveUp s = (.givenUp, s')) :
    ∃ s₁, (giveUp s₁).1 = true ∧ s' = procs.kill (giveUp s₁).2 := by
  have hloop : ∀ fuel s, deadline ≤ plat.clock s + fuel * Platform.POLL →
      procs.waitLoop giveUp (fuel + 1) s = (.givenUp, s') →
      ∃ s₁, (giveUp s₁).1 = true ∧ s' = procs.kill (giveUp s₁).2 := by
    intro fuel
    induction fuel with
    | zero =>
      intro s hfuel hrun
      rw [waitLoop.eq_2] at hrun
      rcases hturn : procs.turn giveUp s with ⟨_ | outcome, s₁⟩
      · have := (procs.turn_goesOn h hturn).1
        omega
      · simp only [hturn, Prod.mk.injEq] at hrun
        obtain ⟨rfl, rfl⟩ := hrun
        exact procs.turn_givenUp hturn
    | succ fuel ih =>
      intro s hfuel hrun
      rw [waitLoop.eq_2] at hrun
      rcases hturn : procs.turn giveUp s with ⟨_ | outcome, s₁⟩
      · have hclock := (procs.turn_goesOn h hturn).2
        have hsleep := plat.clock_add_le_sleep Platform.POLL s₁
        rw [Nat.add_mul, Nat.one_mul] at hfuel
        exact ih (plat.sleep Platform.POLL s₁) (by omega) (by simpa only [hturn] using hrun)
      · simp only [hturn, Prod.mk.injEq] at hrun
        obtain ⟨rfl, rfl⟩ := hrun
        exact procs.turn_givenUp hturn
  exact hloop _ s (deadline_le_turns deadline s) hwait

end Wait

end Processes

end Bosun
