import Mathlib.Algebra.Group.Nat.Defs
import Mathlib.Data.Nat.Init
import Mathlib.Order.Basic

/-!
# Clock, cancel token and the pacer

Everything bosun reads from the outside while it applies resources goes through
a state `S` that nobody in this development looks into: the clock, the cancel
token that SIGTERM and SIGINT fire, the daemons, the child processes.  A
`Platform` says what the standard library promises about two of them: the clock
does not run backwards, a sleep lasts at least as long as asked, and a token
that has fired stays fired.

`tick` is what happens outside between two instructions of the program; every
poll of the token ticks first, so a signal may arrive at any moment.
-/

namespace Bosun

/-- Durations and instants are counted in nanoseconds. -/
structure Platform (S : Type) where
  /-- `Instant::now()` -/
  clock : S → Nat
  /-- `CancellationToken::is_cancelled()` -/
  cancelled : S → Bool
  tick : S → S
  sleep : Nat → S → S
  clock_le_tick : ∀ s, clock s ≤ clock (tick s)
  clock_add_le_sleep : ∀ d s, clock s + d ≤ clock (sleep d s)
  cancelled_tick : ∀ s, cancelled s = true → cancelled (tick s) = true
  cancelled_sleep : ∀ d s, cancelled s = true → cancelled (sleep d s) = true

namespace Platform

variable {S : Type} (plat : Platform S)

/-- One poll of the token. -/
def isCancelled (s : S) : Bool × S := (plat.cancelled (plat.tick s), plat.tick s)

/-- `cancelled_or_past_deadline` of `PlanCtx` and `ApplyCtx`. -/
def cancelledOrPastDeadline (deadline : Nat) (s : S) : Bool × S :=
  let s := plat.tick s
  (plat.cancelled s || decide (deadline ≤ plat.clock s), s)

/-- The run was told to stop: the token has fired or the deadline is over. -/
def Interrupted (deadline : Nat) (s : S) : Prop :=
  plat.cancelled s = true ∨ deadline ≤ plat.clock s

instance (deadline : Nat) (s : S) : Decidable (plat.Interrupted deadline s) :=
  inferInstanceAs (Decidable (_ ∨ _))

theorem interrupted_of_cancelledOrPastDeadline {deadline : Nat} {s : S}
    (h : (plat.cancelledOrPastDeadline deadline s).1 = true) :
    plat.Interrupted deadline (plat.cancelledOrPastDeadline deadline s).2 := by
  simpa [cancelledOrPastDeadline, Interrupted] using h

/-! ## `cancellable_sleep` -/

/-- 50 ms. -/
def POLL : Nat := 50000000

/-- At most `fuel` turns of `while start.elapsed() < total`; the `Bool` is
    `false` when the token was seen inside the loop. -/
def sleepLoop (start total : Nat) : Nat → S → Bool × S
  | 0, s => (true, s)
  | fuel + 1, s =>
    if plat.clock s - start < total then
      let (cancelled, s) := plat.isCancelled s
      if cancelled then (false, s)
      else
        let remaining := total - (plat.clock s - start)
        sleepLoop start total fuel (plat.sleep (min remaining POLL) s)
    else (true, s)

/-- Sleep in steps of `POLL`, leaving early when the token fires. -/
def cancellableSleep (total : Nat) (s : S) : Bool × S :=
  let (slept, s) := plat.sleepLoop (plat.clock s) total (total / POLL + 1) s
  if slept then
    let (cancelled, s) := plat.isCancelled s
    (!cancelled, s)
  else (false, s)

/-- The bound on the turns is never what ends the loop: unless the token was
    seen, the whole time has passed. -/
theorem sleepLoop_elapsed {start total : Nat} (fuel : Nat) {s : S}
    (hstart : start ≤ plat.clock s) (hfuel : start + total ≤ plat.clock s + fuel * POLL)
    (hslept : (plat.sleepLoop start total fuel s).1 = true) :
    start + total ≤ plat.clock (plat.sleepLoop start total fuel s).2 := by
  induction fuel generalizing s with
  | zero => simpa [sleepLoop] using hfuel
  | succ fuel ih =>
    by_cases hlt : plat.clock s - start < total
    · cases hc : plat.cancelled (plat.tick s) with
      | true => simp [sleepLoop, isCancelled, hlt, hc] at hslept
      | false =>
        simp only [sleepLoop, isCancelled, if_pos hlt, hc, Bool.false_eq_true, if_false]
          at hslept ⊢
        have htick := plat.clock_le_tick s
        have hsleep := plat.clock_add_le_sleep
          (min (total - (plat.clock (plat.tick s) - start)) POLL) (plat.tick s)
        rw [Nat.add_mul, Nat.one_mul] at hfuel
        -- a turn sleeps `POLL`, or whatever is left of the total
        refine ih (by omega) ?_ hslept
        rcases Nat.le_total (total - (plat.clock (plat.tick s) - start)) POLL with hle | hle
        · rw [Nat.min_eq_left hle] at hsleep ⊢
          omega
        · rw [Nat.min_eq_right hle] at hsleep ⊢
          omega
    · simp only [sleepLoop, if_neg hlt]
      omega

theorem cancellableSleep_elapsed {total : Nat} {s : S}
    (hslept : (plat.cancellableSleep total s).1 = true) :
    plat.clock s + total ≤ plat.clock (plat.cancellableSleep total s).2 := by
  have hfuel : plat.clock s + total ≤ plat.clock s + (total / POLL + 1) * POLL := by
    have := Nat.lt_div_mul_add (a := total) (b := POLL) (by decide)
    rw [Nat.add_mul]
    omega
  cases hloop : (plat.sleepLoop (plat.clock s) total (total / POLL + 1) s).1 with
  | false => simp [cancellableSleep, hloop] at hslept
  | true =>
    have helapsed := plat.sleepLoop_elapsed _ (Nat.le_refl _) hfuel hloop
    have htick := plat.clock_le_tick
      (plat.sleepLoop (plat.clock s) total (total / POLL + 1) s).2
    simp only [cancellableSleep, hloop, if_true, isCancelled]
    omega

/-- A sleep that does not last its time was cut short by the token. -/
theorem cancelled_of_cancellableSleep {total : Nat} {s : S}
    (hslept : (plat.cancellableSleep total s).1 = false) :
    plat.cancelled (plat.cancellableSleep total s).2 = true := by
  have hloop : ∀ (fuel : Nat) (s : S), (plat.sleepLoop (plat.clock s) total fuel s).1 = false →
      plat.cancelled (plat.sleepLoop (plat.clock s) total fuel s).2 = true := by
    intro fuel s
    generalize plat.clock s = start
    induction fuel generalizing s with
    | zero => simp [sleepLoop]
    | succ fuel ih =>
      by_cases hlt : plat.clock s - start < total
      · cases hc : plat.cancelled (plat.tick s) with
        | true => simp [sleepLoop, isCancelled, hlt, hc]
        | false => simpa [sleepLoop, isCancelled, hlt, hc] using ih _
      · simp [sleepLoop, hlt]
  cases hl : (plat.sleepLoop (plat.clock s) total (total / POLL + 1) s).1 with
  | false => simpa [cancellableSleep, hl] using hloop _ s hl
  | true => simpa [cancellableSleep, hl, isCancelled] using hslept

/-- What a tick and a sleep preserve, a cancellable sleep preserves. -/
theorem cancellableSleep_induction (Inv : S → Prop) (htick : ∀ s, Inv s → Inv (plat.tick s))
    (hsleep : ∀ d s, Inv s → Inv (plat.sleep d s)) (total : Nat) {s : S} (h : Inv s) :
    Inv (plat.cancellableSleep total s).2 := by
  have hloop : ∀ (start fuel : Nat) (s : S), Inv s →
      Inv (plat.sleepLoop start total fuel s).2 := by
    intro start fuel
    induction fuel with
    | zero => exact fun s h => h
    | succ fuel ih =>
      intro s h
      by_cases hlt : plat.clock s - start < total
      · cases hc : plat.cancelled (plat.tick s) with
        | true => simpa [sleepLoop, isCancelled, hlt, hc] using htick s h
        | false => simpa [sleepLoop, isCancelled, hlt, hc] using ih _ (hsleep _ _ (htick s h))
      · simpa [sleepLoop, hlt] using h
  have hend := hloop (plat.clock s) (total / POLL + 1) s h
  cases hslept : (plat.sleepLoop (plat.clock s) total (total / POLL + 1) s).1 with
  | true => simpa [cancellableSleep, isCancelled, hslept] using htick _ hend
  | false => simpa [cancellableSleep, hslept] using hend

/-- A machine on which time passes only in sleeps and nobody fires the token. -/
def quiet : Platform Nat where
  clock s := s
  cancelled _ := false
  tick s := s
  sleep d s := s + d
  clock_le_tick _ := Nat.le_refl _
  clock_add_le_sleep _ _ := Nat.le_refl _
  cancelled_tick _ h := h
  cancelled_sleep _ _ h := h

end Platform

/-! ## The pacer -/

/-- Spreads a run over time; `target = 0` switches it off. -/
structure PacerConfig where
  target : Nat
  minInterval : Nat
  maxInterval : Nat

namespace PacerConfig

def disabled : PacerConfig := ⟨0, 0, 0⟩

def isEnabled (pacer : PacerConfig) : Bool := pacer.target ≠ 0

/-- `u32::try_from(n).unwrap_or(u32::MAX)`. -/
def countAsU32 (n : Nat) : Nat := min n (2 ^ 32 - 1)

/-- The pause between two of `resourceCount` resources. -/
def intervalFor (pacer : PacerConfig) (resourceCount : Nat) : Nat :=
  if !pacer.isEnabled || resourceCount = 0 then 0
  else
    let raw := pacer.target / countAsU32 resourceCount
    if pacer.maxInterval < pacer.minInterval then pacer.minInterval
    else max pacer.minInterval (min raw pacer.maxInterval)

theorem intervalFor_disabled (n : Nat) : disabled.intervalFor n = 0 := by
  simp [intervalFor, disabled, isEnabled]

end PacerConfig

end Bosun
