import Mathlib.Data.Nat.Find

/-!
# Polling loops

A loop looks at the world, turn after turn with a pause in between, until one look
decides.  How often it will have to look is not known beforehand, so the loop is run with
fuel, and what it comes back with is what it comes back with for some fuel.

`run_eq_some_iff` says what that is without the fuel: the answer of the first look that
decides.  A loop whose looks are decided by a clock comes back if every turn takes time.
-/

namespace Polling

variable {S α : Type} (turn : S → Option α × S) (pause : S → S)

/-- At most `fuel` looks; nothing when none of them decides. -/
def run : Nat → S → Option (α × S)
  | 0, _ => none
  | fuel + 1, s =>
    match turn s with
    | (some a, s) => some (a, s)
    | (none, s) => run fuel (pause s)

/-- The state at the `k`-th look, if the loop gets there. -/
def stateAt (s : S) : Nat → S
  | 0 => s
  | k + 1 => stateAt (pause (turn s).2) k

/-- Look `k` is the first that decides. -/
def DecidesAt (s : S) (k : Nat) : Prop :=
  (∀ j < k, (turn (stateAt turn pause s j)).1 = none) ∧
    ((turn (stateAt turn pause s k)).1).isSome = true

variable {turn pause} {s : S}

theorem stateAt_succ (s : S) (k : Nat) :
    stateAt turn pause s (k + 1) = pause (turn (stateAt turn pause s k)).2 := by
  induction k generalizing s with
  | zero => rfl
  | succ k ih => exact ih (pause (turn s).2)

theorem run_of_decidesAt {k fuel : Nat} (h : DecidesAt turn pause s k) (hfuel : k < fuel) :
    ∃ a, (turn (stateAt turn pause s k)).1 = some a ∧
      run turn pause fuel s = some (a, (turn (stateAt turn pause s k)).2) := by
  induction k generalizing s fuel with
  | zero =>
    obtain ⟨fuel, rfl⟩ := Nat.exists_eq_succ_of_ne_zero (Nat.ne_of_gt hfuel)
    obtain ⟨a, ha⟩ := Option.isSome_iff_exists.mp h.2
    refine ⟨a, ha, ?_⟩
    rw [stateAt] at ha ⊢
    rcases hturn : turn s with ⟨_ | a', s'⟩ <;> simp_all [run]
  | succ k ih =>
    obtain ⟨fuel, rfl⟩ := Nat.exists_eq_succ_of_ne_zero (Nat.ne_of_gt (Nat.zero_lt_of_lt hfuel))
    have hnone : (turn s).1 = none := h.1 0 (Nat.succ_pos k)
    have hrest : DecidesAt turn pause (pause (turn s).2) k :=
      ⟨fun j hj => h.1 (j + 1) (Nat.succ_lt_succ hj), h.2⟩
    obtain ⟨a, ha, hrun⟩ := ih hrest (Nat.lt_of_succ_lt_succ hfuel)
    refine ⟨a, ha, ?_⟩
    rw [run]
    rcases hturn : turn s with ⟨_ | a', s'⟩
    · rw [hturn] at hrun ha
      simpa only [stateAt, hturn] using hrun
    · rw [hturn] at hnone
      cases hnone

theorem decidesAt_of_run {fuel : Nat} {r : α × S} (h : run turn pause fuel s = some r) :
    ∃ k < fuel, DecidesAt turn pause s k := by
  induction fuel generalizing s with
  | zero => cases h
  | succ fuel ih =>
    rw [run] at h
    rcases hturn : turn s with ⟨_ | a, s'⟩
    · rw [hturn] at h
      obtain ⟨k, hk, hbefore, hdecides⟩ := ih h
      have hnext : pause (turn s).2 = pause s' := by rw [hturn]
      refine ⟨k + 1, Nat.succ_lt_succ hk, ?_, ?_⟩
      · intro j hj
        cases j with
        | zero => rw [stateAt, hturn]
        | succ j =>
          rw [stateAt, hnext]
          exact hbefore j (Nat.lt_of_succ_lt_succ hj)
      · rw [stateAt, hnext]
        exact hdecides
    · exact ⟨0, Nat.succ_pos _, fun j hj => absurd hj (Nat.not_lt_zero j), by simp [stateAt, hturn]⟩

/-- **The loop comes back with the answer of the first look that decides.** -/
theorem run_eq_some_iff {a : α} : (∃ fuel s', run turn pause fuel s = some (a, s')) ↔
    ∃ k, (∀ j < k, (turn (stateAt turn pause s j)).1 = none) ∧
      (turn (stateAt turn pause s k)).1 = some a := by
  constructor
  · rintro ⟨fuel, s', hrun⟩
    obtain ⟨k, hk, hdecides⟩ := decidesAt_of_run hrun
    obtain ⟨a', ha', hrun'⟩ := run_of_decidesAt hdecides hk
    rw [hrun] at hrun'
    obtain rfl : a = a' := congrArg Prod.fst (Option.some.inj hrun')
    exact ⟨k, hdecides.1, ha'⟩
  · rintro ⟨k, hbefore, ha⟩
    obtain ⟨a', ha', hrun⟩ :=
      run_of_decidesAt ⟨hbefore, by simp [ha]⟩ (Nat.lt_succ_self k)
    obtain rfl : a' = a := Option.some.inj (ha'.symm.trans ha)
    exact ⟨k + 1, _, hrun⟩

/-- **Every turn takes time, and a look after the deadline decides: so some look decides.** -/
theorem exists_decidesAt (clock : S → Nat) {deadline step : Nat} (hstep : 0 < step)
    (hturn : ∀ s, (turn s).1 = none →
      clock s < deadline ∧ clock s + step ≤ clock (pause (turn s).2)) (s : S) :
    ∃ k, DecidesAt turn pause s k := by
  have hsome : ∃ k, ((turn (stateAt turn pause s k)).1).isSome = true := by
    by_contra hnone
    have hall : ∀ k, (turn (stateAt turn pause s k)).1 = none := fun k =>
      Option.not_isSome_iff_eq_none.mp fun h => hnone ⟨k, h⟩
    have hclock : ∀ k, k * step ≤ clock (stateAt turn pause s k) := by
      intro k
      induction k with
      | zero => simp
      | succ k ih =>
        have := (hturn _ (hall k)).2
        rw [stateAt_succ, Nat.add_mul]
        omega
    have hlt := (hturn _ (hall deadline)).1
    have hle := hclock deadline
    have := Nat.le_mul_of_pos_right deadline hstep
    omega
  refine ⟨Nat.find hsome, fun j hj => ?_, Nat.find_spec hsome⟩
  exact Option.not_isSome_iff_eq_none.mp (Nat.find_min hsome hj)

end Polling
