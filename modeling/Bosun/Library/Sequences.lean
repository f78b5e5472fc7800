import Mathlib.Init

/-!
# Sequences of runs

A run `r` takes a state `s` to `after r s`; a sequence of runs goes through one state after
the other.  `EachStep` speaks about the runs and what they start from, `EachState` about the
states.  A property of the states that holds at the start is kept along a sequence exactly
when each run meets a condition, if that is so for one run: `eachState_iff_eachStep`.
-/

section Sequences

variable {ρ σ : Type*} (after : ρ → σ → σ)

/-- `p` holds of every run of the sequence and the state it starts from. -/
def EachStep (p : ρ → σ → Prop) : List ρ → σ → Prop
  | [], _ => True
  | r :: rs, s => p r s ∧ EachStep p rs (after r s)

/-- `p` holds of every state the sequence goes through, the first and the last with them. -/
def EachState (p : σ → Prop) : List ρ → σ → Prop
  | [], s => p s
  | r :: rs, s => p s ∧ EachState p rs (after r s)

variable {after}

theorem eachStep_congr {p q : ρ → σ → Prop} (hpq : ∀ r s, p r s ↔ q r s) (rs : List ρ) :
    ∀ s, EachStep after p rs s ↔ EachStep after q rs s := by
  induction rs with
  | nil =>
    intro s
    exact Iff.rfl
  | cons r rs ih =>
    intro s
    exact and_congr (hpq r s) (ih _)

theorem EachState.head {p : σ → Prop} {rs : List ρ} {s : σ} (h : EachState after p rs s) :
    p s := by
  cases rs with
  | nil => exact h
  | cons r rs => exact h.1

/-- The rule for an invariant `I` that all runs keep and a property `p` that some do not: `p` holds
    all along exactly when every run meets the condition `q`. -/
theorem eachState_iff_eachStep {I p : σ → Prop} {q : ρ → σ → Prop}
    (hinv : ∀ r s, I s → I (after r s)) (hstep : ∀ r s, I s → p s → (p (after r s) ↔ q r s))
    (rs : List ρ) : ∀ s, I s → p s → (EachState after p rs s ↔ EachStep after q rs s) := by
  induction rs with
  | nil =>
    intro s _ hp
    exact ⟨fun _ => trivial, fun _ => hp⟩
  | cons r rs ih =>
    intro s hI hp
    constructor
    · intro h
      have hafter : p (after r s) := h.2.head
      exact ⟨(hstep r s hI hp).mp hafter, (ih _ (hinv r s hI) hafter).mp h.2⟩
    · intro h
      have hafter : p (after r s) := (hstep r s hI hp).mpr h.1
      exact ⟨hp, (ih _ (hinv r s hI) hafter).mpr h.2⟩

end Sequences
