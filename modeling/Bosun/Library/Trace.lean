import Mathlib.Data.List.Count

/-!
# Lawful traces

A trace lists events, the newest first.  `Lawful admits trace` says that every event
was admitted by the events older than it.  An invariant of a run that speaks about the
order of its events is stated once, as what admits an event, and is then kept by showing
for each step that the event it adds is admitted.
-/

/-- Every event of the trace is admitted by those before it. -/
inductive Lawful {ε : Type*} (admits : List ε → ε → Prop) : List ε → Prop where
  | nil : Lawful admits []
  | cons {older : List ε} {e : ε} : admits older e → Lawful admits older →
      Lawful admits (e :: older)

namespace Lawful

variable {ε : Type*} {admits : List ε → ε → Prop}

theorem tail {older : List ε} {e : ε} (h : Lawful admits (e :: older)) : Lawful admits older := by
  cases h with
  | cons _ hrest => exact hrest

theorem of_append {newer older : List ε} (h : Lawful admits (newer ++ older)) :
    Lawful admits older := by
  induction newer with
  | nil => exact h
  | cons e newer ih => exact ih h.tail

/-- What admitted an event of the trace. -/
theorem admitted {newer older : List ε} {e : ε} (h : Lawful admits (newer ++ e :: older)) :
    admits older e := by
  cases h.of_append with
  | cons hadmits _ => exact hadmits

theorem admitted_of_mem {trace : List ε} {e : ε} (h : Lawful admits trace) (he : e ∈ trace) :
    ∃ older, older <:+ trace ∧ admits older e := by
  obtain ⟨newer, older, rfl⟩ := List.append_of_mem he
  exact ⟨older, ⟨newer ++ [e], by simp⟩, h.admitted⟩

/-- An event that is admitted only where it has not happened happens once at most. -/
theorem count_le_one [DecidableEq ε] {trace : List ε} {e : ε} (h : Lawful admits trace)
    (hfresh : ∀ older, admits older e → e ∉ older) : trace.count e ≤ 1 := by
  induction h with
  | nil => simp
  | @cons older a hadmits _ ih =>
    by_cases ha : a = e
    · subst ha
      have hzero := List.count_eq_zero_of_not_mem (hfresh older hadmits)
      simp [hzero]
    · rw [List.count_cons_of_ne ha]
      exact ih

/-- Two events of one kind that the newer must agree with are related. -/
theorem pairwise {R : ε → ε → Prop} {trace : List ε} (h : Lawful admits trace)
    (hR : ∀ older e, admits older e → ∀ e' ∈ older, R e e') : trace.Pairwise R := by
  induction h with
  | nil => exact List.Pairwise.nil
  | cons hadmits _ ih => exact List.Pairwise.cons (hR _ _ hadmits) ih

end Lawful
