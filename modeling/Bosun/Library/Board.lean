import Mathlib.Data.List.Perm.Basic
import Mathlib.Order.Bounds.Basic
import Mathlib.Logic.Function.Basic
import Mathlib.Order.Lattice

/-!
# A board that keeps the largest offer

For every key a board shows one value, and an offer for a key raises the value
to the join of the old one and the offered one.  What a board shows after a list
of offers is the least upper bound of what it showed before and of what was offered
(`isLUB_offers`), in whatever order the offers came.

This is what a deduplicating queue computes when a stronger request replaces a
weaker one and a weaker request is dropped.
-/

namespace Board

variable {κ α : Type*} [DecidableEq κ] [SemilatticeSup α]

/-- Raise the value of `k` to at least `a`. -/
def offer (b : κ → α) (k : κ) (a : α) : κ → α := Function.update b k (b k ⊔ a)

def offers (b : κ → α) (l : List (κ × α)) : κ → α :=
  l.foldl (fun b p => offer b p.1 p.2) b

@[simp] theorem offer_self (b : κ → α) (k : κ) (a : α) : offer b k a k = b k ⊔ a := by
  simp [offer]

theorem offer_of_ne (b : κ → α) {k k' : κ} (h : k' ≠ k) (a : α) : offer b k a k' = b k' := by
  simp [offer, h]

/-- An offer that is not above the present value changes nothing. -/
theorem offer_of_le {b : κ → α} {k : κ} {a : α} (h : a ≤ b k) : offer b k a = b := by
  rw [offer, sup_eq_left.mpr h, Function.update_eq_self]

/-- A key shows the least upper bound of its first value and of the offers for it. -/
theorem isLUB_offers (b : κ → α) (l : List (κ × α)) (k : κ) :
    IsLUB (insert (b k) {a | (k, a) ∈ l}) (offers b l k) := by
  induction l generalizing b with
  | nil => simp [offers]
  | cons p l ih =>
    obtain ⟨k', a'⟩ := p
    have hstep := ih (offer b k' a')
    refine ⟨?_, ?_⟩
    · rintro a (rfl | ha)
      · refine le_trans ?_ (hstep.1 (Set.mem_insert _ _))
        by_cases hk : k = k'
        · subst hk; simp
        · rw [offer_of_ne _ hk]
      · rcases List.mem_cons.mp ha with heq | ha
        · obtain ⟨rfl, rfl⟩ := Prod.mk.inj heq
          refine le_trans ?_ (hstep.1 (Set.mem_insert _ _))
          simp
        · exact hstep.1 (Set.mem_insert_of_mem _ ha)
    · intro u hu
      refine hstep.2 ?_
      rintro a (rfl | ha)
      · have hb : b k ≤ u := hu (Set.mem_insert _ _)
        by_cases hk : k = k'
        · subst hk
          rw [offer_self]
          exact sup_le hb (hu (Set.mem_insert_of_mem _ List.mem_cons_self))
        · rwa [offer_of_ne _ hk]
      · exact hu (Set.mem_insert_of_mem _ (List.mem_cons_of_mem _ ha))

theorem offers_append (b : κ → α) (l l' : List (κ × α)) :
    offers b (l ++ l') = offers (offers b l) l' := List.foldl_append

end Board

namespace Board

variable {κ α : Type*} [DecidableEq κ] [LinearOrder α]

/-- In a linear order the bound is one of the values. -/
theorem isGreatest_offers (b : κ → α) (l : List (κ × α)) (k : κ) :
    IsGreatest (insert (b k) {a | (k, a) ∈ l}) (offers b l k) := by
  refine ⟨?_, (isLUB_offers b l k).1⟩
  induction l generalizing b with
  | nil => simp [offers]
  | cons p l ih =>
    obtain ⟨k', a'⟩ := p
    rcases ih (offer b k' a') with heq | hmem
    · have hval : offers b ((k', a') :: l) k = offer b k' a' k := heq
      rw [hval]
      by_cases hk : k = k'
      · subst hk
        rw [offer_self]
        rcases le_total a' (b k) with hle | hle
        · exact .inl (sup_eq_left.mpr hle)
        · rw [sup_eq_right.mpr hle]
          exact .inr List.mem_cons_self
      · exact .inl (offer_of_ne _ hk _)
    · exact .inr (List.mem_cons_of_mem _ hmem)

end Board
