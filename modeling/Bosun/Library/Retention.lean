import Mathlib.Data.List.Sort

/-!
# Keeping the last few

A list in increasing order, of which all but the last `keep` are dropped.  Whether an element
is dropped depends on how many are greater (`mem_oldest_iff`).  Where only some of the list
are owned, `oldest_owned_iff` says when the drop is what a drop from the owned ones alone
would be and spares a given element: nothing is dropped at all, or everything is owned and
fewer than `keep` are greater than the one to spare.
-/

namespace Retention

variable {α : Type*} [LinearOrder α]

/-- All but the last `keep`. -/
def oldest (keep : Nat) (l : List α) : List α := l.take (l.length - keep)

/-- The elements that are greater. -/
def above (l : List α) (x : α) : List α := l.filter (x < ·)

theorem above_cons_of_le {x y : α} {l : List α} (h : y ≤ x) : above (y :: l) x = above l x := by
  rw [above, List.filter_cons_of_neg (by simpa using h)]
  rfl

/-- The first of a list is below all the others. -/
theorem above_head {x : α} {l : List α} (h : (x :: l).Pairwise (· < ·)) : above (x :: l) x = l := by
  rw [above_cons_of_le le_rfl, above, List.filter_eq_self]
  intro y hy
  simpa using List.rel_of_pairwise_cons h hy

theorem length_above_lt {l : List α} {x : α} (hx : x ∈ l) : (above l x).length < l.length := by
  rw [above, List.length_filter_lt_length_iff_exists]
  exact ⟨x, hx, by simp⟩

/-- In increasing order, the position says how many are greater. -/
theorem length_above_getElem {l : List α} (h : l.Pairwise (· < ·)) : ∀ {i : Nat}
    (hi : i < l.length), (above l l[i]).length = l.length - (i + 1) := by
  induction l with
  | nil =>
    intro i hi
    simp at hi
  | cons y l ih =>
    intro i hi
    cases i with
    | zero =>
      rw [List.getElem_cons_zero, above_head h, List.length_cons]
      omega
    | succ i =>
      rw [List.length_cons] at hi
      have hlt : y < l[i] := List.rel_of_pairwise_cons h (List.getElem_mem (by omega))
      rw [List.getElem_cons_succ, above_cons_of_le hlt.le, ih h.of_cons (by omega),
        List.length_cons]
      omega

/-- An element is dropped when at least `keep` are greater. -/
theorem mem_oldest_iff {keep : Nat} {l : List α} (h : l.Pairwise (· < ·)) {x : α} :
    x ∈ oldest keep l ↔ x ∈ l ∧ keep ≤ (above l x).length := by
  induction l with
  | nil => simp [oldest]
  | cons y l ih =>
    have htail := h.of_cons
    by_cases hkeep : keep ≤ l.length
    · have hcons : oldest keep (y :: l) = y :: oldest keep l := by
        rw [oldest, List.length_cons, Nat.succ_sub hkeep, List.take_succ_cons]
        rfl
      rw [hcons, List.mem_cons, List.mem_cons, ih htail]
      constructor
      · rintro (rfl | ⟨hx, hle⟩)
        · exact ⟨.inl rfl, by rwa [above_head h]⟩
        · have hlt := List.rel_of_pairwise_cons h hx
          exact ⟨.inr hx, by rwa [above_cons_of_le hlt.le]⟩
      · rintro ⟨rfl | hx, hle⟩
        · exact .inl rfl
        · have hlt := List.rel_of_pairwise_cons h hx
          rw [above_cons_of_le hlt.le] at hle
          exact .inr ⟨hx, hle⟩
    · -- nothing is dropped
      have hnil : oldest keep (y :: l) = [] := by
        rw [oldest, List.length_cons, Nat.sub_eq_zero_of_le (by omega), List.take_zero]
      rw [hnil]
      simp only [List.not_mem_nil, false_iff, not_and, not_le]
      intro hx
      have hlt := length_above_lt hx
      rw [List.length_cons] at hlt
      omega

/-- What is dropped is below what is kept. -/
theorem lt_of_mem_oldest {keep : Nat} {l : List α} (h : l.Pairwise (· < ·)) {x y : α}
    (hx : x ∈ oldest keep l) (hy : y ∈ l) (hkept : y ∉ oldest keep l) : x < y := by
  rw [mem_oldest_iff h] at hx hkept
  by_contra hnot
  have hle : y ≤ x := not_lt.mp hnot
  have hsub : (above l x).length ≤ (above l y).length := by
    apply List.Sublist.length_le
    apply List.monotone_filter_right
    intro z hz
    simpa using lt_of_le_of_lt hle (by simpa using hz)
  exact hkept ⟨hy, hx.2.trans hsub⟩

section Owned

variable (owned : α → Prop) [DecidablePred owned]

/-- What is dropped is owned, `new` is spared, and of the owned those are kept that have fewer than
    `keep` owned ones above them. -/
def DropsOwned (keep : Nat) (l : List α) (new : α) : Prop :=
  (∀ x ∈ oldest keep l, owned x) ∧ new ∉ oldest keep l ∧
    ∀ x ∈ l, owned x → (x ∉ oldest keep l ↔ (above (l.filter owned) x).length < keep)

theorem above_filter (l : List α) (x : α) :
    above (l.filter owned) x = (above l x).filter owned := by
  simp only [above, List.filter_filter, Bool.and_comm]

theorem oldest_owned_iff {keep : Nat} {l : List α} (h : l.Pairwise (· < ·)) {new : α}
    (hnew : new ∈ l) : DropsOwned owned keep l new ↔
      l.length ≤ keep ∨ (∀ x ∈ l, owned x) ∧ (above l new).length < keep := by
  constructor
  · rintro ⟨hdropped, hspared, hkept⟩
    by_cases hfew : l.length ≤ keep
    · exact .inl hfew
    right
    have hnewAbove : (above l new).length < keep := by
      rw [mem_oldest_iff h] at hspared
      push Not at hspared
      exact hspared hnew
    refine ⟨?_, hnewAbove⟩
    -- the greatest of the dropped has exactly `keep` above it, all of them owned
    have hlast : l.length - keep - 1 < l.length := by omega
    have hexact : (above l l[l.length - keep - 1]).length = keep := by
      rw [length_above_getElem h hlast]
      omega
    have hd : l[l.length - keep - 1] ∈ oldest keep l := by
      rw [mem_oldest_iff h]
      exact ⟨List.getElem_mem hlast, hexact.ge⟩
    have hmany := mt (hkept _ (List.getElem_mem hlast) (hdropped _ hd)).mpr (not_not_intro hd)
    rw [above_filter, not_lt] at hmany
    have hall : (above l l[l.length - keep - 1]).filter owned =
        above l l[l.length - keep - 1] := by
      apply List.Sublist.eq_of_length_le List.filter_sublist
      rwa [hexact]
    intro x hx
    by_cases hxd : x ∈ oldest keep l
    · exact hdropped x hxd
    · have hlt := lt_of_mem_oldest h hd hx hxd
      have hmem : x ∈ above l l[l.length - keep - 1] := by
        rw [above, List.mem_filter]
        exact ⟨hx, by simpa using hlt⟩
      rw [← hall, List.mem_filter] at hmem
      simpa using hmem.2
  · rintro (hfew | ⟨hall, hnewAbove⟩)
    · have hnone : ∀ x, x ∉ oldest keep l := by
        intro x hx
        rw [mem_oldest_iff h] at hx
        have hlt := length_above_lt hx.1
        omega
      refine ⟨fun x hx => absurd hx (hnone x), hnone new, fun x hx _ => ?_⟩
      have hle := (List.filter_sublist (p := fun y => decide (owned y)) (l := above l x)).length_le
      have hlt := length_above_lt hx
      rw [above_filter]
      exact iff_of_true (hnone x) (by omega)
    · refine ⟨fun x hx => hall x (List.mem_of_mem_take hx), ?_, fun x hx _ => ?_⟩
      · rw [mem_oldest_iff h]
        rintro ⟨-, hle⟩
        omega
      · have hself : l.filter (fun y => decide (owned y)) = l := by
          rw [List.filter_eq_self]
          intro y hy
          simpa using hall y hy
        rw [hself, mem_oldest_iff h, not_and, not_le]
        exact ⟨fun hlt => hlt hx, fun hlt _ => hlt⟩

end Owned

end Retention
