import Mathlib.Data.List.AList
import Mathlib.Data.List.MinMax

/-!
# The best so far

A pass over a list that keeps the best element it has met.  It is `List.argmax` where "better"
comes from a key (`best_split`); without transitivity the answer depends on the order, and
`best_of_stable` says when it still has a given property: an element has it, what that element
does not beat has it, and nothing without it beats what has it.  `lookup_foldl_keepAt` reads
the pass off a map that keeps the best for each name.
-/

namespace RunningBest

variable {α : Type*} (better : α → α → Prop) [DecidableRel better]

def best (l : List α) : Option α := l.foldl (List.argAux better) none

theorem best_concat (l : List α) (a : α) :
    best better (l ++ [a]) = List.argAux better (best better l) a := by
  rw [best, List.foldl_append]
  rfl

/-- What is best after a list, with `a` as the best before it. -/
theorem foldl_some (a : α) (l : List α) : ∃ b, l.foldl (List.argAux better) (some a) = some b ∧
    (b = a ∨ b ∈ l) := by
  induction l using List.reverseRecOn with
  | nil => exact ⟨a, rfl, .inl rfl⟩
  | append_singleton l c ih =>
    obtain ⟨b, hfold, hb⟩ := ih
    rw [List.foldl_append, hfold]
    by_cases hc : better c b
    · exact ⟨c, if_pos hc, .inr (by simp)⟩
    · exact ⟨b, if_neg hc, hb.imp_right (List.mem_append_left _)⟩

theorem best_eq_none {l : List α} : best better l = none ↔ l = [] := by
  simp [best]

variable {better} in
theorem best_mem {l : List α} {b : α} (h : best better l = some b) : b ∈ l := by
  cases l with
  | nil => simp [best] at h
  | cons a l =>
    obtain ⟨b', hfold, hb'⟩ := foldl_some better a l
    obtain rfl : b' = b := by
      have : some b' = some b := hfold.symm.trans h
      simpa using this
    simpa using hb'

/-! ## Better by a key -/

/-- The best is the first of the greatest. -/
theorem best_split {κ : Type*} [LinearOrder κ] (key : α → κ) {l : List α}
    (h : ∀ c ∈ l, ∀ d ∈ l, better c d ↔ key d < key c) {b : α} (hbest : best better l = some b) :
    ∃ before after, l = before ++ b :: after ∧ (∀ c ∈ before, key c < key b) ∧
      ∀ c ∈ after, key c ≤ key b := by
  induction l using List.reverseRecOn generalizing b with
  | nil => simp [best] at hbest
  | append_singleton l a ih =>
    have hfront : ∀ c ∈ l, ∀ d ∈ l, better c d ↔ key d < key c :=
      fun c hc d hd => h c (by simp [hc]) d (by simp [hd])
    rw [best_concat] at hbest
    cases hold : best better l with
    | none =>
      obtain rfl := (best_eq_none better).mp hold
      obtain rfl : a = b := by simpa [hold, List.argAux] using hbest
      exact ⟨[], [], rfl, by simp, by simp⟩
    | some old =>
      obtain ⟨before, after, hl, hbefore, hafter⟩ := ih hfront hold
      rw [hold] at hbest
      have hbeats := h a (by simp) old (by simp [best_mem hold])
      by_cases hnew : better a old
      · obtain rfl : a = b := by simpa [List.argAux, hnew] using hbest
        have hlt := hbeats.mp hnew
        refine ⟨l, [], rfl, ?_, by simp⟩
        intro c hc
        rw [hl] at hc
        rcases List.mem_append.mp hc with hc | hc
        · exact (hbefore c hc).trans hlt
        · rcases List.mem_cons.mp hc with rfl | hc
          · exact hlt
          · exact (hafter c hc).trans_lt hlt
      · obtain rfl : old = b := by simpa [List.argAux, hnew] using hbest
        refine ⟨before, after ++ [a], by simp [hl], hbefore, ?_⟩
        intro c hc
        rcases List.mem_append.mp hc with hc | hc
        · exact hafter c hc
        · obtain rfl := List.mem_singleton.mp hc
          exact not_lt.mp fun hlt => hnew (hbeats.mpr hlt)

/-! ## Better without an order -/

variable {better}

/-- The best keeps a property that nothing better takes from it. -/
theorem foldl_of_stable {P : α → Prop} {a : α} {l : List α} (ha : P a)
    (hkeep : ∀ old new, P old → new ∈ l → better new old → P new) :
    ∃ b, l.foldl (List.argAux better) (some a) = some b ∧ P b := by
  induction l generalizing a with
  | nil => exact ⟨a, rfl, ha⟩
  | cons c l ih =>
    have hrest : ∀ old new, P old → new ∈ l → better new old → P new :=
      fun old new hold hnew => hkeep old new hold (List.mem_cons_of_mem _ hnew)
    by_cases hc : better c a
    · obtain ⟨b, hfold, hb⟩ := ih (hkeep a c ha List.mem_cons_self hc) hrest
      exact ⟨b, by simpa [List.argAux, hc] using hfold, hb⟩
    · obtain ⟨b, hfold, hb⟩ := ih ha hrest
      exact ⟨b, by simpa [List.argAux, hc] using hfold, hb⟩

/-- **The property of the best in every order**: `m` brings it in, wherever it stands. -/
theorem best_of_stable {P : α → Prop} {m : α} {l : List α} (hmem : m ∈ l) (hm : P m)
    (henter : ∀ old ∈ l, ¬ better m old → P old)
    (hkeep : ∀ old new, P old → new ∈ l → better new old → P new) :
    ∃ b, best better l = some b ∧ P b := by
  obtain ⟨before, after, rfl⟩ := List.append_of_mem hmem
  have hrest : ∀ old new, P old → new ∈ after → better new old → P new :=
    fun old new hold hnew => hkeep old new hold (by simp [hnew])
  unfold best
  rw [List.foldl_append, List.foldl_cons]
  cases hfront : before.foldl (List.argAux better) none with
  | none => exact foldl_of_stable hm hrest
  | some old =>
    have hold : old ∈ before := best_mem hfront
    by_cases hbeat : better m old
    · simpa [List.argAux, hbeat] using foldl_of_stable hm hrest
    · simpa [List.argAux, hbeat] using
        foldl_of_stable (henter old (by simp [hold]) hbeat) hrest

/-- What is best stays so while nothing better comes. -/
theorem foldl_of_unbeaten {a : α} {l : List α} (h : ∀ c ∈ l, ¬ better c a) :
    l.foldl (List.argAux better) (some a) = some a := by
  obtain ⟨b, hfold, rfl⟩ := foldl_of_stable (P := (· = a)) (a := a) (l := l) rfl
    fun old new hold hnew hbeats => absurd (hold ▸ hbeats) (h new hnew)
  exact hfold

section Orders

variable {P : α → Prop} [DecidablePred P] {l : List α}

/-- Nothing with the property beats `d`: with `d` first and all that has the property next, the
    best is without it. -/
theorem exists_perm_of_unbeaten {d : α} (hmem : d ∈ l) (hd : ¬ P d)
    (h : ∀ c ∈ l, P c → ¬ better c d) :
    ∃ l' b, l.Perm l' ∧ best better l' = some b ∧ ¬ P b := by
  obtain ⟨before, after, rfl⟩ := List.append_of_mem hmem
  have hperm : (before ++ d :: after).Perm (d :: (before ++ after)) := List.perm_middle
  have hsplit := List.filter_append_perm (fun c => decide (P c)) (before ++ after)
  have hstay : ∀ c ∈ (before ++ after).filter fun c => P c, ¬ better c d := by
    intro c hc
    obtain ⟨hc, hp⟩ := List.mem_filter.mp hc
    exact h c (hperm.mem_iff.mpr (List.mem_cons_of_mem _ hc)) (by simpa using hp)
  obtain ⟨b, hfold, hb⟩ : ∃ b, ((before ++ after).filter fun c => ¬ P c).foldl
      (List.argAux better) (some d) = some b ∧ ¬ P b :=
    foldl_of_stable hd fun _ new _ hnew _ => by simpa using (List.mem_filter.mp hnew).2
  refine ⟨d :: ((before ++ after).filter (fun c => P c) ++
    (before ++ after).filter fun c => ¬ P c), b, ?_, ?_, hb⟩
  · exact hperm.trans (.cons d (by simpa using hsplit.symm))
  · have hfirst : List.argAux better none d = some d := rfl
    rw [best, List.foldl_cons, hfirst, List.foldl_append, foldl_of_unbeaten hstay]
    exact hfold

/-- Nothing with the property beats `c`, but something without it does: with `c` first and all
    that has the property next, the best is without it. -/
theorem exists_perm_of_beaten {c d : α} (hc : c ∈ l) (hmem : d ∈ l) (hd : ¬ P d)
    (hbeats : better d c) (h : ∀ c' ∈ l, P c' → ¬ better c' c) :
    ∃ l' b, l.Perm l' ∧ best better l' = some b ∧ ¬ P b := by
  by_cases hp : P c
  · obtain ⟨before, after, rfl⟩ := List.append_of_mem hc
    have hperm : (before ++ c :: after).Perm (c :: (before ++ after)) := List.perm_middle
    have hsplit := List.filter_append_perm (fun c => decide (P c)) (before ++ after)
    have hother : d ∈ (before ++ after).filter fun c => ¬ P c := by
      rcases List.mem_cons.mp (hperm.mem_iff.mp hmem) with rfl | hmem
      · exact absurd hp hd
      · exact List.mem_filter.mpr ⟨hmem, by simpa using hd⟩
    obtain ⟨before', after', hothers⟩ := List.append_of_mem hother
    have hstay : ∀ c' ∈ (before ++ after).filter fun c => P c, ¬ better c' c := by
      intro c' hc'
      obtain ⟨hc', hp'⟩ := List.mem_filter.mp hc'
      exact h c' (hperm.mem_iff.mpr (List.mem_cons_of_mem _ hc')) (by simpa using hp')
    obtain ⟨b, hfold, hb⟩ : ∃ b, (before' ++ after').foldl (List.argAux better) (some d) = some b ∧
        ¬ P b :=
      foldl_of_stable hd fun _ new _ hnew _ => by
        have hnew : new ∈ (before ++ after).filter fun c => ¬ P c := by
          rw [hothers]
          exact (List.perm_middle.mem_iff).mpr (List.mem_cons_of_mem _ hnew)
        simpa using (List.mem_filter.mp hnew).2
    refine ⟨c :: ((before ++ after).filter (fun c => P c) ++ d :: (before' ++ after')), b,
      ?_, ?_, hb⟩
    · refine hperm.trans (.cons c ?_)
      have hrest : ((before ++ after).filter fun c => ¬ P c).Perm (d :: (before' ++ after')) := by
        rw [hothers]
        exact List.perm_middle
      exact (by simpa using hsplit.symm : (before ++ after).Perm _).trans (.append_left _ hrest)
    · have hfirst : List.argAux better none c = some c := rfl
      have htakes : List.argAux better (some c) d = some d := if_pos hbeats
      rw [best, List.foldl_cons, hfirst, List.foldl_append, foldl_of_unbeaten hstay,
        List.foldl_cons, htakes]
      exact hfold
  · -- then `c` is the one that is first
    exact exists_perm_of_unbeaten hc hp h

end Orders

/-- Every order of what a list makes is made by some order of the list, when each element makes
    one thing at most. -/
theorem exists_perm_flatMap {β : Type*} {f : β → List α} {l : List β} {items : List α}
    (h : ∀ a ∈ l, (f a).length ≤ 1) (hperm : (l.flatMap f).Perm items) :
    ∃ l', l.Perm l' ∧ l'.flatMap f = items := by
  induction items generalizing l with
  | nil => exact ⟨l, .refl l, List.perm_nil.mp hperm⟩
  | cons item items ih =>
    obtain ⟨a, ha, hitem⟩ := List.mem_flatMap.mp (hperm.mem_iff.mpr List.mem_cons_self)
    have hsingle : f a = [item] := by
      have hlen := h a ha
      cases hfa : f a with
      | nil => simp [hfa] at hitem
      | cons b bs =>
        obtain rfl : bs = [] := by simpa [hfa] using hlen
        obtain rfl : item = b := by simpa [hfa] using hitem
        rfl
    obtain ⟨before, after, rfl⟩ := List.append_of_mem ha
    have hfront : (before ++ a :: after).Perm (a :: (before ++ after)) := List.perm_middle
    have hrest : ((before ++ after).flatMap f).Perm items := by
      have hall := (hfront.flatMap_right f).symm.trans hperm
      rw [List.flatMap_cons, hsingle] at hall
      exact hall.cons_inv
    obtain ⟨l', hl', hitems⟩ := ih
      (fun b hb => h b (hfront.mem_iff.mpr (List.mem_cons_of_mem _ hb))) hrest
    exact ⟨a :: l', hfront.trans (.cons a hl'), by rw [List.flatMap_cons, hsingle, hitems]; rfl⟩

/-! ## The best for each name -/

variable {κ : Type*} [DecidableEq κ]

variable (better) in
def keepAt (kept : AList fun _ : κ => α) (name : κ) (new : α) : AList fun _ : κ => α :=
  match kept.lookup name with
  | none => kept.insert name new
  | some old => if better new old then kept.insert name new else kept

theorem lookup_keepAt (kept : AList fun _ : κ => α) (name : κ) (new : α) :
    (keepAt better kept name new).lookup name = List.argAux better (kept.lookup name) new := by
  unfold keepAt
  cases hold : kept.lookup name with
  | none => simp [List.argAux]
  | some old => by_cases hnew : better new old <;> simp [List.argAux, hnew, hold]

theorem lookup_keepAt_ne (kept : AList fun _ : κ => α) {name other : κ} (h : other ≠ name)
    (new : α) : (keepAt better kept name new).lookup other = kept.lookup other := by
  unfold keepAt
  cases kept.lookup name with
  | none => exact AList.lookup_insert_ne h
  | some old =>
    by_cases hnew : better new old
    · simpa [hnew] using AList.lookup_insert_ne h
    · simp [hnew]

/-- A name has the best of its own items. -/
theorem lookup_foldl_keepAt (items : List (κ × α)) (name : κ) :
    (items.foldl (fun kept item => keepAt better kept item.1 item.2) ∅).lookup name =
      best better ((items.filter (·.1 = name)).map Prod.snd) := by
  induction items using List.reverseRecOn with
  | nil => rfl
  | append_singleton items item ih =>
    rw [List.foldl_append, List.filter_append, List.map_append]
    by_cases hname : item.1 = name
    · subst hname
      simp [lookup_keepAt, ih, best_concat]
    · simp [lookup_keepAt_ne _ (Ne.symm hname), ih, hname]

end RunningBest
