import Mathlib.Data.List.Basic
import Mathlib.Data.List.Induction
import Mathlib.Order.Lattice

/-!
# Maps that are kept in the order of their keys

The entries of a `SortedMap` are in strictly increasing order, so a map is determined by what is
found under its keys (`SortedMap.ext_get?`).  `insertAll` inserts entries one after the other:
under each key, the last of them is found.
-/

/-- Entries in the order of their keys, no key twice. -/
@[ext]
structure SortedMap (κ β : Type*) [LinearOrder κ] where
  entries : List (κ × β)
  sorted : entries.Pairwise fun e e' => e.1 < e'.1

namespace SortedMap

variable {κ β γ ι : Type*} [LinearOrder κ]

theorem lookup_cons_eq_ite (k₀ : κ) (v : β) (l : List (κ × β)) (k : κ) :
    ((k₀, v) :: l).lookup k = if k = k₀ then some v else l.lookup k := by
  by_cases h : k = k₀
  · simp [h]
  · have hne : (k == k₀) = false := by simpa using h
    simp [List.lookup_cons, hne, h]

def empty : SortedMap κ β := ⟨[], .nil⟩

def get? (m : SortedMap κ β) (k : κ) : Option β := m.entries.lookup k

@[simp] theorem get?_empty (k : κ) : (empty : SortedMap κ β).get? k = none := rfl

/-- The value of a key that is there is replaced. -/
def insertEntry (k : κ) (v : β) : List (κ × β) → List (κ × β)
  | [] => [(k, v)]
  | e :: l =>
    if k < e.1 then (k, v) :: e :: l
    else if k = e.1 then (k, v) :: l
    else e :: insertEntry k v l

theorem mem_insertEntry {k : κ} {v : β} {l : List (κ × β)} {e : κ × β}
    (he : e ∈ insertEntry k v l) : e = (k, v) ∨ e ∈ l := by
  induction l with
  | nil => exact .inl (List.mem_singleton.mp he)
  | cons e' l ih =>
    unfold insertEntry at he
    split at he
    · simpa using he
    · split at he
      · rcases List.mem_cons.mp he with he | he
        · exact .inl he
        · exact .inr (List.mem_cons_of_mem _ he)
      · rcases List.mem_cons.mp he with rfl | he
        · exact .inr List.mem_cons_self
        · exact (ih he).imp_right (List.mem_cons_of_mem _)

theorem sorted_insertEntry (k : κ) (v : β) {l : List (κ × β)}
    (h : l.Pairwise fun e e' => e.1 < e'.1) :
    (insertEntry k v l).Pairwise fun e e' => e.1 < e'.1 := by
  induction l with
  | nil => exact List.pairwise_singleton ..
  | cons e l ih =>
    obtain ⟨hhead, htail⟩ := List.pairwise_cons.mp h
    unfold insertEntry
    split
    · next hlt =>
      refine List.pairwise_cons.mpr ⟨fun e' he' => ?_, h⟩
      rcases List.mem_cons.mp he' with rfl | he'
      · exact hlt
      · exact hlt.trans (hhead e' he')
    · split
      · next heq => exact List.pairwise_cons.mpr ⟨fun e' he' => heq ▸ hhead e' he', htail⟩
      · next hge hne =>
        refine List.pairwise_cons.mpr ⟨fun e' he' => ?_, ih htail⟩
        rcases mem_insertEntry he' with rfl | he'
        · exact lt_of_le_of_ne (not_lt.mp hge) (Ne.symm hne)
        · exact hhead e' he'

def insert (k : κ) (v : β) (m : SortedMap κ β) : SortedMap κ β :=
  ⟨insertEntry k v m.entries, sorted_insertEntry k v m.sorted⟩

/-- One key changes. -/
theorem get?_insert (k : κ) (v : β) (m : SortedMap κ β) (k' : κ) :
    (m.insert k v).get? k' = if k' = k then some v else m.get? k' := by
  have hentries : ∀ l : List (κ × β),
      (insertEntry k v l).lookup k' = if k' = k then some v else l.lookup k' := by
    intro l
    induction l with
    | nil => exact lookup_cons_eq_ite k v [] k'
    | cons e l ih =>
      obtain ⟨k₀, v₀⟩ := e
      unfold insertEntry
      split
      · exact lookup_cons_eq_ite k v _ k'
      · split
        · next heq =>
          obtain rfl : k = k₀ := heq
          simp only [lookup_cons_eq_ite]
          split <;> rfl
        · next hne =>
          rw [lookup_cons_eq_ite, lookup_cons_eq_ite, ih]
          by_cases h : k' = k₀
          · have hk : k' ≠ k := fun heq => hne (heq.symm.trans h)
            rw [if_pos h, if_neg hk, if_pos h]
          · rw [if_neg h, if_neg h]
  exact hentries m.entries

theorem lookup_eq_none_of_lt {k : κ} {l : List (κ × β)} (h : ∀ e ∈ l, k < e.1) :
    l.lookup k = none := by
  rw [List.lookup_eq_none_iff]
  intro e he
  simpa using (h e he).ne

/-- What is found under the keys is the map. -/
theorem ext_get? {m m' : SortedMap κ β} (h : ∀ k, m.get? k = m'.get? k) : m = m' := by
  have hentries : ∀ {l l' : List (κ × β)}, l.Pairwise (fun e e' => e.1 < e'.1) →
      l'.Pairwise (fun e e' => e.1 < e'.1) → (∀ k, l.lookup k = l'.lookup k) → l = l' := by
    intro l
    induction l with
    | nil =>
      intro l' _ _ h
      cases l' with
      | nil => rfl
      | cons e' l' =>
        have hnone := h e'.1
        rw [← Prod.eta e', lookup_cons_eq_ite, if_pos rfl] at hnone
        cases hnone
    | cons e l ih =>
      intro l' hl hl' h
      obtain ⟨hhead, htail⟩ := List.pairwise_cons.mp hl
      cases l' with
      | nil =>
        have hnone := h e.1
        rw [← Prod.eta e, lookup_cons_eq_ite, if_pos rfl] at hnone
        cases hnone
      | cons e' l' =>
        obtain ⟨k, v⟩ := e
        obtain ⟨k', v'⟩ := e'
        obtain ⟨hhead', htail'⟩ := List.pairwise_cons.mp hl'
        have hsame := h k
        have hsame' := h k'
        simp only [lookup_cons_eq_ite, if_true] at hsame hsame'
        -- the first key of the one is not before that of the other
        rcases lt_trichotomy k k' with hlt | rfl | hlt
        · have hnone := lookup_eq_none_of_lt fun e he => hlt.trans (hhead' e he)
          rw [if_neg hlt.ne, hnone] at hsame
          cases hsame
        · rw [if_pos rfl] at hsame
          cases hsame
          refine congrArg _ (ih htail htail' fun j => ?_)
          have hj := h j
          simp only [lookup_cons_eq_ite] at hj
          by_cases hjk : j = k
          · rw [hjk, lookup_eq_none_of_lt hhead, lookup_eq_none_of_lt hhead']
          · rwa [if_neg hjk, if_neg hjk] at hj
        · have hnone := lookup_eq_none_of_lt fun e he => hlt.trans (hhead e he)
          rw [if_neg hlt.ne, hnone] at hsame'
          cases hsame'
  obtain ⟨l, hl⟩ := m
  obtain ⟨l', hl'⟩ := m'
  obtain rfl : l = l' := hentries hl hl' h
  rfl

/-! ## Many entries -/

def insertAll (l : List (κ × β)) : SortedMap κ β := l.foldl (fun m e => m.insert e.1 e.2) empty

theorem insertAll_append_singleton (l : List (κ × β)) (k : κ) (v : β) :
    insertAll (l ++ [(k, v)]) = (insertAll l).insert k v := by
  rw [insertAll, List.foldl_append]
  rfl

/-- The last entry with the key is the one that is found. -/
theorem get?_insertAll_map [DecidableEq κ] (l : List ι) (key : ι → κ) (val : ι → β) (k : κ) :
    (insertAll (l.map fun i => (key i, val i))).get? k =
      (l.reverse.find? (key · = k)).map val := by
  induction l using List.reverseRecOn with
  | nil => rfl
  | append_singleton l i ih =>
    rw [List.map_append, List.map_singleton, insertAll_append_singleton, get?_insert, ih,
      List.reverse_append, List.reverse_singleton, List.singleton_append]
    by_cases h : k = key i
    · rw [if_pos h, List.find?_cons_of_pos (by simp [h])]
      rfl
    · rw [if_neg h, List.find?_cons_of_neg (by simpa using Ne.symm h)]

/-- The values change, the keys do not. -/
def map (f : β → γ) (m : SortedMap κ β) : SortedMap κ γ where
  entries := m.entries.map fun e => (e.1, f e.2)
  sorted := List.pairwise_map.mpr m.sorted

theorem get?_map (f : β → γ) (m : SortedMap κ β) (k : κ) :
    (m.map f).get? k = (m.get? k).map f := by
  have hentries : ∀ l : List (κ × β),
      (l.map fun e => (e.1, f e.2)).lookup k = (l.lookup k).map f := by
    intro l
    induction l with
    | nil => rfl
    | cons e l ih =>
      rw [List.map_cons, lookup_cons_eq_ite, ih, ← Prod.eta e, lookup_cons_eq_ite]
      split <;> rfl
  exact hentries m.entries

theorem map_injective {f : β → γ} (hf : Function.Injective f) :
    Function.Injective (map f : SortedMap κ β → SortedMap κ γ) := by
  intro m m' h
  refine ext_get? fun k => Option.map_injective hf ?_
  rw [← get?_map, ← get?_map, h]

/-- A map whose entries are inserted in their order is what it was. -/
theorem insertAll_entries (m : SortedMap κ β) : insertAll m.entries = m := by
  refine ext_get? fun k => ?_
  have hentries : ∀ l : List (κ × β), l.Pairwise (fun e e' => e.1 < e'.1) →
      (insertAll l).get? k = l.lookup k := by
    intro l
    induction l using List.reverseRecOn with
    | nil => exact fun _ => rfl
    | append_singleton l e ih =>
      intro hl
      obtain ⟨k₀, v₀⟩ := e
      obtain ⟨hl, -, hlt⟩ := List.pairwise_append.mp hl
      rw [insertAll_append_singleton, get?_insert, ih hl, List.lookup_append, lookup_cons_eq_ite]
      by_cases h : k = k₀
      · have hnone : l.lookup k = none := by
          rw [List.lookup_eq_none_iff]
          intro e he
          simpa [h] using (hlt e he _ List.mem_cons_self).ne'
        simp [h ▸ hnone, h]
      · simp [h]
  exact hentries m.entries m.sorted

end SortedMap
