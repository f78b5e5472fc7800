import Mathlib.Data.String.Basic
import Bosun.NullDeletion

/-!
# The laws of `merge_deep`

Without nulls a merge can be told from its two arguments path by path: `lookup_mergeFields` does so
for one key and the rest follows the path.  A merge is also told by its values: an object is its
lookups when its fields are in order (`eq_of_lookup`), and from that a merge repeated changes
nothing.
-/

namespace Bosun

open Value

/-! ## Equality of values -/

namespace Value

variable {ν : Type} [Subsingleton ν]

theorem same_iff (v : Value ν) : ∀ v', v.same v' = true ↔ v = v' := by
  induction v using ind with
  | null n =>
    intro v'
    cases v' with
    | null n' => simp [same, Subsingleton.elim n n']
    | _ => simp [same]
  | bool b =>
    intro v'
    cases v' <;> simp [same]
  | number n =>
    intro v'
    cases v' <;> simp [same]
  | string s =>
    intro v'
    cases v' <;> simp [same]
  | array l ih =>
    intro v'
    cases v' with
    | array l' =>
      simp only [same, array.injEq]
      induction l generalizing l' with
      | nil => cases l' <;> simp [sameItems]
      | cons v l ihl =>
        cases l' with
        | nil => simp [sameItems]
        | cons v' l' =>
          have hrest := ihl (fun w hw => ih w (List.mem_cons_of_mem _ hw)) l'
          simp [sameItems, ih v List.mem_cons_self, hrest]
    | _ => simp [same]
  | object l ih =>
    intro v'
    cases v' with
    | object l' =>
      simp only [same, object.injEq]
      induction l generalizing l' with
      | nil => cases l' <;> simp [sameFields]
      | cons e l ihl =>
        obtain ⟨k, v⟩ := e
        cases l' with
        | nil => simp [sameFields]
        | cons e' l' =>
          obtain ⟨k', v'⟩ := e'
          have hrest := ihl (fun k w hw => ih k w (List.mem_cons_of_mem _ hw)) l'
          simp [sameFields, ih k v List.mem_cons_self, hrest]
    | _ => simp [same]

instance : BEq (Value ν) := ⟨same⟩

instance : LawfulBEq (Value ν) where
  eq_of_beq {v v'} h := (same_iff v v').mp h
  rfl {v} := (same_iff v v).mpr rfl

end Value

/-! ## Lists that are appended -/

section Append

variable {ν : Type} [Subsingleton ν]

theorem removeAll_append (l base : List (Value ν)) (item : Value ν) :
    l.removeAll (base ++ [item]) = (l.removeAll base).filter fun v => !(v == item) := by
  rw [List.removeAll, List.removeAll, List.filter_filter]
  apply List.filter_congr
  intro v _
  rw [Bool.eq_iff_iff]
  simp [and_comm]

/-- **Append with deduplication.**  The base list, and behind it the items of the overlay that it
    does not hold, each where it comes first. -/
theorem appendMissing_eq (overlay : List (Value ν)) : ∀ base,
    appendMissing base overlay = base ++ (overlay.removeAll base).eraseDups := by
  induction overlay with
  | nil => simp [appendMissing]
  | cons item overlay ih =>
    intro base
    have hany : (base.any fun existing => existing.same item) = base.elem item := by
      rw [Bool.eq_iff_iff, List.any_eq_true, List.elem_iff]
      constructor
      · rintro ⟨existing, hmem, hsame⟩
        rwa [← (same_iff existing item).mp hsame]
      · intro hmem
        exact ⟨item, hmem, (same_iff item item).mpr rfl⟩
    rw [appendMissing, hany]
    by_cases hmem : item ∈ base
    · rw [if_pos (List.elem_iff.mpr hmem), ih, List.cons_removeAll]
      simp [hmem]
    · rw [if_neg (by simpa using hmem), ih, List.cons_removeAll]
      simp [hmem, List.eraseDups_cons, removeAll_append]

theorem mem_added {v : Value ν} {overlay base : List (Value ν)} :
    v ∈ (overlay.removeAll base).eraseDups ↔ v ∈ overlay ∧ v ∉ base := by
  simp [List.mem_eraseDups, List.removeAll]

end Append

/-! ## Maps in order -/

section Order

variable {ν : Type}

theorem pairwise_insertField {k : String} {v : Value ν} {l : List (String × Value ν)}
    (h : l.Pairwise fun e e' => e.1 < e'.1) (hk : ∀ e ∈ l, e.1 ≠ k) :
    (insertField k v l).Pairwise fun e e' => e.1 < e'.1 := by
  induction l with
  | nil => exact List.pairwise_singleton _ _
  | cons e l ih =>
    rw [List.pairwise_cons] at h
    by_cases hlt : k < e.1
    · simp only [insertField, hlt, if_true]
      rw [List.pairwise_cons, List.pairwise_cons]
      refine ⟨?_, h⟩
      intro e' he'
      rcases List.mem_cons.mp he' with rfl | he'
      · exact hlt
      · exact hlt.trans (h.1 e' he')
    · simp only [insertField, hlt, if_false]
      have hgt : e.1 < k := lt_of_le_of_ne (not_lt.mp hlt) (hk e List.mem_cons_self)
      refine List.pairwise_cons.mpr ⟨?_, ih h.2 fun e' he' => hk e' (List.mem_cons_of_mem _ he')⟩
      intro e' he'
      rcases mem_insertField.mp he' with rfl | he'
      · exact hgt
      · exact h.1 e' he'

theorem pairwise_putField {k : String} {x : Option (Value ν)} {l : List (String × Value ν)}
    (h : l.Pairwise fun e e' => e.1 < e'.1) :
    (putField k x l).Pairwise fun e e' => e.1 < e'.1 := by
  have hremoved := h.filter fun e => e.1 ≠ k
  cases x with
  | none => exact hremoved
  | some v => exact pairwise_insertField hremoved fun e he => (mem_removeField.mp he).2

theorem pairwise_mergeWith {ε : Type}
    {f : String → Option (Value ν) → Value ν → Except ε (Option (Value ν))}
    {overlay : List (String × Value ν)} : ∀ {base result}, mergeWith f base overlay = .ok result →
      base.Pairwise (fun e e' => e.1 < e'.1) → result.Pairwise fun e e' => e.1 < e'.1 := by
  induction overlay with
  | nil =>
    intro base result h hbase
    cases h
    exact hbase
  | cons e overlay ih =>
    intro base result h hbase
    simp only [mergeWith] at h
    cases hf : f e.1 (base.lookup e.1) e.2 with
    | error err => simp [hf] at h
    | ok x =>
      rw [hf] at h
      exact ih h (pairwise_putField hbase)

/-- Fields in order are told by what is found under the keys. -/
theorem eq_of_lookup {l l' : List (String × Value ν)}
    (hl : l.Pairwise fun e e' => e.1 < e'.1) (hl' : l'.Pairwise fun e e' => e.1 < e'.1)
    (h : ∀ k, l.lookup k = l'.lookup k) : l = l' := by
  have hkeys : ∀ l : List (String × Value ν), l.Pairwise (fun e e' => e.1 < e'.1) →
      (l.map Prod.fst).Nodup := by
    intro l hl
    have hsorted : (l.map Prod.fst).Pairwise (· < ·) := List.pairwise_map.mpr hl
    exact hsorted.imp fun hlt => ne_of_lt hlt
  have hmem : ∀ e, e ∈ l ↔ e ∈ l' := by
    rintro ⟨k, v⟩
    constructor
    · intro he
      apply mem_of_lookup
      rw [← h k]
      exact lookup_of_mem (hkeys l hl) he
    · intro he
      apply mem_of_lookup
      rw [h k]
      exact lookup_of_mem (hkeys l' hl') he
  have hperm : l.Perm l' :=
    (List.perm_ext_iff_of_nodup (hkeys l hl).of_map (hkeys l' hl').of_map).mpr hmem
  refine List.Perm.eq_of_pairwise ?_ hl hl' hperm
  intro e e' _ _ hlt hgt
  exact absurd (hlt.trans hgt) (lt_irrefl _)

end Order

/-! ## One key -/

section Merge

variable {ν : Type}

theorem mem_keys_iff {k : String} {l : List (String × Value ν)} :
    k ∈ l.map Prod.fst ↔ l.lookup k ≠ none := by
  rw [ne_eq, List.lookup_eq_none_iff]
  simp only [List.mem_map, Prod.exists, exists_and_right, exists_eq_right, bne_iff_ne, ne_eq,
    Prod.forall, not_forall, not_not]
  constructor
  · rintro ⟨v, hv⟩
    exact ⟨k, v, hv, rfl⟩
  · rintro ⟨k', v, hv, rfl⟩
    exact ⟨v, hv⟩

theorem nulls_field {l : List (String × Value ν)} (h : (Value.object l).nulls = []) {k : String}
    {v : Value ν} (hv : l.lookup k = some v) : v.nulls = [] := by
  rw [List.eq_nil_iff_forall_not_mem] at h ⊢
  intro n hn
  exact h n (mem_nullsFields.mpr ⟨k, v, mem_of_lookup hv, hn⟩)

theorem not_isNull {v : Value ν} (h : v.nulls = []) : v.isNull = false := by
  cases v <;> first | rfl | simp [nulls] at h

/-- What a merge of two maps has under a key. -/
theorem lookup_mergeFields (appendLists : Bool) {base overlay : List (String × Value ν)}
    (hord : (Value.object overlay).Ordered) (hnull : (Value.object overlay).nulls = [])
    (k : String) : (mergeFields appendLists base overlay).lookup k =
      match base.lookup k, overlay.lookup k with
      | baseV, none => baseV
      | none, some v => some v
      | some baseV, some v => some (mergeDeep appendLists baseV v) := by
  have hmerge := mergeFields_eq appendLists overlay base
  cases hover : overlay.lookup k with
  | none =>
    have hk : k ∉ overlay.map Prod.fst := fun hmem => mem_keys_iff.mp hmem hover
    rw [mergeWith_frame hk hmerge]
  | some v =>
    have hfield := mergeWith_lookup (nodup_keys hord) hmerge k v (mem_of_lookup hover)
    have hv := not_isNull (nulls_field hnull hover)
    cases hbase : base.lookup k with
    | none => simpa [deepField, hv, hbase, eq_comm] using hfield
    | some baseV => simpa [deepField, hv, hbase, eq_comm] using hfield

/-! ## Paths -/

theorem get_append (path rest : List String) : ∀ v : Value ν,
    v.get (path ++ rest) = (v.get path).bind (Value.get rest) := by
  induction path with
  | nil =>
    intro v
    rfl
  | cons k path ih =>
    intro v
    cases v with
    | object l =>
      simp only [List.cons_append, Value.get]
      cases l.lookup k with
      | none => rfl
      | some w => exact ih w
    | _ => rfl

theorem ordered_get {path : List String} : ∀ {v w : Value ν}, v.Ordered →
    v.get path = some w → w.Ordered := by
  induction path with
  | nil =>
    rintro v w hord ⟨⟩
    exact hord
  | cons k path ih =>
    intro v w hord hget
    cases v with
    | object l =>
      simp only [Value.get, Option.bind_eq_some_iff] at hget
      obtain ⟨u, hu, hget⟩ := hget
      exact ih (ordered_of_mem hord (mem_of_lookup hu)) hget
    | _ => cases hget

theorem nulls_get {path : List String} : ∀ {v w : Value ν}, v.nulls = [] →
    v.get path = some w → w.nulls = [] := by
  induction path with
  | nil =>
    rintro v w hnull ⟨⟩
    exact hnull
  | cons k path ih =>
    intro v w hnull hget
    cases v with
    | object l =>
      simp only [Value.get, Option.bind_eq_some_iff] at hget
      obtain ⟨u, hu, hget⟩ := hget
      exact ih (nulls_field hnull hu) hget
    | _ => cases hget

/-- Where both arguments have a value, the merge has the merge of the two. -/
theorem get_mergeDeep_both (appendLists : Bool) (path : List String) :
    ∀ {base overlay baseV v : Value ν}, overlay.Ordered → overlay.nulls = [] →
      base.get path = some baseV → overlay.get path = some v →
      (mergeDeep appendLists base overlay).get path = some (mergeDeep appendLists baseV v) := by
  induction path with
  | nil =>
    rintro base overlay baseV v - - ⟨⟩ ⟨⟩
    rfl
  | cons k path ih =>
    intro base overlay baseV v hord hnull hbase hover
    cases base with
    | object baseMap =>
      cases overlay with
      | object overMap =>
        simp only [Value.get, Option.bind_eq_some_iff] at hbase hover
        obtain ⟨b, hb, hbase⟩ := hbase
        obtain ⟨w, hw, hover⟩ := hover
        simp only [mergeDeep, Value.get, lookup_mergeFields appendLists hord hnull, hb, hw,
          Option.bind_some]
        exact ih (ordered_of_mem hord (mem_of_lookup hw)) (nulls_field hnull hw) hbase hover
      | _ => cases hover
    | _ => cases hbase

/-- Where the base has none, the merge has the value of the overlay. -/
theorem get_mergeDeep_new (appendLists : Bool) (path : List String) :
    ∀ {base overlay v : Value ν}, overlay.Ordered → overlay.nulls = [] →
      base.get path = none → overlay.get path = some v →
      (mergeDeep appendLists base overlay).get path = some v := by
  induction path with
  | nil =>
    rintro base overlay v - - ⟨⟩
  | cons k path ih =>
    intro base overlay v hord hnull hbase hover
    cases overlay with
    | object overMap =>
      cases base with
      | object baseMap =>
        simp only [Value.get, Option.bind_eq_some_iff, Option.bind_eq_none_iff] at hbase hover
        obtain ⟨w, hw, hover⟩ := hover
        simp only [mergeDeep, Value.get, lookup_mergeFields appendLists hord hnull, hw]
        cases hb : baseMap.lookup k with
        | none => exact hover
        | some b =>
          exact ih (ordered_of_mem hord (mem_of_lookup hw)) (nulls_field hnull hw) (hbase b hb)
            hover
      | _ => exact hover
    | _ => cases hover

/-- Where the overlay has a map without the next key, the merge has what the base has. -/
theorem get_mergeDeep_absent (appendLists : Bool) {overMap : List (String × Value ν)} {k : String}
    (hk : overMap.lookup k = none) (rest path : List String) :
    ∀ {base overlay : Value ν}, overlay.Ordered → overlay.nulls = [] →
      overlay.get path = some (.object overMap) →
      (mergeDeep appendLists base overlay).get (path ++ k :: rest) =
        base.get (path ++ k :: rest) := by
  have hnone : ∀ (path : List String) (v : Value ν), v.get path = some (.object overMap) →
      v.get (path ++ k :: rest) = none := by
    intro path v hv
    simp [get_append, hv, Value.get, hk]
  induction path with
  | nil =>
    intro base overlay hord hnull hover
    obtain rfl : overlay = .object overMap := by simpa [Value.get] using hover
    cases base with
    | object baseMap =>
      simp [mergeDeep, Value.get, lookup_mergeFields appendLists hord hnull, hk]
    | _ => simp [mergeDeep, Value.get, hk]
  | cons k' path ih =>
    intro base overlay hord hnull hover
    cases overlay with
    | object overMap' =>
      cases base with
      | object baseMap =>
        simp only [Value.get, Option.bind_eq_some_iff] at hover
        obtain ⟨w, hw, hover⟩ := hover
        simp only [List.cons_append, mergeDeep, Value.get,
          lookup_mergeFields appendLists hord hnull, hw]
        cases hb : baseMap.lookup k' with
        | none => simpa using hnone path w hover
        | some b =>
          exact ih (ordered_of_mem hord (mem_of_lookup hw)) (nulls_field hnull hw) hover
      | _ => exact hnone (k' :: path) _ hover
    | _ => cases hover

end Merge

/-! ## A merge repeated -/

section Again

variable {ν : Type} [Subsingleton ν]

theorem mem_appendMissing {v : Value ν} {base overlay : List (Value ν)} :
    v ∈ appendMissing base overlay ↔ v ∈ base ∨ v ∈ overlay := by
  rw [appendMissing_eq, List.mem_append, mem_added]
  tauto

theorem appendMissing_of_subset {base overlay : List (Value ν)} (h : ∀ v ∈ overlay, v ∈ base) :
    appendMissing base overlay = base := by
  have hnone : overlay.removeAll base = [] := by
    rw [List.removeAll, List.filter_eq_nil_iff]
    intro v hv
    simpa using h v hv
  rw [appendMissing_eq, hnone]
  simp

theorem ordered_mergeDeep (appendLists : Bool) (overlay : Value ν) : ∀ base : Value ν,
    base.Ordered → overlay.Ordered → (mergeDeep appendLists base overlay).Ordered := by
  induction overlay using Value.ind with
  | object overMap ih =>
    intro base hbase hover
    cases base with
    | object baseMap =>
      have hmerge := mergeFields_eq appendLists overMap baseMap
      refine ⟨pairwise_mergeWith hmerge hbase.1, orderedFields_iff.mpr ?_⟩
      intro k w hw
      rcases (mem_mergeWith (nodup_keys hover) hmerge k w).mp hw with ⟨hmem, -⟩ | ⟨v, hv, hfield⟩
      · exact ordered_of_mem hbase hmem
      · have hordv := ordered_of_mem hover hv
        unfold deepField at hfield
        split at hfield
        · cases hfield
        · split at hfield
          · rename_i baseV hlookup
            obtain rfl := Option.some.inj (Except.ok.inj hfield)
            exact ih k v hv baseV (ordered_of_mem hbase (mem_of_lookup hlookup)) hordv
          · obtain rfl := Option.some.inj (Except.ok.inj hfield)
            exact hordv
    | _ => exact hover
  | array overArr ih =>
    intro base hbase hover
    cases base with
    | array baseArr =>
      cases appendLists with
      | false => exact hover
      | true =>
        apply orderedItems_iff.mpr
        intro v hv
        rcases mem_appendMissing.mp hv with hv | hv
        · exact orderedItems_iff.mp hbase v hv
        · exact orderedItems_iff.mp hover v hv
    | _ => exact hover
  | null n =>
    intro base hbase _
    cases base <;> exact hbase
  | _ =>
    intro base _ _
    cases base <;> trivial

/-- A value merged with itself. -/
theorem mergeDeep_self (appendLists : Bool) (v : Value ν) (hord : v.Ordered)
    (hnull : v.nulls = []) : mergeDeep appendLists v v = v := by
  induction v using Value.ind with
  | object l ih =>
    have hmerge := mergeFields_eq appendLists l l
    rw [mergeDeep, eq_of_lookup (pairwise_mergeWith hmerge hord.1) hord.1]
    intro k
    rw [lookup_mergeFields appendLists hord hnull]
    cases hk : l.lookup k with
    | none => rfl
    | some v =>
      have hmem := mem_of_lookup hk
      simp [ih k v hmem (ordered_of_mem hord hmem) (nulls_field hnull hk)]
  | array l ih =>
    cases appendLists with
    | false => rfl
    | true =>
      rw [mergeDeep, if_pos rfl, appendMissing_of_subset fun v hv => hv]
  | _ => rfl

/-- The overlay merged once more. -/
theorem mergeDeep_again (appendLists : Bool) (overlay : Value ν) : ∀ base : Value ν,
    base.Ordered → overlay.Ordered → overlay.nulls = [] →
    mergeDeep appendLists (mergeDeep appendLists base overlay) overlay =
      mergeDeep appendLists base overlay := by
  induction overlay using Value.ind with
  | object overMap ih =>
    intro base hbase hord hnull
    cases base with
    | object baseMap =>
      have hmerge := mergeFields_eq appendLists overMap baseMap
      have hmerged := pairwise_mergeWith hmerge hbase.1
      rw [mergeDeep, mergeDeep, eq_of_lookup (pairwise_mergeWith
        (mergeFields_eq appendLists overMap (mergeFields appendLists baseMap overMap)) hmerged)
        hmerged]
      intro k
      rw [lookup_mergeFields appendLists hord hnull, lookup_mergeFields appendLists hord hnull]
      cases hk : overMap.lookup k with
      | none => cases baseMap.lookup k <;> rfl
      | some v =>
        have hmem := mem_of_lookup hk
        have hordv := ordered_of_mem hord hmem
        have hnullv := nulls_field hnull hk
        cases hb : baseMap.lookup k with
        | none => simp [mergeDeep_self appendLists v hordv hnullv]
        | some baseV =>
          have hordb := ordered_of_mem hbase (mem_of_lookup hb)
          simp [ih k v hmem baseV hordb hordv hnullv]
    | _ => exact mergeDeep_self appendLists _ hord hnull
  | array overArr ih =>
    intro base hbase hord hnull
    cases base with
    | array baseArr =>
      cases appendLists with
      | false => rfl
      | true =>
        simp only [mergeDeep, if_true]
        rw [appendMissing_of_subset]
        intro v hv
        exact mem_appendMissing.mpr (.inr hv)
    | _ => exact mergeDeep_self appendLists _ hord hnull
  | null n => simp [nulls] at *
  | _ =>
    intro base _ _ _
    cases base <;> rfl

end Again

/-! ## All of it -/

/-- Two values that a merge goes into. -/
def bothNested {ν : Type} : Value ν → Value ν → Bool
  | .object _, .object _ | .array _, .array _ => true
  | _, _ => false

/-- The merge told from its arguments, path by path. -/
structure MergedByPath (appendLists : Bool) (base overlay merged : Value Unit) : Prop where
  keys : ∀ path baseMap overMap, base.get path = some (.object baseMap) →
    overlay.get path = some (.object overMap) →
    ∃ mergedMap, merged.get path = some (.object mergedMap) ∧
      ∀ k, k ∈ mergedMap.map Prod.fst ↔ k ∈ baseMap.map Prod.fst ∨ k ∈ overMap.map Prod.fst
  /-- The path leaves the overlay at a map that does not have its next key. -/
  absent : ∀ path overMap k rest, overlay.get path = some (.object overMap) →
    k ∉ overMap.map Prod.fst → merged.get (path ++ k :: rest) = base.get (path ++ k :: rest)
  new : ∀ path v, base.get path = none → overlay.get path = some v → merged.get path = some v
  /-- A scalar, or a value of another type. -/
  overlaid : ∀ path baseV v, base.get path = some baseV → overlay.get path = some v →
    bothNested baseV v = false → merged.get path = some v
  lists : ∀ path baseArr overArr, base.get path = some (.array baseArr) →
    overlay.get path = some (.array overArr) →
    ∃ added, merged.get path = some (.array (if appendLists then baseArr ++ added else overArr)) ∧
      added = (overArr.removeAll baseArr).eraseDups ∧ added.Sublist overArr ∧ added.Nodup ∧
      ∀ v, v ∈ added ↔ v ∈ overArr ∧ v ∉ baseArr

theorem nodup_eraseDups {α : Type} [BEq α] [LawfulBEq α] (l : List α) :
    l.eraseDups.Nodup ∧ l.eraseDups.Sublist l := by
  induction hn : l.length using Nat.strong_induction_on generalizing l with
  | _ n ih =>
    cases l with
    | nil => simp
    | cons a l =>
      have hlt : (l.filter fun b => !(b == a)).length < n := by
        rw [← hn, List.length_cons]
        exact Nat.lt_succ_of_le (List.length_filter_le _ _)
      obtain ⟨hnodup, hsub⟩ := ih _ hlt _ rfl
      rw [List.eraseDups_cons]
      constructor
      · rw [List.nodup_cons]
        refine ⟨?_, hnodup⟩
        simp [List.mem_eraseDups]
      · exact (hsub.trans List.filter_sublist).cons_cons a

theorem mergedByPath (appendLists : Bool) (base overlay : Json) (hnull : overlay.1.nulls = []) :
    MergedByPath appendLists base.1 overlay.1 (mergeDeep appendLists base.1 overlay.1) where
  keys path baseMap overMap hbase hover := by
    refine ⟨_, get_mergeDeep_both appendLists path overlay.2 hnull hbase hover, ?_⟩
    intro k
    rw [mem_keys_iff, mem_keys_iff, mem_keys_iff, lookup_mergeFields appendLists
      (ordered_get overlay.2 hover) (nulls_get hnull hover)]
    cases baseMap.lookup k <;> cases overMap.lookup k <;> simp
  absent path overMap k rest hover hk := by
    have hlookup : overMap.lookup k = none := by
      by_contra hnone
      exact hk (mem_keys_iff.mpr hnone)
    exact get_mergeDeep_absent appendLists hlookup rest path overlay.2 hnull hover
  new path v hbase hover := get_mergeDeep_new appendLists path overlay.2 hnull hbase hover
  overlaid path baseV v hbase hover hkind := by
    rw [get_mergeDeep_both appendLists path overlay.2 hnull hbase hover]
    have hv := not_isNull (nulls_get hnull hover)
    cases v with
    | null n => cases hv
    | object overMap => cases baseV <;> first | rfl | cases hkind
    | array overArr => cases baseV <;> first | rfl | cases hkind
    | _ => cases baseV <;> rfl
  lists path baseArr overArr hbase hover := by
    rw [get_mergeDeep_both appendLists path overlay.2 hnull hbase hover]
    obtain ⟨hnodup, hsub⟩ := nodup_eraseDups (overArr.removeAll baseArr)
    refine ⟨_, ?_, rfl, hsub.trans List.filter_sublist, hnodup, fun v => mem_added⟩
    rw [mergeDeep]
    split
    · rw [appendMissing_eq]
    · rfl

/-- **The laws of `merge_deep`.**  For null-free values the merge is told path by path, and
    merging a value with itself, or the overlay once more, changes nothing. -/
theorem mergeDeep_laws (appendLists : Bool) (base overlay : Json) (hbase : base.1.nulls = [])
    (hover : overlay.1.nulls = []) :
    MergedByPath appendLists base.1 overlay.1 (mergeDeep appendLists base.1 overlay.1) ∧
    mergeDeep appendLists base.1 base.1 = base.1 ∧
    mergeDeep appendLists (mergeDeep appendLists base.1 overlay.1) overlay.1 =
      mergeDeep appendLists base.1 overlay.1 :=
  ⟨mergedByPath appendLists base overlay hover,
    mergeDeep_self appendLists base.1 base.2 hbase,
    mergeDeep_again appendLists overlay.1 base.1 base.2 overlay.2 hover⟩

/-- `{"a": {"b": true}}`. -/
def nestedFlag : Json :=
  ⟨.object [("a", .object [("b", .bool true)])], .cons (by simp) .nil,
    ⟨.cons (by simp) .nil, trivial, trivial⟩, trivial⟩

/-- `{"a": "off"}`. -/
def flatOff : Json := ⟨.object [("a", .string "off")], .cons (by simp) .nil, trivial, trivial⟩

theorem mergeDeep_laws_flag :
    (mergeDeep true nestedFlag.1 flatOff.1).get ["a"] = some (.string "off") :=
  (mergeDeep_laws true nestedFlag flatOff rfl rfl).1.overlaid ["a"] _ _ rfl rfl rfl

/-- The overlay has nothing at `a.b`, and still the base's value there is gone: at `a` it has a
    value of another type. -/
theorem absent_path_lost : flatOff.1.get ["a", "b"] = none ∧
    nestedFlag.1.get ["a", "b"] = some (.bool true) ∧
    ∀ appendLists, (mergeDeep appendLists nestedFlag.1 flatOff.1).get ["a", "b"] = none :=
  ⟨rfl, rfl, fun _ => rfl⟩

end Bosun
