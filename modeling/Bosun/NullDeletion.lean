import Bosun.InventoryMarks

/-!
# Where nulls delete

A merge removes every key under which the overlay holds a null, and keeps no null of the
overlay, exactly where the overlay is covered by the base.  To tell the nulls of a result
apart, the two sides are marked before the merge.
-/

namespace Bosun

open Value

/-- A value of the program, every object with its keys in order. -/
abbrev Json := { v : Value Unit // v.Ordered }

inductive Side
  | base
  | overlay
deriving DecidableEq, Repr

def Value.mark (side : Side) (v : Value Unit) : Value Side := v.map fun _ => side

/-- No null of the overlay. -/
def Clean (v : Value Side) : Prop := .overlay ∉ v.nulls

/-! ## Marks and cover -/

section Marks

variable {ν μ : Type} (f : ν → μ)

theorem mem_mapFields {k : String} {w : Value μ} {l : List (String × Value ν)} :
    (k, w) ∈ mapFields f l ↔ ∃ v, (k, v) ∈ l ∧ v.map f = w := by
  rw [mapFields_eq]
  simp

theorem mem_mapItems {w : Value μ} {l : List (Value ν)} :
    w ∈ mapItems f l ↔ ∃ v ∈ l, v.map f = w := by
  rw [mapItems_eq, List.mem_map]

theorem nulls_map_eq_nil (v : Value ν) : (v.map f).nulls = [] ↔ v.nulls = [] := by
  rw [nulls_map, List.map_eq_nil_iff]

theorem covered_map (appendLists : Bool) (overlay : Value ν) : ∀ base,
    Covered appendLists (base.map f) (overlay.map f) ↔ Covered appendLists base overlay := by
  induction overlay using Value.ind with
  | null n =>
    intro base
    cases base <;> simp [Value.map, Covered]
  | bool b =>
    intro base
    cases base <;> simp [Value.map, Covered, nulls]
  | number n =>
    intro base
    cases base <;> simp [Value.map, Covered, nulls]
  | string s =>
    intro base
    cases base <;> simp [Value.map, Covered, nulls]
  | array overArr ih =>
    intro base
    have hnulls := nulls_map_eq_nil f (.array overArr)
    cases base with
    | array baseArr =>
      cases appendLists with
      | true => simp [Value.map, Covered, mem_mapItems, nulls_map_eq_nil, same_map]
      | false => simpa [Value.map, Covered] using hnulls
    | _ => simpa [Value.map, Covered] using hnulls
  | object overMap ih =>
    intro base
    have hnulls := nulls_map_eq_nil f (.object overMap)
    cases base with
    | object baseMap =>
      simp only [Value.map, Covered, coveredFields_iff, mem_mapFields]
      constructor
      · intro h k v hmem
        have hv := h k (v.map f) ⟨v, hmem, rfl⟩
        rw [isNull_map, lookup_mapFields] at hv
        cases hlookup : baseMap.lookup k with
        | none => simpa [hlookup, nulls_map_eq_nil] using hv
        | some baseV => simpa [hlookup, ih k v hmem] using hv
      · rintro h k _ ⟨v, hmem, rfl⟩
        have hv := h k v hmem
        rw [isNull_map, lookup_mapFields]
        cases hlookup : baseMap.lookup k with
        | none => simpa [hlookup, nulls_map_eq_nil] using hv
        | some baseV => simpa [hlookup, ih k v hmem] using hv
    | _ => simpa [Value.map, Covered] using hnulls

theorem coveredKeyed_of_map (debug : DebugKey) (key : String) (overlay : Value ν) :
    ∀ path base, CoveredKeyed debug key path (base.map f) (overlay.map f) →
      CoveredKeyed debug key path base overlay := by
  induction overlay using Value.ind with
  | null n =>
    intro path base _
    cases base <;> simp [CoveredKeyed]
  | bool b =>
    intro path base _
    cases base <;> simp [CoveredKeyed, nulls]
  | number n =>
    intro path base _
    cases base <;> simp [CoveredKeyed, nulls]
  | string s =>
    intro path base _
    cases base <;> simp [CoveredKeyed, nulls]
  | array overArr ih =>
    intro path base
    have hnulls := nulls_map_eq_nil f (.array overArr)
    cases base with
    | array baseArr =>
      simp only [Value.map, CoveredKeyed]
      have hitems : ∀ overlay : List (Value ν), (∀ v ∈ overlay, v ∈ overArr) → ∀ merged,
          CoveredKeyedItems debug key path (mapItems f merged) (mapItems f overlay) →
            CoveredKeyedItems debug key path merged overlay := by
        intro overlay
        induction overlay with
        | nil =>
          intro _ merged _
          simp [CoveredKeyedItems]
        | cons item rest ihrest =>
          intro hsub merged h
          have hrest := ihrest fun v hv => hsub v (List.mem_cons_of_mem item hv)
          simp only [mapItems, CoveredKeyedItems, position_map, keyText_map] at h ⊢
          cases hpos : position key item merged with
          | none =>
            have happend : mapItems f (merged ++ [item]) = mapItems f merged ++ [item.map f] := by
              simp [mapItems_eq]
            simp only [hpos, Option.map_none, nulls_map_eq_nil, ← happend] at h
            exact ⟨h.1, hrest _ h.2⟩
          | some p =>
            obtain ⟨idx, prev⟩ := p
            simp only [hpos, Option.map_some] at h
            constructor
            · exact ih item (hsub item List.mem_cons_self) _ prev h.1
            · intro r hr
              have hset : mapItems f (merged.set idx r) =
                  (mapItems f merged).set idx (r.map f) := by
                simp [mapItems_eq, List.map_set]
              apply hrest
              rw [hset]
              apply h.2 (r.map f)
              rw [mergeKeyedAt_map, hr]
              rfl
      exact hitems overArr (fun v hv => hv) baseArr
    | _ => simpa [Value.map, CoveredKeyed] using hnulls.mp
  | object overMap ih =>
    intro path base
    have hnulls := nulls_map_eq_nil f (.object overMap)
    cases base with
    | object baseMap =>
      simp only [Value.map, CoveredKeyed, coveredKeyedFields_iff, mem_mapFields]
      intro h k v hmem
      have hv := h k (v.map f) ⟨v, hmem, rfl⟩
      rw [isNull_map, lookup_mapFields] at hv
      cases hlookup : baseMap.lookup k with
      | none => simpa [hlookup, nulls_map_eq_nil] using hv
      | some baseV =>
        rcases hv with hv | hv
        · exact .inl hv
        · simp only [hlookup, Option.map_some] at hv
          exact .inr (ih k v hmem _ baseV hv)
    | _ => simpa [Value.map, CoveredKeyed] using hnulls.mp

end Marks

/-! ## What a merge keeps -/

section Keeps

variable {ν : Type}

theorem nodup_keys {l : List (String × Value ν)} (h : (Value.object l).Ordered) :
    (l.map Prod.fst).Nodup := by
  have hsorted : (l.map Prod.fst).Pairwise (· < ·) := by
    rw [List.pairwise_map]
    exact h.1
  apply hsorted.imp
  rintro k k' hlt rfl
  exact String.lt_irrefl k hlt

theorem ordered_of_mem {l : List (String × Value ν)} (h : (Value.object l).Ordered) {k : String}
    {v : Value ν} (hmem : (k, v) ∈ l) : v.Ordered :=
  orderedFields_iff.mp h.2 k v hmem

theorem clean_array {l : List (Value Side)} : Clean (.array l) ↔ ∀ v ∈ l, Clean v := by
  simp [Clean, nulls, mem_nullsItems]

theorem clean_object {l : List (String × Value Side)} :
    Clean (.object l) ↔ ∀ k v, (k, v) ∈ l → Clean v := by
  simp [Clean, nulls, mem_nullsFields]

theorem clean_of_nulls {v : Value Side} (h : v.nulls = []) : Clean v := by simp [Clean, h]

/-- A value all of whose nulls are the overlay's is clean when it has none. -/
theorem nulls_of_clean {v : Value Side} (hv : ∀ n ∈ v.nulls, n = .overlay) (h : Clean v) :
    v.nulls = [] := by
  rw [List.eq_nil_iff_forall_not_mem]
  intro n hn
  exact h (hv n hn ▸ hn)

theorem mem_appendMissing_of_mem (overlay : List (Value ν)) : ∀ {base : List (Value ν)} {v},
    v ∈ base → v ∈ appendMissing base overlay := by
  induction overlay with
  | nil =>
    intro base v hv
    exact hv
  | cons item overlay ih =>
    intro base v hv
    unfold appendMissing
    split
    · exact ih hv
    · exact ih (List.mem_append_left _ hv)

theorem clean_appendMissing (overlay : List (Value Side))
    (hover : ∀ item ∈ overlay, ∀ n ∈ item.nulls, n = .overlay) : ∀ base : List (Value Side),
    (∀ v ∈ base, Clean v) →
    ((∀ v ∈ appendMissing base overlay, Clean v) ↔
      ∀ item ∈ overlay, item.nulls = [] ∨ ∃ existing ∈ base, existing.same item = true) := by
  induction overlay with
  | nil =>
    intro base hbase
    simpa [appendMissing] using hbase
  | cons item overlay ih =>
    intro base hbase
    have hitem := hover item List.mem_cons_self
    have hrest := ih fun i hi => hover i (List.mem_cons_of_mem item hi)
    by_cases hany : ∃ existing ∈ base, existing.same item = true
    · have h : base.any (fun e => e.same item) = true := List.any_eq_true.mpr hany
      rw [appendMissing, if_pos h, hrest base hbase]
      simp [hany]
    · have h : ¬ base.any (fun e => e.same item) = true := fun h => hany (List.any_eq_true.mp h)
      rw [appendMissing, if_neg h]
      by_cases hnulls : item.nulls = []
      · have hclean : ∀ v ∈ base ++ [item], Clean v := by
          intro v hv
          rcases List.mem_append.mp hv with hv | hv
          · exact hbase v hv
          · exact List.mem_singleton.mp hv ▸ clean_of_nulls hnulls
        rw [hrest (base ++ [item]) hclean]
        constructor
        · intro hall i hi
          rcases List.mem_cons.mp hi with rfl | hi
          · exact .inl hnulls
          · rcases hall i hi with hi' | ⟨e, he, hsame⟩
            · exact .inl hi'
            · rcases List.mem_append.mp he with he | he
              · exact .inr ⟨e, he, hsame⟩
              · obtain rfl := List.mem_singleton.mp he
                exact .inl ((nulls_of_same e i hsame).mp hnulls)
        · intro hall i hi
          rcases hall i (List.mem_cons_of_mem item hi) with hi' | ⟨e, he, hsame⟩
          · exact .inl hi'
          · exact .inr ⟨e, List.mem_append_left _ he, hsame⟩
      · -- the item is appended with its nulls
        constructor
        · intro hall
          have hin := hall item (mem_appendMissing_of_mem overlay (by simp))
          exact absurd (nulls_of_clean hitem hin) hnulls
        · intro hall
          rcases hall item List.mem_cons_self with hn | hn
          · exact absurd hn hnulls
          · exact absurd hn hany

/-- A merge is clean just when the overlay is covered. -/
theorem clean_mergeDeep (appendLists : Bool) (overlay : Value Side)
    (hover : ∀ n ∈ overlay.nulls, n = .overlay) (hord : overlay.Ordered) : ∀ base, Clean base →
    (Clean (mergeDeep appendLists base overlay) ↔ Covered appendLists base overlay) := by
  have hverbatim : Clean overlay ↔ overlay.nulls = [] := ⟨nulls_of_clean hover, clean_of_nulls⟩
  induction overlay using Value.ind with
  | null n =>
    intro base hbase
    cases base <;> simpa [mergeDeep, Covered] using hbase
  | bool b =>
    intro base _
    cases base <;> simpa [mergeDeep, Covered] using hverbatim
  | number n =>
    intro base _
    cases base <;> simpa [mergeDeep, Covered] using hverbatim
  | string s =>
    intro base _
    cases base <;> simpa [mergeDeep, Covered] using hverbatim
  | array overArr ih =>
    intro base hbase
    cases base with
    | array baseArr =>
      cases appendLists with
      | false => simpa [mergeDeep, Covered] using hverbatim
      | true =>
        simp only [mergeDeep, Covered, if_true]
        rw [clean_array]
        apply clean_appendMissing overArr _ baseArr (clean_array.mp hbase)
        intro item hitem n hn
        exact hover n (mem_nullsItems.mpr ⟨item, hitem, hn⟩)
    | _ => simpa [mergeDeep, Covered] using hverbatim
  | object overMap ih =>
    intro base hbase
    cases base with
    | object baseMap =>
      have hkeys := nodup_keys hord
      have hmerge := mergeFields_eq appendLists overMap baseMap
      have hmark : ∀ k v, (k, v) ∈ overMap → ∀ n ∈ v.nulls, n = .overlay := fun k v hmem n hn =>
        hover n (mem_nullsFields.mpr ⟨k, v, hmem, hn⟩)
      simp only [mergeDeep, Covered]
      rw [clean_object, coveredFields_iff]
      constructor
      · intro hclean k v hmem
        cases hnull : v.isNull with
        | true => exact .inl rfl
        | false =>
          right
          have hmarks := hmark k v hmem
          cases hlookup : baseMap.lookup k with
          | none =>
            apply nulls_of_clean hmarks
            apply hclean k v
            rw [mem_mergeWith hkeys hmerge]
            exact .inr ⟨v, hmem, by simp [deepField, hnull, hlookup]⟩
          | some baseV =>
            have hbaseV := clean_object.mp hbase k baseV (mem_of_lookup hlookup)
            have hiff := ih k v hmem hmarks (ordered_of_mem hord hmem)
              ⟨nulls_of_clean hmarks, clean_of_nulls⟩ baseV hbaseV
            apply hiff.mp
            apply hclean k
            rw [mem_mergeWith hkeys hmerge]
            exact .inr ⟨v, hmem, by simp [deepField, hnull, hlookup]⟩
      · intro hcovered k w hmem
        rw [mem_mergeWith hkeys hmerge] at hmem
        rcases hmem with ⟨hmem, -⟩ | ⟨v, hmem, hfield⟩
        · exact clean_object.mp hbase k w hmem
        · have hmarks := hmark k v hmem
          have hv := hcovered k v hmem
          cases hnull : v.isNull with
          | true => simp [deepField, hnull] at hfield
          | false =>
            cases hlookup : baseMap.lookup k with
            | none =>
              simp only [deepField, hnull, hlookup, Bool.false_eq_true, if_false, Except.ok.injEq,
                Option.some.injEq] at hfield
              subst hfield
              exact clean_of_nulls (by simpa [hnull, hlookup] using hv)
            | some baseV =>
              simp only [deepField, hnull, hlookup, Bool.false_eq_true, if_false, Except.ok.injEq,
                Option.some.injEq] at hfield
              subst hfield
              have hbaseV := clean_object.mp hbase k baseV (mem_of_lookup hlookup)
              have hiff := ih k v hmem hmarks (ordered_of_mem hord hmem)
                ⟨nulls_of_clean hmarks, clean_of_nulls⟩ baseV hbaseV
              exact hiff.mpr (by simpa [hnull, hlookup] using hv)
    | _ => simpa [mergeDeep, Covered] using hverbatim

/-- Where the overlay holds a null at a path, the merge has no key there. -/
theorem get_mergeDeep (appendLists : Bool) (path : List String) :
    ∀ {base overlay : Value ν} {n : ν}, path ≠ [] → overlay.Ordered →
    Covered appendLists base overlay → overlay.get path = some (.null n) →
    (mergeDeep appendLists base overlay).get path = none := by
  induction path with
  | nil =>
    intro base overlay n hpath
    exact absurd rfl hpath
  | cons k ks ih =>
    intro base overlay n _ hord hcovered hget
    have hn := nulls_of_get hget
    cases overlay with
    | object overMap =>
      simp only [Value.get, Option.bind_eq_some_iff] at hget
      obtain ⟨v, hlookup, hv⟩ := hget
      have hmem := mem_of_lookup hlookup
      cases base with
      | object baseMap =>
        have hresult := mergeWith_lookup (nodup_keys hord)
          (mergeFields_eq appendLists overMap baseMap) k v hmem
        simp only [mergeDeep, Value.get]
        cases hnull : v.isNull with
        | true =>
          simp only [deepField, hnull, if_true, Except.ok.injEq] at hresult
          simp [← hresult]
        | false =>
          have hks : ks ≠ [] := by
            rintro rfl
            simp only [Value.get, Option.some.injEq] at hv
            simp [hv, isNull] at hnull
          have hcov := coveredFields_iff.mp hcovered k v hmem
          cases hbase : baseMap.lookup k with
          | none =>
            have hnil : v.nulls = [] := by simpa [hnull, hbase] using hcov
            have := nulls_of_get hv
            simp [hnil] at this
          | some baseV =>
            simp only [deepField, hnull, hbase, Bool.false_eq_true, if_false, Except.ok.injEq]
              at hresult
            rw [← hresult, Option.bind_some]
            exact ih hks (ordered_of_mem hord hmem) (by simpa [hnull, hbase] using hcov) hv
      | _ =>
        have hnil : (Value.object overMap).nulls = [] := by simpa [Covered] using hcovered
        simp [hnil] at hn
    | _ => simp [Value.get] at hget

end Keeps

/-! ## Keyed merges -/

section KeyedKeeps

variable {ν : Type} {debug : DebugKey} {key : String}

theorem position_eq_none {item : Value ν} {merged : List (Value ν)} :
    position key item merged = none ↔ recordFor key item merged = none := by
  unfold position recordFor
  rw [List.find?_eq_bind_findIdx?_getElem?]
  cases hidx : merged.findIdx? fun existing =>
      sameKey (keyValueOf existing key) (keyValueOf item key) with
  | none => simp
  | some idx => simp

theorem position_eq_some {item : Value ν} {merged : List (Value ν)} {idx : Nat} {prev : Value ν}
    (h : position key item merged = some (idx, prev)) :
    merged[idx]? = some prev ∧ recordFor key item merged = some prev := by
  unfold position at h
  unfold recordFor
  rw [List.find?_eq_bind_findIdx?_getElem?]
  split at h
  · rename_i i hidx
    obtain ⟨v, hv, heq⟩ := Option.map_eq_some_iff.mp h
    cases heq
    exact ⟨hv, by rw [hidx, Option.bind_some, hv]⟩
  · cases h

/-- The loop keeps the lists it goes through clean, as long as it does so with each record that is
    merged into another one. -/
theorem clean_mergeKeyedItems {path : String} {overlay : List (Value Side)}
    (hitem : ∀ item ∈ overlay, ∀ path prev r, Clean prev →
      CoveredKeyed debug key path prev item → mergeKeyedAt debug key path prev item = .ok r →
      Clean r) :
    ∀ merged result, (∀ v ∈ merged, Clean v) → CoveredKeyedItems debug key path merged overlay →
      mergeKeyedItems debug key path merged overlay = .ok result → ∀ v ∈ result, Clean v := by
  induction overlay with
  | nil =>
    intro merged result hmerged _ h
    exact Except.ok.inj h ▸ hmerged
  | cons item rest ih =>
    intro merged result hmerged hcov h
    have hrest := ih fun v hv => hitem v (List.mem_cons_of_mem item hv)
    simp only [mergeKeyedItems] at h
    simp only [CoveredKeyedItems] at hcov
    cases hensure : ensureMapWithKey item key path with
    | error e => simp [hensure, bind, Except.bind] at h
    | ok _ =>
      simp only [hensure, bind, Except.bind] at h
      cases hpos : position key item merged with
      | none =>
        simp only [hpos] at h hcov
        apply hrest _ _ _ hcov.2 h
        intro v hv
        rcases List.mem_append.mp hv with hv | hv
        · exact hmerged v hv
        · exact List.mem_singleton.mp hv ▸ clean_of_nulls hcov.1
      | some p =>
        obtain ⟨idx, prev⟩ := p
        simp only [hpos] at h hcov
        have hprev : Clean prev := hmerged prev (List.mem_of_getElem? (position_eq_some hpos).1)
        cases hmerge : mergeKeyedAt debug key (path ++ "[" ++ key ++ "=" ++
            debug ((keyValueOf item key).map (Value.map fun _ => ())) ++ "]") prev item with
        | error e => simp [hmerge] at h
        | ok w =>
          simp only [hmerge] at h
          apply hrest _ _ _ (hcov.2 w hmerge) h
          intro v hv
          rcases List.mem_or_eq_of_mem_set hv with hv | rfl
          · exact hmerged v hv
          · exact hitem item List.mem_cons_self _ prev _ hprev hcov.1 hmerge

/-- The same for the loop over the fields. -/
theorem clean_mergeKeyedFields {path : String} {base overlay result : List (String × Value Side)}
    (hkeys : (overlay.map Prod.fst).Nodup)
    (hfield : ∀ k v, (k, v) ∈ overlay → ∀ path baseV r, Clean baseV →
      CoveredKeyed debug key path baseV v → mergeKeyedAt debug key path baseV v = .ok r → Clean r)
    (hbase : ∀ k v, (k, v) ∈ base → Clean v) (hcov : CoveredKeyedFields debug key path base overlay)
    (h : mergeWith (keyedField debug key path) base overlay = .ok result) :
    ∀ k w, (k, w) ∈ result → Clean w := by
  intro k w hmem
  rw [mem_mergeWith hkeys h] at hmem
  rcases hmem with ⟨hmem, -⟩ | ⟨v, hmem, hput⟩
  · exact hbase k w hmem
  · have hv := coveredKeyedFields_iff.mp hcov k v hmem
    cases hnull : v.isNull with
    | true => simp [keyedField, hnull] at hput
    | false =>
      cases hlookup : base.lookup k with
      | none =>
        simp only [keyedField, hnull, hlookup, Bool.false_eq_true, if_false, Except.ok.injEq,
          Option.some.injEq] at hput
        subst hput
        exact clean_of_nulls (by simpa [hnull, hlookup] using hv)
      | some baseV =>
        simp only [keyedField, hnull, hlookup, Bool.false_eq_true, if_false] at hput
        cases hdeep : mergeKeyedAt debug key (path ++ "." ++ k) baseV v with
        | error e => simp [hdeep, Except.map] at hput
        | ok w' =>
          simp only [hdeep, Except.map, Except.ok.injEq, Option.some.injEq] at hput
          subst hput
          exact hfield k v hmem _ baseV _ (hbase k baseV (mem_of_lookup hlookup))
            (by simpa [hnull, hlookup] using hv) hdeep

theorem mergeKeyedAt_scalar {path : String} {base overlay : Value ν}
    (h : overlay.isScalar = true) : mergeKeyedAt debug key path base overlay = .ok overlay := by
  cases overlay <;> cases base <;> first | rfl | cases h

theorem clean_mergeKeyedAt_scalar {path : String} {base overlay r : Value Side}
    (hscalar : overlay.isScalar = true) (h : mergeKeyedAt debug key path base overlay = .ok r) :
    Clean r := by
  rw [mergeKeyedAt_scalar hscalar] at h
  cases h
  cases overlay <;> first | exact clean_of_nulls rfl | cases hscalar

theorem clean_mergeKeyedAt (overlay : Value Side) (hord : overlay.Ordered) :
    ∀ path base r, Clean base →
    CoveredKeyed debug key path base overlay → mergeKeyedAt debug key path base overlay = .ok r →
    Clean r := by
  induction overlay using Value.ind with
  | null n =>
    intro path base r hbase _ h
    have heq : base = r := by cases base <;> exact Except.ok.inj h
    exact heq ▸ hbase
  | bool b => exact fun _ _ _ _ _ h => clean_mergeKeyedAt_scalar rfl h
  | number n => exact fun _ _ _ _ _ h => clean_mergeKeyedAt_scalar rfl h
  | string s => exact fun _ _ _ _ _ h => clean_mergeKeyedAt_scalar rfl h
  | array overArr ih =>
    intro path base r hbase hcovered h
    cases base with
    | array baseArr =>
      simp only [mergeKeyedAt, bind, Except.bind] at h
      cases hensure : ensureAll key path baseArr with
      | error e => simp [hensure] at h
      | ok _ =>
        simp only [hensure] at h
        cases hmerge : mergeKeyedItems debug key path baseArr overArr with
        | error e => simp [hmerge] at h
        | ok result =>
          simp only [hmerge, pure, Except.pure, Except.ok.injEq] at h
          subst h
          exact clean_array.mpr (clean_mergeKeyedItems
            (fun item hitem => ih item hitem (orderedItems_iff.mp hord item hitem)) _ _
            (clean_array.mp hbase) hcovered hmerge)
    | _ =>
      cases h
      exact clean_of_nulls hcovered
  | object overMap ih =>
    intro path base r hbase hcovered h
    cases base with
    | object baseMap =>
      simp only [mergeKeyedAt, bind, Except.bind, mergeKeyedFields_eq] at h
      cases hmerge : mergeWith (keyedField debug key path) baseMap overMap with
      | error e => simp [hmerge] at h
      | ok result =>
        simp only [hmerge, pure, Except.pure, Except.ok.injEq] at h
        subst h
        exact clean_object.mpr (clean_mergeKeyedFields (nodup_keys hord)
          (fun k v hmem => ih k v hmem (ordered_of_mem hord hmem)) (clean_object.mp hbase)
          hcovered hmerge)
    | _ =>
      cases h
      exact clean_of_nulls hcovered

/-- A record that is merged into one with its scalar key has this key. -/
theorem keyValueOf_mergeKeyedAt {path : String} {prev item r : Value ν} (hord : item.Ordered)
    {kv : Value ν} (hkey : keyValueOf item key = some kv) (hscalar : kv.isScalar = true)
    (hsame : sameKey (keyValueOf prev key) (keyValueOf item key) = true)
    (h : mergeKeyedAt debug key path prev item = .ok r) : keyValueOf r key = some kv := by
  rw [hkey] at hsame
  cases prev with
  | object prevMap =>
    cases item with
    | object itemMap =>
      simp only [mergeKeyedAt, bind, Except.bind, mergeKeyedFields_eq] at h
      cases hmerge : mergeWith (keyedField debug key path) prevMap itemMap with
      | error e => simp [hmerge] at h
      | ok fields =>
        simp only [hmerge, pure, Except.pure, Except.ok.injEq] at h
        subst h
        have hfield := mergeWith_lookup (nodup_keys hord) hmerge key kv (mem_of_lookup hkey)
        have hnull : kv.isNull = false := by cases kv <;> first | rfl | cases hscalar
        cases hprev : prevMap.lookup key with
        | none => simp [keyValueOf, hprev, sameKey] at hsame
        | some prevKey =>
          simp only [keyedField, hnull, hprev, Bool.false_eq_true, if_false,
            mergeKeyedAt_scalar hscalar, Except.map, Except.ok.injEq] at hfield
          exact hfield.symm
    | _ => cases hkey
  | _ => cases hsame

/-- Only equal values are the same as a scalar. -/
theorem eq_of_same_scalar {v kv : Value ν} (hscalar : kv.isScalar = true)
    (h : v.same kv = true) : v = kv := by
  cases kv <;> cases v <;> simp_all [same, Value.isScalar]

theorem find?_set_of_not {α : Type} {p : α → Bool} {l : List α} {idx : Nat} {a b : α}
    (ha : l[idx]? = some a) (hna : p a = false) (hnb : p b = false) :
    (l.set idx b).find? p = l.find? p := by
  induction l generalizing idx with
  | nil => rfl
  | cons c l ih =>
    cases idx with
    | zero =>
      obtain rfl : c = a := by simpa using ha
      simp [hna, hnb]
    | succ idx =>
      rw [List.set_cons_succ, List.find?_cons, List.find?_cons, ih (by simpa using ha)]

/-- **Cover by the base is cover**: the record that a list holds when the turn of a record comes
    is then the one that the base has. -/
theorem coveredKeyed_of_byBase (overlay : Value ν) (hord : overlay.Ordered) : ∀ path base,
    CoveredByBase key base overlay → CoveredKeyed debug key path base overlay := by
  induction overlay using Value.ind with
  | array overArr ih =>
    intro path base h
    cases base with
    | array baseArr =>
      have hitems : ∀ overlay : List (Value ν), (∀ v ∈ overlay, v ∈ overArr) → ∀ merged,
          (∀ item ∈ overlay, recordFor key item merged = recordFor key item baseArr) →
          CoveredByBaseItems key baseArr overlay →
          CoveredKeyedItems debug key path merged overlay := by
        intro overlay
        induction overlay with
        | nil =>
          intro _ _ _ _
          simp [CoveredKeyedItems]
        | cons item rest ihrest =>
          intro hsub merged hsame hcov
          obtain ⟨⟨kv, hkv, hscalar⟩, hother, hitem, hcov⟩ := hcov
          have hrest := ihrest fun v hv => hsub v (List.mem_cons_of_mem item hv)
          have hmem := hsub item List.mem_cons_self
          have hitemOrd := orderedItems_iff.mp hord item hmem
          rw [← hsame item List.mem_cons_self] at hitem
          have hlater : ∀ later ∈ rest, recordFor key later merged = recordFor key later baseArr :=
            fun later hlater => hsame later (List.mem_cons_of_mem item hlater)
          simp only [CoveredKeyedItems]
          cases hpos : position key item merged with
          | none =>
            rw [position_eq_none.mp hpos] at hitem
            refine ⟨hitem, hrest _ (fun later hmem => ?_) hcov⟩
            rw [← hlater later hmem, recordFor, List.find?_append]
            simp [recordFor, hother later hmem]
          | some p =>
            obtain ⟨idx, prev⟩ := p
            obtain ⟨hidx, hfound⟩ := position_eq_some hpos
            rw [hfound] at hitem
            refine ⟨ih item hmem hitemOrd _ prev hitem, fun r hr => ?_⟩
            have hprevKey := List.find?_some hfound
            have hrKey := keyValueOf_mergeKeyedAt hitemOrd hkv hscalar hprevKey hr
            apply hrest _ _ hcov
            intro later hmem
            rw [← hlater later hmem]
            apply find?_set_of_not hidx
            · cases hprev : keyValueOf prev key with
              | none => simp [hprev, hkv, sameKey] at hprevKey
              | some prevKey =>
                rw [hprev, hkv] at hprevKey
                rw [eq_of_same_scalar hscalar hprevKey, ← hkv]
                exact hother later hmem
            · rw [hrKey, ← hkv]
              exact hother later hmem
      exact hitems overArr (fun v hv => hv) baseArr (fun _ _ => rfl) h
    | _ => exact h
  | object overMap ih =>
    intro path base h
    cases base with
    | object baseMap =>
      refine coveredKeyedFields_iff.mpr fun k v hmem => ?_
      refine (coveredByBaseFields_iff.mp h k v hmem).imp_right fun hv => ?_
      cases hlookup : baseMap.lookup k with
      | none => simpa [hlookup] using hv
      | some baseV =>
        rw [hlookup] at hv
        exact ih k v hmem (ordered_of_mem hord hmem) _ baseV hv
    | _ => exact h
  | _ =>
    intro path base h
    cases base <;> exact h

theorem get_mergeKeyedAt (keys : List String) :
    ∀ {path : String} {base overlay r : Value ν} {n : ν},
    keys ≠ [] → overlay.Ordered → CoveredKeyed debug key path base overlay →
    overlay.get keys = some (.null n) → mergeKeyedAt debug key path base overlay = .ok r →
    r.get keys = none := by
  induction keys with
  | nil =>
    intro path base overlay r n hkeys
    exact absurd rfl hkeys
  | cons k ks ih =>
    intro path base overlay r n _ hord hcovered hget h
    have hn := nulls_of_get hget
    cases overlay with
    | object overMap =>
      simp only [Value.get, Option.bind_eq_some_iff] at hget
      obtain ⟨v, hlookup, hv⟩ := hget
      have hmem := mem_of_lookup hlookup
      cases base with
      | object baseMap =>
        simp only [mergeKeyedAt, bind, Except.bind, mergeKeyedFields_eq] at h
        cases hmerge : mergeWith (keyedField debug key path) baseMap overMap with
        | error e => simp [hmerge] at h
        | ok result =>
          simp only [hmerge, pure, Except.pure, Except.ok.injEq] at h
          subst h
          have hresult := mergeWith_lookup (nodup_keys hord) hmerge k v hmem
          simp only [Value.get]
          cases hnull : v.isNull with
          | true =>
            simp only [keyedField, hnull, if_true, Except.ok.injEq] at hresult
            simp [← hresult]
          | false =>
            have hks : ks ≠ [] := by
              rintro rfl
              simp only [Value.get, Option.some.injEq] at hv
              simp [hv, isNull] at hnull
            have hcov := coveredKeyedFields_iff.mp hcovered k v hmem
            cases hbase : baseMap.lookup k with
            | none =>
              have hnil : v.nulls = [] := by simpa [hnull, hbase] using hcov
              have := nulls_of_get hv
              simp [hnil] at this
            | some baseV =>
              simp only [keyedField, hnull, hbase, Bool.false_eq_true, if_false] at hresult
              cases hdeep : mergeKeyedAt debug key (path ++ "." ++ k) baseV v with
              | error e => simp [hdeep, Except.map] at hresult
              | ok w =>
                simp only [hdeep, Except.map, Except.ok.injEq] at hresult
                rw [← hresult, Option.bind_some]
                exact ih hks (ordered_of_mem hord hmem) (by simpa [hnull, hbase] using hcov) hv
                  hdeep
      | _ =>
        have hnil : (Value.object overMap).nulls = [] := by simpa [CoveredKeyed] using hcovered
        simp [hnil] at hn
    | _ => simp [Value.get] at hget

end KeyedKeeps

/-! ## The law -/

theorem Value.nulls_mark (side : Side) (v : Value Unit) : ∀ n ∈ (v.mark side).nulls, n = side := by
  intro n hn
  rw [mark, nulls_map, List.mem_map] at hn
  obtain ⟨_, -, rfl⟩ := hn
  rfl

theorem Value.mark_erase (side : Side) (v : Value Unit) : (v.mark side).map (fun _ => ()) = v := by
  rw [mark, map_map]
  exact map_unit v

theorem Value.clean_mark_base (v : Value Unit) : Clean (v.mark .base) := by
  intro hn
  cases v.nulls_mark .base _ hn

theorem Value.mark_ordered (side : Side) (v : Value Unit) (h : v.Ordered) :
    (v.mark side).Ordered := by
  induction v using Value.ind with
  | array l ih =>
    rw [mark, Value.map, Ordered, orderedItems_iff]
    intro w hw
    obtain ⟨v, hv, rfl⟩ := (mem_mapItems _).mp hw
    exact ih v hv (orderedItems_iff.mp h v hv)
  | object l ih =>
    rw [mark, Value.map, Ordered, orderedFields_iff]
    constructor
    · rw [mapFields_eq, List.pairwise_map]
      exact h.1
    · intro k w hw
      obtain ⟨v, hv, rfl⟩ := (mem_mapFields _).mp hw
      exact ih k v hv (ordered_of_mem h hv)
  | _ => trivial

/-- Every null of the overlay deletes the key it stands under, and none of them is kept. -/
def NullsDelete (appendLists : Bool) (base overlay : Json) : Prop :=
  (∀ path, path ≠ [] → overlay.1.get path = some (.null ()) →
    (mergeDeep appendLists base.1 overlay.1).get path = none) ∧
  Clean (mergeDeep appendLists (base.1.mark .base) (overlay.1.mark .overlay))

/-- The same for a keyed merge that succeeds, of whole inventories or of the records of a list. -/
def NullsDeleteKeyed (debug : DebugKey) (key path : String) (base overlay : Json) : Prop :=
  (∀ r keys, mergeKeyedAt debug key path base.1 overlay.1 = .ok r → keys ≠ [] →
    overlay.1.get keys = some (.null ()) → r.get keys = none) ∧
  ∀ r, mergeKeyedAt debug key path (base.1.mark .base) (overlay.1.mark .overlay) = .ok r → Clean r

/-- **Nulls delete exactly where the overlay is covered by the base**; for keyed merges cover is
    enough, and where records have scalar keys and no key twice it is cover by the base alone. -/
theorem nullsDelete_iff (base overlay : Json) :
    (∀ appendLists, NullsDelete appendLists base overlay ↔ Covered appendLists base.1 overlay.1) ∧
    (∀ debug key path, CoveredKeyed debug key path base.1 overlay.1 →
      NullsDeleteKeyed debug key path base overlay) ∧
    ∀ debug key path, CoveredByBase key base.1 overlay.1 →
      CoveredKeyed debug key path base.1 overlay.1 := by
  have hord := overlay.1.mark_ordered .overlay overlay.2
  refine ⟨?_, ?_, fun debug key path => coveredKeyed_of_byBase overlay.1 overlay.2 path base.1⟩
  · intro appendLists
    have hmark : Covered appendLists (base.1.mark .base) (overlay.1.mark .overlay) ↔
        Covered appendLists base.1 overlay.1 := by
      rw [← covered_map (fun _ => ()), Value.mark_erase, Value.mark_erase]
    have hclean := clean_mergeDeep appendLists _ (overlay.1.nulls_mark .overlay) hord _
      base.1.clean_mark_base
    constructor
    · intro h
      exact hmark.mp (hclean.mp h.2)
    · intro h
      constructor
      · intro path hpath hget
        exact get_mergeDeep appendLists path hpath overlay.2 h hget
      · exact hclean.mpr (hmark.mpr h)
  · intro debug key path h
    constructor
    · intro r keys hr hkeys hget
      exact get_mergeKeyedAt keys hkeys overlay.2 h hget hr
    · intro r hr
      apply clean_mergeKeyedAt _ hord path _ r base.1.clean_mark_base _ hr
      apply coveredKeyed_of_map (fun _ => ())
      rwa [Value.mark_erase, Value.mark_erase]

/-- `{}`. -/
def noKeys : Json := ⟨.object [], .nil, trivial⟩

/-- `{"a": {"b": null}}`. -/
def nestedNull : Json :=
  ⟨.object [("a", .object [("b", .null ())])], .cons (by simp) .nil,
    ⟨.cons (by simp) .nil, trivial, trivial⟩, trivial⟩

/-- The base has no `a`: the map under it is taken overlay, its null included. -/
theorem nestedNull_kept (appendLists : Bool) (debug : DebugKey) (key path : String) :
    (mergeDeep appendLists noKeys.1 nestedNull.1).get ["a", "b"] = some (.null ()) ∧
    mergeKeyedAt debug key path noKeys.1 nestedNull.1 = .ok nestedNull.1 :=
  ⟨rfl, rfl⟩

theorem nestedNull_not_deleted : (∀ appendLists, ¬ NullsDelete appendLists noKeys nestedNull) ∧
    ∀ debug key path, ¬ NullsDeleteKeyed debug key path noKeys nestedNull := by
  constructor
  · intro appendLists h
    have hnone := h.1 ["a", "b"] (by simp) rfl
    rw [(nestedNull_kept appendLists (fun _ => "") "" "").1] at hnone
    cases hnone
  · intro debug key path h
    have hnone := h.1 nestedNull.1 ["a", "b"] (nestedNull_kept true debug key path).2 (by simp) rfl
    cases hnone

end Bosun
