import Bosun.InventoryNulls

/-!
# Marks do not change a merge

Changing the marks of the nulls before a merge or after it is the same: no function of the
inventory looks at a mark.
-/

namespace Bosun

variable {ν μ : Type} (f : ν → μ)

open Value

theorem isNull_map (v : Value ν) : (v.map f).isNull = v.isNull := by
  cases v <;> rfl

theorem lookup_mapFields (k : String) (l : List (String × Value ν)) :
    (mapFields f l).lookup k = (l.lookup k).map (Value.map f) := by
  induction l with
  | nil => rfl
  | cons e l ih =>
    obtain ⟨k', v⟩ := e
    simp only [mapFields, List.lookup_cons, ih]
    cases k == k' <;> rfl

theorem same_map (v : Value ν) : ∀ v', (v.map f).same (v'.map f) = v.same v' := by
  induction v using Value.ind with
  | null n =>
    intro v'
    cases v' <;> simp [Value.map, same]
  | bool b =>
    intro v'
    cases v' <;> simp [Value.map, same]
  | number n =>
    intro v'
    cases v' <;> simp [Value.map, same]
  | string s =>
    intro v'
    cases v' <;> simp [Value.map, same]
  | array l ih =>
    intro v'
    cases v' with
    | array l' =>
      simp only [Value.map, same]
      induction l generalizing l' with
      | nil => cases l' <;> rfl
      | cons v l ihl =>
        cases l' with
        | nil => rfl
        | cons v' l' =>
          simp only [mapItems, sameItems, ih v List.mem_cons_self]
          rw [ihl fun w hw => ih w (List.mem_cons_of_mem v hw)]
    | _ => simp [Value.map, same]
  | object l ih =>
    intro v'
    cases v' with
    | object l' =>
      simp only [Value.map, same]
      induction l generalizing l' with
      | nil => cases l' <;> rfl
      | cons e l ihl =>
        obtain ⟨k, v⟩ := e
        cases l' with
        | nil => rfl
        | cons e' l' =>
          obtain ⟨k', v'⟩ := e'
          simp only [mapFields, sameFields, ih k v List.mem_cons_self]
          rw [ihl fun k₀ w hw => ih k₀ w (List.mem_cons_of_mem (k, v) hw)]
    | _ => simp [Value.map, same]

theorem map_map {κ : Type} (g : μ → κ) (v : Value ν) :
    (v.map f).map g = v.map (g ∘ f) := by
  induction v using Value.ind with
  | null n => rfl
  | bool b => rfl
  | number n => rfl
  | string s => rfl
  | array l ih =>
    simp only [Value.map, mapItems_eq, List.map_map, Value.array.injEq]
    exact List.map_congr_left ih
  | object l ih =>
    simp only [Value.map, mapFields_eq, List.map_map, Value.object.injEq]
    apply List.map_congr_left
    rintro ⟨k, v⟩ hmem
    simp [ih k v hmem]

theorem map_unit (v : Value Unit) : v.map (fun _ => ()) = v := by
  induction v using Value.ind with
  | null n => rfl
  | bool b => rfl
  | number n => rfl
  | string s => rfl
  | array l ih =>
    simp only [Value.map, mapItems_eq, Value.array.injEq]
    calc l.map (Value.map fun _ => ()) = l.map id := List.map_congr_left ih
      _ = l := List.map_id l
  | object l ih =>
    simp only [Value.map, mapFields_eq, Value.object.injEq]
    calc l.map (fun e => (e.1, e.2.map fun _ => ())) = l.map id := by
          apply List.map_congr_left
          rintro ⟨k, v⟩ hmem
          simp [ih k v hmem]
      _ = l := List.map_id l

theorem removeField_map (k : String) (l : List (String × Value ν)) :
    mapFields f (removeField k l) = removeField k (mapFields f l) := by
  simp [mapFields_eq, removeField, List.filter_map, Function.comp_def]

theorem insertField_map (k : String) (v : Value ν) (l : List (String × Value ν)) :
    mapFields f (insertField k v l) = insertField k (v.map f) (mapFields f l) := by
  induction l with
  | nil => rfl
  | cons e l ih =>
    obtain ⟨k', v'⟩ := e
    by_cases h : k < k' <;> simp [insertField, mapFields, h, ih]

theorem appendMissing_map (overlay : List (Value ν)) : ∀ base,
    mapItems f (appendMissing base overlay) =
      appendMissing (mapItems f base) (mapItems f overlay) := by
  induction overlay with
  | nil =>
    intro base
    rfl
  | cons item overlay ih =>
    intro base
    have hany : (mapItems f base).any (fun e => e.same (item.map f)) =
        base.any fun e => e.same item := by
      simp [mapItems_eq, List.any_map, Function.comp_def, same_map]
    by_cases h : base.any (fun e => e.same item) = true
    · simp only [appendMissing, mapItems, hany, h, if_true, ih]
    · have happend : mapItems f (base ++ [item]) = mapItems f base ++ [item.map f] := by
        simp [mapItems_eq]
      simp only [appendMissing, mapItems, hany, h, Bool.false_eq_true, if_false, ih, happend]

theorem mergeDeep_map (appendLists : Bool) (overlay : Value ν) : ∀ base,
    (mergeDeep appendLists base overlay).map f =
      mergeDeep appendLists (base.map f) (overlay.map f) := by
  induction overlay using Value.ind with
  | null n =>
    intro base
    cases base <;> rfl
  | bool b =>
    intro base
    cases base <;> rfl
  | number n =>
    intro base
    cases base <;> rfl
  | string s =>
    intro base
    cases base <;> rfl
  | array overArr ih =>
    intro base
    cases base with
    | array baseArr =>
      cases appendLists with
      | true => simp only [Value.map, mergeDeep, if_true, appendMissing_map]
      | false => simp [Value.map, mergeDeep]
    | _ => rfl
  | object overMap ih =>
    intro base
    cases base with
    | object baseMap =>
      simp only [Value.map, mergeDeep, Value.object.injEq]
      induction overMap generalizing baseMap with
      | nil => rfl
      | cons e rest ihrest =>
        obtain ⟨k, v⟩ := e
        have hrest := ihrest fun k' w hw => ih k' w (List.mem_cons_of_mem (k, v) hw)
        simp only [mergeFields, mapFields, isNull_map, lookup_mapFields]
        cases hnull : v.isNull with
        | true => simp [hrest, removeField_map]
        | false =>
          cases hlookup : baseMap.lookup k with
          | none => simp [hrest, insertField_map]
          | some baseV =>
            simp [hrest, insertField_map, removeField_map, ih k v List.mem_cons_self]
    | _ => rfl

/-! ## Keyed lists -/

theorem keyValueOf_map (item : Value ν) (key : String) :
    keyValueOf (item.map f) key = (keyValueOf item key).map (Value.map f) := by
  cases item <;> simp [keyValueOf, Value.map, lookup_mapFields]

theorem sameKey_map (x x' : Option (Value ν)) :
    sameKey (x.map (Value.map f)) (x'.map (Value.map f)) = sameKey x x' := by
  cases x <;> cases x' <;> simp [sameKey, same_map]

theorem ensureMapWithKey_map (item : Value ν) (key path : String) :
    ensureMapWithKey (item.map f) key path = ensureMapWithKey item key path := by
  cases item with
  | object l =>
    have hsome : ((mapFields f l).lookup key).isSome = (l.lookup key).isSome := by
      rw [lookup_mapFields, Option.isSome_map]
    simp only [ensureMapWithKey, Value.map, hsome]
  | _ => rfl

theorem ensureAll_map (key path : String) (l : List (Value ν)) :
    ensureAll key path (mapItems f l) = ensureAll key path l := by
  induction l with
  | nil => rfl
  | cons item l ih => simp [ensureAll, mapItems, ensureMapWithKey_map, ih]

theorem position_map (key : String) (item : Value ν) (merged : List (Value ν)) :
    position key (item.map f) (mapItems f merged) =
      (position key item merged).map fun p => (p.1, p.2.map f) := by
  have hfind : (mapItems f merged).findIdx? (fun e =>
      sameKey (keyValueOf e key) (keyValueOf (item.map f) key)) =
      merged.findIdx? fun e => sameKey (keyValueOf e key) (keyValueOf item key) := by
    simp [mapItems_eq, List.findIdx?_map, Function.comp_def, keyValueOf_map, sameKey_map]
  unfold position
  rw [hfind]
  cases merged.findIdx? (fun e => sameKey (keyValueOf e key) (keyValueOf item key)) with
  | none => rfl
  | some idx => simp [mapItems_eq, Function.comp_def]

/-- The text of a key does not depend on the marks. -/
theorem keyText_map (item : Value ν) (key : String) :
    (keyValueOf (item.map f) key).map (Value.map fun _ => ()) =
      (keyValueOf item key).map (Value.map fun _ => ()) := by
  rw [keyValueOf_map, Option.map_map]
  congr 1
  funext v
  exact map_map f (fun _ => ()) v

theorem mergeKeyedAt_map (debug : DebugKey) (key : String) (overlay : Value ν) : ∀ path base,
    mergeKeyedAt debug key path (base.map f) (overlay.map f) =
      (mergeKeyedAt debug key path base overlay).map (Value.map f) := by
  induction overlay using Value.ind with
  | null n =>
    intro path base
    cases base <;> rfl
  | bool b =>
    intro path base
    cases base <;> rfl
  | number n =>
    intro path base
    cases base <;> rfl
  | string s =>
    intro path base
    cases base <;> rfl
  | array overArr ih =>
    intro path base
    cases base with
    | array baseArr =>
      have hitems : ∀ overlay : List (Value ν), (∀ v ∈ overlay, v ∈ overArr) → ∀ merged,
          mergeKeyedItems debug key path (mapItems f merged) (mapItems f overlay) =
            (mergeKeyedItems debug key path merged overlay).map (mapItems f) := by
        intro overlay
        induction overlay with
        | nil =>
          intro _ merged
          rfl
        | cons item rest ihrest =>
          intro hsub merged
          have hrest := ihrest fun v hv => hsub v (List.mem_cons_of_mem item hv)
          simp only [mapItems, mergeKeyedItems, ensureMapWithKey_map, position_map, keyText_map]
          cases hensure : ensureMapWithKey item key path with
          | error e => rfl
          | ok _ =>
            simp only [bind, Except.bind]
            cases hpos : position key item merged with
            | none =>
              have happend : mapItems f (merged ++ [item]) = mapItems f merged ++ [item.map f] := by
                simp [mapItems_eq]
              simp only [Option.map_none, ← happend, hrest]
            | some p =>
              obtain ⟨idx, prev⟩ := p
              simp only [Option.map_some, ih item (hsub item List.mem_cons_self)]
              cases hmerge : mergeKeyedAt debug key (path ++ "[" ++ key ++ "=" ++
                  debug ((keyValueOf item key).map (Value.map fun _ => ())) ++ "]") prev item with
              | error e => rfl
              | ok r =>
                have hset : mapItems f (merged.set idx r) =
                    (mapItems f merged).set idx (r.map f) := by
                  simp [mapItems_eq, List.map_set]
                simp only [Except.map, ← hset, hrest]
      simp only [Value.map, mergeKeyedAt, ensureAll_map, hitems overArr fun v hv => hv]
      cases ensureAll key path baseArr with
      | error e => rfl
      | ok _ =>
        simp only [bind, Except.bind]
        cases mergeKeyedItems debug key path baseArr overArr <;> rfl
    | _ => rfl
  | object overMap ih =>
    intro path base
    cases base with
    | object baseMap =>
      have hfields : ∀ overlay : List (String × Value ν), (∀ e ∈ overlay, e ∈ overMap) → ∀ baseMap,
          mergeKeyedFields debug key path (mapFields f baseMap) (mapFields f overlay) =
            (mergeKeyedFields debug key path baseMap overlay).map (mapFields f) := by
        intro overlay
        induction overlay with
        | nil =>
          intro _ baseMap
          rfl
        | cons e rest ihrest =>
          obtain ⟨k, v⟩ := e
          intro hsub baseMap
          have hrest := ihrest fun e he => hsub e (List.mem_cons_of_mem (k, v) he)
          simp only [mapFields, mergeKeyedFields, isNull_map, lookup_mapFields]
          cases hnull : v.isNull with
          | true => simp only [if_true, ← removeField_map, hrest]
          | false =>
            cases hlookup : baseMap.lookup k with
            | none =>
              simp only [Bool.false_eq_true, if_false, Option.map_none, ← insertField_map, hrest]
            | some baseV =>
              simp only [Bool.false_eq_true, if_false, Option.map_some,
                ih k v (hsub (k, v) List.mem_cons_self)]
              cases hmerge : mergeKeyedAt debug key (path ++ "." ++ k) baseV v with
              | error e => rfl
              | ok w =>
                simp only [Except.map, bind, Except.bind, ← removeField_map, ← insertField_map]
                exact hrest _
      simp only [Value.map, mergeKeyedAt, hfields overMap fun e he => he]
      cases mergeKeyedFields debug key path baseMap overMap <;> rfl
    | _ => rfl

end Bosun
