import Bosun.Inventory

/-!
# Nulls of an overlay

A null of the overlay deletes the key it stands under.  That is so where the merge gets to
the null; a subtree of the overlay that finds no map beside it in the base is taken as it
is, with the nulls in it.
-/

namespace Bosun

namespace Value

variable {ν μ : Type}

theorem mem_nullsItems {n : ν} {l : List (Value ν)} :
    n ∈ nullsItems l ↔ ∃ v ∈ l, n ∈ v.nulls := by
  induction l with
  | nil => simp [nullsItems]
  | cons v l ih => simp [nullsItems, ih]

theorem mem_nullsFields {n : ν} {l : List (String × Value ν)} :
    n ∈ nullsFields l ↔ ∃ k v, (k, v) ∈ l ∧ n ∈ v.nulls := by
  induction l with
  | nil => simp [nullsFields]
  | cons e l ih =>
    obtain ⟨k₀, v₀⟩ := e
    simp only [nullsFields, List.mem_append, ih, List.mem_cons, Prod.mk.injEq]
    constructor
    · rintro (h | ⟨k, v, hmem, h⟩)
      · exact ⟨k₀, v₀, .inl ⟨rfl, rfl⟩, h⟩
      · exact ⟨k, v, .inr hmem, h⟩
    · rintro ⟨k, v, ⟨rfl, rfl⟩ | hmem, h⟩
      · exact .inl h
      · exact .inr ⟨k, v, hmem, h⟩

theorem orderedItems_iff {l : List (Value ν)} : OrderedItems l ↔ ∀ v ∈ l, v.Ordered := by
  induction l with
  | nil => simp [OrderedItems]
  | cons v l ih => simp [OrderedItems, ih]

theorem orderedFields_iff {l : List (String × Value ν)} :
    OrderedFields l ↔ ∀ k v, (k, v) ∈ l → v.Ordered := by
  induction l with
  | nil => simp [OrderedFields]
  | cons e l ih =>
    obtain ⟨k₀, v₀⟩ := e
    simp only [OrderedFields, ih, List.mem_cons, Prod.mk.injEq]
    constructor
    · rintro ⟨h₀, h⟩ k v (⟨rfl, rfl⟩ | hmem)
      · exact h₀
      · exact h k v hmem
    · intro h
      exact ⟨h k₀ v₀ (.inl ⟨rfl, rfl⟩), fun k v hmem => h k v (.inr hmem)⟩

theorem mapItems_eq (f : ν → μ) (l : List (Value ν)) : mapItems f l = l.map (map f) := by
  induction l with
  | nil => rfl
  | cons v l ih => simp [mapItems, ih]

theorem mapFields_eq (f : ν → μ) (l : List (String × Value ν)) :
    mapFields f l = l.map fun e => (e.1, map f e.2) := by
  induction l with
  | nil => rfl
  | cons e l ih => simp [mapFields, ih]

theorem nulls_map (f : ν → μ) (v : Value ν) : (v.map f).nulls = v.nulls.map f := by
  induction v using ind with
  | null n => rfl
  | bool b => rfl
  | number n => rfl
  | string s => rfl
  | array l ih =>
    simp only [map, nulls]
    induction l with
    | nil => rfl
    | cons v l ihl =>
      simp only [mapItems, nullsItems, List.map_append, ih v List.mem_cons_self]
      rw [ihl fun w hw => ih w (List.mem_cons_of_mem v hw)]
  | object l ih =>
    simp only [map, nulls]
    induction l with
    | nil => rfl
    | cons e l ihl =>
      obtain ⟨k, v⟩ := e
      simp only [mapFields, nullsFields, List.map_append, ih k v List.mem_cons_self]
      rw [ihl fun k' w hw => ih k' w (List.mem_cons_of_mem (k, v) hw)]

/-- Values that the program takes for equal have nulls at the same places. -/
theorem nulls_of_same (v : Value ν) : ∀ v', v.same v' = true → (v.nulls = [] ↔ v'.nulls = []) := by
  induction v using ind with
  | null n =>
    intro v' h
    cases v' <;> simp [same] at h
    simp [nulls]
  | bool b =>
    intro v' h
    cases v' <;> simp [same] at h
    simp [nulls]
  | number n =>
    intro v' h
    cases v' <;> simp [same] at h
    simp [nulls]
  | string s =>
    intro v' h
    cases v' <;> simp [same] at h
    simp [nulls]
  | array l ih =>
    intro v' h
    cases v' <;> simp [same] at h
    rename_i l'
    simp only [nulls]
    induction l generalizing l' with
    | nil => cases l' <;> simp [sameItems, nullsItems] at h ⊢
    | cons v l ihl =>
      cases l' with
      | nil => simp [sameItems] at h
      | cons v' l' =>
        simp only [sameItems, Bool.and_eq_true] at h
        simp only [nullsItems, List.append_eq_nil_iff, ih v List.mem_cons_self v' h.1]
        rw [ihl (fun w hw => ih w (List.mem_cons_of_mem v hw)) l' h.2]
  | object l ih =>
    intro v' h
    cases v' <;> simp [same] at h
    rename_i l'
    simp only [nulls]
    induction l generalizing l' with
    | nil => cases l' <;> simp [sameFields, nullsFields] at h ⊢
    | cons e l ihl =>
      obtain ⟨k, v⟩ := e
      cases l' with
      | nil => simp [sameFields] at h
      | cons e' l' =>
        obtain ⟨k', v'⟩ := e'
        simp only [sameFields, Bool.and_eq_true] at h
        simp only [nullsFields, List.append_eq_nil_iff, ih k v List.mem_cons_self v' h.1.2]
        rw [ihl (fun k' w hw => ih k' w (List.mem_cons_of_mem (k, v) hw)) l' h.2]

theorem nulls_of_get {path : List String} {v : Value ν} {n : ν} (h : v.get path = some (.null n)) :
    n ∈ v.nulls := by
  induction path generalizing v with
  | nil =>
    simp only [get, Option.some.injEq] at h
    simp [h, nulls]
  | cons k ks ih =>
    cases v with
    | object l =>
      simp only [get, Option.bind_eq_some_iff] at h
      obtain ⟨w, hlookup, hget⟩ := h
      rw [nulls, mem_nullsFields]
      exact ⟨k, w, mem_of_lookup hlookup, ih hget⟩
    | _ => simp [get] at h

end Value

/-! ## The loop over the fields -/

section Fields

variable {ν ε : Type}

/-- Both merges go through the fields of the overlay in this way: what becomes of a key depends
    on the two values it has. -/
def mergeWith (f : String → Option (Value ν) → Value ν → Except ε (Option (Value ν))) :
    List (String × Value ν) → List (String × Value ν) → Except ε (List (String × Value ν))
  | baseMap, [] => .ok baseMap
  | baseMap, (k, v) :: rest =>
    match f k (baseMap.lookup k) v with
    | .error e => .error e
    | .ok x => mergeWith f (putField k x baseMap) rest

variable {f : String → Option (Value ν) → Value ν → Except ε (Option (Value ν))}

/-- Keys that the overlay does not have are left alone. -/
theorem mergeWith_frame {overlay : List (String × Value ν)} {k : String}
    (hk : k ∉ overlay.map Prod.fst) : ∀ {base result}, mergeWith f base overlay = .ok result →
      result.lookup k = base.lookup k := by
  induction overlay with
  | nil =>
    intro base result h
    cases h
    rfl
  | cons e overlay ih =>
    obtain ⟨k₀, v₀⟩ := e
    intro base result h
    simp only [List.map_cons, List.mem_cons, not_or] at hk
    simp only [mergeWith] at h
    cases hf : f k₀ (base.lookup k₀) v₀ with
    | error e => simp [hf] at h
    | ok x =>
      rw [hf] at h
      rw [ih hk.2 h, lookup_putField, if_neg hk.1]

/-- What becomes of a key of the overlay. -/
theorem mergeWith_lookup {overlay : List (String × Value ν)}
    (hkeys : (overlay.map Prod.fst).Nodup) :
    ∀ {base result}, mergeWith f base overlay = .ok result → ∀ k v, (k, v) ∈ overlay →
      f k (base.lookup k) v = .ok (result.lookup k) := by
  induction overlay with
  | nil => simp
  | cons e overlay ih =>
    obtain ⟨k₀, v₀⟩ := e
    intro base result h k v hmem
    simp only [List.map_cons, List.nodup_cons] at hkeys
    simp only [mergeWith] at h
    cases hf : f k₀ (base.lookup k₀) v₀ with
    | error e => simp [hf] at h
    | ok x =>
      rw [hf] at h
      rcases List.mem_cons.mp hmem with heq | hin
      · cases heq
        rw [mergeWith_frame hkeys.1 h, lookup_putField, if_pos rfl, hf]
      · have hne : k ≠ k₀ := by
          rintro rfl
          exact hkeys.1 (List.mem_map_of_mem hin)
        have hrest := ih hkeys.2 h k v hin
        rwa [lookup_putField, if_neg hne] at hrest

/-- The fields of the result. -/
theorem mem_mergeWith {overlay : List (String × Value ν)} (hkeys : (overlay.map Prod.fst).Nodup) :
    ∀ {base result}, mergeWith f base overlay = .ok result → ∀ k w, (k, w) ∈ result ↔
      ((k, w) ∈ base ∧ k ∉ overlay.map Prod.fst) ∨
        ∃ v, (k, v) ∈ overlay ∧ f k (base.lookup k) v = .ok (some w) := by
  induction overlay with
  | nil =>
    intro base result h
    cases h
    simp
  | cons e overlay ih =>
    obtain ⟨k₀, v₀⟩ := e
    intro base result h k w
    simp only [List.map_cons, List.nodup_cons] at hkeys
    simp only [mergeWith] at h
    cases hf : f k₀ (base.lookup k₀) v₀ with
    | error e => simp [hf] at h
    | ok x =>
      rw [hf] at h
      rw [ih hkeys.2 h, mem_putField, lookup_putField]
      by_cases hk : k = k₀
      · -- the key just put: the rest of the overlay does not have it
        subst hk
        have hnot : ∀ v, (k, v) ∉ overlay := fun v hv => hkeys.1 (List.mem_map_of_mem hv)
        simp [hnot, hkeys.1, hf]
      · simp [hk]

end Fields

/-! ## The two merges go through the fields in that way -/

section Instances

variable {ν : Type}

/-- One key of `merge_deep`. -/
def deepField (appendLists : Bool) (_ : String) (baseV : Option (Value ν)) (v : Value ν) :
    Except InventoryError (Option (Value ν)) :=
  if v.isNull then .ok none
  else
    match baseV with
    | some baseV => .ok (some (mergeDeep appendLists baseV v))
    | none => .ok (some v)

theorem mergeFields_eq (appendLists : Bool) (overlay : List (String × Value ν)) : ∀ base,
    mergeWith (deepField appendLists) base overlay =
      .ok (mergeFields appendLists base overlay) := by
  induction overlay with
  | nil =>
    intro base
    rfl
  | cons e overlay ih =>
    obtain ⟨k, v⟩ := e
    intro base
    cases hnull : v.isNull with
    | true => simp [mergeWith, mergeFields, deepField, hnull, putField, ih]
    | false =>
      cases hlookup : base.lookup k with
      | some baseV => simp [mergeWith, mergeFields, deepField, hnull, hlookup, putField, ih]
      | none =>
        simp [mergeWith, mergeFields, deepField, hnull, hlookup, putField,
          removeField_of_lookup hlookup, ih]

/-- One key of `merge_keyed_at`. -/
def keyedField (debug : DebugKey) (key path : String) (k : String) (baseV : Option (Value ν))
    (v : Value ν) : Except InventoryError (Option (Value ν)) :=
  if v.isNull then .ok none
  else
    match baseV with
    | some baseV => (mergeKeyedAt debug key (path ++ "." ++ k) baseV v).map some
    | none => .ok (some v)

theorem mergeKeyedFields_eq (debug : DebugKey) (key path : String)
    (overlay : List (String × Value ν)) : ∀ base,
    mergeKeyedFields debug key path base overlay =
      mergeWith (keyedField debug key path) base overlay := by
  induction overlay with
  | nil =>
    intro base
    rfl
  | cons e overlay ih =>
    obtain ⟨k, v⟩ := e
    intro base
    cases hnull : v.isNull with
    | true => simp [mergeWith, mergeKeyedFields, keyedField, hnull, putField, ih]
    | false =>
      cases hlookup : base.lookup k with
      | some baseV =>
        cases hmerge : mergeKeyedAt debug key (path ++ "." ++ k) baseV v with
        | error e =>
          simp [mergeWith, mergeKeyedFields, keyedField, hnull, hlookup, hmerge, Except.map, bind,
            Except.bind]
        | ok w =>
          simp [mergeWith, mergeKeyedFields, keyedField, hnull, hlookup, hmerge, Except.map, bind,
            Except.bind, putField, ih]
      | none =>
        simp [mergeWith, mergeKeyedFields, keyedField, hnull, hlookup, putField,
          removeField_of_lookup hlookup, ih]

end Instances

/-! ## Overlays whose nulls the merge gets to -/

section Covered

variable {ν : Type}

mutual

/-- Wherever the overlay is taken as it is, it holds no null: below the keys that the base does
    not have, where the base has no map for a map, and in lists. -/
def Covered (appendLists : Bool) : Value ν → Value ν → Prop
  | _, .null _ => True
  | .object baseMap, .object overMap => CoveredFields appendLists baseMap overMap
  | .array baseArr, .array overArr =>
    if appendLists then
      ∀ item ∈ overArr, item.nulls = [] ∨ ∃ existing ∈ baseArr, existing.same item = true
    else (Value.array overArr).nulls = []
  | _, overlay => overlay.nulls = []

def CoveredFields (appendLists : Bool) (baseMap : List (String × Value ν)) :
    List (String × Value ν) → Prop
  | [] => True
  | (k, v) :: rest =>
    (v.isNull = true ∨
      match baseMap.lookup k with
      | some baseV => Covered appendLists baseV v
      | none => v.nulls = []) ∧
    CoveredFields appendLists baseMap rest

end

mutual

/-- The same for keyed lists: a record of the overlay is covered by the record with its key that
    the list holds when its turn comes. -/
def CoveredKeyed (debug : DebugKey) (key path : String) : Value ν → Value ν → Prop
  | _, .null _ => True
  | .object baseMap, .object overMap => CoveredKeyedFields debug key path baseMap overMap
  | .array baseArr, .array overArr => CoveredKeyedItems debug key path baseArr overArr
  | _, overlay => overlay.nulls = []

def CoveredKeyedFields (debug : DebugKey) (key path : String)
    (baseMap : List (String × Value ν)) : List (String × Value ν) → Prop
  | [] => True
  | (k, v) :: rest =>
    (v.isNull = true ∨
      match baseMap.lookup k with
      | some baseV => CoveredKeyed debug key (path ++ "." ++ k) baseV v
      | none => v.nulls = []) ∧
    CoveredKeyedFields debug key path baseMap rest

def CoveredKeyedItems (debug : DebugKey) (key path : String) :
    List (Value ν) → List (Value ν) → Prop
  | _, [] => True
  | merged, item :: rest =>
    match position key item merged with
    | some (idx, prev) =>
      let childPath := path ++ "[" ++ key ++ "=" ++
        debug ((keyValueOf item key).map (Value.map fun _ => ())) ++ "]"
      CoveredKeyed debug key childPath prev item ∧
        ∀ r, mergeKeyedAt debug key childPath prev item = .ok r →
          CoveredKeyedItems debug key path (merged.set idx r) rest
    | none => item.nulls = [] ∧ CoveredKeyedItems debug key path (merged ++ [item]) rest

end

/-- Texts, numbers and flags. -/
def Value.isScalar : Value ν → Bool
  | .bool _ | .number _ | .string _ => true
  | _ => false

/-- The first record of a list with the key of the item. -/
def recordFor (key : String) (item : Value ν) (l : List (Value ν)) : Option (Value ν) :=
  l.find? fun existing => sameKey (keyValueOf existing key) (keyValueOf item key)

mutual

/-- Cover told from the two values alone, for lists of the overlay whose records have scalar keys
    and no key twice: a record of the overlay is covered by the record of the base with its
    key. -/
def CoveredByBase (key : String) : Value ν → Value ν → Prop
  | _, .null _ => True
  | .object baseMap, .object overMap => CoveredByBaseFields key baseMap overMap
  | .array baseArr, .array overArr => CoveredByBaseItems key baseArr overArr
  | _, overlay => overlay.nulls = []

def CoveredByBaseFields (key : String) (baseMap : List (String × Value ν)) :
    List (String × Value ν) → Prop
  | [] => True
  | (k, v) :: rest =>
    (v.isNull = true ∨
      match baseMap.lookup k with
      | some baseV => CoveredByBase key baseV v
      | none => v.nulls = []) ∧
    CoveredByBaseFields key baseMap rest

def CoveredByBaseItems (key : String) (baseArr : List (Value ν)) : List (Value ν) → Prop
  | [] => True
  | item :: rest =>
    (∃ kv, keyValueOf item key = some kv ∧ kv.isScalar = true) ∧
    (∀ later ∈ rest, sameKey (keyValueOf item key) (keyValueOf later key) = false) ∧
    (match recordFor key item baseArr with
      | some prev => CoveredByBase key prev item
      | none => item.nulls = []) ∧
    CoveredByBaseItems key baseArr rest

end

theorem coveredFields_iff {appendLists : Bool} {base overlay : List (String × Value ν)} :
    CoveredFields appendLists base overlay ↔ ∀ k v, (k, v) ∈ overlay → v.isNull = true ∨
      match base.lookup k with
      | some baseV => Covered appendLists baseV v
      | none => v.nulls = [] := by
  induction overlay with
  | nil => simp [CoveredFields]
  | cons e overlay ih =>
    obtain ⟨k₀, v₀⟩ := e
    rw [CoveredFields, ih]
    constructor
    · rintro ⟨h₀, h⟩ k v hmem
      rcases List.mem_cons.mp hmem with heq | hmem
      · cases heq
        exact h₀
      · exact h k v hmem
    · intro h
      exact ⟨h k₀ v₀ List.mem_cons_self, fun k v hmem => h k v (List.mem_cons_of_mem _ hmem)⟩

theorem coveredKeyedFields_iff {debug : DebugKey} {key path : String}
    {base overlay : List (String × Value ν)} :
    CoveredKeyedFields debug key path base overlay ↔ ∀ k v, (k, v) ∈ overlay → v.isNull = true ∨
      match base.lookup k with
      | some baseV => CoveredKeyed debug key (path ++ "." ++ k) baseV v
      | none => v.nulls = [] := by
  induction overlay with
  | nil => simp [CoveredKeyedFields]
  | cons e overlay ih =>
    obtain ⟨k₀, v₀⟩ := e
    rw [CoveredKeyedFields, ih]
    constructor
    · rintro ⟨h₀, h⟩ k v hmem
      rcases List.mem_cons.mp hmem with heq | hmem
      · cases heq
        exact h₀
      · exact h k v hmem
    · intro h
      exact ⟨h k₀ v₀ List.mem_cons_self, fun k v hmem => h k v (List.mem_cons_of_mem _ hmem)⟩

theorem coveredByBaseFields_iff {key : String} {base overlay : List (String × Value ν)} :
    CoveredByBaseFields key base overlay ↔ ∀ k v, (k, v) ∈ overlay → v.isNull = true ∨
      match base.lookup k with
      | some baseV => CoveredByBase key baseV v
      | none => v.nulls = [] := by
  induction overlay with
  | nil => simp [CoveredByBaseFields]
  | cons e overlay ih =>
    obtain ⟨k₀, v₀⟩ := e
    rw [CoveredByBaseFields, ih]
    constructor
    · rintro ⟨h₀, h⟩ k v hmem
      rcases List.mem_cons.mp hmem with heq | hmem
      · cases heq
        exact h₀
      · exact h k v hmem
    · intro h
      exact ⟨h k₀ v₀ List.mem_cons_self, fun k v hmem => h k v (List.mem_cons_of_mem _ hmem)⟩

end Covered

end Bosun
