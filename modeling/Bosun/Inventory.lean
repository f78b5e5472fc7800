import Mathlib.Data.List.Sort
import Mathlib.Data.List.Lookmap

/-!
# Inventories and their merges

`inventory.rs` works on JSON values.  An object is the list of its fields in the order of a
`BTreeMap`, by key.

A null of a `Value ν` carries a mark from `ν`.  The program's values are those of type
`Value Unit`; with other marks the same functions show where the nulls of a result come
from.  No function looks at a mark.
-/

namespace Bosun

/-! ## Values -/

/-- A number of `serde_json`; a float is finite and stands for its value. -/
inductive JsonNumber
  | posInt (n : Nat)
  | negInt (n : Int)
  | float (value : Rat)
deriving DecidableEq

inductive Value (ν : Type)
  | null (mark : ν)
  | bool (b : Bool)
  | number (n : JsonNumber)
  | string (s : String)
  | array (items : List (Value ν))
  | object (fields : List (String × Value ν))

namespace Value

variable {ν μ : Type}

def isNull : Value ν → Bool
  | .null _ => true
  | _ => false

mutual

/-- `PartialEq` of `serde_json::Value`. -/
def same : Value ν → Value ν → Bool
  | .null _, .null _ => true
  | .bool b, .bool b' => b == b'
  | .number n, .number n' => n == n'
  | .string s, .string s' => s == s'
  | .array l, .array l' => sameItems l l'
  | .object l, .object l' => sameFields l l'
  | _, _ => false

def sameItems : List (Value ν) → List (Value ν) → Bool
  | [], [] => true
  | v :: l, v' :: l' => same v v' && sameItems l l'
  | _, _ => false

def sameFields : List (String × Value ν) → List (String × Value ν) → Bool
  | [], [] => true
  | (k, v) :: l, (k', v') :: l' => k == k' && same v v' && sameFields l l'
  | _, _ => false

end

mutual

def map (f : ν → μ) : Value ν → Value μ
  | .null n => .null (f n)
  | .bool b => .bool b
  | .number n => .number n
  | .string s => .string s
  | .array l => .array (mapItems f l)
  | .object l => .object (mapFields f l)

def mapItems (f : ν → μ) : List (Value ν) → List (Value μ)
  | [] => []
  | v :: l => map f v :: mapItems f l

def mapFields (f : ν → μ) : List (String × Value ν) → List (String × Value μ)
  | [] => []
  | (k, v) :: l => (k, map f v) :: mapFields f l

end

mutual

/-- The marks of all nulls, at any depth. -/
def nulls : Value ν → List ν
  | .null n => [n]
  | .bool _ | .number _ | .string _ => []
  | .array l => nullsItems l
  | .object l => nullsFields l

def nullsItems : List (Value ν) → List ν
  | [] => []
  | v :: l => nulls v ++ nullsItems l

def nullsFields : List (String × Value ν) → List ν
  | [] => []
  | (_, v) :: l => nulls v ++ nullsFields l

end

mutual

/-- Every object has its fields in order, with no key twice. -/
def Ordered : Value ν → Prop
  | .null _ | .bool _ | .number _ | .string _ => True
  | .array l => OrderedItems l
  | .object l => l.Pairwise (fun e e' => e.1 < e'.1) ∧ OrderedFields l

def OrderedItems : List (Value ν) → Prop
  | [] => True
  | v :: l => Ordered v ∧ OrderedItems l

def OrderedFields : List (String × Value ν) → Prop
  | [] => True
  | (_, v) :: l => Ordered v ∧ OrderedFields l

end

/-- What is found under a path of keys, through objects only. -/
def get : List String → Value ν → Option (Value ν)
  | [], v => some v
  | k :: ks, .object l => (l.lookup k).bind (get ks)
  | _ :: _, _ => none

/-- Induction over a value: what is in an array or an object comes first. -/
theorem ind {P : Value ν → Prop} (null : ∀ n, P (.null n)) (bool : ∀ b, P (.bool b))
    (number : ∀ n, P (.number n)) (string : ∀ s, P (.string s))
    (array : ∀ l, (∀ v ∈ l, P v) → P (.array l))
    (object : ∀ l, (∀ k v, (k, v) ∈ l → P v) → P (.object l)) : ∀ v, P v := by
  apply @Value.rec ν P (fun l => ∀ v ∈ l, P v) (fun l => ∀ k v, (k, v) ∈ l → P v)
    (fun e => P e.2) null bool number string array object
  · simp
  · intro v l hv hl
    simpa using ⟨hv, hl⟩
  · simp
  · intro e l he hl k v hmem
    rcases List.mem_cons.mp hmem with heq | hmem
    · cases heq
      exact he
    · exact hl k v hmem
  · intro k v hv
    exact hv

end Value

/-! ## Maps -/

section Map

variable {ν : Type}

/-- `BTreeMap::insert` of a key that is not there. -/
def insertField (k : String) (v : Value ν) : List (String × Value ν) → List (String × Value ν)
  | [] => [(k, v)]
  | (k', v') :: l => if k < k' then (k, v) :: (k', v') :: l else (k', v') :: insertField k v l

/-- `BTreeMap::remove`. -/
def removeField (k : String) (l : List (String × Value ν)) : List (String × Value ν) :=
  l.filter fun e => e.1 ≠ k

theorem mem_insertField {k : String} {v : Value ν} {l : List (String × Value ν)}
    {e : String × Value ν} : e ∈ insertField k v l ↔ e = (k, v) ∨ e ∈ l := by
  induction l with
  | nil => simp [insertField]
  | cons e' l ih =>
    by_cases h : k < e'.1
    · simp [insertField, h]
    · simp only [insertField, h, if_false, List.mem_cons, ih]
      tauto

theorem mem_removeField {k : String} {l : List (String × Value ν)} {e : String × Value ν} :
    e ∈ removeField k l ↔ e ∈ l ∧ e.1 ≠ k := by
  simp [removeField]

theorem lookup_removeField_self (k : String) (l : List (String × Value ν)) :
    (removeField k l).lookup k = none := by
  rw [List.lookup_eq_none_iff]
  intro e he
  simpa using (mem_removeField.mp he).2.symm

theorem lookup_removeField {k k' : String} (h : k' ≠ k) (l : List (String × Value ν)) :
    (removeField k l).lookup k' = l.lookup k' := by
  induction l with
  | nil => rfl
  | cons e l ih =>
    obtain ⟨k₀, v⟩ := e
    by_cases hk : k₀ = k
    · have hne : (k' == k₀) = false := by simpa [hk] using h
      have hdrop : removeField k ((k₀, v) :: l) = removeField k l := by simp [removeField, hk]
      rw [hdrop, ih, List.lookup_cons, hne]
    · have hkeep : removeField k ((k₀, v) :: l) = (k₀, v) :: removeField k l := by
        simp [removeField, hk]
      rw [hkeep, List.lookup_cons, List.lookup_cons, ih]

theorem lookup_insertField {k : String} {v : Value ν} {l : List (String × Value ν)}
    (h : l.lookup k = none) (k' : String) :
    (insertField k v l).lookup k' = if k' = k then some v else l.lookup k' := by
  induction l with
  | nil =>
    by_cases hk : k' = k
    · simp [insertField, hk]
    · have hne : (k' == k) = false := by simpa using hk
      simp [insertField, List.lookup_cons, hne, hk]
  | cons e l ih =>
    obtain ⟨k₀, v₀⟩ := e
    have hk₀ : k ≠ k₀ := by
      rintro rfl
      simp at h
    have hrest : l.lookup k = none := by
      have hne : (k == k₀) = false := by simpa using hk₀
      simpa [List.lookup_cons, hne] using h
    by_cases hlt : k < k₀
    · by_cases hk : k' = k
      · simp [insertField, hlt, hk]
      · have hne : (k' == k) = false := by simpa using hk
        simp [insertField, hlt, List.lookup_cons, hne, hk]
    · simp only [insertField, hlt, if_false, List.lookup_cons, ih hrest]
      by_cases hk : k' = k₀
      · have hne : k' ≠ k := fun heq => hk₀ (heq.symm.trans hk)
        simp [hk, hk₀.symm]
      · have hne : (k' == k₀) = false := by simpa using hk
        simp [hne]

theorem mem_of_lookup {k : String} {v : Value ν} {l : List (String × Value ν)}
    (h : l.lookup k = some v) : (k, v) ∈ l := by
  obtain ⟨l₁, l₂, rfl, -⟩ := List.lookup_eq_some_iff.mp h
  simp

theorem lookup_of_mem {l : List (String × Value ν)} (hkeys : (l.map Prod.fst).Nodup) {k : String}
    {v : Value ν} (h : (k, v) ∈ l) : l.lookup k = some v := by
  obtain ⟨l₁, l₂, rfl⟩ := List.append_of_mem h
  rw [List.lookup_eq_some_iff]
  refine ⟨l₁, l₂, rfl, ?_⟩
  intro e he
  simp only [List.map_append, List.map_cons, List.nodup_append] at hkeys
  have hne := hkeys.2.2 e.1 (List.mem_map_of_mem he) k List.mem_cons_self
  simpa [bne_iff_ne] using hne.symm

/-- What the program does to one key: it is set, or it is removed. -/
def putField (k : String) (x : Option (Value ν)) (l : List (String × Value ν)) :
    List (String × Value ν) :=
  match x with
  | none => removeField k l
  | some v => insertField k v (removeField k l)

theorem lookup_putField (k : String) (x : Option (Value ν)) (l : List (String × Value ν))
    (k' : String) : (putField k x l).lookup k' = if k' = k then x else l.lookup k' := by
  cases x with
  | none =>
    by_cases hk : k' = k
    · simp [putField, hk, lookup_removeField_self]
    · simp [putField, hk, lookup_removeField hk]
  | some v =>
    rw [putField, lookup_insertField (lookup_removeField_self k l)]
    by_cases hk : k' = k
    · simp [hk]
    · simp [hk, lookup_removeField hk]

theorem mem_putField {k : String} {x : Option (Value ν)} {l : List (String × Value ν)}
    {e : String × Value ν} :
    e ∈ putField k x l ↔ (e ∈ l ∧ e.1 ≠ k) ∨ (e.1 = k ∧ x = some e.2) := by
  obtain ⟨k', v'⟩ := e
  cases x with
  | none => simp [putField, mem_removeField]
  | some v =>
    simp only [putField, mem_insertField, mem_removeField, Prod.mk.injEq, Option.some.injEq]
    tauto

theorem removeField_of_lookup {k : String} {l : List (String × Value ν)} (h : l.lookup k = none) :
    removeField k l = l := by
  rw [removeField, List.filter_eq_self]
  intro e he
  have hne := List.lookup_eq_none_iff.mp h e he
  have hne' : k ≠ e.1 := by simpa [bne_iff_ne] using hne
  simpa using hne'.symm

end Map

/-! ## `merge_inventory` -/

section Merge

variable {ν : Type}

/-- The loop that appends what is not in the list yet. -/
def appendMissing : List (Value ν) → List (Value ν) → List (Value ν)
  | base, [] => base
  | base, item :: rest =>
    if base.any fun existing => existing.same item then appendMissing base rest
    else appendMissing (base ++ [item]) rest

mutual

def mergeDeep (appendLists : Bool) : Value ν → Value ν → Value ν
  | base, .null _ => base
  | .object baseMap, .object overMap => .object (mergeFields appendLists baseMap overMap)
  | .array baseArr, .array overArr =>
    if appendLists then .array (appendMissing baseArr overArr) else .array overArr
  | _, overlay => overlay

/-- The loop over the fields of the overlay. -/
def mergeFields (appendLists : Bool) :
    List (String × Value ν) → List (String × Value ν) → List (String × Value ν)
  | baseMap, [] => baseMap
  | baseMap, (k, v) :: rest =>
    if v.isNull then mergeFields appendLists (removeField k baseMap) rest
    else
      match baseMap.lookup k with
      | some baseV =>
        mergeFields appendLists
          (insertField k (mergeDeep appendLists baseV v) (removeField k baseMap)) rest
      | none => mergeFields appendLists (insertField k v baseMap) rest

end

inductive MergeStrategy
  | deepMapReplaceList
  | deepMapAppendList
  | replace
deriving DecidableEq, Repr

def mergeInventory (base overlay : Value ν) : MergeStrategy → Value ν
  | .replace => overlay
  | .deepMapReplaceList => mergeDeep false base overlay
  | .deepMapAppendList => mergeDeep true base overlay

end Merge

/-! ## `merge_inventory_keyed` -/

inductive InventoryError
  | keyedListMissingKey (path key : String)
  | keyedListNonMapElement (path : String)
deriving DecidableEq, Repr

def InventoryError.display : InventoryError → String
  | .keyedListMissingKey path key =>
    "inventory.merge_keyed: list at '" ++ path ++ "' contains element without key '" ++ key ++ "'"
  | .keyedListNonMapElement path =>
    "inventory.merge_keyed: list at '" ++ path ++ "' contains non-map element"

section Keyed

variable {ν : Type}

def ensureMapWithKey (item : Value ν) (key path : String) : Except InventoryError Unit :=
  match item with
  | .object l =>
    if (l.lookup key).isSome then .ok () else .error (.keyedListMissingKey path key)
  | _ => .error (.keyedListNonMapElement path)

def keyValueOf (item : Value ν) (key : String) : Option (Value ν) :=
  match item with
  | .object l => l.lookup key
  | _ => none

def sameKey : Option (Value ν) → Option (Value ν) → Bool
  | some v, some v' => v.same v'
  | none, none => true
  | _, _ => false

/-- The first record of the list with the key of the item, and where it stands. -/
def position (key : String) (item : Value ν) (merged : List (Value ν)) : Option (Nat × Value ν) :=
  match merged.findIdx? fun existing => sameKey (keyValueOf existing key) (keyValueOf item key) with
  | some idx => merged[idx]?.map fun prev => (idx, prev)
  | none => none

/-- `ensure_map_with_key` on a whole list. -/
def ensureAll (key path : String) : List (Value ν) → Except InventoryError Unit
  | [] => .ok ()
  | item :: rest => do
    ensureMapWithKey item key path
    ensureAll key path rest

/-- How `Option<Value>` is written by its `Debug`. -/
abbrev DebugKey := Option (Value Unit) → String

mutual

def mergeKeyedAt (debug : DebugKey) (key path : String) :
    Value ν → Value ν → Except InventoryError (Value ν)
  | base, .null _ => .ok base
  | .object baseMap, .object overMap => do
    let merged ← mergeKeyedFields debug key path baseMap overMap
    return .object merged
  | .array baseArr, .array overArr => do
    ensureAll key path baseArr
    let merged ← mergeKeyedItems debug key path baseArr overArr
    return .array merged
  | _, overlay => .ok overlay

def mergeKeyedFields (debug : DebugKey) (key path : String) :
    List (String × Value ν) → List (String × Value ν) →
      Except InventoryError (List (String × Value ν))
  | baseMap, [] => .ok baseMap
  | baseMap, (k, v) :: rest =>
    if v.isNull then mergeKeyedFields debug key path (removeField k baseMap) rest
    else
      match baseMap.lookup k with
      | some baseV => do
        let merged ← mergeKeyedAt debug key (path ++ "." ++ k) baseV v
        mergeKeyedFields debug key path (insertField k merged (removeField k baseMap)) rest
      | none => mergeKeyedFields debug key path (insertField k v baseMap) rest

/-- The loop of `merge_keyed_lists` over the records of the overlay. -/
def mergeKeyedItems (debug : DebugKey) (key path : String) :
    List (Value ν) → List (Value ν) → Except InventoryError (List (Value ν))
  | merged, [] => .ok merged
  | merged, item :: rest => do
    ensureMapWithKey item key path
    match position key item merged with
    | some (idx, prev) =>
      let childPath := path ++ "[" ++ key ++ "=" ++
        debug ((keyValueOf item key).map (Value.map fun _ => ())) ++ "]"
      let r ← mergeKeyedAt debug key childPath prev item
      mergeKeyedItems debug key path (merged.set idx r) rest
    | none => mergeKeyedItems debug key path (merged ++ [item]) rest

end

def mergeInventoryKeyed (debug : DebugKey) (base overlay : Value ν) (key : String) :
    Except InventoryError (Value ν) :=
  mergeKeyedAt debug key "$" base overlay

end Keyed

end Bosun
