import Mathlib.Algebra.Group.Nat.Defs
import Bosun.Inventory

/-!
# From YAML to a manifest and back

An inventory is read as YAML, turned into JSON, handed to a manifest as a Starlark value and
comes back as JSON when it is merged or rendered.  `yaml_to_json` and `json_scalar_to_value` each
try the types of a number one after the other.

`Transported` says what should arrive.  `inventoryFaithful_iff` says when it does: integers above
`i64::MAX` become floats, and floats that are not numbers become null, which a merge takes for a
key to delete.
-/

namespace Bosun

/-! ## The three kinds of values -/

/-- A finite float stands for its value. -/
inductive F64
  | finite (value : Rat)
  | infinity (negative : Bool)
  | nan
deriving DecidableEq

/-- `serde_norway::Number` -/
inductive YamlNumber
  | posInt (n : Nat)
  | negInt (n : Int) (negative : n < 0)
  | float (f : F64)
deriving DecidableEq

/-- `serde_norway::Value` -/
inductive Yaml
  | null
  | bool (b : Bool)
  | number (n : YamlNumber)
  | string (s : String)
  | sequence (items : List Yaml)
  | mapping (fields : List (Yaml × Yaml))
  | tagged (tag : String) (value : Yaml)

/-- What a manifest can be given of an inventory. -/
inductive StarlarkValue
  | none
  | bool (b : Bool)
  | int (i : Int)
  | float (f : F64)
  | string (s : String)
  | list (items : List StarlarkValue)
  | dict (fields : List (String × StarlarkValue))

/-! ## Numbers -/

def I64_MAX : Nat := 2 ^ 63 - 1

/-- The nearest number with 53 binary digits, the even one of two. -/
def roundToF64 (n : Nat) : Nat :=
  let ulp := 2 ^ (n.log2 - 52)
  let down := n / ulp
  let rest := n % ulp
  if ulp < 2 * rest ∨ ulp = 2 * rest ∧ down % 2 = 1 then (down + 1) * ulp else down * ulp

/-- `n as f64` -/
def intAsF64 (n : Int) : F64 :=
  .finite (if n < 0 then -(roundToF64 n.natAbs : Rat) else roundToF64 n.natAbs)

namespace YamlNumber

def asI64 : YamlNumber → Option Int
  | posInt n => if n ≤ I64_MAX then some n else none
  | negInt n _ => some n
  | float _ => none

def asU64 : YamlNumber → Option Nat
  | posInt n => some n
  | negInt .. | float _ => none

def asF64 : YamlNumber → Option F64
  | posInt n => some (intAsF64 n)
  | negInt n _ => some (intAsF64 n)
  | float f => some f

end YamlNumber

namespace JsonNumber

/-- `Number::from(i64)` -/
def ofInt (i : Int) : JsonNumber := if i < 0 then .negInt i else .posInt i.toNat

def fromF64 : F64 → Option JsonNumber
  | .finite value => some (.float value)
  | .infinity _ | .nan => none

def asI64 : JsonNumber → Option Int
  | posInt n => if n ≤ I64_MAX then some n else none
  | negInt n => some n
  | float _ => none

def asF64 : JsonNumber → Option F64
  | posInt n => some (intAsF64 n)
  | negInt n => some (intAsF64 n)
  | float value => some (.finite value)

end JsonNumber

def InI32 (i : Int) : Prop := -2147483648 ≤ i ∧ i ≤ 2147483647

instance (i : Int) : Decidable (InI32 i) := inferInstanceAs (Decidable (_ ∧ _))

/-! ## The conversions -/

/-- How values are written in messages, and numbers in texts. -/
structure InventoryTexts where
  debug : Yaml → String
  debugNumber : YamlNumber → String
  display : JsonNumber → String

section Conversions

variable (texts : InventoryTexts)

/-- The branch of `yaml_to_json` for numbers. -/
def yamlNumberToJson (n : YamlNumber) : Except String (Value Unit) :=
  match n.asI64 with
  | some i => .ok (.number (.ofInt i))
  | none =>
    match n.asU64 with
    | some u => .ok (.number (.posInt u))
    | none =>
      match n.asF64 with
      | some f => .ok (((JsonNumber.fromF64 f).map Value.number).getD (.null ()))
      | none => .error ("unsupported number in YAML: " ++ texts.debugNumber n)

mutual

def yamlToJson : Yaml → Except String (Value Unit)
  | .null => .ok (.null ())
  | .bool b => .ok (.bool b)
  | .number n => yamlNumberToJson texts n
  | .string s => .ok (.string s)
  | .sequence items => (yamlToJsonItems items).map .array
  | .mapping fields => (yamlToJsonFields fields []).map .object
  | .tagged .. => .error "YAML tagged values are not supported in bundle inventory"

def yamlToJsonItems : List Yaml → Except String (List (Value Unit))
  | [] => .ok []
  | item :: rest =>
    match yamlToJson item with
    | .error e => .error e
    | .ok v => (yamlToJsonItems rest).map (v :: ·)

/-- The loop over a mapping; `out` is what has been inserted so far. -/
def yamlToJsonFields :
    List (Yaml × Yaml) → List (String × Value Unit) → Except String (List (String × Value Unit))
  | [], out => .ok out
  | (.string key, v) :: rest, out =>
    match yamlToJson v with
    | .error e => .error e
    | .ok v => yamlToJsonFields rest (putField key (some v) out)
  | (other, _) :: _, _ => .error ("YAML mapping key must be a string; got " ++ texts.debug other)

end

/-- The branch of `json_scalar_to_value` for numbers. -/
def jsonNumberToValue (n : JsonNumber) : StarlarkValue :=
  match n.asI64 with
  | some i => if InI32 i then .int i else .string (toString i)
  | none =>
    match n.asF64 with
    | some f => .float f
    | none => .string (texts.display n)

mutual

def jsonScalarToValue : Value Unit → StarlarkValue
  | .null _ => .none
  | .bool b => .bool b
  | .number n => jsonNumberToValue texts n
  | .string s => .string s
  | .array items => .list (jsonScalarToValueItems items)
  | .object fields => .dict (jsonScalarToValueFields fields)

def jsonScalarToValueItems : List (Value Unit) → List StarlarkValue
  | [] => []
  | v :: rest => jsonScalarToValue v :: jsonScalarToValueItems rest

/-- The keys of an object are distinct, so each one is new to the dict. -/
def jsonScalarToValueFields : List (String × Value Unit) → List (String × StarlarkValue)
  | [] => []
  | (k, v) :: rest => (k, jsonScalarToValue v) :: jsonScalarToValueFields rest

end

end Conversions

namespace StarlarkValue

mutual

/-- `to_json_value` -/
def toJsonValue : StarlarkValue → Value Unit
  | none => .null ()
  | bool b => .bool b
  | int i => .number (.ofInt i)
  | float f => ((JsonNumber.fromF64 f).map Value.number).getD (.null ())
  | string s => .string s
  | list items => .array (toJsonValueItems items)
  | dict fields => .object (toJsonValueFields fields [])

def toJsonValueItems : List StarlarkValue → List (Value Unit)
  | [] => []
  | v :: rest => toJsonValue v :: toJsonValueItems rest

def toJsonValueFields :
    List (String × StarlarkValue) → List (String × Value Unit) → List (String × Value Unit)
  | [], out => out
  | (k, v) :: rest, out => toJsonValueFields rest (putField k (some (toJsonValue v)) out)

end

end StarlarkValue

/-! ## What should arrive -/

/-- The key of a field that has a string for its key. -/
def Yaml.keyOf : Yaml × Yaml → Option String
  | (.string k, _) => some k
  | _ => none

namespace YamlNumber

/-- The integers, the floats that are none, and the others. -/
def CarriedBy (v : Value Unit) : YamlNumber → Prop
  | posInt n => v = if InI32 n then .number (.ofInt n) else .string (toString (n : Int))
  | negInt n _ => v = if InI32 n then .number (.ofInt n) else .string (toString n)
  | float (.finite value) => v = .number (.float value)
  | float _ => v.isNull = false

/-- A number that is carried. -/
def Plain : YamlNumber → Prop
  | posInt n => n ≤ I64_MAX
  | negInt .. | float (.finite _) => True
  | float _ => False

end YamlNumber

namespace Yaml

mutual

/-- **The same document.**  Shape, keys, texts, booleans and nulls are those of the YAML, and so
    is every number, or the digits of an integer that is no `i32`. -/
def Transported : Yaml → Value Unit → Prop
  | null, v => v = .null ()
  | bool b, v => v = .bool b
  | number n, v => n.CarriedBy v
  | string s, v => v = .string s
  | sequence items, v => ∃ items', v = .array items' ∧ TransportedItems items items'
  | mapping fields, v => ∃ fields', v = .object fields' ∧
      (fields'.map Prod.fst).Perm (fields.filterMap keyOf) ∧ TransportedFields fields fields'
  | tagged .., _ => False

def TransportedItems : List Yaml → List (Value Unit) → Prop
  | [], [] => True
  | item :: rest, v :: rest' => Transported item v ∧ TransportedItems rest rest'
  | _, _ => False

def TransportedFields : List (Yaml × Yaml) → List (String × Value Unit) → Prop
  | [], _ => True
  | (string key, y) :: rest, fields' =>
    (∃ v, fields'.lookup key = some v ∧ Transported y v) ∧ TransportedFields rest fields'
  | _ :: _, _ => False

end

mutual

/-- No mapping has a key twice. -/
def WellFormed : Yaml → Prop
  | null | bool _ | number _ | string _ => True
  | sequence items => WellFormedItems items
  | mapping fields => (fields.filterMap keyOf).Nodup ∧ WellFormedFields fields
  | tagged _ value => WellFormed value

def WellFormedItems : List Yaml → Prop
  | [] => True
  | item :: rest => WellFormed item ∧ WellFormedItems rest

def WellFormedFields : List (Yaml × Yaml) → Prop
  | [] => True
  | (_, v) :: rest => WellFormed v ∧ WellFormedFields rest

end

mutual

/-- Every key is a string and nothing has a tag: what an inventory may have. -/
def Supported : Yaml → Prop
  | null | bool _ | number _ | string _ => True
  | sequence items => SupportedItems items
  | mapping fields => SupportedFields fields
  | tagged .. => False

def SupportedItems : List Yaml → Prop
  | [] => True
  | item :: rest => Supported item ∧ SupportedItems rest

def SupportedFields : List (Yaml × Yaml) → Prop
  | [] => True
  | (k, v) :: rest => (∃ s, k = string s) ∧ Supported v ∧ SupportedFields rest

end

mutual

/-- No integer above `i64::MAX` and no float that is not a number, at any depth. -/
def Plain : Yaml → Prop
  | null | bool _ | string _ => True
  | number n => n.Plain
  | sequence items => PlainItems items
  | mapping fields => PlainFields fields
  | tagged _ value => Plain value

def PlainItems : List Yaml → Prop
  | [] => True
  | item :: rest => Plain item ∧ PlainItems rest

def PlainFields : List (Yaml × Yaml) → Prop
  | [] => True
  | (_, v) :: rest => Plain v ∧ PlainFields rest

end

/-- Induction over a document: what is in a sequence or a mapping comes first. -/
theorem ind {P : Yaml → Prop} (null : P null) (bool : ∀ b, P (bool b))
    (number : ∀ n, P (number n)) (string : ∀ s, P (string s))
    (sequence : ∀ l, (∀ y ∈ l, P y) → P (sequence l))
    (mapping : ∀ l, (∀ k y, (k, y) ∈ l → P y) → P (mapping l))
    (tagged : ∀ tag y, P (tagged tag y)) : ∀ y, P y := by
  apply @Yaml.rec P (fun l => ∀ y ∈ l, P y) (fun l => ∀ k y, (k, y) ∈ l → P y)
    (fun e => P e.2) null bool number string sequence mapping fun tag y _ => tagged tag y
  · simp
  · intro y l hy hl
    simpa using ⟨hy, hl⟩
  · simp
  · intro e l he hl k y hmem
    rcases List.mem_cons.mp hmem with heq | hmem
    · cases heq
      exact he
    · exact hl k y hmem
  · intro k y _ hy
    exact hy

end Yaml

/-- A document as the parser gives it. -/
structure YamlDocument where
  value : Yaml
  distinct : value.WellFormed

/-! ## Numbers on their way -/

section Numbers

variable (texts : InventoryTexts)

theorem yamlNumberToJson_ok (n : YamlNumber) : ∃ v, yamlNumberToJson texts n = .ok v := by
  unfold yamlNumberToJson
  rcases n with n | n | f
  · by_cases h : n ≤ I64_MAX <;> simp [YamlNumber.asI64, YamlNumber.asU64, h]
  · simp [YamlNumber.asI64]
  · simp [YamlNumber.asI64, YamlNumber.asU64, YamlNumber.asF64]

/-- There and back. -/
def roundTrip (v : Value Unit) : Value Unit := (jsonScalarToValue texts v).toJsonValue

theorem JsonNumber.asI64_ofInt {i : Int} (h : i ≤ I64_MAX) :
    (JsonNumber.ofInt i).asI64 = some i := by
  unfold JsonNumber.ofInt
  by_cases hneg : i < 0
  · simp [hneg, JsonNumber.asI64]
  · have hnat : i.toNat ≤ I64_MAX := by omega
    have hback : (i.toNat : Int) = i := by omega
    simp [hneg, JsonNumber.asI64, hnat, hback]

/-- An integer that fits into an `i64`. -/
theorem roundTrip_ofInt {i : Int} (h : i ≤ I64_MAX) :
    roundTrip texts (.number (.ofInt i)) =
      if InI32 i then .number (.ofInt i) else .string (toString i) := by
  unfold roundTrip jsonScalarToValue jsonNumberToValue
  rw [JsonNumber.asI64_ofInt h]
  by_cases hsmall : InI32 i
  · simp [hsmall, StarlarkValue.toJsonValue]
  · simp [hsmall, StarlarkValue.toJsonValue]

theorem roundTrip_float (value : Rat) :
    roundTrip texts (.number (.float value)) = .number (.float value) := by
  simp [roundTrip, jsonScalarToValue, jsonNumberToValue, JsonNumber.asI64, JsonNumber.asF64,
    StarlarkValue.toJsonValue, JsonNumber.fromF64]

/-- An integer that does not is a float afterwards. -/
theorem roundTrip_posInt {n : Nat} (h : ¬ n ≤ I64_MAX) :
    ∃ value, roundTrip texts (.number (.posInt n)) = .number (.float value) := by
  refine ⟨roundToF64 n, ?_⟩
  have hneg : ¬ (n : Int) < 0 := by omega
  simp [roundTrip, jsonScalarToValue, jsonNumberToValue, JsonNumber.asI64, JsonNumber.asF64, h,
    StarlarkValue.toJsonValue, JsonNumber.fromF64, intAsF64, hneg]

/-- **One number.** -/
theorem carriedBy_iff (n : YamlNumber) {v : Value Unit} (h : yamlNumberToJson texts n = .ok v) :
    n.CarriedBy (roundTrip texts v) ↔ n.Plain := by
  unfold yamlNumberToJson at h
  match n with
  | .posInt n =>
    by_cases hle : n ≤ I64_MAX
    · obtain rfl : .number (.ofInt n) = v := by simpa [YamlNumber.asI64, hle] using h
      rw [roundTrip_ofInt texts (by omega)]
      simp [YamlNumber.CarriedBy, YamlNumber.Plain, hle]
    · obtain rfl : .number (.posInt n) = v := by
        simpa [YamlNumber.asI64, YamlNumber.asU64, hle] using h
      obtain ⟨value, hfloat⟩ := roundTrip_posInt texts hle
      have hlarge : ¬ InI32 n := by
        have hmax : I64_MAX = 9223372036854775807 := rfl
        unfold InI32
        omega
      simp [YamlNumber.CarriedBy, YamlNumber.Plain, hle, hfloat, hlarge]
  | .negInt n hneg =>
    obtain rfl : .number (.ofInt n) = v := by simpa [YamlNumber.asI64] using h
    rw [roundTrip_ofInt texts (by omega)]
    simp [YamlNumber.CarriedBy, YamlNumber.Plain]
  | .float (.finite value) =>
    obtain rfl : .number (.float value) = v := by
      simpa [YamlNumber.asI64, YamlNumber.asU64, YamlNumber.asF64, JsonNumber.fromF64] using h
    rw [roundTrip_float]
    simp [YamlNumber.CarriedBy, YamlNumber.Plain]
  | .float (.infinity negative) =>
    obtain rfl : .null () = v := by
      simpa [YamlNumber.asI64, YamlNumber.asU64, YamlNumber.asF64, JsonNumber.fromF64] using h
    simp [YamlNumber.CarriedBy, YamlNumber.Plain, roundTrip, jsonScalarToValue,
      StarlarkValue.toJsonValue, Value.isNull]
  | .float .nan =>
    obtain rfl : .null () = v := by
      simpa [YamlNumber.asI64, YamlNumber.asU64, YamlNumber.asF64, JsonNumber.fromF64] using h
    simp [YamlNumber.CarriedBy, YamlNumber.Plain, roundTrip, jsonScalarToValue,
      StarlarkValue.toJsonValue, Value.isNull]

end Numbers

/-! ## Maps on their way -/

section Maps

variable {ν : Type}

/-- What a loop of insertions leaves. -/
def putAll (l out : List (String × Value ν)) : List (String × Value ν) :=
  l.foldl (fun out e => putField e.1 (some e.2) out) out

theorem keys_insertField (k : String) (v : Value ν) (l : List (String × Value ν)) :
    ((insertField k v l).map Prod.fst).Perm (k :: l.map Prod.fst) := by
  induction l with
  | nil => exact .refl _
  | cons e l ih =>
    by_cases h : k < e.1
    · simp only [insertField, h, if_true, List.map_cons]
      exact .refl _
    · simp only [insertField, h, if_false, List.map_cons]
      exact (ih.cons e.1).trans (.swap ..)

theorem lookup_eq_none_of_keys {k : String} {l : List (String × Value ν)}
    (h : k ∉ l.map Prod.fst) : l.lookup k = none := by
  rw [List.lookup_eq_none_iff]
  intro e he
  have hne : k ≠ e.1 := fun heq => h (heq ▸ List.mem_map_of_mem he)
  simpa [bne_iff_ne] using hne

theorem keys_putField {k : String} {v : Value ν} {l : List (String × Value ν)}
    (h : k ∉ l.map Prod.fst) :
    ((putField k (some v) l).map Prod.fst).Perm (k :: l.map Prod.fst) := by
  rw [putField, removeField_of_lookup (lookup_eq_none_of_keys h)]
  exact keys_insertField k v l

/-- New keys are all there in the end. -/
theorem keys_putAll {l : List (String × Value ν)} (hl : (l.map Prod.fst).Nodup) :
    ∀ {out : List (String × Value ν)}, (∀ k ∈ l.map Prod.fst, k ∉ out.map Prod.fst) →
      ((putAll l out).map Prod.fst).Perm (l.map Prod.fst ++ out.map Prod.fst) := by
  induction l with
  | nil => exact fun _ => .refl _
  | cons e l ih =>
    intro out hnew
    obtain ⟨hhead, htail⟩ := List.nodup_cons.mp hl
    have hput := keys_putField (v := e.2) (hnew e.1 List.mem_cons_self)
    have hnew' : ∀ k ∈ l.map Prod.fst, k ∉ (putField e.1 (some e.2) out).map Prod.fst := by
      intro k hk hmem
      rcases List.mem_cons.mp (hput.mem_iff.mp hmem) with rfl | hmem
      · exact hhead hk
      · exact hnew k (List.mem_cons_of_mem _ hk) hmem
    refine (ih htail hnew').trans ?_
    exact (hput.append_left _).trans List.perm_middle

theorem lookup_putAll {l : List (String × Value ν)} (hl : (l.map Prod.fst).Nodup) (k : String) :
    ∀ out : List (String × Value ν),
      (putAll l out).lookup k = (l.lookup k).or (out.lookup k) := by
  induction l with
  | nil => exact fun _ => rfl
  | cons e l ih =>
    intro out
    obtain ⟨k₀, v₀⟩ := e
    obtain ⟨hhead, htail⟩ := List.nodup_cons.mp hl
    refine (ih htail _).trans ?_
    rw [lookup_putField]
    by_cases hk : k = k₀
    · subst hk
      simp [lookup_eq_none_of_keys hhead]
    · have hne : (k == k₀) = false := by simpa using hk
      simp [hk, List.lookup_cons, hne]

theorem lookup_map_snd (f : Value ν → Value ν) (k : String) (l : List (String × Value ν)) :
    (l.map fun e => (e.1, f e.2)).lookup k = (l.lookup k).map f := by
  induction l with
  | nil => rfl
  | cons e l ih =>
    obtain ⟨k₀, v₀⟩ := e
    simp only [List.map_cons, List.lookup_cons, ih]
    cases k == k₀ <;> rfl

/-- Two maps one after the other, the values changed in between. -/
theorem putAll_putAll (f : Value ν → Value ν) {entries : List (String × Value ν)}
    (h : (entries.map Prod.fst).Nodup) :
    ((putAll ((putAll entries []).map fun e => (e.1, f e.2)) []).map Prod.fst).Perm
        (entries.map Prod.fst) ∧
      ∀ k v, (k, v) ∈ entries →
        (putAll ((putAll entries []).map fun e => (e.1, f e.2)) []).lookup k = some (f v) := by
  have hkeys : ((putAll entries []).map Prod.fst).Perm (entries.map Prod.fst ++ [].map Prod.fst) :=
    keys_putAll h (by simp)
  rw [List.map_nil, List.append_nil] at hkeys
  have hsame : ((putAll entries []).map fun e => (e.1, f e.2)).map Prod.fst =
      (putAll entries []).map Prod.fst := by
    rw [List.map_map]
    rfl
  have hnodup : (((putAll entries []).map fun e => (e.1, f e.2)).map Prod.fst).Nodup := by
    rw [hsame]
    exact hkeys.nodup_iff.mpr h
  refine ⟨?_, fun k v hmem => ?_⟩
  · have hkeys' := @keys_putAll _ _ hnodup [] (by simp)
    rw [List.map_nil, List.append_nil, hsame] at hkeys'
    exact hkeys'.trans hkeys
  · rw [lookup_putAll hnodup, lookup_map_snd, lookup_putAll h, lookup_of_mem h hmem]
    rfl

end Maps

/-! ## Documents on their way -/

section Documents

variable (texts : InventoryTexts)

/-- The fields of a mapping, converted one by one. -/
abbrev Converted (fields : List (Yaml × Yaml)) (entries : List (String × Value Unit)) : Prop :=
  List.Forall₂ (fun e e' => e.1 = .string e'.1 ∧ yamlToJson texts e.2 = .ok e'.2) fields entries

variable {texts}

theorem Converted.keys {fields : List (Yaml × Yaml)} {entries : List (String × Value Unit)}
    (h : Converted texts fields entries) : entries.map Prod.fst = fields.filterMap Yaml.keyOf := by
  induction h with
  | nil => rfl
  | @cons e e' fields entries he _ ih =>
    obtain ⟨k, y⟩ := e
    obtain rfl : k = .string e'.1 := he.1
    have hkey : Yaml.keyOf (.string e'.1, y) = some e'.1 := rfl
    rw [List.map_cons, List.filterMap_cons_some hkey, ih]

theorem yamlToJsonFields_ok {fields : List (Yaml × Yaml)} :
    ∀ {out result : List (String × Value Unit)}, yamlToJsonFields texts fields out = .ok result →
      ∃ entries, Converted texts fields entries ∧ result = putAll entries out := by
  induction fields with
  | nil =>
    intro out result h
    refine ⟨[], .nil, ?_⟩
    simpa [yamlToJsonFields, putAll] using h.symm
  | cons e fields ih =>
    intro out result h
    obtain ⟨k, y⟩ := e
    cases k with
    | string key =>
      simp only [yamlToJsonFields] at h
      cases hy : yamlToJson texts y with
      | error e => simp [hy] at h
      | ok v =>
        simp only [hy] at h
        obtain ⟨entries, hentries, rfl⟩ := ih h
        exact ⟨(key, v) :: entries, .cons ⟨rfl, hy⟩ hentries, rfl⟩
    | null => simp [yamlToJsonFields] at h
    | bool b => simp [yamlToJsonFields] at h
    | number n => simp [yamlToJsonFields] at h
    | sequence l => simp [yamlToJsonFields] at h
    | mapping l => simp [yamlToJsonFields] at h
    | tagged t v => simp [yamlToJsonFields] at h

theorem roundTrip_array (items : List (Value Unit)) :
    roundTrip texts (.array items) = .array (items.map (roundTrip texts)) := by
  have hitems : ∀ l, StarlarkValue.toJsonValueItems (jsonScalarToValueItems texts l) =
      l.map (roundTrip texts) := by
    intro l
    induction l with
    | nil => rfl
    | cons v l ih =>
      simp only [jsonScalarToValueItems, StarlarkValue.toJsonValueItems, ih, List.map_cons,
        roundTrip]
  simp only [roundTrip, jsonScalarToValue, StarlarkValue.toJsonValue, hitems]

theorem roundTrip_object (fields : List (String × Value Unit)) :
    roundTrip texts (.object fields) =
      .object (putAll (fields.map fun e => (e.1, roundTrip texts e.2)) []) := by
  have hfields : ∀ l out,
      StarlarkValue.toJsonValueFields (jsonScalarToValueFields texts l) out =
        putAll (l.map fun e => (e.1, roundTrip texts e.2)) out := by
    intro l
    induction l with
    | nil => exact fun _ => rfl
    | cons e l ih =>
      intro out
      obtain ⟨k, v⟩ := e
      simp only [jsonScalarToValueFields, StarlarkValue.toJsonValueFields, ih, roundTrip]
      rfl
  simp only [roundTrip, jsonScalarToValue, StarlarkValue.toJsonValue, hfields]

theorem transportedItems_iff {l : List Yaml}
    (ih : ∀ y ∈ l, ∀ j, yamlToJson texts y = .ok j → y.WellFormed →
      (y.Transported (roundTrip texts j) ↔ y.Plain)) :
    ∀ {items}, yamlToJsonItems texts l = .ok items → Yaml.WellFormedItems l →
      (Yaml.TransportedItems l (items.map (roundTrip texts)) ↔ Yaml.PlainItems l) := by
  induction l with
  | nil =>
    intro items h _
    obtain rfl : [] = items := by simpa [yamlToJsonItems] using h
    simp [Yaml.TransportedItems, Yaml.PlainItems]
  | cons y l ihl =>
    intro items h hwf
    simp only [yamlToJsonItems] at h
    cases hy : yamlToJson texts y with
    | error e => simp [hy] at h
    | ok v =>
      simp only [hy] at h
      cases hrest : yamlToJsonItems texts l with
      | error e => simp [hrest, Except.map] at h
      | ok rest =>
        obtain rfl : v :: rest = items := by simpa [hrest, Except.map] using h
        have hhead := ih y List.mem_cons_self v hy hwf.1
        have htail := ihl (fun y hy => ih y (List.mem_cons_of_mem _ hy)) hrest hwf.2
        rw [List.map_cons, Yaml.TransportedItems, Yaml.PlainItems, hhead, htail]

theorem transportedFields_iff {l : List (Yaml × Yaml)}
    {entries fields' : List (String × Value Unit)}
    (ih : ∀ k y, (k, y) ∈ l → ∀ j, yamlToJson texts y = .ok j → y.WellFormed →
      (y.Transported (roundTrip texts j) ↔ y.Plain))
    (hentries : Converted texts l entries)
    (hlookup : ∀ k j, (k, j) ∈ entries → fields'.lookup k = some (roundTrip texts j))
    (hwf : Yaml.WellFormedFields l) :
    Yaml.TransportedFields l fields' ↔ Yaml.PlainFields l := by
  induction hentries with
  | nil => simp [Yaml.TransportedFields, Yaml.PlainFields]
  | @cons e e' l entries he _ ihl =>
    obtain ⟨k, y⟩ := e
    obtain ⟨key, j⟩ := e'
    obtain ⟨rfl, hy⟩ : k = .string key ∧ yamlToJson texts y = .ok j := he
    have hhead := ih _ y List.mem_cons_self j hy hwf.1
    have htail := ihl (fun k y hmem => ih k y (List.mem_cons_of_mem _ hmem))
      (fun k j hmem => hlookup k j (List.mem_cons_of_mem _ hmem)) hwf.2
    rw [Yaml.TransportedFields, Yaml.PlainFields, htail, hlookup key j List.mem_cons_self]
    simp [hhead]

/-- **A document.**  What is accepted arrives exactly if its numbers are plain. -/
theorem transported_iff (y : Yaml) : ∀ j, yamlToJson texts y = .ok j → y.WellFormed →
    (y.Transported (roundTrip texts j) ↔ y.Plain) := by
  induction y using Yaml.ind with
  | null =>
    intro j h _
    obtain rfl : .null () = j := by simpa [yamlToJson] using h
    simp [Yaml.Transported, Yaml.Plain, roundTrip, jsonScalarToValue, StarlarkValue.toJsonValue]
  | bool b =>
    intro j h _
    obtain rfl : .bool b = j := by simpa [yamlToJson] using h
    simp [Yaml.Transported, Yaml.Plain, roundTrip, jsonScalarToValue, StarlarkValue.toJsonValue]
  | number n =>
    intro j h _
    rw [yamlToJson] at h
    rw [Yaml.Transported, Yaml.Plain]
    exact carriedBy_iff texts n h
  | string t =>
    intro j h _
    obtain rfl : .string t = j := by simpa [yamlToJson] using h
    simp [Yaml.Transported, Yaml.Plain, roundTrip, jsonScalarToValue, StarlarkValue.toJsonValue]
  | sequence l ih =>
    intro j h hwf
    rw [yamlToJson] at h
    cases hitems : yamlToJsonItems texts l with
    | error e => simp [hitems, Except.map] at h
    | ok items =>
      obtain rfl : .array items = j := by simpa [hitems, Except.map] using h
      rw [roundTrip_array, Yaml.Transported, Yaml.Plain, ← transportedItems_iff ih hitems hwf]
      simp
  | mapping l ih =>
    intro j h hwf
    rw [yamlToJson] at h
    cases hfields : yamlToJsonFields texts l [] with
    | error e => simp [hfields, Except.map] at h
    | ok fields =>
      obtain rfl : .object fields = j := by simpa [hfields, Except.map] using h
      obtain ⟨entries, hentries, rfl⟩ := yamlToJsonFields_ok hfields
      obtain ⟨hdistinct, hwf⟩ := hwf
      -- the keys stay what they are, and every key has its value
      obtain ⟨hkeys, hlookup⟩ :=
        putAll_putAll (roundTrip texts) (hentries.keys ▸ hdistinct : (entries.map _).Nodup)
      rw [hentries.keys] at hkeys
      rw [roundTrip_object, Yaml.Transported, Yaml.Plain,
        ← transportedFields_iff ih hentries hlookup hwf]
      simp [hkeys]
  | tagged tag y =>
    intro j h _
    simp [yamlToJson] at h

/-- What is accepted is what may be in an inventory. -/
theorem yamlToJson_ok_iff (y : Yaml) : (∃ j, yamlToJson texts y = .ok j) ↔ y.Supported := by
  induction y using Yaml.ind with
  | null => simp [yamlToJson, Yaml.Supported]
  | bool b => simp [yamlToJson, Yaml.Supported]
  | number n => simpa [yamlToJson, Yaml.Supported] using yamlNumberToJson_ok texts n
  | string t => simp [yamlToJson, Yaml.Supported]
  | sequence l ih =>
    have hitems : (∃ items, yamlToJsonItems texts l = .ok items) ↔ Yaml.SupportedItems l := by
      induction l with
      | nil => simp [yamlToJsonItems, Yaml.SupportedItems]
      | cons y l ihl =>
        rw [Yaml.SupportedItems, ← ih y List.mem_cons_self,
          ← ihl fun y hy => ih y (List.mem_cons_of_mem _ hy)]
        simp only [yamlToJsonItems]
        cases yamlToJson texts y with
        | error e => simp
        | ok v => cases yamlToJsonItems texts l <;> simp [Except.map]
    rw [yamlToJson, Yaml.Supported, ← hitems]
    cases yamlToJsonItems texts l <;> simp [Except.map]
  | mapping l ih =>
    have hfields : ∀ out, (∃ fields, yamlToJsonFields texts l out = .ok fields) ↔
        Yaml.SupportedFields l := by
      induction l with
      | nil => simp [yamlToJsonFields, Yaml.SupportedFields]
      | cons e l ihl =>
        intro out
        obtain ⟨k, y⟩ := e
        have hy := ih k y List.mem_cons_self
        have hl := ihl fun k y hmem => ih k y (List.mem_cons_of_mem _ hmem)
        rw [Yaml.SupportedFields, ← hy]
        cases k with
        | string key =>
          simp only [yamlToJsonFields]
          cases yamlToJson texts y with
          | error e => simp
          | ok v => simp [hl]
        | null => simp [yamlToJsonFields]
        | bool b => simp [yamlToJsonFields]
        | number n => simp [yamlToJsonFields]
        | sequence l => simp [yamlToJsonFields]
        | mapping l => simp [yamlToJsonFields]
        | tagged t v => simp [yamlToJsonFields]
    rw [yamlToJson, Yaml.Supported, ← hfields []]
    cases yamlToJsonFields texts l [] <;> simp [Except.map]
  | tagged tag y => simp [yamlToJson, Yaml.Supported]

variable (texts)

/-- What is loaded, handed over and taken back is the document. -/
def InventoryFaithful (doc : YamlDocument) : Prop :=
  ∀ j, yamlToJson texts doc.value = .ok j → doc.value.Transported (roundTrip texts j)

/-- **The exact condition.**  A document that is accepted arrives exactly if it has no integer
    above `i64::MAX` and no float that is not a number. -/
theorem inventoryFaithful_iff (doc : YamlDocument) :
    InventoryFaithful texts doc ↔ (doc.value.Supported → doc.value.Plain) := by
  have hok := @yamlToJson_ok_iff texts doc.value
  rw [← hok]
  constructor
  · rintro h ⟨j, hj⟩
    exact (transported_iff doc.value j hj doc.distinct).mp (h j hj)
  · intro h j hj
    exact (transported_iff doc.value j hj doc.distinct).mpr (h ⟨j, hj⟩)

end Documents

/-- `id: 18446744073709551557` -/
def LARGE_ID : YamlDocument where
  value := .mapping [(.string "id", .number (.posInt 18446744073709551557))]
  distinct := by simp [Yaml.WellFormed, Yaml.WellFormedFields, Yaml.keyOf]

/-- `limit: .inf` -/
def NO_LIMIT : YamlDocument where
  value := .mapping [(.string "limit", .number (.float (.infinity false)))]
  distinct := by simp [Yaml.WellFormed, Yaml.WellFormedFields, Yaml.keyOf]

def bareTexts : InventoryTexts := ⟨fun _ => "", fun _ => "", fun _ => ""⟩

/-- The one loses its last digits, the other is null. -/
theorem large_id_not_faithful :
    ¬ InventoryFaithful bareTexts LARGE_ID ∧ ¬ InventoryFaithful bareTexts NO_LIMIT := by
  constructor
  · intro h
    have hplain := (transported_iff _ _ rfl LARGE_ID.distinct).mp (h _ rfl)
    have hle : 18446744073709551557 ≤ I64_MAX := hplain.1
    exact absurd hle (by decide)
  · intro h
    have hplain := (transported_iff _ _ rfl NO_LIMIT.distinct).mp (h _ rfl)
    exact hplain.1

example : roundTrip bareTexts (.number (.posInt 18446744073709551557)) =
    .number (.float 18446744073709551616) := by
  have hround : roundToF64 18446744073709551557 = 18446744073709551616 := by decide +kernel
  simp [roundTrip, jsonScalarToValue, jsonNumberToValue, JsonNumber.asI64, JsonNumber.asF64,
    I64_MAX, StarlarkValue.toJsonValue, JsonNumber.fromF64, intAsF64, hround]

end Bosun
