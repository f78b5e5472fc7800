import Bosun.Inventory
import Bosun.Library.SortedMap
import Mathlib.Data.String.Basic

/-!
# What `pg_sql.query` publishes

A row of a result is a map from the names of the columns to texts; the rows of a result are
published as a fact.  `RealPgSqlBackend::query` reads a value at a Rust type that depends on the
type of its column, and what cannot be read there is `<decode-error>`.

`factFaithful_iff` says which results can be told from the fact.
-/

namespace Bosun

/-! ## Columns and values -/

/-- The types of columns with an arm of their own in `value_to_string`. -/
inductive PgType
  | int2
  | int4
  | int8
  | oid
  | float4
  | float8
  | bool
  | text
  | varchar
  | name
  | bpchar
deriving DecidableEq, Repr

/-- A float stands for what `Display` writes: the shortest digits that are read as it. -/
structure FloatText where
  text : String
  digits : ∀ c ∈ text.toList, c ∈ "0123456789.-infNa".toList

namespace PgType

/-- The values of a column that are not NULL. -/
def Val : PgType → Type
  | int2 | int4 | int8 | oid => Int
  | float4 | float8 => FloatText
  | bool => Bool
  | text | varchar | name | bpchar => String

/-- A value in its own words. -/
def ownText : (ty : PgType) → ty.Val → String
  | int2, i | int4, i | int8, i | oid, i => toString (α := Int) i
  | float4, f | float8, f => FloatText.text f
  | bool, b => toString (α := Bool) b
  | text, s | varchar, s | name, s | bpchar, s => s

def someVal : (ty : PgType) → ty.Val
  | int2 | int4 | int8 | oid => (0 : Int)
  | float4 | float8 => (⟨"0", by simp⟩ : FloatText)
  | bool => false
  | text | varchar | name | bpchar => ""

end PgType

structure Column where
  name : String
  type : PgType

/-- A tuple of values, some of them NULL. -/
abbrev PgRow (columns : List Column) : Type :=
  (i : Fin columns.length) → Option (columns.get i).type.Val

/-! ## Reading a value -/

/-- The Rust types values are read at. -/
inductive RustType
  | i64
  | f64
  | bool
  | string

namespace RustType

def Carrier : RustType → Type
  | i64 => Int
  | f64 => FloatText
  | bool => Bool
  | string => String

def display : (t : RustType) → t.Carrier → String
  | i64, i => toString (α := Int) i
  | f64, f => FloatText.text f
  | bool, b => toString (α := Bool) b
  | string, s => s

/-- `FromSql`; `none` where the type of the column is not accepted. -/
def fromSql : (t : RustType) → (ty : PgType) → Option (ty.Val → t.Carrier)
  | i64, .int8 => some fun i => i
  | f64, .float8 => some fun f => f
  | bool, .bool => some fun b => b
  | string, .text | string, .varchar | string, .name | string, .bpchar => some fun s => s
  | _, _ => none

end RustType

/-- `Row::try_get` looks at the type before it looks at the value. -/
def decodeOwned (t : RustType) (ty : PgType) (v : Option ty.Val) : String :=
  match t.fromSql ty with
  | none => "<decode-error>"
  | some read =>
    match v with
    | some v => t.display (read v)
    | none => "NULL"

def valueToString (ty : PgType) (v : Option ty.Val) : String :=
  if ty ∈ [PgType.int2, .int4, .int8, .oid] then decodeOwned .i64 ty v
  else if ty ∈ [PgType.float4, .float8] then decodeOwned .f64 ty v
  else if ty ∈ [PgType.bool] then decodeOwned .bool ty v
  else decodeOwned .string ty v

/-! ## Rows and facts -/

section Facts

variable (columns : List Column)

/-- One row of `query`. -/
def recordOf (row : PgRow columns) : SortedMap String String :=
  .insertAll ((List.finRange columns.length).map fun i =>
    ((columns.get i).name, valueToString (columns.get i).type (row i)))

def rowsToJson (rows : List (SortedMap String String)) : Value Unit :=
  .array (rows.map fun row =>
    .object (SortedMap.insertAll (row.entries.map fun e => (e.1, Value.string e.2))).entries)

/-- What `store_as_fact` publishes of a result. -/
def publishedFact (rows : List (PgRow columns)) : Value Unit :=
  rowsToJson (rows.map (recordOf columns))

/-! ## What should be published -/

/-- Every column is there, a value in its own words and NULL as no value would be. -/
def Shows (row : PgRow columns) (fields : List (String × Value Unit)) : Prop :=
  ∀ i, ∃ text, fields.lookup (columns.get i).name = some (.string text) ∧
    match row i with
    | some v => text = (columns.get i).type.ownText v
    | none => ∀ v, text ≠ (columns.get i).type.ownText v

/-- **The fact and the result.**  An object for each row, and no other result over the columns
    has this fact. -/
structure FactFaithful (rows : List (PgRow columns)) : Prop where
  objects : ∃ objects, publishedFact columns rows = .array (objects.map .object) ∧
    List.Forall₂ (Shows columns) rows objects
  tells : ∀ rows', publishedFact columns rows' = publishedFact columns rows → rows' = rows

end Facts

namespace PgType

/-- Types whose values can be read where `value_to_string` reads them. -/
def Read : PgType → Prop
  | int2 | int4 | oid | float4 => False
  | int8 | float8 | bool | text | varchar | name | bpchar => True

/-- NULL in a column of texts, or the text that stands for it. -/
def LooksNull : (ty : PgType) → Option ty.Val → Prop
  | text, v | varchar, v | name, v | bpchar, v => v = none ∨ v = some "NULL"
  | _, _ => False

end PgType

/-- There is no row, or every column can be told from it. -/
def Representable (columns : List Column) (rows : List (PgRow columns)) : Prop :=
  rows = [] ∨ (columns.map Column.name).Nodup ∧ (∀ c ∈ columns, c.type.Read) ∧
    ∀ row ∈ rows, ∀ i, ¬ (columns.get i).type.LooksNull (row i)

/-! ## One value -/

theorem valueToString_unread {ty : PgType} (h : ¬ ty.Read) (v : Option ty.Val) :
    valueToString ty v = "<decode-error>" := by
  cases ty with
  | int2 | int4 | oid | float4 => rfl
  | int8 | float8 | bool | text | varchar | name | bpchar => exact absurd trivial h

theorem valueToString_some {ty : PgType} (h : ty.Read) (v : ty.Val) :
    valueToString ty (some v) = ty.ownText v := by
  cases ty with
  | int2 | int4 | oid | float4 => exact h.elim
  | int8 | float8 | bool | text | varchar | name | bpchar => rfl

theorem valueToString_none {ty : PgType} (h : ty.Read) : valueToString ty none = "NULL" := by
  cases ty with
  | int2 | int4 | oid | float4 => exact h.elim
  | int8 | float8 | bool | text | varchar | name | bpchar => rfl

theorem FloatText.ext_text {f f' : FloatText} (h : f.text = f'.text) : f = f' := by
  obtain ⟨t, ht⟩ := f
  obtain ⟨t', ht'⟩ := f'
  obtain rfl : t = t' := h
  rfl

namespace PgType

theorem natRepr_injective {m n : Nat} (h : Nat.repr m = Nat.repr n) : m = n := by
  have hvalue := congrArg (fun text : String => Nat.ofDigitChars 10 text.toList 0) h
  simpa using hvalue

theorem intRepr_injective {i j : Int} (h : Int.repr i = Int.repr j) : i = j := by
  -- no digit is a minus
  have hminus : ∀ n n' : Nat, "-" ++ Nat.repr n ≠ Nat.repr n' := by
    intro n n' heq
    have hmem : '-' ∈ (Nat.repr n').toList := by simp [← heq]
    rw [Nat.toList_repr] at hmem
    exact absurd (Nat.isDigit_of_mem_toDigits (by decide) (by decide) hmem) (by decide)
  rw [Int.repr_eq_if, Int.repr_eq_if] at h
  split at h <;> split at h
  · have heq := natRepr_injective h
    omega
  · exact absurd h.symm (hminus _ _)
  · exact absurd h (hminus _ _)
  · have hvalue := congrArg (fun text : String => Nat.ofDigitChars 10 (text.toList.drop 1) 0) h
    have heq : (-i).toNat = (-j).toNat := by simpa using hvalue
    omega

theorem ownText_injective (ty : PgType) : Function.Injective ty.ownText := by
  intro v v' h
  cases ty with
  | int2 | int4 | int8 | oid => exact intRepr_injective h
  | float4 | float8 => exact FloatText.ext_text h
  | bool =>
    have hbool : ∀ b b' : Bool, toString b = toString b' → b = b' := by decide
    exact hbool v v' h
  | text | varchar | name | bpchar => exact h

theorem toString_int_ne_null (i : Int) : toString i ≠ "NULL" := by
  intro h
  have hmem : 'L' ∈ (Int.repr i).toList := by
    rw [show Int.repr i = "NULL" from h]
    simp
  have hdigits : ∀ n : Nat, 'L' ∉ (Nat.repr n).toList := by
    intro n hn
    rw [Nat.repr, String.toList_ofList] at hn
    exact absurd (Nat.isDigit_of_mem_toDigits (by decide) (by decide) hn) (by decide)
  rw [Int.repr_eq_if] at hmem
  split at hmem
  · exact hdigits _ hmem
  · exact hdigits _ (by simpa using hmem)

/-- No number and no truth value is shown as NULL is. -/
theorem looksNull_of_ownText {ty : PgType} (hread : ty.Read) {v : ty.Val}
    (h : ty.ownText v = "NULL") : ty.LooksNull none ∧ ty.LooksNull (some v) := by
  cases ty with
  | int2 | int4 | oid | float4 => exact hread.elim
  | int8 => exact absurd h (toString_int_ne_null v)
  | float8 =>
    have hmem : 'U' ∈ (FloatText.text v).toList := by
      rw [show FloatText.text v = "NULL" from h]
      simp
    exact absurd (FloatText.digits v 'U' hmem) (by simp)
  | bool =>
    have hbool : ∀ b : Bool, toString b ≠ "NULL" := by decide
    exact absurd h (hbool v)
  | text | varchar | name | bpchar => exact ⟨.inl rfl, .inr (congrArg some h)⟩

end PgType

/-- What can be told from what it is shown as. -/
theorem eq_of_valueToString {ty : PgType} (hread : ty.Read) {v v' : Option ty.Val}
    (hv : ¬ ty.LooksNull v) (h : valueToString ty v' = valueToString ty v) : v' = v := by
  cases v with
  | none =>
    cases v' with
    | none => rfl
    | some v' =>
      rw [valueToString_none hread, valueToString_some hread] at h
      exact absurd (PgType.looksNull_of_ownText hread h).1 hv
  | some v =>
    cases v' with
    | none =>
      rw [valueToString_none hread, valueToString_some hread] at h
      exact absurd (PgType.looksNull_of_ownText hread h.symm).2 hv
    | some v' =>
      rw [valueToString_some hread, valueToString_some hread] at h
      exact congrArg some (ty.ownText_injective h)

/-- What cannot: another value is shown so too. -/
theorem exists_same_of_looksNull {ty : PgType} {v : Option ty.Val} (h : ty.LooksNull v) :
    ∃ v', v' ≠ v ∧ valueToString ty v' = valueToString ty v := by
  cases ty with
  | int2 | int4 | int8 | oid | float4 | float8 | bool => exact h.elim
  | text | varchar | name | bpchar =>
    rcases h with rfl | rfl
    · exact ⟨some "NULL", nofun, rfl⟩
    · exact ⟨none, nofun, rfl⟩

theorem PgType.exists_ne {ty : PgType} (v : Option ty.Val) : ∃ v', v' ≠ v := by
  cases v with
  | none => exact ⟨some ty.someVal, nofun⟩
  | some v => exact ⟨none, nofun⟩

/-! ## One row -/

section Rows

variable {columns : List Column}

theorem get?_recordOf (row : PgRow columns) (k : String) :
    (recordOf columns row).get? k =
      ((List.finRange columns.length).reverse.find? fun i => (columns.get i).name = k).map
        fun i => valueToString (columns.get i).type (row i) :=
  SortedMap.get?_insertAll_map ..

/-- Only the last of the columns with a name is in the record. -/
theorem recordOf_update {row : PgRow columns} {i : Fin columns.length}
    {v : Option (columns.get i).type.Val}
    (h : (∃ j, i < j ∧ (columns.get j).name = (columns.get i).name) ∨
      valueToString (columns.get i).type v = valueToString (columns.get i).type (row i)) :
    recordOf columns (Function.update row i v) = recordOf columns row := by
  refine SortedMap.ext_get? fun k => ?_
  rw [get?_recordOf, get?_recordOf]
  cases hfind : (List.finRange columns.length).reverse.find?
    fun i => (columns.get i).name = k with
  | none => rfl
  | some l =>
    simp only [Option.map_some, Option.some.injEq]
    by_cases hli : l = i
    · subst hli
      rw [Function.update_self]
      rcases h with ⟨j, hlt, hname⟩ | h
      · -- what comes before `l` in the search has another name, and `j` comes before `l`
        obtain ⟨hk, before, rest, hsplit, hothers⟩ := List.find?_eq_some_iff_append.mp hfind
        have hsorted : (before ++ l :: rest).Pairwise (· > ·) := by
          rw [← hsplit, List.pairwise_reverse]
          exact List.pairwise_lt_finRange _
        have hmem : j ∈ before ++ l :: rest := by
          rw [← hsplit, List.mem_reverse]
          exact List.mem_finRange j
        obtain ⟨-, hrest, -⟩ := List.pairwise_append.mp hsorted
        rcases List.mem_append.mp hmem with hj | hj
        · have hk : (columns.get l).name = k := by simpa using hk
          exact absurd (hname.trans hk) (by simpa using hothers j hj)
        · rcases List.mem_cons.mp hj with rfl | hj
          · exact absurd hlt (lt_irrefl _)
          · exact absurd (List.rel_of_pairwise_cons hrest hj) (not_lt_of_gt hlt)
      · exact h
    · rw [Function.update_of_ne hli]

theorem names_nodup_iff : (columns.map Column.name).Nodup ↔
    ∀ i j : Fin columns.length, i < j → (columns.get i).name ≠ (columns.get j).name := by
  rw [List.Nodup, List.pairwise_map, List.pairwise_iff_get]

theorem get?_recordOf_name (hnodup : (columns.map Column.name).Nodup) (row : PgRow columns)
    (i : Fin columns.length) : (recordOf columns row).get? (columns.get i).name =
      some (valueToString (columns.get i).type (row i)) := by
  rw [get?_recordOf]
  cases hfind : (List.finRange columns.length).reverse.find?
    fun j => (columns.get j).name = (columns.get i).name with
  | none =>
    have hnot := List.find?_eq_none.mp hfind i (by simp)
    simp at hnot
  | some l =>
    have hname : (columns.get l).name = (columns.get i).name := by
      simpa using List.find?_some hfind
    obtain rfl : l = i := by
      rcases lt_trichotomy l i with hlt | heq | hlt
      · exact absurd hname (names_nodup_iff.mp hnodup l i hlt)
      · exact heq
      · exact absurd hname.symm (names_nodup_iff.mp hnodup i l hlt)
    rfl

/-! ## The whole result -/

theorem rowsToJson_eq (rows : List (SortedMap String String)) :
    rowsToJson rows = .array (rows.map fun row => .object (row.map .string).entries) := by
  unfold rowsToJson
  congr 1
  refine List.map_congr_left fun row _ => ?_
  exact congrArg (Value.object ·.entries) (SortedMap.insertAll_entries (row.map Value.string))

theorem publishedFact_inj {rows rows' : List (PgRow columns)} :
    publishedFact columns rows' = publishedFact columns rows ↔
      rows'.map (recordOf columns) = rows.map (recordOf columns) := by
  refine ⟨fun h => ?_, fun h => congrArg rowsToJson h⟩
  rw [publishedFact, publishedFact, rowsToJson_eq, rowsToJson_eq] at h
  refine List.map_injective_iff.mpr (fun m m' hm => ?_) (Value.array.inj h)
  exact SortedMap.map_injective (fun _ _ => Value.string.inj)
    (SortedMap.ext (Value.object.inj hm))

/-- A value that could be another one. -/
theorem not_tells {rows : List (PgRow columns)} {row : PgRow columns} (hrow : row ∈ rows)
    {i : Fin columns.length} {v : Option (columns.get i).type.Val} (hne : v ≠ row i)
    (hsame : recordOf columns (Function.update row i v) = recordOf columns row) :
    ¬ FactFaithful columns rows := by
  intro hfaithful
  obtain ⟨before, after, rfl⟩ := List.append_of_mem hrow
  have hrows := hfaithful.tells (before ++ Function.update row i v :: after)
    (publishedFact_inj.mpr (by simp [hsame]))
  have hupdate : Function.update row i v = row := by simpa using hrows
  refine hne ?_
  rw [← Function.update_self i v row, hupdate]

theorem representable_of_faithful {rows : List (PgRow columns)}
    (h : FactFaithful columns rows) : Representable columns rows := by
  by_cases hrows : rows = []
  · exact .inl hrows
  obtain ⟨row₀, hrow₀⟩ := List.exists_mem_of_ne_nil rows hrows
  refine .inr ⟨names_nodup_iff.mpr fun i j hlt hname => ?_, fun c hc => ?_,
    fun row hrow i hnull => ?_⟩
  · obtain ⟨v, hv⟩ := PgType.exists_ne (row₀ i)
    exact not_tells hrow₀ hv (recordOf_update (.inl ⟨j, hlt, hname.symm⟩)) h
  · obtain ⟨i, rfl⟩ := List.get_of_mem hc
    by_contra hread
    obtain ⟨v, hv⟩ := PgType.exists_ne (row₀ i)
    refine not_tells hrow₀ hv (recordOf_update (.inr ?_)) h
    rw [valueToString_unread hread, valueToString_unread hread]
  · obtain ⟨v, hv, hsame⟩ := exists_same_of_looksNull hnull
    exact not_tells hrow hv (recordOf_update (.inr hsame)) h

/-- A row that can be told shows its values. -/
theorem shows_of_representable {row : PgRow columns}
    (hnodup : (columns.map Column.name).Nodup) (hread : ∀ c ∈ columns, c.type.Read)
    (hnull : ∀ i, ¬ (columns.get i).type.LooksNull (row i)) :
    Shows columns row ((recordOf columns row).map .string).entries := by
  intro i
  have hreads := hread _ (columns.get_mem i)
  refine ⟨valueToString (columns.get i).type (row i), ?_, ?_⟩
  · have hget := SortedMap.get?_map (Value.string : String → Value Unit)
      (recordOf columns row) (columns.get i).name
    rw [get?_recordOf_name hnodup] at hget
    exact hget
  · cases hv : row i with
    | some v => exact valueToString_some hreads v
    | none =>
      intro v heq
      rw [valueToString_none hreads] at heq
      exact hnull i (hv ▸ (PgType.looksNull_of_ownText hreads heq.symm).1)

theorem eq_of_records (hnodup : (columns.map Column.name).Nodup)
    (hread : ∀ c ∈ columns, c.type.Read) {rows : List (PgRow columns)} :
    ∀ {rows' : List (PgRow columns)},
      (∀ row ∈ rows, ∀ i, ¬ (columns.get i).type.LooksNull (row i)) →
      rows'.map (recordOf columns) = rows.map (recordOf columns) → rows' = rows := by
  induction rows with
  | nil => exact fun _ h => by simpa using h
  | cons row rows ih =>
    intro rows' hnull h
    cases rows' with
    | nil => cases h
    | cons row' rows' =>
      obtain ⟨hrow, hrows⟩ := List.cons.inj h
      rw [ih (fun row hrow => hnull row (List.mem_cons_of_mem _ hrow)) hrows]
      refine congrArg (· :: rows) (funext fun i => ?_)
      have hget := congrArg (SortedMap.get? · (columns.get i).name) hrow
      simp only [get?_recordOf_name hnodup, Option.some.injEq] at hget
      exact eq_of_valueToString (hread _ (columns.get_mem i)) (hnull row List.mem_cons_self i) hget

/-- **The exact condition.**  A result can be told from its fact exactly if it has no rows, or no
    two columns of a name, no column that cannot be read, and in the columns of texts neither NULL
    nor the text NULL. -/
theorem factFaithful_iff (rows : List (PgRow columns)) :
    FactFaithful columns rows ↔ Representable columns rows := by
  refine ⟨representable_of_faithful, ?_⟩
  rintro (rfl | ⟨hnodup, hread, hnull⟩)
  · refine ⟨⟨[], rfl, .nil⟩, fun rows' h => ?_⟩
    simpa using publishedFact_inj.mp h
  · refine ⟨⟨rows.map fun row => ((recordOf columns row).map .string).entries, ?_, ?_⟩,
      fun rows' h => ?_⟩
    · rw [publishedFact, rowsToJson_eq, List.map_map, List.map_map]
      rfl
    · rw [List.forall₂_map_right_iff, List.forall₂_same]
      exact fun row hrow => shows_of_representable hnodup hread (hnull row hrow)
    · exact eq_of_records hnodup hread hnull (publishedFact_inj.mp h)

end Rows

/-- What `SELECT 1::int4 AS n` returns. -/
def ONE_AS_INT4 : List (PgRow [⟨"n", .int4⟩]) := [fun | 0 => some (1 : Int)]

/-- The value is not shown, and not told from any other. -/
theorem int4_not_faithful :
    publishedFact _ ONE_AS_INT4 = .array [.object [("n", .string "<decode-error>")]] ∧
      ¬ FactFaithful _ ONE_AS_INT4 := by
  refine ⟨rfl, fun h => ?_⟩
  have hsame := h.tells [fun _ => none] rfl
  have hrow := congrFun (List.cons.inj hsame).1 0
  cases hrow

end Bosun
