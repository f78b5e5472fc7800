import Mathlib.Data.List.Induction
import Bosun.MergeLaws

/-!
# Lists of records merged by a key

`merge_keyed_lists` goes once through the records of the overlay.  A record whose key the list holds
is merged into the first record with that key, and this merge goes into the key field like into any
other: a null key deletes itself, and a key that holds nulls or lists of its own may come out
different.  `KeyKept` says of one record that its key does not; for a key without lists that is
that no null is in it (`keyKept_iff_of_listless`).
-/

namespace Bosun

open Value

variable {debug : DebugKey} {key : String}

/-! ## Records -/

/-- A map that has the key. -/
def IsRecord (key : String) (item : Value Unit) : Prop := (keyValueOf item key).isSome = true

instance (key : String) (item : Value Unit) : Decidable (IsRecord key item) :=
  inferInstanceAs (Decidable (_ = true))

/-- The keys of a list of records. -/
def keysOf (key : String) (l : List (Value Unit)) : List (Option (Value Unit)) :=
  l.map (keyValueOf · key)

theorem ensureMapWithKey_ok_iff {item : Value Unit} {path : String} :
    ensureMapWithKey item key path = .ok () ↔ IsRecord key item := by
  cases item with
  | object l =>
    simp only [ensureMapWithKey, IsRecord, keyValueOf]
    split <;> simp_all
  | _ => simp [ensureMapWithKey, IsRecord, keyValueOf]

theorem ensureAll_ok_iff {path : String} {l : List (Value Unit)} :
    ensureAll key path l = .ok () ↔ ∀ item ∈ l, IsRecord key item := by
  induction l with
  | nil => simp [ensureAll]
  | cons item l ih =>
    rw [List.forall_mem_cons, ← ih, ← @ensureMapWithKey_ok_iff key item path]
    simp only [ensureAll, bind, Except.bind]
    cases ensureMapWithKey item key path <;> simp

theorem sameKey_iff {x x' : Option (Value Unit)} : sameKey x x' = true ↔ x = x' := by
  cases x <;> cases x' <;> simp [sameKey, same_iff]

/-- `position` finds the first record with the key. -/
theorem position_eq (item : Value Unit) (merged : List (Value Unit)) :
    position key item merged =
      if keyValueOf item key ∈ keysOf key merged then
        merged[(keysOf key merged).idxOf (keyValueOf item key)]?.map
          fun prev => ((keysOf key merged).idxOf (keyValueOf item key), prev)
      else none := by
  have hfind : (merged.findIdx? fun existing =>
      sameKey (keyValueOf existing key) (keyValueOf item key)) =
      (keysOf key merged).findIdx? (· == keyValueOf item key) := by
    rw [keysOf, List.findIdx?_map]
    congr 1
    funext existing
    rw [Bool.eq_iff_iff, sameKey_iff]
    simp
  unfold position
  rw [hfind]
  by_cases hmem : keyValueOf item key ∈ keysOf key merged
  · have hidx : (keysOf key merged).findIdx? (· == keyValueOf item key) =
        some ((keysOf key merged).idxOf (keyValueOf item key)) :=
      List.findIdx?_eq_some_iff_findIdx_eq.mpr ⟨List.idxOf_lt_length_of_mem hmem, rfl⟩
    rw [hidx, if_pos hmem]
  · have hnone : (keysOf key merged).findIdx? (· == keyValueOf item key) = none := by
      rw [List.findIdx?_eq_none_iff]
      intro k hk
      rw [beq_eq_false_iff_ne]
      rintro rfl
      exact hmem hk
    rw [hnone, if_neg hmem]

/-! ## The loop, one record at a time -/

/-- Where the merge of a record with the one that has its key reports its errors. -/
def recordPath (debug : DebugKey) (key path : String) (item : Value Unit) : String :=
  path ++ "[" ++ key ++ "=" ++ debug ((keyValueOf item key).map (Value.map fun _ => ())) ++ "]"

/-- One record merged into the one that has its key. -/
def mergeRecord (debug : DebugKey) (key path : String) (prev item : Value Unit) :
    Except InventoryError (Value Unit) :=
  mergeKeyedAt debug key (recordPath debug key path item) prev item

theorem mergeKeyedItems_append {path : String} (xs ys : List (Value Unit)) : ∀ merged,
    mergeKeyedItems debug key path merged (xs ++ ys) =
      (mergeKeyedItems debug key path merged xs).bind
        fun merged => mergeKeyedItems debug key path merged ys := by
  induction xs with
  | nil =>
    intro merged
    simp [mergeKeyedItems, Except.bind]
  | cons item xs ih =>
    intro merged
    simp only [List.cons_append, mergeKeyedItems, bind, Except.bind]
    cases ensureMapWithKey item key path with
    | error e => rfl
    | ok _ =>
      dsimp only
      cases position key item merged with
      | none => exact ih _
      | some p =>
        dsimp only
        cases mergeKeyedAt debug key (path ++ "[" ++ key ++ "=" ++
            debug ((keyValueOf item key).map (Value.map fun _ => ())) ++ "]") p.2 item with
        | error e => rfl
        | ok r => exact ih _

/-- **One turn of the loop.** -/
theorem mergeKeyedItems_one {path : String} {merged result : List (Value Unit)}
    {item : Value Unit} : mergeKeyedItems debug key path merged [item] = .ok result ↔
      IsRecord key item ∧
        ((keyValueOf item key ∉ keysOf key merged ∧ result = merged ++ [item]) ∨
          (keyValueOf item key ∈ keysOf key merged ∧ ∃ prev r,
            merged[(keysOf key merged).idxOf (keyValueOf item key)]? = some prev ∧
            mergeRecord debug key path prev item = .ok r ∧
            result = merged.set ((keysOf key merged).idxOf (keyValueOf item key)) r)) := by
  rw [← @ensureMapWithKey_ok_iff key item path]
  simp only [mergeKeyedItems, bind, Except.bind, position_eq]
  cases hensure : ensureMapWithKey item key path with
  | error e => simp
  | ok u =>
    by_cases hmem : keyValueOf item key ∈ keysOf key merged
    · have hlt : (keysOf key merged).idxOf (keyValueOf item key) < merged.length := by
        have := List.idxOf_lt_length_of_mem hmem
        rwa [keysOf, List.length_map] at this
      have hrecord : ∀ prev, mergeKeyedAt debug key (path ++ "[" ++ key ++ "=" ++
          debug ((keyValueOf item key).map (Value.map fun _ => ())) ++ "]") prev item =
          mergeRecord debug key path prev item := fun _ => rfl
      simp only [if_pos hmem, List.getElem?_eq_getElem hlt, Option.map_some, hrecord]
      cases hmerge : mergeRecord debug key path
          (merged[(keysOf key merged).idxOf (keyValueOf item key)]) item with
      | error e => simp [hmem, hmerge]
      | ok r => simp [hmem, hmerge, eq_comm]
    · simp [hmem, eq_comm]

/-! ## The loop over the fields -/

/-- The loop over the fields fails when one of them does. -/
theorem mergeWith_error_iff {ε : Type}
    {f : String → Option (Value Unit) → Value Unit → Except ε (Option (Value Unit))}
    {overlay : List (String × Value Unit)} (hkeys : (overlay.map Prod.fst).Nodup) : ∀ {base},
    (∃ e, mergeWith f base overlay = .error e) ↔
      ∃ k v e, (k, v) ∈ overlay ∧ f k (base.lookup k) v = .error e := by
  induction overlay with
  | nil => simp [mergeWith]
  | cons entry overlay ih =>
    obtain ⟨k₀, v₀⟩ := entry
    intro base
    simp only [List.map_cons, List.nodup_cons] at hkeys
    simp only [mergeWith]
    cases hf : f k₀ (base.lookup k₀) v₀ with
    | error e =>
      constructor
      · intro _
        exact ⟨k₀, v₀, e, List.mem_cons_self, hf⟩
      · intro _
        exact ⟨e, rfl⟩
    | ok x =>
      dsimp only
      rw [ih hkeys.2]
      have hother : ∀ k v, (k, v) ∈ overlay → (putField k₀ x base).lookup k = base.lookup k := by
        intro k v hmem
        rw [lookup_putField, if_neg]
        rintro rfl
        exact hkeys.1 (List.mem_map_of_mem hmem)
      constructor
      · rintro ⟨k, v, e, hmem, he⟩
        rw [hother k v hmem] at he
        exact ⟨k, v, e, List.mem_cons_of_mem _ hmem, he⟩
      · rintro ⟨k, v, e, hmem, he⟩
        rcases List.mem_cons.mp hmem with heq | hmem
        · cases heq
          rw [hf] at he
          cases he
        · exact ⟨k, v, e, hmem, (hother k v hmem).symm ▸ he⟩

/-- Where every key is given what it has, nothing changes. -/
theorem mergeWith_self {ε : Type}
    {f : String → Option (Value Unit) → Value Unit → Except ε (Option (Value Unit))}
    {l : List (String × Value Unit)} (hord : (Value.object l).Ordered)
    (h : ∀ k v, (k, v) ∈ l → f k (l.lookup k) v = .ok (some v)) : mergeWith f l l = .ok l := by
  have hkeys := nodup_keys hord
  cases hmerge : mergeWith f l l with
  | error e =>
    obtain ⟨k, v, e', hmem, he'⟩ := (mergeWith_error_iff hkeys).mp ⟨e, hmerge⟩
    rw [h k v hmem] at he'
    cases he'
  | ok result =>
    rw [eq_of_lookup (pairwise_mergeWith hmerge hord.1) hord.1]
    intro k
    cases hk : l.lookup k with
    | none =>
      have hnot : k ∉ l.map Prod.fst := fun hmem => mem_keys_iff.mp hmem hk
      rw [mergeWith_frame hnot hmerge, hk]
    | some v =>
      have hfield := mergeWith_lookup hkeys hmerge k v (mem_of_lookup hk)
      rw [h k v (mem_of_lookup hk)] at hfield
      exact (Except.ok.inj hfield).symm

/-! ## Merges that succeed -/

theorem mergeKeyedAt_array_ok {path : String} {base overlay : List (Value Unit)}
    {r : Value Unit} : mergeKeyedAt debug key path (.array base) (.array overlay) = .ok r ↔
      (∀ x ∈ base, IsRecord key x) ∧
        ∃ l, mergeKeyedItems debug key path base overlay = .ok l ∧ r = .array l := by
  rw [← @ensureAll_ok_iff key path base]
  simp only [mergeKeyedAt, bind, Except.bind, pure, Except.pure]
  cases ensureAll key path base with
  | error e => simp
  | ok u =>
    cases mergeKeyedItems debug key path base overlay <;> simp [eq_comm]

theorem mergeKeyedAt_object_ok {path : String} {base overlay : List (String × Value Unit)}
    {r : Value Unit} : mergeKeyedAt debug key path (.object base) (.object overlay) = .ok r ↔
      ∃ l, mergeWith (keyedField debug key path) base overlay = .ok l ∧ r = .object l := by
  simp only [mergeKeyedAt, bind, Except.bind, pure, Except.pure, mergeKeyedFields_eq]
  cases mergeWith (keyedField debug key path) base overlay <;> simp [eq_comm]

/-! ## The key of a merged record -/

/-- The key of the record is not null, and it comes out of a merge with itself as it was. -/
def KeyKept (debug : DebugKey) (key path : String) (item : Value Unit) : Prop :=
  ∃ kv, keyValueOf item key = some kv ∧ kv.isNull = false ∧
    mergeKeyedAt debug key (recordPath debug key path item ++ "." ++ key) kv kv = .ok kv

mutual

/-- No list in it. -/
def Value.listless : Value Unit → Bool
  | .array _ => false
  | .object l => listlessFields l
  | _ => true

def listlessFields : List (String × Value Unit) → Bool
  | [] => true
  | (_, v) :: l => v.listless && listlessFields l

end

theorem listless_of_mem {l : List (String × Value Unit)} (h : (Value.object l).listless = true)
    {k : String} {v : Value Unit} (hmem : (k, v) ∈ l) : v.listless = true := by
  have hfields : ∀ l : List (String × Value Unit), listlessFields l = true →
      ∀ e ∈ l, e.2.listless = true := by
    intro l
    induction l with
    | nil => simp
    | cons e l ih => simpa [listlessFields] using fun h₀ h => ⟨h₀, fun k v => ih h (k, v)⟩
  exact hfields l h (k, v) hmem

/-- A value without lists comes out of a merge with itself as it was exactly when it has no
    nulls. -/
theorem mergeKeyedAt_self_iff (v : Value Unit) (hord : v.Ordered) (hlist : v.listless = true)
    (hnull : v.isNull = false) : ∀ path,
    mergeKeyedAt debug key path v v = .ok v ↔ v.nulls = [] := by
  induction v using Value.ind with
  | null n => cases hnull
  | array l ih => cases hlist
  | object l ih =>
    intro path
    have hkeys := nodup_keys hord
    have hlookup : ∀ {k v}, (k, v) ∈ l → l.lookup k = some v := lookup_of_mem hkeys
    have hself : ∀ k v, (k, v) ∈ l → v.isNull = false →
        (mergeKeyedAt debug key (path ++ "." ++ k) v v = .ok v ↔ v.nulls = []) :=
      fun k v hmem hnull => ih k v hmem (ordered_of_mem hord hmem) (listless_of_mem hlist hmem)
        hnull _
    constructor
    · intro h
      obtain ⟨fields, hmerge, heq⟩ := mergeKeyedAt_object_ok.mp h
      obtain rfl := Value.object.inj heq
      rw [nulls, List.eq_nil_iff_forall_not_mem]
      intro n hn
      obtain ⟨k, v, hmem, hn⟩ := mem_nullsFields.mp hn
      have hfield := mergeWith_lookup hkeys hmerge k v hmem
      rw [hlookup hmem] at hfield
      cases hnull : v.isNull with
      | true => simp [keyedField, hnull] at hfield
      | false =>
        simp only [keyedField, hnull, Bool.false_eq_true, if_false] at hfield
        cases hdeep : mergeKeyedAt debug key (path ++ "." ++ k) v v with
        | error e => simp [hdeep, Except.map] at hfield
        | ok w =>
          simp only [hdeep, Except.map, Except.ok.injEq, Option.some.injEq] at hfield
          rw [(hself k v hmem hnull).mp (hfield ▸ hdeep)] at hn
          cases hn
    · intro hnulls
      have hfield : ∀ k v, (k, v) ∈ l →
          keyedField debug key path k (l.lookup k) v = .ok (some v) := by
        intro k v hmem
        have hv := nulls_field hnulls (hlookup hmem)
        simp [keyedField, not_isNull hv, hlookup hmem, (hself k v hmem (not_isNull hv)).mpr hv,
          Except.map]
      rw [mergeKeyedAt_object_ok]
      exact ⟨l, mergeWith_self hord hfield, rfl⟩
  | _ => simp [mergeKeyedAt, nulls]

/-- A key without lists is kept exactly when it has no nulls; so is every text, number or flag. -/
theorem keyKept_iff_of_listless {path : String} {item kv : Value Unit} (hord : item.Ordered)
    (hkey : keyValueOf item key = some kv) (hlist : kv.listless = true) :
    KeyKept debug key path item ↔ kv.nulls = [] := by
  have hkvOrd : kv.Ordered := by
    cases item with
    | object l => exact ordered_of_mem hord (mem_of_lookup hkey)
    | _ => cases hkey
  unfold KeyKept
  simp only [hkey, Option.some.injEq, exists_eq_left']
  cases hnull : kv.isNull with
  | true =>
    have hnulls : kv.nulls ≠ [] := fun hnulls => by simp [not_isNull hnulls] at hnull
    simp [hnulls]
  | false => simpa using mergeKeyedAt_self_iff kv hkvOrd hlist hnull _

theorem keyKept_iff {path : String} {prev item r : Value Unit} (hord : item.Ordered)
    (hrecord : IsRecord key item) (hsame : keyValueOf prev key = keyValueOf item key)
    (h : mergeRecord debug key path prev item = .ok r) :
    KeyKept debug key path item ↔ keyValueOf r key = keyValueOf item key := by
  obtain ⟨kv, hkv⟩ := Option.isSome_iff_exists.mp hrecord
  have hprev : keyValueOf prev key = some kv := hsame.trans hkv
  cases prev with
  | object prevMap =>
    cases item with
    | object itemMap =>
      simp only [mergeRecord, mergeKeyedAt, bind, Except.bind, pure, Except.pure,
        mergeKeyedFields_eq] at h
      cases hmerge : mergeWith (keyedField debug key
          (recordPath debug key path (.object itemMap))) prevMap itemMap with
      | error e => simp [hmerge] at h
      | ok fields =>
        simp only [hmerge, Except.ok.injEq] at h
        subst h
        have hfield := mergeWith_lookup (nodup_keys hord) hmerge key kv (mem_of_lookup hkv)
        have hlookup : prevMap.lookup key = some kv := hprev
        rw [hlookup] at hfield
        unfold KeyKept
        simp only [hkv, Option.some.injEq, exists_eq_left']
        change _ ↔ fields.lookup key = some kv
        cases hnull : kv.isNull with
        | true =>
          simp only [keyedField, hnull, if_true, Except.ok.injEq] at hfield
          simp [← hfield]
        | false =>
          simp only [keyedField, hnull, Bool.false_eq_true, if_false] at hfield
          cases hself : mergeKeyedAt debug key
              (recordPath debug key path (.object itemMap) ++ "." ++ key) kv kv with
          | error e => simp [hself, Except.map] at hfield
          | ok w =>
            simp only [hself, Except.map, Except.ok.injEq] at hfield
            simp [← hfield]
    | _ => cases hkv
  | _ => cases hprev

/-! ## The list that comes out -/

/-- The records with a key: the first of the base, and those of the overlay. -/
def recordsWith (key : String) (base overlay : List (Value Unit)) (kv : Option (Value Unit)) :
    List (Value Unit) :=
  base[(keysOf key base).idxOf kv]?.toList ++ overlay.filter fun item => keyValueOf item key == kv

/-- A keyed merge keeps records and keys. -/
structure KeyedMerge (debug : DebugKey) (key path : String)
    (base overlay result : List (Value Unit)) : Prop where
  /-- The keys of the base, and then the new keys of the overlay. -/
  keys : keysOf key result =
    keysOf key base ++ ((keysOf key overlay).removeAll (keysOf key base)).eraseDups
  keyed : ∀ x ∈ result, IsRecord key x
  unique : (keysOf key base).Nodup → (keysOf key overlay).Nodup → (keysOf key result).Nodup
  /-- The first record with a key is what the records with this key are merged to, in order. -/
  merged : ∀ kv ∈ keysOf key result, ∃ first rest x,
    recordsWith key base overlay kv = first :: rest ∧
    result[(keysOf key result).idxOf kv]? = some x ∧
    rest.foldlM (mergeRecord debug key path) first = .ok x
  /-- Where the base has a key more than once, its later records stay as they are. -/
  others : ∀ i < base.length, ∀ kv, (keysOf key base)[i]? = some kv →
    (keysOf key base).idxOf kv ≠ i → result[i]? = base[i]?

theorem mem_keysOf_result {base overlay result : List (Value Unit)}
    (h : keysOf key result =
      keysOf key base ++ ((keysOf key overlay).removeAll (keysOf key base)).eraseDups)
    {kv : Option (Value Unit)} :
    kv ∈ keysOf key result ↔ kv ∈ keysOf key base ∨ kv ∈ keysOf key overlay := by
  rw [h, List.mem_append, List.mem_eraseDups, List.removeAll, List.mem_filter]
  by_cases hmem : kv ∈ keysOf key base
  · simp [hmem]
  · simp [hmem]

theorem added_snoc {α : Type} [BEq α] [LawfulBEq α] (base l : List α) (a : α) :
    ((l ++ [a]).removeAll base).eraseDups =
      (l.removeAll base).eraseDups ++ if a ∈ base ∨ a ∈ l then [] else [a] := by
  have hsplit : (l ++ [a]).removeAll base = l.removeAll base ++ [a].removeAll base := by
    simp [List.removeAll]
  rw [hsplit, List.eraseDups_append]
  congr 1
  by_cases hbase : a ∈ base
  · simp [List.removeAll, hbase]
  · by_cases hl : a ∈ l
    · simp [List.removeAll, hbase, hl]
    · simp [List.removeAll, hbase, hl, List.eraseDups_cons]

/-- What has to be shown of the result; the rest follows from its keys. -/
theorem KeyedMerge.of {path : String} {base overlay result : List (Value Unit)}
    (hbase : ∀ x ∈ base, IsRecord key x) (hover : ∀ x ∈ overlay, IsRecord key x)
    (hkeys : keysOf key result =
      keysOf key base ++ ((keysOf key overlay).removeAll (keysOf key base)).eraseDups)
    (hmerged : ∀ kv ∈ keysOf key result, ∃ first rest x,
      recordsWith key base overlay kv = first :: rest ∧
      result[(keysOf key result).idxOf kv]? = some x ∧
      rest.foldlM (mergeRecord debug key path) first = .ok x)
    (hothers : ∀ i < base.length, ∀ kv, (keysOf key base)[i]? = some kv →
      (keysOf key base).idxOf kv ≠ i → result[i]? = base[i]?) :
    KeyedMerge debug key path base overlay result := by
  refine ⟨hkeys, ?_, ?_, hmerged, hothers⟩
  · intro x hx
    have hkey : keyValueOf x key ∈ keysOf key result := List.mem_map_of_mem hx
    rcases (mem_keysOf_result hkeys).mp hkey with hmem | hmem
    · obtain ⟨y, hy, heq⟩ := List.mem_map.mp hmem
      unfold IsRecord
      rw [← heq]
      exact hbase y hy
    · obtain ⟨y, hy, heq⟩ := List.mem_map.mp hmem
      unfold IsRecord
      rw [← heq]
      exact hover y hy
  · intro hunique _
    rw [hkeys, List.nodup_append]
    refine ⟨hunique, (nodup_eraseDups _).1, ?_⟩
    rintro kv hkv kv' hkv' rfl
    rw [List.mem_eraseDups, List.removeAll, List.mem_filter] at hkv'
    simp [hkv] at hkv'

/-- Nothing of the overlay taken yet. -/
theorem KeyedMerge.start {path : String} {base : List (Value Unit)}
    (hbase : ∀ x ∈ base, IsRecord key x) : KeyedMerge debug key path base [] base := by
  apply KeyedMerge.of hbase (by simp)
  · simp [keysOf]
  · intro kv hkv
    have hlt : (keysOf key base).idxOf kv < base.length := by
      have := List.idxOf_lt_length_of_mem hkv
      rwa [keysOf, List.length_map] at this
    refine ⟨_, [], _, ?_, List.getElem?_eq_getElem hlt, rfl⟩
    simp [recordsWith, List.getElem?_eq_getElem hlt]
  · intro i _ kv _ _
    rfl

theorem keysOf_snoc (l : List (Value Unit)) (item : Value Unit) :
    keysOf key (l ++ [item]) = keysOf key l ++ [keyValueOf item key] := by
  simp [keysOf]

theorem keyValueOf_of_idxOf {l : List (Value Unit)} {kv : Option (Value Unit)} {prev : Value Unit}
    (hmem : kv ∈ keysOf key l) (hprev : l[(keysOf key l).idxOf kv]? = some prev) :
    keyValueOf prev key = kv := by
  have hidx := List.getElem?_idxOf hmem
  rw [keysOf, List.getElem?_map, ← keysOf, hprev] at hidx
  simpa using hidx

/-- A record put in the place of one with its key changes no key. -/
theorem keysOf_set {l : List (Value Unit)} {idx : Nat} {prev r : Value Unit}
    (hprev : l[idx]? = some prev) (hkey : keyValueOf r key = keyValueOf prev key) :
    keysOf key (l.set idx r) = keysOf key l := by
  apply List.ext_getElem?
  intro i
  rw [keysOf, List.getElem?_map, List.getElem?_set, keysOf, List.getElem?_map]
  split
  · rename_i heq
    rw [← heq, hprev, if_pos (List.getElem?_eq_some_iff.mp hprev).1, Option.map_some,
      Option.map_some, hkey]
  · rfl

theorem recordsWith_snoc (base taken : List (Value Unit)) (item : Value Unit) :
    recordsWith key base (taken ++ [item]) (keyValueOf item key) =
      recordsWith key base taken (keyValueOf item key) ++ [item] := by
  simp [recordsWith]

theorem recordsWith_snoc_of_ne (base taken : List (Value Unit)) {item : Value Unit}
    {kv : Option (Value Unit)} (hne : keyValueOf item key ≠ kv) :
    recordsWith key base (taken ++ [item]) kv = recordsWith key base taken kv := by
  simp [recordsWith, hne]

/-- No record has a key that neither list has. -/
theorem recordsWith_of_not_mem {base taken : List (Value Unit)} {kv : Option (Value Unit)}
    (hbase : kv ∉ keysOf key base) (htaken : kv ∉ keysOf key taken) :
    recordsWith key base taken kv = [] := by
  have hnone : base[(keysOf key base).idxOf kv]? = none := by
    rw [List.idxOf_eq_length_iff.mpr hbase, keysOf, List.length_map]
    exact List.getElem?_eq_none (Nat.le_refl _)
  have hfilter : (taken.filter fun x => keyValueOf x key == kv) = [] := by
    rw [List.filter_eq_nil_iff]
    intro x hx heq
    exact htaken (List.mem_map.mpr ⟨x, hx, by simpa using heq⟩)
  rw [recordsWith, hnone, hfilter]
  rfl

section Turn

variable {path : String} {base before merged : List (Value Unit)} {item : Value Unit}

/-- A record with a new key goes to the end of the list. -/
theorem KeyedMerge.added (h : KeyedMerge debug key path base before merged)
    (hbase : ∀ x ∈ base, IsRecord key x) (hover : ∀ x ∈ before ++ [item], IsRecord key x)
    (hnew : keyValueOf item key ∉ keysOf key merged) :
    KeyedMerge debug key path base (before ++ [item]) (merged ++ [item]) := by
  have hlen : (keysOf key merged).length = merged.length := List.length_map _
  have hknown := @mem_keysOf_result _ _ _ _ h.keys (keyValueOf item key)
  obtain ⟨hnotbase, hnottaken⟩ := not_or.mp fun hmem => hnew (hknown.mpr hmem)
  apply KeyedMerge.of hbase hover
  · rw [keysOf_snoc, keysOf_snoc, added_snoc, if_neg (fun hmem => hnew (hknown.mpr hmem)), h.keys,
      List.append_assoc]
  · intro kv hkv
    rw [keysOf_snoc] at hkv ⊢
    by_cases hmem : kv ∈ keysOf key merged
    · have hne : keyValueOf item key ≠ kv := fun heq => hnew (heq ▸ hmem)
      obtain ⟨first, rest, x, hfirst, hx, hfold⟩ := h.merged kv hmem
      refine ⟨first, rest, x, ?_, ?_, hfold⟩
      · rw [recordsWith_snoc_of_ne base before hne, hfirst]
      · rw [List.idxOf_append_of_mem hmem, List.getElem?_append_left, hx]
        rw [← hlen]
        exact List.idxOf_lt_length_of_mem hmem
    · obtain rfl : kv = keyValueOf item key := by
        rcases List.mem_append.mp hkv with hkv | hkv
        · exact absurd hkv hmem
        · exact List.mem_singleton.mp hkv
      refine ⟨item, [], item, ?_, ?_, rfl⟩
      · rw [recordsWith_snoc, recordsWith_of_not_mem hnotbase hnottaken]
        rfl
      · rw [List.idxOf_append_of_notMem hmem, hlen]
        simp
  · intro i hi kv hkv hne
    have hle : i < merged.length := by
      have := congrArg List.length h.keys
      rw [List.length_append, hlen, keysOf, List.length_map] at this
      omega
    rw [List.getElem?_append_left hle]
    exact h.others i hi kv hkv hne

/-- A record with a known key goes into the first record that has it. -/
theorem KeyedMerge.updated (h : KeyedMerge debug key path base before merged)
    (hbase : ∀ x ∈ base, IsRecord key x) (hover : ∀ x ∈ before ++ [item], IsRecord key x)
    (hold : keyValueOf item key ∈ keysOf key merged) {prev r : Value Unit}
    (hprev : merged[(keysOf key merged).idxOf (keyValueOf item key)]? = some prev)
    (hr : mergeRecord debug key path prev item = .ok r)
    (hrkey : keyValueOf r key = keyValueOf item key) :
    KeyedMerge debug key path base (before ++ [item])
      (merged.set ((keysOf key merged).idxOf (keyValueOf item key)) r) := by
  have hknown := @mem_keysOf_result _ _ _ _ h.keys (keyValueOf item key)
  have hlt := (List.getElem?_eq_some_iff.mp hprev).1
  have hkeys := keysOf_set hprev (hrkey.trans (keyValueOf_of_idxOf hold hprev).symm)
  apply KeyedMerge.of hbase hover
  · rw [hkeys, keysOf_snoc, added_snoc, if_pos (hknown.mp hold), List.append_nil, h.keys]
  · intro kv hkv
    rw [hkeys] at hkv ⊢
    obtain ⟨first, rest, x, hfirst, hx, hfold⟩ := h.merged kv hkv
    by_cases heq : keyValueOf item key = kv
    · subst heq
      obtain rfl : prev = x := Option.some.inj (hprev.symm.trans hx)
      refine ⟨first, rest ++ [item], r, ?_, List.getElem?_set_self hlt, ?_⟩
      · rw [recordsWith_snoc, hfirst]
        rfl
      · rw [List.foldlM_append, hfold]
        exact (bind_pure _).trans hr
    · refine ⟨first, rest, x, ?_, ?_, hfold⟩
      · rw [recordsWith_snoc_of_ne base before heq, hfirst]
      · rw [List.getElem?_set_ne, hx]
        intro hsame
        exact heq ((List.idxOf_inj hold).mp hsame)
  · intro i hi kv hkv hne
    rw [List.getElem?_set_ne]
    · exact h.others i hi kv hkv hne
    · intro hsame
      have hkvmem : kv ∈ keysOf key base := List.mem_of_getElem? hkv
      have hkvi : (keysOf key merged)[i]? = some kv := by
        rw [h.keys, List.getElem?_append_left, hkv]
        rwa [keysOf, List.length_map]
      have heq : keyValueOf item key = kv := by
        have hidx := List.getElem?_idxOf hold
        rw [hsame, hkvi] at hidx
        exact (Option.some.inj hidx).symm
      apply hne
      rw [heq, h.keys, List.idxOf_append_of_mem hkvmem] at hsame
      exact hsame

/-- One turn of the loop. -/
theorem KeyedMerge.taken {merged' : List (Value Unit)}
    (h : KeyedMerge debug key path base before merged)
    (hbase : ∀ x ∈ base, IsRecord key x) (htaken : ∀ x ∈ before, IsRecord key x)
    (hone : mergeKeyedItems debug key path merged [item] = .ok merged') (hord : item.Ordered)
    (hkept : keyValueOf item key ∈ keysOf key merged → KeyKept debug key path item) :
    KeyedMerge debug key path base (before ++ [item]) merged' := by
  obtain ⟨hrecord, hcase⟩ := mergeKeyedItems_one.mp hone
  have hover : ∀ x ∈ before ++ [item], IsRecord key x := by
    intro x hx
    rcases List.mem_append.mp hx with hx | hx
    · exact htaken x hx
    · exact List.mem_singleton.mp hx ▸ hrecord
  rcases hcase with ⟨hnew, rfl⟩ | ⟨hold, prev, r, hprev, hr, rfl⟩
  · exact h.added hbase hover hnew
  · have hprevkey := keyValueOf_of_idxOf hold hprev
    have hrkey := (keyKept_iff hord hrecord hprevkey hr).mp (hkept hold)
    exact h.updated hbase hover hold hprev hr hrkey

end Turn

/-! ## A whole list -/

theorem mergeKeyedItems_append_ok {path : String} {merged xs ys result : List (Value Unit)} :
    mergeKeyedItems debug key path merged (xs ++ ys) = .ok result ↔
      ∃ m, mergeKeyedItems debug key path merged xs = .ok m ∧
        mergeKeyedItems debug key path m ys = .ok result := by
  rw [mergeKeyedItems_append]
  cases mergeKeyedItems debug key path merged xs <;> simp [Except.bind]

theorem isRecord_of_ok {path : String} {base overlay result : List (Value Unit)}
    (h : mergeKeyedItems debug key path base overlay = .ok result) :
    ∀ x ∈ overlay, IsRecord key x := by
  intro x hx
  obtain ⟨before, after, rfl⟩ := List.append_of_mem hx
  obtain ⟨m, -, h⟩ := mergeKeyedItems_append_ok.mp h
  have hcons : x :: after = [x] ++ after := rfl
  rw [hcons] at h
  obtain ⟨m', hone, -⟩ := mergeKeyedItems_append_ok.mp h
  exact (mergeKeyedItems_one.mp hone).1

/-- The lists that two lists are merged to while the overlay is taken in keep records and keys. -/
def KeepsRecords (debug : DebugKey) (key path : String) (base overlay : List (Value Unit)) : Prop :=
  ∀ taken rest merged, overlay = taken ++ rest →
    mergeKeyedItems debug key path base taken = .ok merged →
    KeyedMerge debug key path base taken merged

/-- The key of every record of the overlay that meets another one is kept. -/
def KeysKept (debug : DebugKey) (key path : String) (base overlay : List (Value Unit)) : Prop :=
  ∀ before item after, overlay = before ++ item :: after →
    keyValueOf item key ∈ keysOf key (base ++ before) → KeyKept debug key path item

theorem keepsRecords_iff {path : String} {base overlay result : List (Value Unit)}
    (hbase : ∀ x ∈ base, IsRecord key x) (hord : ∀ x ∈ overlay, x.Ordered)
    (h : mergeKeyedItems debug key path base overlay = .ok result) :
    KeepsRecords debug key path base overlay ↔ KeysKept debug key path base overlay := by
  constructor
  · intro hkeeps before item after heq hmet
    have hcons : before ++ item :: after = before ++ [item] ++ after := by simp
    rw [heq, hcons] at h
    obtain ⟨merged', hprefix, -⟩ := mergeKeyedItems_append_ok.mp h
    obtain ⟨merged, hbefore, hone⟩ := mergeKeyedItems_append_ok.mp hprefix
    have hfirst := hkeeps before (item :: after) merged heq hbefore
    have hthen := hkeeps (before ++ [item]) after merged' (heq.trans hcons) hprefix
    have hknown : keyValueOf item key ∈ keysOf key base ∨
        keyValueOf item key ∈ keysOf key before := by
      simpa [keysOf] using hmet
    have hold := (mem_keysOf_result hfirst.keys).mpr hknown
    obtain ⟨hrecord, hcase⟩ := mergeKeyedItems_one.mp hone
    rcases hcase with ⟨hnew, -⟩ | ⟨-, prev, r, hprev, hr, rfl⟩
    · exact absurd hold hnew
    · have hlt := (List.getElem?_eq_some_iff.mp hprev).1
      have hidx := List.getElem?_idxOf hold
      have hprevkey := keyValueOf_of_idxOf hold hprev
      have hitem : item.Ordered := hord item (by simp [heq])
      apply (keyKept_iff hitem hrecord hprevkey hr).mpr
      -- no key is new, so the keys are the same before and after
      have hkeys := hthen.keys
      rw [keysOf_snoc, added_snoc, if_pos hknown, List.append_nil, ← hfirst.keys] at hkeys
      have hset : ∀ idx < merged.length,
          (keysOf key (merged.set idx r))[idx]? = some (keyValueOf r key) := by
        intro idx hidxlt
        rw [keysOf, List.getElem?_map, List.getElem?_set_self hidxlt, Option.map_some]
      have hrkey := hset _ hlt
      rw [hkeys, hidx] at hrkey
      exact (Option.some.inj hrkey).symm
  · intro hkept taken
    induction taken using List.reverseRecOn with
    | nil =>
      rintro rest merged - hmerged
      obtain rfl : base = merged := by simpa [mergeKeyedItems] using hmerged
      exact KeyedMerge.start hbase
    | append_singleton taken item ih =>
      intro rest merged' heq hmerged
      obtain ⟨merged, htaken, hone⟩ := mergeKeyedItems_append_ok.mp hmerged
      have heq' : overlay = taken ++ item :: rest := by simp [heq]
      have hbefore := ih (item :: rest) merged heq' htaken
      apply hbefore.taken hbase (isRecord_of_ok htaken) hone
      · exact hord item (by simp [heq'])
      · intro hold
        apply hkept taken item rest heq'
        simpa [keysOf] using (mem_keysOf_result hbefore.keys).mp hold

/-! ## The lists that are reached -/

/-- The recursion of `merge_keyed_at` from two values comes, at this path, to two lists. -/
inductive Reaches (debug : DebugKey) (key : String) :
    String → Value Unit → Value Unit → String → List (Value Unit) → List (Value Unit) → Prop
  | here (path : String) (base overlay : List (Value Unit)) :
    Reaches debug key path (.array base) (.array overlay) path base overlay
  | field {path k : String} {baseMap overMap : List (String × Value Unit)} {baseV v : Value Unit}
    {at' : String} {l l' : List (Value Unit)} (hbase : baseMap.lookup k = some baseV)
    (hover : (k, v) ∈ overMap) (hnull : v.isNull = false)
    (h : Reaches debug key (path ++ "." ++ k) baseV v at' l l') :
    Reaches debug key path (.object baseMap) (.object overMap) at' l l'
  | record {path : String} {base before after merged : List (Value Unit)}
    {item prev : Value Unit} {at' : String} {l l' : List (Value Unit)}
    (hbase : ∀ x ∈ base, IsRecord key x)
    (hbefore : mergeKeyedItems debug key path base before = .ok merged)
    (hitem : IsRecord key item) (hkey : keyValueOf item key ∈ keysOf key merged)
    (hprev : merged[(keysOf key merged).idxOf (keyValueOf item key)]? = some prev)
    (h : Reaches debug key (recordPath debug key path item) prev item at' l l') :
    Reaches debug key path (.array base) (.array (before ++ item :: after)) at' l l'

theorem Reaches.ordered {path at' : String} {base overlay : Value Unit}
    {l l' : List (Value Unit)} (h : Reaches debug key path base overlay at' l l')
    (hord : overlay.Ordered) : ∀ x ∈ l', x.Ordered := by
  induction h with
  | here => exact orderedItems_iff.mp hord
  | field _ hover _ _ ih => exact ih (ordered_of_mem hord hover)
  | record _ _ _ _ _ _ ih => exact ih (orderedItems_iff.mp hord _ (by simp))

/-! ## Failures -/

theorem exists_error_iff {ε α : Type} {x : Except ε α} :
    (∃ e, x = .error e) ↔ ∀ a, x ≠ .ok a := by
  cases x <;> simp

/-- The first record at which the loop fails. -/
theorem mergeKeyedItems_error {path : String} {e : InventoryError} {overlay : List (Value Unit)} :
    ∀ {merged : List (Value Unit)}, mergeKeyedItems debug key path merged overlay = .error e →
      ∃ before item after m, overlay = before ++ item :: after ∧
        mergeKeyedItems debug key path merged before = .ok m ∧
        mergeKeyedItems debug key path m [item] = .error e := by
  induction overlay with
  | nil =>
    intro merged h
    simp [mergeKeyedItems] at h
  | cons item overlay ih =>
    intro merged h
    have hcons : item :: overlay = [item] ++ overlay := rfl
    rw [hcons, mergeKeyedItems_append] at h
    cases hone : mergeKeyedItems debug key path merged [item] with
    | error e' =>
      simp only [hone, Except.bind, Except.error.injEq] at h
      exact ⟨[], item, overlay, merged, rfl, rfl, h ▸ hone⟩
    | ok m =>
      simp only [hone, Except.bind] at h
      obtain ⟨before, item', after, m', rfl, hbefore, herror⟩ := ih h
      refine ⟨item :: before, item', after, m', rfl, ?_, herror⟩
      have hcons' : item :: before = [item] ++ before := rfl
      rw [hcons', mergeKeyedItems_append, hone]
      exact hbefore

/-- A record fails only in the merge with the one that has its key. -/
theorem mergeKeyedItems_one_error {path : String} {e : InventoryError}
    {merged : List (Value Unit)} {item : Value Unit} (hitem : IsRecord key item)
    (h : mergeKeyedItems debug key path merged [item] = .error e) :
    keyValueOf item key ∈ keysOf key merged ∧ ∃ prev,
      merged[(keysOf key merged).idxOf (keyValueOf item key)]? = some prev ∧
      ∀ r, mergeRecord debug key path prev item ≠ .ok r := by
  have hnever : ∀ result, mergeKeyedItems debug key path merged [item] ≠ .ok result := by
    rw [h]
    simp
  by_cases hold : keyValueOf item key ∈ keysOf key merged
  · have hlt : (keysOf key merged).idxOf (keyValueOf item key) < merged.length := by
      have := List.idxOf_lt_length_of_mem hold
      rwa [keysOf, List.length_map] at this
    refine ⟨hold, _, List.getElem?_eq_getElem hlt, ?_⟩
    intro r hr
    exact hnever _ (mergeKeyedItems_one.mpr
      ⟨hitem, .inr ⟨hold, _, r, List.getElem?_eq_getElem hlt, hr, rfl⟩⟩)
  · exact absurd (mergeKeyedItems_one.mpr ⟨hitem, .inl ⟨hold, rfl⟩⟩) (hnever _)

/-- Two maps fail to be merged when the values of one key do. -/
theorem mergeKeyedAt_object_error_iff {path : String} {base overlay : List (String × Value Unit)}
    (hkeys : (overlay.map Prod.fst).Nodup) :
    (∃ e, mergeKeyedAt debug key path (.object base) (.object overlay) = .error e) ↔
      ∃ k v baseV, (k, v) ∈ overlay ∧ v.isNull = false ∧ base.lookup k = some baseV ∧
        ∃ e, mergeKeyedAt debug key (path ++ "." ++ k) baseV v = .error e := by
  have hwith : (∃ e, mergeKeyedAt debug key path (.object base) (.object overlay) = .error e) ↔
      ∃ e, mergeWith (keyedField debug key path) base overlay = .error e := by
    rw [exists_error_iff, exists_error_iff]
    constructor
    · intro h l hl
      exact h _ (mergeKeyedAt_object_ok.mpr ⟨l, hl, rfl⟩)
    · intro h r hr
      obtain ⟨l, hl, -⟩ := mergeKeyedAt_object_ok.mp hr
      exact h l hl
  rw [hwith, mergeWith_error_iff hkeys]
  constructor
  · rintro ⟨k, v, e, hmem, hfield⟩
    cases hnull : v.isNull with
    | true => simp [keyedField, hnull] at hfield
    | false =>
      cases hlookup : base.lookup k with
      | none => simp [keyedField, hnull, hlookup] at hfield
      | some baseV =>
        refine ⟨k, v, baseV, hmem, hnull, hlookup, ?_⟩
        cases hmerge : mergeKeyedAt debug key (path ++ "." ++ k) baseV v with
        | error e => exact ⟨e, rfl⟩
        | ok w => simp [keyedField, hnull, hlookup, hmerge, Except.map] at hfield
  · rintro ⟨k, v, baseV, hmem, hnull, hlookup, e, he⟩
    exact ⟨k, v, e, hmem, by simp [keyedField, hnull, hlookup, he, Except.map]⟩

/-- Two lists of records fail to be merged when a record and the one it meets do. -/
theorem mergeKeyedAt_array_error_iff {path : String} {base overlay : List (Value Unit)}
    (hbase : ∀ x ∈ base, IsRecord key x) (hover : ∀ x ∈ overlay, IsRecord key x) :
    (∃ e, mergeKeyedAt debug key path (.array base) (.array overlay) = .error e) ↔
      ∃ before item after merged prev, overlay = before ++ item :: after ∧
        mergeKeyedItems debug key path base before = .ok merged ∧
        keyValueOf item key ∈ keysOf key merged ∧
        merged[(keysOf key merged).idxOf (keyValueOf item key)]? = some prev ∧
        ∃ e, mergeRecord debug key path prev item = .error e := by
  constructor
  · intro hfails
    have hitems : ∃ e, mergeKeyedItems debug key path base overlay = .error e := by
      rw [exists_error_iff] at hfails ⊢
      intro l hl
      exact hfails _ (mergeKeyedAt_array_ok.mpr ⟨hbase, l, hl, rfl⟩)
    obtain ⟨e, hitems⟩ := hitems
    obtain ⟨before, item, after, m, rfl, hbefore, hone⟩ := mergeKeyedItems_error hitems
    have hitem : IsRecord key item := hover item (by simp)
    obtain ⟨hold, prev, hprev, hnever⟩ := mergeKeyedItems_one_error hitem hone
    exact ⟨before, item, after, m, prev, rfl, hbefore, hold, hprev, exists_error_iff.mpr hnever⟩
  · rintro ⟨before, item, after, merged, prev, rfl, hbefore, hold, hprev, e, he⟩
    rw [exists_error_iff]
    intro r hr
    obtain ⟨-, l, hl, -⟩ := mergeKeyedAt_array_ok.mp hr
    have hcons : before ++ item :: after = before ++ ([item] ++ after) := rfl
    rw [hcons] at hl
    obtain ⟨m, hm, hl⟩ := mergeKeyedItems_append_ok.mp hl
    obtain rfl : merged = m := Except.ok.inj (hbefore.symm.trans hm)
    obtain ⟨m', hone, -⟩ := mergeKeyedItems_append_ok.mp hl
    obtain ⟨-, ⟨hnew, -⟩ | ⟨-, prev', r', hprev', hr', -⟩⟩ := mergeKeyedItems_one.mp hone
    · exact hnew hold
    · obtain rfl : prev = prev' := Option.some.inj (hprev.symm.trans hprev')
      rw [he] at hr'
      cases hr'

/-- A list that is merged with another and holds something else than records is an error. -/
theorem mergeKeyedAt_array_error_of_not_records {path : String} {base overlay : List (Value Unit)}
    {x : Value Unit} (hx : x ∈ base ++ overlay) (hbad : ¬ IsRecord key x) :
    ∃ e, mergeKeyedAt debug key path (.array base) (.array overlay) = .error e := by
  rw [exists_error_iff]
  intro r hr
  obtain ⟨hbase, l, hl, -⟩ := mergeKeyedAt_array_ok.mp hr
  rcases List.mem_append.mp hx with hx | hx
  · exact hbad (hbase x hx)
  · exact hbad (isRecord_of_ok hl x hx)

/-- What a merge that fails gets to. -/
theorem reaches_of_error (overlay : Value Unit) (hord : overlay.Ordered) : ∀ path base,
    (∃ e, mergeKeyedAt debug key path base overlay = .error e) →
      ∃ at' l l', Reaches debug key path base overlay at' l l' ∧
        ∃ x ∈ l ++ l', ¬ IsRecord key x := by
  induction overlay using Value.ind with
  | object overMap ih =>
    intro path base hfails
    cases base with
    | object baseMap =>
      obtain ⟨k, v, baseV, hmem, hnull, hlookup, hfield⟩ :=
        (mergeKeyedAt_object_error_iff (nodup_keys hord)).mp hfails
      obtain ⟨at', l, l', hreach, hbad⟩ := ih k v hmem (ordered_of_mem hord hmem) _ _ hfield
      exact ⟨at', l, l', .field hlookup hmem hnull hreach, hbad⟩
    | _ => simp [mergeKeyedAt] at hfails
  | array overArr ih =>
    intro path base hfails
    cases base with
    | array baseArr =>
      by_cases hrecords : ∀ x ∈ baseArr ++ overArr, IsRecord key x
      · have hbase : ∀ x ∈ baseArr, IsRecord key x :=
          fun x hx => hrecords x (List.mem_append_left _ hx)
        have hover : ∀ x ∈ overArr, IsRecord key x :=
          fun x hx => hrecords x (List.mem_append_right _ hx)
        obtain ⟨before, item, after, merged, prev, rfl, hbefore, hold, hprev, hrecord⟩ :=
          (mergeKeyedAt_array_error_iff hbase hover).mp hfails
        have hmem : item ∈ before ++ item :: after := by simp
        obtain ⟨at', l, l', hreach, hbad⟩ :=
          ih item hmem (orderedItems_iff.mp hord item hmem) _ prev hrecord
        exact ⟨at', l, l', .record hbase hbefore (hover item hmem) hold hprev hreach, hbad⟩
      · simp only [not_forall] at hrecords
        obtain ⟨x, hx, hbad⟩ := hrecords
        exact ⟨path, _, _, .here path _ _, x, hx, hbad⟩
    | _ => simp [mergeKeyedAt] at hfails
  | _ =>
    intro path base hfails
    cases base <;> simp [mergeKeyedAt] at hfails

/-- **Failures.**  A keyed merge fails exactly when the recursion reaches a list, on either side,
    that holds something else than records. -/
theorem mergeKeyedAt_error_iff (overlay : Value Unit) (hord : overlay.Ordered) : ∀ path base,
    (∃ e, mergeKeyedAt debug key path base overlay = .error e) ↔
      ∃ at' l l', Reaches debug key path base overlay at' l l' ∧
        ∃ x ∈ l ++ l', ¬ IsRecord key x := by
  intro path base
  refine ⟨reaches_of_error overlay hord path base, ?_⟩
  rintro ⟨at', l, l', hreach, x, hx, hbad⟩
  induction hreach with
  | here path base overlay => exact mergeKeyedAt_array_error_of_not_records hx hbad
  | @field path k baseMap overMap baseV v at' l l' hbase hover hnull _ ih =>
    exact (mergeKeyedAt_object_error_iff (nodup_keys hord)).mpr
      ⟨k, v, baseV, hover, hnull, hbase, ih (ordered_of_mem hord hover) hx⟩
  | @record path base before after merged item prev at' l l' hbase hbefore hitem hkey hprev _
      ih =>
    have hrecord := ih (orderedItems_iff.mp hord _ (by simp)) hx
    by_cases hover : ∀ x ∈ before ++ item :: after, IsRecord key x
    · exact (mergeKeyedAt_array_error_iff hbase hover).mpr
        ⟨before, item, after, merged, prev, rfl, hbefore, hkey, hprev, hrecord⟩
    · simp only [not_forall] at hover
      obtain ⟨y, hy, hother⟩ := hover
      exact mergeKeyedAt_array_error_of_not_records (List.mem_append_right _ hy) hother

/-! ## All of it -/

/-- **Keyed merges.**  They fail as they should; and all the lists they reach and merge keep their
    records and keys exactly when every key that meets its like is kept.  A key without lists is
    kept exactly when it holds no nulls. -/
theorem mergeInventoryKeyed_iff (debug : DebugKey) (key : String) (base overlay : Json) :
    ((((∃ e, mergeInventoryKeyed debug base.1 overlay.1 key = .error e) ↔
        ∃ at' l l', Reaches debug key "$" base.1 overlay.1 at' l l' ∧
          ∃ x ∈ l ++ l', ¬ IsRecord key x) ∧
      ∀ at' l l' result, Reaches debug key "$" base.1 overlay.1 at' l l' →
        mergeKeyedAt debug key at' (.array l) (.array l') = .ok result →
        KeepsRecords debug key at' l l') ↔
    ∀ at' l l' result, Reaches debug key "$" base.1 overlay.1 at' l l' →
      mergeKeyedAt debug key at' (.array l) (.array l') = .ok result →
      KeysKept debug key at' l l') ∧
    ∀ path (item kv : Value Unit), item.Ordered → keyValueOf item key = some kv →
      kv.listless = true → (KeyKept debug key path item ↔ kv.nulls = []) := by
  refine ⟨?_, fun path item kv hord hkey hlist => keyKept_iff_of_listless hord hkey hlist⟩
  have hlists : ∀ at' l l' result, Reaches debug key "$" base.1 overlay.1 at' l l' →
      mergeKeyedAt debug key at' (.array l) (.array l') = .ok result →
      (KeepsRecords debug key at' l l' ↔ KeysKept debug key at' l l') := by
    intro at' l l' result hreach hmerge
    obtain ⟨hbase, merged, hmerged, -⟩ := mergeKeyedAt_array_ok.mp hmerge
    exact keepsRecords_iff hbase (hreach.ordered overlay.2) hmerged
  constructor
  · rintro ⟨-, hkeeps⟩ at' l l' result hreach hmerge
    exact (hlists at' l l' result hreach hmerge).mp (hkeeps at' l l' result hreach hmerge)
  · intro hkept
    refine ⟨mergeKeyedAt_error_iff overlay.1 overlay.2 "$" base.1, ?_⟩
    intro at' l l' result hreach hmerge
    exact (hlists at' l l' result hreach hmerge).mpr (hkept at' l l' result hreach hmerge)

/-- No other key than a null occurs. -/
def debugNull : DebugKey := fun _ => "Some(Null)"

/-- `{"name": null}`. -/
def nullName : Value Unit := .object [("name", .null ())]

/-- `{"users": [{"name": null}]}`. -/
def nullNames : Json :=
  ⟨.object [("users", .array [nullName])], .cons (by simp) .nil,
    ⟨⟨.cons (by simp) .nil, trivial, trivial⟩, trivial⟩, trivial⟩

/-- Merged with itself, the record with the null key loses it; merged once more, it is no record
    any longer. -/
theorem null_key_deleted :
    mergeInventoryKeyed debugNull nullNames.1 nullNames.1 "name" =
      .ok (.object [("users", .array [.object []])]) ∧
    ¬ KeepsRecords debugNull "name" "$.users" [nullName] [nullName] ∧
    mergeInventoryKeyed debugNull (.object [("users", .array [.object []])]) nullNames.1 "name" =
      .error (.keyedListMissingKey "$.users" "name") := by
  refine ⟨rfl, ?_, rfl⟩
  intro h
  have hkeyed := (h [nullName] [] [.object []] rfl rfl).keyed (.object []) (by simp)
  cases hkeyed

end Bosun
