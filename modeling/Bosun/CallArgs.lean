import Bosun.Inventory
import Bosun.Resource

/-!
# Arguments of a Starlark call

The keyword arguments of a call are converted to `ArgValue`s before it is known what they are for;
the readers of `CallArgs` are asked by name afterwards.  A list is taken for a list of handles when
no item of it is anything else, which an empty list satisfies as well.
-/

namespace Bosun

/-- A Starlark value, as far as the conversion tells them apart.  An `int` fits into an `i32`; a
    larger one is among the others, which come with whatever their serialisation gives. -/
inductive StarValue
  | none
  | str (s : String)
  | bool (b : Bool)
  | int (i : Int32)
  | list (items : List StarValue)
  | handle (id : ResourceId)
  | other (type : String) (json : Except String (Value Unit))

namespace StarValue

/-- `get_type` -/
def type : StarValue → String
  | none => "NoneType"
  | str _ => "string"
  | bool _ => "bool"
  | int _ => "int"
  | list _ => "list"
  | handle _ => "bosun.handle"
  | other type _ => type

end StarValue

def intToJson (i : Int) : Value Unit :=
  .number (if 0 ≤ i then .posInt i.toNat else .negInt i)

section Json

-- the text with which a value that cannot be serialised is refused
variable (noSerialize : String)

mutual

/-- `to_json_value`; a handle is `NoSerialize`. -/
def valueToJson : StarValue → Except String (Value Unit)
  | .none => .ok (.null ())
  | .str s => .ok (.string s)
  | .bool b => .ok (.bool b)
  | .int i => .ok (intToJson i.toInt)
  | .list items =>
    match itemsToJson items with
    | .ok items => .ok (.array items)
    | .error e => .error e
  | .handle _ => .error noSerialize
  | .other _ json => json

def itemsToJson : List StarValue → Except String (List (Value Unit))
  | [] => .ok []
  | item :: items =>
    match valueToJson item with
    | .error e => .error e
    | .ok v =>
      match itemsToJson items with
      | .ok vs => .ok (v :: vs)
      | .error e => .error e

end

inductive ArgValue
  | str (s : String)
  | int (i : Int)
  | bool (b : Bool)
  | handleList (ids : List ResourceId)
  | other (json : Value Unit)

/-- The scan of a list: its handles, unless something else is met. -/
def allHandles : List StarValue → Option (List ResourceId)
  | [] => some []
  | .handle id :: items => (allHandles items).map (id :: ·)
  | _ :: _ => none

def valueToArg (v : StarValue) : Except String ArgValue :=
  match v with
  | .none => .ok (.other (.null ()))
  | .str s => .ok (.str s)
  | .bool b => .ok (.bool b)
  | .int i => .ok (.int i.toInt)
  | .list items =>
    match allHandles items with
    | some handles => .ok (.handleList handles)
    | none => (valueToJson noSerialize (.list items)).map .other
  | .handle _ | .other _ _ => (valueToJson noSerialize v).map .other

/-! ## `CallArgs` -/

structure CallArgs where
  inner : String → Option ArgValue

def CallArgs.insert (name : String) (arg : ArgValue) (args : CallArgs) : CallArgs :=
  ⟨fun k => if k = name then some arg else args.inner k⟩

/-- `kwargs_to_call_args`, from the entries collected so far. -/
def kwargsToCallArgs : List (StarValue × StarValue) → CallArgs → Except String CallArgs
  | [], args => .ok args
  | (k, v) :: kwargs, args =>
    match k with
    | .str key =>
      match valueToArg noSerialize v with
      | .ok arg => kwargsToCallArgs kwargs (args.insert key arg)
      | .error e => .error e
    | _ => .error ("kwargs key must be a string, got " ++ k.type)

end Json

/-- `CallArgsError::WrongType`, the one error of the two readers of lists. -/
structure WrongType where
  name : String
  expected : String
  actual : String
deriving DecidableEq, Repr

def ArgValue.typeName : ArgValue → String
  | str _ => "str"
  | int _ => "int"
  | bool _ => "bool"
  | handleList _ => "list[Handle]"
  | other _ => "other"

namespace CallArgs

variable (args : CallArgs)

def empty : CallArgs := ⟨fun _ => none⟩

def optionalHandleList (name : String) : Except WrongType (List ResourceId) :=
  match args.inner name with
  | some (.handleList ids) => .ok ids
  | some arg => .error ⟨name, "list[Handle]", arg.typeName⟩
  | none => .ok []

/-- The items of the list from the index on. -/
def strItems (name : String) : Nat → List (Value Unit) → Except WrongType (List String)
  | _, [] => .ok []
  | idx, .string s :: items =>
    match strItems name (idx + 1) items with
    | .ok out => .ok (s :: out)
    | .error e => .error e
  | idx, _ :: _ =>
    .error ⟨name ++ "[" ++ toString idx ++ "]", "str", "non-string json"⟩

def optionalStrList (name : String) : Except WrongType (Option (List String)) :=
  match args.inner name with
  | some (.other (.array items)) => (strItems name 0 items).map some
  | some (.other (.null _)) | none => .ok none
  | some arg => .error ⟨name, "list[str]", arg.typeName⟩

end CallArgs

/-! ## Lists -/

variable {noSerialize : String}

theorem allHandles_handles (ids : List ResourceId) :
    allHandles (ids.map .handle) = some ids := by
  induction ids with
  | nil => rfl
  | cons id ids ih => rw [List.map_cons, allHandles, ih, Option.map_some]

theorem allHandles_eq_none {items : List StarValue} {v : StarValue} (hv : v ∈ items)
    (hother : ∀ id, v ≠ .handle id) : allHandles items = none := by
  induction items with
  | nil => cases hv
  | cons item items ih =>
    cases item with
    | handle id =>
      rcases List.mem_cons.mp hv with rfl | hv
      · exact absurd rfl (hother id)
      · rw [allHandles, ih hv, Option.map_none]
    | _ => rfl

theorem itemsToJson_strs (xs : List String) :
    itemsToJson noSerialize (xs.map .str) = .ok (xs.map .string) := by
  induction xs with
  | nil => simp [itemsToJson]
  | cons x xs ih => simp [itemsToJson, valueToJson, ih]

theorem itemsToJson_handle {items : List StarValue} {id : ResourceId}
    (h : .handle id ∈ items) : ∃ e, itemsToJson noSerialize items = .error e := by
  induction items with
  | nil => cases h
  | cons item items ih =>
    rw [itemsToJson]
    cases hitem : valueToJson noSerialize item with
    | error e => exact ⟨e, rfl⟩
    | ok v =>
      rcases List.mem_cons.mp h with rfl | h
      · simp [valueToJson] at hitem
      · obtain ⟨e, he⟩ := ih h
        exact ⟨e, by rw [he]⟩

theorem strItems_strings (name : String) (xs : List String) : ∀ idx,
    CallArgs.strItems name idx (xs.map .string) = .ok xs := by
  induction xs with
  | nil =>
    intro idx
    rfl
  | cons x xs ih =>
    intro idx
    simp [CallArgs.strItems, ih]

/-! ## One argument among others -/

/-- Arguments that convert, none of them under this name. -/
def Others (noSerialize name : String) (kwargs : List (StarValue × StarValue)) : Prop :=
  ∀ p ∈ kwargs, ∃ key arg, p.1 = .str key ∧ key ≠ name ∧ valueToArg noSerialize p.2 = .ok arg

theorem kwargsToCallArgs_others {name : String} {kwargs : List (StarValue × StarValue)}
    (h : Others noSerialize name kwargs) (rest : List (StarValue × StarValue)) :
    ∀ args, ∃ args', kwargsToCallArgs noSerialize (kwargs ++ rest) args =
        kwargsToCallArgs noSerialize rest args' ∧ args'.inner name = args.inner name := by
  induction kwargs with
  | nil =>
    intro args
    exact ⟨args, rfl, rfl⟩
  | cons p kwargs ih =>
    intro args
    obtain ⟨k, v⟩ := p
    obtain ⟨key, arg, rfl, hne, harg⟩ := h (k, v) List.mem_cons_self
    obtain ⟨args', hrun, hname⟩ := ih (fun p hp => h p (List.mem_cons_of_mem _ hp))
      (args.insert key arg)
    refine ⟨args', ?_, ?_⟩
    · simpa [kwargsToCallArgs, harg] using hrun
    · rw [hname, CallArgs.insert]
      exact if_neg hne.symm

variable {name : String} {before after : List (StarValue × StarValue)}

/-- An argument that converts is found under its name. -/
theorem kwargsToCallArgs_ok (hbefore : Others noSerialize name before)
    (hafter : Others noSerialize name after) {v : StarValue} {arg : ArgValue}
    (harg : valueToArg noSerialize v = .ok arg) :
    ∃ args, kwargsToCallArgs noSerialize (before ++ (.str name, v) :: after) .empty = .ok args ∧
      args.inner name = some arg := by
  obtain ⟨args, hrun, -⟩ := kwargsToCallArgs_others hbefore ((.str name, v) :: after) .empty
  obtain ⟨args', hrest, hname⟩ := kwargsToCallArgs_others hafter [] (args.insert name arg)
  rw [List.append_nil] at hrest
  refine ⟨args', ?_, ?_⟩
  · rw [hrun]
    simp only [kwargsToCallArgs, harg, hrest]
  · rw [hname, CallArgs.insert]
    exact if_pos rfl

theorem kwargsToCallArgs_error (hbefore : Others noSerialize name before) {v : StarValue}
    {e : String} (he : valueToArg noSerialize v = .error e) :
    kwargsToCallArgs noSerialize (before ++ (.str name, v) :: after) .empty = .error e := by
  obtain ⟨args, hrun, -⟩ := kwargsToCallArgs_others hbefore ((.str name, v) :: after) .empty
  rw [hrun]
  simp only [kwargsToCallArgs, he]

/-- A handle and something else. -/
def Mixed (items : List StarValue) : Prop :=
  (∃ id, .handle id ∈ items) ∧ ∃ v ∈ items, ∀ id, v ≠ .handle id

/-- The call passes this value and its other arguments; `args` is what the primitive reads. -/
def Passes (noSerialize name : String) (before after : List (StarValue × StarValue))
    (v : StarValue) (args : CallArgs) : Prop :=
  kwargsToCallArgs noSerialize (before ++ (.str name, v) :: after) .empty = .ok args

/-- **Lists at the call boundary.**  Strings come back, handles come back and a mix is refused,
    exactly when the list of strings is not empty. -/
theorem lists_survive_iff (hbefore : Others noSerialize name before)
    (hafter : Others noSerialize name after) (xs : List String) (hs : List ResourceId)
    (items : List StarValue) :
    ((∃ args, Passes noSerialize name before after (.list (xs.map .str)) args ∧
        args.optionalStrList name = .ok (some xs)) ∧
      (∃ args, Passes noSerialize name before after (.list (hs.map .handle)) args ∧
        args.optionalHandleList name = .ok hs) ∧
      (Mixed items → ∀ args, ¬ Passes noSerialize name before after (.list items) args)) ↔
    xs ≠ [] := by
  constructor
  · rintro ⟨⟨args, hpasses, hread⟩, -, -⟩ rfl
    obtain ⟨args', hargs', hname⟩ := kwargsToCallArgs_ok hbefore hafter
      (show valueToArg noSerialize (.list []) = .ok (.handleList []) from rfl)
    obtain rfl : args = args' := Except.ok.inj (hpasses.symm.trans hargs')
    simp [CallArgs.optionalStrList, hname] at hread
  · intro hxs
    refine ⟨?_, ?_, ?_⟩
    · obtain ⟨x, xs, rfl⟩ := List.exists_cons_of_ne_nil hxs
      have hscan : allHandles ((x :: xs).map .str) = none := rfl
      have harg : valueToArg noSerialize (.list ((x :: xs).map .str)) =
          .ok (.other (.array ((x :: xs).map .string))) := by
        rw [valueToArg, hscan]
        simp only [valueToJson, itemsToJson_strs]
        rfl
      obtain ⟨args, hargs, hname⟩ := kwargsToCallArgs_ok hbefore hafter harg
      refine ⟨args, hargs, ?_⟩
      rw [CallArgs.optionalStrList, hname]
      simp only [strItems_strings]
      rfl
    · have harg : valueToArg noSerialize (.list (hs.map .handle)) = .ok (.handleList hs) := by
        rw [valueToArg, allHandles_handles]
      obtain ⟨args, hargs, hname⟩ := kwargsToCallArgs_ok hbefore hafter harg
      refine ⟨args, hargs, ?_⟩
      rw [CallArgs.optionalHandleList, hname]
    · rintro ⟨⟨id, hid⟩, v, hv, hother⟩ args hpasses
      obtain ⟨e, he⟩ := @itemsToJson_handle noSerialize _ _ hid
      have herror : valueToArg noSerialize (.list items) = .error e := by
        rw [valueToArg, allHandles_eq_none hv hother]
        simp only [valueToJson, he]
        rfl
      rw [Passes, kwargsToCallArgs_error hbefore herror] at hpasses
      cases hpasses

/-- `cert.tls(path = "/etc/web.pem", subject_alt_names = ["a"])` -/
theorem lists_survive_san :
    ∃ args, Passes "no" "subject_alt_names" [(.str "path", .str "/etc/web.pem")] []
        (.list [.str "a"]) args ∧
      args.optionalStrList "subject_alt_names" = .ok (some ["a"]) :=
  ((@lists_survive_iff "no" "subject_alt_names" [(.str "path", .str "/etc/web.pem")] []
    (by
      intro p hp
      obtain rfl := List.mem_singleton.mp hp
      exact ⟨"path", .str "/etc/web.pem", rfl, by decide, rfl⟩)
    (by
      intro p hp
      cases hp) ["a"] [] []).mpr (by decide)).1

/-- The empty list is taken for a list of handles and refused by the reader of strings. -/
theorem empty_list_refused :
    ∃ args, Passes "no" "subject_alt_names" [(.str "path", .str "/etc/web.pem")] [] (.list [])
        args ∧
      args.optionalStrList "subject_alt_names" =
        .error ⟨"subject_alt_names", "list[str]", "list[Handle]"⟩ :=
  ⟨_, rfl, rfl⟩

end Bosun
