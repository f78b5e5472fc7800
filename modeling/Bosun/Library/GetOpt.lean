import Mathlib.Algebra.Group.Nat.Defs
import Mathlib.Order.Lattice

/-!
# Command lines

What a program that reads its arguments with `getopt_long` makes of a list of words: options,
long and short, with a value or without, and operands, in any order.  A long name may be cut
short as long as one option only begins that way.

The caller of such a program builds a list of words and wants it read as it was meant.
`parse_render` is what it may rely on: an option with its value in the next word is read back
with that value, whatever the text; an operand is read back if it does not begin with a dash.
-/

namespace GetOpt

/-- An option a program knows. -/
structure Known where
  long : String
  short : Option Char
  takesValue : Bool
deriving DecidableEq

/-- The options of one program. -/
abbrev Table := List Known

inductive Failure
  | unknownOption (word : String)
  | ambiguousOption (word : String)
  | missingValue (option : String)
  | unexpectedValue (option : String)
deriving DecidableEq

/-- An option as it was given. -/
structure Item where
  option : String
  value : Option String
deriving DecidableEq

/-! ### One word -/

inductive Word
  | endOfOptions
  | operand (text : String)
  | long (name : String) (value : Option String)
  | short (cluster : List Char)
deriving DecidableEq

/-- `name` or `name=value` -/
def splitValue : List Char → List Char × Option (List Char)
  | [] => ([], none)
  | c :: cs => if c = '=' then ([], some cs) else (c :: (splitValue cs).1, (splitValue cs).2)

/-- What a word is; a lone dash is an operand. -/
def classify (word : String) : Word :=
  match word.toList with
  | ['-', '-'] => .endOfOptions
  | '-' :: '-' :: rest =>
    .long (String.ofList (splitValue rest).1) ((splitValue rest).2.map String.ofList)
  | '-' :: c :: cs => .short (c :: cs)
  | _ => .operand word

/-- An option by its long name: the option of that name, else the only one that begins so. -/
def Table.find (table : Table) (name : String) : Except Failure Known :=
  match List.find? (fun known => known.long = name) table with
  | some known => .ok known
  | none =>
    match List.filter (fun known => name.toList.isPrefixOf known.long.toList) table with
    | [known] => .ok known
    | [] => .error (.unknownOption name)
    | _ => .error (.ambiguousOption name)

/-- Short options that share a word, and the option that still waits for its value. -/
def Table.cluster (table : Table) : List Char → Except Failure (List Item × Option String)
  | [] => .ok ([], none)
  | c :: cs =>
    match List.find? (fun known => known.short = some c) table with
    | none => .error (.unknownOption (String.singleton c))
    | some known =>
      if known.takesValue then
        if cs = [] then .ok ([], some known.long)
        else .ok ([⟨known.long, some (String.ofList cs)⟩], none)
      else
        match Table.cluster table cs with
        | .error e => .error e
        | .ok (items, waiting) => .ok (⟨known.long, none⟩ :: items, waiting)

/-- What a word adds, and the option that takes the next word for its value. -/
def Table.long (table : Table) (name : String) (value : Option String) :
    Except Failure (List Item × Option String) :=
  match table.find name with
  | .error e => .error e
  | .ok known =>
    match known.takesValue, value with
    | true, some text => .ok ([⟨known.long, some text⟩], none)
    | true, none => .ok ([], some known.long)
    | false, none => .ok ([⟨known.long, none⟩], none)
    | false, some _ => .error (.unexpectedValue known.long)

/-! ### All words -/

/-- In front of what the other words come to. -/
def prepend (items : List Item) (operands : List String) :
    Except Failure (List Item × List String) → Except Failure (List Item × List String)
  | .error e => .error e
  | .ok (items', operands') => .ok (items ++ items', operands ++ operands')

/-- The options and the operands; the first argument is the option that waits for a value. -/
def parse (table : Table) : Option String → List String →
    Except Failure (List Item × List String)
  | none, [] => .ok ([], [])
  | some option, [] => .error (.missingValue option)
  | some option, word :: words => prepend [⟨option, some word⟩] [] (parse table none words)
  | none, word :: words =>
    match classify word with
    | .endOfOptions => .ok ([], words)
    | .operand text => prepend [] [text] (parse table none words)
    | .long name value =>
      match table.long name value with
      | .error e => .error e
      | .ok (items, waiting) => prepend items [] (parse table waiting words)
    | .short cluster =>
      match table.cluster cluster with
      | .error e => .error e
      | .ok (items, waiting) => prepend items [] (parse table waiting words)

/-! ### Words for an item -/

/-- The long option, and its value as a word of its own. -/
def Item.render (item : Item) : List String :=
  ("--" ++ item.option) :: item.value.toList

/-- The option is one of the table's, and comes with a value if it takes one. -/
structure Table.Takes (table : Table) (item : Item) : Prop where
  named : item.option ≠ ""
  plain : '=' ∉ item.option.toList
  known : ∃ known, table.find item.option = .ok known ∧ known.long = item.option ∧
    known.takesValue = item.value.isSome

/-- A word that can only be an operand. -/
def IsOperand (word : String) : Prop := word.toList.head? ≠ some '-'

theorem splitValue_plain {cs : List Char} (h : '=' ∉ cs) : splitValue cs = (cs, none) := by
  induction cs with
  | nil => rfl
  | cons c cs ih =>
    rw [List.mem_cons, not_or] at h
    rw [splitValue, if_neg (fun heq => h.1 heq.symm), ih h.2]

theorem classify_option {name : String} (hne : name ≠ "") (hplain : '=' ∉ name.toList) :
    classify ("--" ++ name) = .long name none := by
  have hword : ("--" ++ name).toList = '-' :: '-' :: name.toList := by simp [String.toList_append]
  obtain ⟨c, cs, hname⟩ : ∃ c cs, name.toList = c :: cs :=
    List.exists_cons_of_ne_nil fun h => hne (String.toList_inj.mp h)
  have hclassify : classify ("--" ++ name) =
      .long (String.ofList (splitValue (c :: cs)).1)
        ((splitValue (c :: cs)).2.map String.ofList) := by
    rw [classify, hword, hname]
    rfl
  rw [hclassify, ← hname, splitValue_plain hplain]
  simp

theorem classify_operand {word : String} (h : IsOperand word) : classify word = .operand word := by
  unfold IsOperand at h
  rw [classify]
  split <;> simp_all

/-- An item is read back from its words, whatever its value. -/
theorem parse_item {table : Table} {item : Item} (h : table.Takes item) (words : List String) :
    parse table none (item.render ++ words) = prepend [item] [] (parse table none words) := by
  obtain ⟨known, hfind, hlong, htakes⟩ := h.known
  obtain ⟨option, value⟩ := item
  rw [Item.render, List.cons_append, parse, classify_option h.named h.plain]
  cases value with
  | none =>
    have hlongs : table.long option none = .ok ([⟨option, none⟩], none) := by
      simp only [Option.isSome_none] at htakes
      simp only at hlong
      simp [Table.long, hfind, htakes, hlong]
    simp only [hlongs, Option.toList_none, List.nil_append]
  | some text =>
    have hlongs : table.long option none = .ok ([], some option) := by
      simp only [Option.isSome_some] at htakes
      simp only at hlong
      simp [Table.long, hfind, htakes, hlong]
    simp only [hlongs, Option.toList_some, List.cons_append, List.nil_append, parse]
    cases parse table none words <;> rfl

theorem parse_operands {table : Table} {operands : List String}
    (h : ∀ word ∈ operands, IsOperand word) : parse table none operands = .ok ([], operands) := by
  induction operands with
  | nil => rfl
  | cons word words ih =>
    rw [parse, classify_operand (h word (by simp))]
    simp only
    rw [ih fun w hw => h w (List.mem_cons_of_mem _ hw)]
    rfl

/-- **Round trip.**  Options that the table takes, in front of operands that do not begin with a
    dash, are read as they were meant. -/
theorem parse_render {table : Table} {items : List Item} {operands : List String}
    (hitems : ∀ item ∈ items, table.Takes item) (hoperands : ∀ word ∈ operands, IsOperand word) :
    parse table none (items.flatMap Item.render ++ operands) = .ok (items, operands) := by
  induction items with
  | nil => exact parse_operands hoperands
  | cons item items ih =>
    rw [List.flatMap_cons, List.append_assoc, parse_item (hitems item (by simp)),
      ih fun i hi => hitems i (List.mem_cons_of_mem _ hi)]
    rfl

/-- A value is never taken for an option, nor an option for a value. -/
example : parse [⟨"comment", some 'c', true⟩, ⟨"root", some 'R', true⟩] none
    ["--comment", "--root=/tmp", "app"] = .ok ([⟨"comment", some "--root=/tmp"⟩], ["app"]) := by
  decide +kernel

/-- A name that begins with a dash would be one. -/
example : parse [⟨"root", some 'R', true⟩] none ["-R/tmp"] =
    .ok ([⟨"root", some "/tmp"⟩], []) := by
  decide +kernel

end GetOpt
