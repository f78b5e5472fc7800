import Mathlib.Data.List.TakeWhile

/-!
# The text format of metrics

A file of metrics is read line by line: samples, each a name with labels and a value, and
comments, of which two kinds tell the help text and the type of a metric.  The lines about one
metric stand together, and no two samples of a file have the same name and labels.

`read_render` is the round trip for whoever writes such a file: it is read back line by line if
the names are names and the values words, whatever stands in the values of the labels.
-/

namespace Exposition

structure Sample where
  name : String
  labels : List (String × String)
  value : String
  timestamp : Option String
deriving DecidableEq

inductive Line
  | blank
  | comment
  | help (metric text : String)
  | type (metric kind : String)
  | sample (s : Sample)
deriving DecidableEq

/-! ### Characters and words -/

def isBlank (c : Char) : Bool := c = ' ' || c = '\t'

def notBlank (c : Char) : Bool := !isBlank c

def isLabelChar (c : Char) : Bool := c.isAlphanum || c = '_'

def isNameChar (c : Char) : Bool := isLabelChar c || c = ':'

def skipBlanks (cs : List Char) : List Char := cs.dropWhile isBlank

/-- What stands between blanks. -/
def words (cs : List Char) : List (List Char) := (cs.splitOnP isBlank).filter (· ≠ [])

/-- A name, and what follows on it. -/
def readName (ok : Char → Bool) (cs : List Char) : Option (List Char × List Char) :=
  match cs with
  | [] => none
  | c :: _ =>
    if c.isDigit || !ok c then none else some (cs.takeWhile ok, cs.dropWhile ok)

/-! ### Samples -/

/-- The value of a label, from its first quote on. -/
def readQuoted : List Char → Option (List Char × List Char)
  | [] => none
  | '"' :: rest => some ([], rest)
  | '\\' :: '\\' :: rest => (readQuoted rest).map fun r => ('\\' :: r.1, r.2)
  | '\\' :: '"' :: rest => (readQuoted rest).map fun r => ('"' :: r.1, r.2)
  | '\\' :: 'n' :: rest => (readQuoted rest).map fun r => ('\n' :: r.1, r.2)
  | '\\' :: _ => none
  | c :: rest => (readQuoted rest).map fun r => (c :: r.1, r.2)

/-- A label with its value. -/
def readLabel (cs : List Char) : Option ((String × String) × List Char) :=
  match readName isLabelChar cs with
  | none => none
  | some (name, rest) =>
    match skipBlanks rest with
    | '=' :: rest =>
      match skipBlanks rest with
      | '"' :: rest =>
        (readQuoted rest).map fun r => ((String.ofList name, String.ofList r.1), r.2)
      | _ => none
    | _ => none

/-- At most `fuel` labels; a comma may stand behind the last. -/
def readLabels : Nat → List Char → Option (List (String × String) × List Char)
  | 0, _ => none
  | fuel + 1, cs =>
    match skipBlanks cs with
    | '}' :: rest => some ([], rest)
    | cs =>
      match readLabel cs with
      | none => none
      | some (label, rest) =>
        match skipBlanks rest with
        | ',' :: rest => (readLabels fuel rest).map fun r => (label :: r.1, r.2)
        | '}' :: rest => some ([label], rest)
        | _ => none

/-- The value and the timestamp, which may be missing. -/
def readValue (name : String) (labels : List (String × String)) (cs : List Char) : Option Sample :=
  match words cs with
  | [value] => some ⟨name, labels, String.ofList value, none⟩
  | [value, timestamp] => some ⟨name, labels, String.ofList value, some (String.ofList timestamp)⟩
  | _ => none

def readSample (cs : List Char) : Option Sample :=
  match readName isNameChar cs with
  | none => none
  | some (name, rest) =>
    match skipBlanks rest with
    | '{' :: rest =>
      match readLabels (rest.length + 1) rest with
      | none => none
      | some (labels, rest) => readValue (String.ofList name) labels rest
    | rest => readValue (String.ofList name) [] rest

/-! ### Lines -/

def readHelpText : List Char → List Char
  | '\\' :: '\\' :: rest => '\\' :: readHelpText rest
  | '\\' :: 'n' :: rest => '\n' :: readHelpText rest
  | c :: rest => c :: readHelpText rest
  | [] => []

/-- What follows on `#`. -/
def readComment (cs : List Char) : Option Line :=
  let keyword := cs.takeWhile notBlank
  let rest := skipBlanks (cs.dropWhile notBlank)
  if keyword = "HELP".toList then
    (readName isNameChar rest).map fun r =>
      .help (String.ofList r.1) (String.ofList (readHelpText (skipBlanks r.2)))
  else if keyword = "TYPE".toList then
    match readName isNameChar rest with
    | none => none
    | some (name, rest) =>
      match words rest with
      | [kind] => some (.type (String.ofList name) (String.ofList kind))
      | _ => none
  else some .comment

def readLine (cs : List Char) : Option Line :=
  match skipBlanks cs with
  | [] => some .blank
  | '#' :: rest => readComment (skipBlanks rest)
  | cs => (readSample cs).map .sample

def readLines : List (List Char) → Option (List Line)
  | [] => none
  | [last] => if last = [] then some [] else none
  | line :: rest =>
    match readLine line with
    | none => none
    | some line => (readLines rest).map (line :: ·)

/-- A file; its last line has to be ended. -/
def read (text : String) : Option (List Line) := readLines (text.toList.splitOn '\n')

/-! ## Writing -/

def escapeChar (c : Char) : List Char :=
  if c = '\\' then ['\\', '\\'] else if c = '"' then ['\\', '"']
  else if c = '\n' then ['\\', 'n'] else [c]

def escape (s : String) : String := String.ofList (s.toList.flatMap escapeChar)

def Sample.renderLabels : List (String × String) → String
  | [] => ""
  | [(name, value)] => name ++ "=\"" ++ escape value ++ "\""
  | (name, value) :: rest => name ++ "=\"" ++ escape value ++ "\"," ++ renderLabels rest

/-- The labels of a sample in braces, if there are any. -/
def Sample.labelsText (labels : List (String × String)) : String :=
  if labels = [] then "" else "\x7b" ++ renderLabels labels ++ "\x7d"

def Sample.render (s : Sample) : String :=
  s.name ++ labelsText s.labels ++ " " ++ s.value ++ (s.timestamp.map (" " ++ ·)).getD ""

def Line.render : Line → String
  | blank => ""
  | comment => "#"
  | help metric text => "# HELP " ++ metric ++ " " ++ text
  | type metric kind => "# TYPE " ++ metric ++ " " ++ kind
  | sample s => s.render

def render (lines : List Line) : String := String.join (lines.map fun line => line.render ++ "\n")

/-! ## Reading what was written -/

def isName (ok : Char → Bool) (s : String) : Bool :=
  match s.toList with
  | [] => false
  | c :: cs => !c.isDigit && (c :: cs).all ok

/-- Numbers and types are made of these. -/
def isWordChar (c : Char) : Bool := isLabelChar c || c = '.' || c = '+' || c = '-'

def isWord (s : String) : Bool := s ≠ "" && s.toList.all isWordChar

/-- A help text that needs no escapes. -/
def isHelpText (s : String) : Bool :=
  match s.toList with
  | [] => false
  | c :: cs => !isBlank c && (c :: cs).all fun c => c ≠ '\\' && c ≠ '\n'

def Sample.plain (s : Sample) : Bool :=
  isName isNameChar s.name && s.labels.all (fun l => isName isLabelChar l.1) && isWord s.value &&
    s.timestamp.all isWord

/-- What the writer has to see to: the values of the labels may be any texts. -/
def Line.plain : Line → Bool
  | blank | comment => true
  | help metric text => isName isNameChar metric && isHelpText text
  | type metric kind => isName isNameChar metric && isWord kind
  | sample s => s.plain

section Words

theorem isLabelChar_not_blank {c : Char} (h : isLabelChar c = true) : isBlank c = false := by
  cases hblank : isBlank c with
  | false => rfl
  | true =>
    have hc : c = ' ' ∨ c = '\t' := by simpa [isBlank] using hblank
    rcases hc with rfl | rfl
    · exact absurd h (by decide)
    · exact absurd h (by decide)

theorem isNameChar_not_blank {c : Char} (h : isNameChar c = true) : isBlank c = false := by
  rcases Bool.or_eq_true_iff.mp h with h | h
  · exact isLabelChar_not_blank h
  · obtain rfl : c = ':' := by simpa using h
    decide

theorem skipBlanks_cons {c : Char} {cs : List Char} (h : isBlank c = false) :
    skipBlanks (c :: cs) = c :: cs :=
  List.dropWhile_cons_of_neg (by simp [h])

theorem skipBlanks_space (cs : List Char) : skipBlanks (' ' :: cs) = skipBlanks cs :=
  List.dropWhile_cons_of_pos (by decide)

variable {ok : Char → Bool} {s : String} {rest : List Char}

theorem isName_iff : isName ok s = true ↔
    ∃ c cs, s.toList = c :: cs ∧ c.isDigit = false ∧ ∀ d ∈ c :: cs, ok d = true := by
  unfold isName
  split
  · rename_i hnil
    simp [hnil]
  · rename_i c cs hcons
    rw [hcons, Bool.and_eq_true, Bool.not_eq_true', List.all_eq_true]
    constructor
    · exact fun h => ⟨c, cs, rfl, h⟩
    · rintro ⟨c', cs', heq, h⟩
      obtain ⟨rfl, rfl⟩ := List.cons.inj heq
      exact h

/-- The name ends where a character does not belong to it. -/
theorem readName_append (hname : isName ok s = true) {d : Char} (hd : ok d = false) :
    readName ok (s.toList ++ d :: rest) = some (s.toList, d :: rest) := by
  obtain ⟨c, cs, hs, hdigit, hok⟩ := isName_iff.mp hname
  have hc : ok c = true := hok c List.mem_cons_self
  have hread : readName ok (s.toList ++ d :: rest) = some ((s.toList ++ d :: rest).takeWhile ok,
      (s.toList ++ d :: rest).dropWhile ok) := by
    simp only [hs, List.cons_append, readName, hdigit, hc, Bool.not_true, Bool.or_self,
      Bool.false_eq_true, if_false]
  have hstop : ¬ ok d = true := by simp [hd]
  rw [hread, List.takeWhile_append_of_pos (hs ▸ hok), List.dropWhile_append_of_pos (hs ▸ hok),
    List.takeWhile_cons_of_neg hstop, List.dropWhile_cons_of_neg hstop, List.append_nil]

theorem isWordChar_not_blank {c : Char} (h : isWordChar c = true) : isBlank c = false := by
  have hc : ((isLabelChar c = true ∨ c = '.') ∨ c = '+') ∨ c = '-' := by simpa [isWordChar] using h
  rcases hc with ((hc | rfl) | rfl) | rfl
  · exact isLabelChar_not_blank hc
  · decide
  · decide
  · decide

theorem isWord_iff : isWord s = true ↔ s.toList ≠ [] ∧ ∀ c ∈ s.toList, isWordChar c = true := by
  simp [isWord]

theorem words_space (cs : List Char) : words (' ' :: cs) = words cs := by
  have hsplit : (' ' :: cs).splitOnP isBlank = [].splitOnP isBlank ++ cs.splitOnP isBlank :=
    List.splitOnP_append_cons [] cs (by decide)
  rw [words, hsplit, List.filter_append]
  rfl

theorem words_word (h : isWord s = true) : words s.toList = [s.toList] := by
  obtain ⟨hne, hall⟩ := isWord_iff.mp h
  rw [words, List.splitOnP_eq_singleton fun c hc => isWordChar_not_blank (hall c hc)]
  simp [hne]

theorem words_append (h : isWord s = true) (cs : List Char) :
    words (s.toList ++ ' ' :: cs) = s.toList :: words cs := by
  rw [words, List.splitOnP_append_cons _ cs (by decide), List.filter_append]
  exact congrArg (· ++ words cs) (words_word h)

end Words

section Labels

variable {rest : List Char}

theorem readQuoted_escape (cs rest : List Char) :
    readQuoted (cs.flatMap escapeChar ++ '"' :: rest) = some (cs, rest) := by
  induction cs with
  | nil => rfl
  | cons c cs ih =>
    rw [List.flatMap_cons, List.append_assoc]
    by_cases hslash : c = '\\'
    · subst hslash
      simp [escapeChar, readQuoted, ih]
    by_cases hquote : c = '"'
    · subst hquote
      simp [escapeChar, readQuoted, ih]
    by_cases hline : c = '\n'
    · subst hline
      simp [escapeChar, readQuoted, ih]
    simp [escapeChar, hslash, hquote, hline, readQuoted, ih]

theorem readLabel_render {name : String} (hname : isName isLabelChar name = true)
    (value : String) (rest : List Char) :
    readLabel ((name ++ "=\"" ++ escape value ++ "\"").toList ++ rest) =
      some ((name, value), rest) := by
  have htext : (name ++ "=\"" ++ escape value ++ "\"").toList ++ rest =
      name.toList ++ '=' :: '"' :: (value.toList.flatMap escapeChar ++ '"' :: rest) := by
    simp [escape]
  rw [htext, readLabel, readName_append hname (by decide)]
  simp only [skipBlanks_cons (show isBlank '=' = false by decide),
    skipBlanks_cons (show isBlank '"' = false by decide), readQuoted_escape, Option.map_some,
    String.ofList_toList]

section Steps

variable {fuel : Nat} {c : Char} {cs : List Char} {label : String × String}

theorem readLabels_comma (hc : isLabelChar c = true)
    (hlabel : readLabel (c :: cs) = some (label, ',' :: rest)) :
    readLabels (fuel + 1) (c :: cs) =
      (readLabels fuel rest).map fun r => (label :: r.1, r.2) := by
  rw [readLabels, skipBlanks_cons (isLabelChar_not_blank hc)]
  split
  · rename_i heq
    obtain ⟨rfl, -⟩ := List.cons.inj heq
    exact absurd hc (by decide)
  · rw [hlabel]
    simp only [skipBlanks_cons (show isBlank ',' = false by decide)]

theorem readLabels_brace (hc : isLabelChar c = true)
    (hlabel : readLabel (c :: cs) = some (label, '}' :: rest)) :
    readLabels (fuel + 1) (c :: cs) = some ([label], rest) := by
  rw [readLabels, skipBlanks_cons (isLabelChar_not_blank hc)]
  split
  · rename_i heq
    obtain ⟨rfl, -⟩ := List.cons.inj heq
    exact absurd hc (by decide)
  · rw [hlabel]
    simp only [skipBlanks_cons (show isBlank '}' = false by decide)]

end Steps

/-- The labels, up to the brace behind them. -/
theorem readLabels_render {labels : List (String × String)}
    (hnames : ∀ l ∈ labels, isName isLabelChar l.1 = true) (hne : labels ≠ []) {fuel : Nat}
    (hfuel : labels.length ≤ fuel) (rest : List Char) :
    readLabels fuel ((Sample.renderLabels labels).toList ++ '}' :: rest) =
      some (labels, rest) := by
  induction labels generalizing fuel with
  | nil => exact absurd rfl hne
  | cons label labels ih =>
    obtain ⟨name, value⟩ := label
    obtain ⟨hname, hnames⟩ := List.forall_mem_cons.mp hnames
    obtain ⟨fuel, rfl⟩ := Nat.exists_eq_add_one_of_ne_zero (Nat.ne_of_gt (Nat.lt_of_lt_of_le
      (Nat.succ_pos labels.length) hfuel))
    obtain ⟨c, cs, hcs, -, hok⟩ := isName_iff.mp hname
    have hc : isLabelChar c = true := hok c List.mem_cons_self
    -- the text of the label begins with the first character of its name
    have hlabel : ∀ after, ∃ text, (name ++ "=\"" ++ escape value ++ "\"").toList ++ after =
        c :: text ∧ readLabel (c :: text) = some ((name, value), after) := by
      intro after
      have hread := readLabel_render hname value after
      simp only [String.toList_append, hcs, List.cons_append] at hread ⊢
      exact ⟨_, rfl, hread⟩
    cases labels with
    | nil =>
      obtain ⟨text, htext, hread⟩ := hlabel ('}' :: rest)
      have hrender : (Sample.renderLabels [(name, value)]).toList ++ '}' :: rest = c :: text :=
        htext
      rw [hrender, readLabels_brace hc hread]
    | cons next labels =>
      obtain ⟨text, htext, hread⟩ :=
        hlabel (',' :: ((Sample.renderLabels (next :: labels)).toList ++ '}' :: rest))
      have hrender : (Sample.renderLabels ((name, value) :: next :: labels)).toList ++
          '}' :: rest = c :: text := by
        rw [← htext]
        simp [Sample.renderLabels]
      have hrest := ih hnames (List.cons_ne_nil next labels) (Nat.le_of_succ_le_succ hfuel)
      rw [hrender, readLabels_comma hc hread, hrest]
      rfl

end Labels

section Lines

theorem readValue_render (s : Sample) (h : s.plain = true) :
    readValue s.name s.labels (" " ++ s.value ++ (s.timestamp.map (" " ++ ·)).getD "").toList =
      some s := by
  obtain ⟨name, labels, value, timestamp⟩ := s
  simp only [Sample.plain, Bool.and_eq_true] at h
  obtain ⟨⟨-, hvalue⟩, htimestamp⟩ := h
  cases timestamp with
  | none =>
    have htext : (" " ++ value ++ "").toList = ' ' :: value.toList := by simp
    simp only [readValue, Option.map_none, Option.getD_none, htext, words_space, words_word hvalue,
      String.ofList_toList]
  | some timestamp =>
    have htext : (" " ++ value ++ (" " ++ timestamp)).toList =
        ' ' :: (value.toList ++ ' ' :: timestamp.toList) := by simp
    have htime : isWord timestamp = true := htimestamp
    simp only [readValue, Option.map_some, Option.getD_some, htext, words_space,
      words_append hvalue, words_word htime, String.ofList_toList]

theorem readValue_space (name : String) (labels : List (String × String)) (cs : List Char) :
    readValue name labels (' ' :: cs) = readValue name labels cs := by
  rw [readValue, words_space, readValue]

theorem render_eq (s : Sample) : s.render.toList = s.name.toList ++
    ((Sample.labelsText s.labels).toList ++
      (" " ++ s.value ++ (s.timestamp.map (" " ++ ·)).getD "").toList) := by
  simp only [Sample.render, String.toList_append, List.append_assoc]

theorem length_le_renderLabels (labels : List (String × String)) :
    labels.length ≤ (Sample.renderLabels labels).toList.length := by
  induction labels using Sample.renderLabels.induct with
  | case1 => exact Nat.zero_le _
  | case2 name value =>
    simp only [Sample.renderLabels, String.toList_append, List.length_append, List.length_cons]
    have hquote : "\"".toList.length = 1 := rfl
    simp only [List.length_nil]
    omega
  | case3 name value rest hrest ih =>
    rw [Sample.renderLabels]
    · simp only [String.toList_append, List.length_append, List.length_cons]
      simp only [String.length_toList] at ih ⊢
      have hcomma : "\",".length = 2 := rfl
      omega
    · exact hrest

theorem readSample_render (s : Sample) (h : s.plain = true) :
    readSample s.render.toList = some s := by
  have hvalue := readValue_render s h
  rw [render_eq]
  obtain ⟨name, labels, value, timestamp⟩ := s
  simp only [Sample.plain, Bool.and_eq_true, List.all_eq_true] at h
  obtain ⟨⟨⟨hname, hlabels⟩, hword⟩, -⟩ := h
  obtain ⟨hne, hall⟩ := isWord_iff.mp hword
  obtain ⟨c, cs, hcs⟩ := List.exists_cons_of_ne_nil hne
  have hc : isWordChar c = true := hall c (hcs ▸ List.mem_cons_self)
  -- behind name and labels there is a blank and then the value
  obtain ⟨text, htext⟩ : ∃ text, (" " ++ value ++ (timestamp.map (" " ++ ·)).getD "").toList =
      ' ' :: c :: text := by
    simp only [String.toList_append, hcs]
    exact ⟨_, rfl⟩
  simp only [htext] at hvalue ⊢
  by_cases hnil : labels = []
  · subst hnil
    rw [Sample.labelsText, if_pos rfl, String.toList_empty, List.nil_append, readSample,
      readName_append hname (by decide)]
    simp only [skipBlanks_space, skipBlanks_cons (isWordChar_not_blank hc), String.ofList_toList]
    rw [readValue_space] at hvalue
    split
    · rename_i heq
      obtain ⟨rfl, -⟩ := List.cons.inj heq
      exact absurd hc (by decide)
    · exact hvalue
  · have hbraces : ("\x7b" ++ Sample.renderLabels labels ++ "\x7d").toList ++ ' ' :: c :: text =
        '{' :: ((Sample.renderLabels labels).toList ++ '}' :: ' ' :: c :: text) := by simp
    rw [Sample.labelsText, if_neg hnil, hbraces, readSample, readName_append hname (by decide)]
    have hlength : labels.length ≤
        ((Sample.renderLabels labels).toList ++ '}' :: ' ' :: c :: text).length + 1 := by
      have hle := length_le_renderLabels labels
      rw [List.length_append]
      omega
    simp only [skipBlanks_cons (show isBlank '{' = false by decide),
      readLabels_render hlabels hnil hlength, String.ofList_toList, hvalue]

theorem readHelpText_plain {cs : List Char} (h : '\\' ∉ cs) : readHelpText cs = cs := by
  induction cs with
  | nil => rfl
  | cons c cs ih =>
    have hc : c ≠ '\\' := fun heq => h (heq ▸ List.mem_cons_self)
    have hcs : '\\' ∉ cs := fun hmem => h (List.mem_cons_of_mem c hmem)
    simp [readHelpText, hc, ih hcs]

/-- The first word of a comment. -/
theorem keyword_append {cs : List Char} (h : ∀ c ∈ cs, notBlank c = true) (rest : List Char) :
    (cs ++ ' ' :: rest).takeWhile notBlank = cs ∧
      skipBlanks ((cs ++ ' ' :: rest).dropWhile notBlank) = skipBlanks rest := by
  have hspace : ¬ notBlank ' ' = true := by decide
  rw [List.takeWhile_append_of_pos h, List.dropWhile_append_of_pos h,
    List.takeWhile_cons_of_neg hspace, List.dropWhile_cons_of_neg hspace, List.append_nil,
    skipBlanks_space]
  exact ⟨rfl, rfl⟩

theorem skipBlanks_name {s : String} (h : isName isNameChar s = true) (rest : List Char) :
    skipBlanks (s.toList ++ rest) = s.toList ++ rest := by
  obtain ⟨c, cs, hcs, -, hok⟩ := isName_iff.mp h
  rw [hcs, List.cons_append, skipBlanks_cons (isNameChar_not_blank (hok c List.mem_cons_self))]

/-- A sample begins with its name. -/
theorem render_head (s : Sample) (h : s.plain = true) :
    ∃ c cs, s.render.toList = c :: cs ∧ isNameChar c = true := by
  simp only [Sample.plain, Bool.and_eq_true] at h
  obtain ⟨c, cs, hcs, -, hok⟩ := isName_iff.mp h.1.1.1
  rw [render_eq, hcs]
  exact ⟨c, _, rfl, hok c List.mem_cons_self⟩

theorem isHelpText_iff {s : String} : isHelpText s = true ↔
    ∃ c cs, s.toList = c :: cs ∧ isBlank c = false ∧ ∀ d ∈ s.toList, d ≠ '\\' ∧ d ≠ '\n' := by
  unfold isHelpText
  split
  · rename_i hnil
    simp [hnil]
  · rename_i c cs hcons
    rw [hcons, Bool.and_eq_true, Bool.not_eq_true', List.all_eq_true]
    simp only [Bool.and_eq_true, decide_eq_true_eq]
    constructor
    · exact fun h => ⟨c, cs, rfl, h⟩
    · rintro ⟨c', cs', heq, h⟩
      obtain ⟨rfl, rfl⟩ := List.cons.inj heq
      exact h

theorem readComment_help {metric text : String} (hmetric : isName isNameChar metric = true)
    (htext : isHelpText text = true) :
    readComment ("HELP".toList ++ ' ' :: (metric.toList ++ ' ' :: text.toList)) =
      some (.help metric text) := by
  have hword : ∀ c ∈ "HELP".toList, notBlank c = true := List.all_eq_true.mp (by decide)
  obtain ⟨hkeyword, hrest⟩ := keyword_append hword
    (metric.toList ++ ' ' :: text.toList)
  obtain ⟨c, cs, hcs, hc, hplain⟩ := isHelpText_iff.mp htext
  have hskip : skipBlanks (' ' :: text.toList) = text.toList := by
    rw [skipBlanks_space, hcs, skipBlanks_cons hc]
  have hhelp : readHelpText text.toList = text.toList :=
    readHelpText_plain fun hmem => (hplain _ hmem).1 rfl
  simp only [readComment, hkeyword, hrest, if_true, skipBlanks_name hmetric,
    readName_append hmetric (show isNameChar ' ' = false by decide), Option.map_some, hskip, hhelp,
    String.ofList_toList]

theorem readComment_type {metric kind : String} (hmetric : isName isNameChar metric = true)
    (hkind : isWord kind = true) :
    readComment ("TYPE".toList ++ ' ' :: (metric.toList ++ ' ' :: kind.toList)) =
      some (.type metric kind) := by
  have hword : ∀ c ∈ "TYPE".toList, notBlank c = true := List.all_eq_true.mp (by decide)
  obtain ⟨hkeyword, hrest⟩ := keyword_append hword
    (metric.toList ++ ' ' :: kind.toList)
  simp only [readComment, hkeyword, hrest, if_true, skipBlanks_name hmetric,
    readName_append hmetric (show isNameChar ' ' = false by decide), words_space,
    words_word hkind, String.ofList_toList, show "TYPE".toList ≠ "HELP".toList by decide, if_false]

theorem readLine_render (line : Line) (h : line.plain = true) :
    readLine line.render.toList = some line := by
  cases line with
  | blank => rfl
  | comment => rfl
  | help metric text =>
    obtain ⟨hmetric, htext⟩ := Bool.and_eq_true_iff.mp h
    have hrender : (Line.help metric text).render.toList =
        '#' :: ' ' :: ("HELP".toList ++ ' ' :: (metric.toList ++ ' ' :: text.toList)) := by
      simp [Line.render]
    rw [hrender, readLine, skipBlanks_cons (by decide)]
    exact readComment_help hmetric htext
  | type metric kind =>
    obtain ⟨hmetric, hkind⟩ := Bool.and_eq_true_iff.mp h
    have hrender : (Line.type metric kind).render.toList =
        '#' :: ' ' :: ("TYPE".toList ++ ' ' :: (metric.toList ++ ' ' :: kind.toList)) := by
      simp [Line.render]
    rw [hrender, readLine, skipBlanks_cons (by decide)]
    exact readComment_type hmetric hkind
  | sample s =>
    obtain ⟨c, cs, hcs, hc⟩ := render_head s h
    have hhash : c ≠ '#' := by
      rintro rfl
      exact absurd hc (by decide)
    have hsample := readSample_render s h
    have hrender : (Line.sample s).render.toList = c :: cs := hcs
    rw [hrender, readLine, skipBlanks_cons (isNameChar_not_blank hc)]
    split
    · rename_i hnil
      cases hnil
    · rename_i hcons
      exact absurd (List.cons.inj hcons).1 hhash
    · rw [← hcs, hsample]
      rfl

/-! ### No line is broken -/

theorem newline_notMem_escape (s : String) : '\n' ∉ (escape s).toList := by
  have hchar : ∀ c, '\n' ∉ escapeChar c := by
    intro c
    unfold escapeChar
    split
    · decide
    · split
      · decide
      · split
        · decide
        · rename_i hline
          exact fun hmem => hline (List.mem_singleton.mp hmem).symm
  intro hmem
  rw [escape, String.toList_ofList, List.mem_flatMap] at hmem
  obtain ⟨c, -, hc⟩ := hmem
  exact hchar c hc

theorem newline_notMem_name {ok : Char → Bool} (hok : ok '\n' = false) {s : String}
    (h : isName ok s = true) : '\n' ∉ s.toList := by
  obtain ⟨c, cs, hcs, -, hall⟩ := isName_iff.mp h
  intro hmem
  have hline := hall '\n' (hcs ▸ hmem)
  rw [hok] at hline
  cases hline

theorem newline_notMem_word {s : String} (h : isWord s = true) : '\n' ∉ s.toList :=
  fun hmem => absurd ((isWord_iff.mp h).2 '\n' hmem) (by decide)

theorem newline_notMem_renderLabels {labels : List (String × String)}
    (hnames : ∀ l ∈ labels, isName isLabelChar l.1 = true) :
    '\n' ∉ (Sample.renderLabels labels).toList := by
  induction labels using Sample.renderLabels.induct with
  | case1 => exact List.not_mem_nil
  | case2 name value =>
    have hname := newline_notMem_name (by decide) (hnames _ List.mem_cons_self)
    simp [Sample.renderLabels, hname, newline_notMem_escape]
  | case3 name value rest hrest ih =>
    have hname := newline_notMem_name (by decide) (hnames _ List.mem_cons_self)
    have hlater := ih fun l hl => hnames l (List.mem_cons_of_mem _ hl)
    rw [Sample.renderLabels]
    · simp [hname, newline_notMem_escape, hlater]
    · exact hrest

theorem newline_notMem_render (line : Line) (h : line.plain = true) :
    '\n' ∉ line.render.toList := by
  cases line with
  | blank => exact List.not_mem_nil
  | comment => decide
  | help metric text =>
    obtain ⟨hmetric, htext⟩ := Bool.and_eq_true_iff.mp h
    obtain ⟨c, cs, -, -, hplain⟩ := isHelpText_iff.mp htext
    have htext : '\n' ∉ text.toList := fun hmem => (hplain _ hmem).2 rfl
    simp [Line.render, newline_notMem_name (show isNameChar '\n' = false by decide) hmetric, htext]
  | type metric kind =>
    obtain ⟨hmetric, hkind⟩ := Bool.and_eq_true_iff.mp h
    simp [Line.render, newline_notMem_name (show isNameChar '\n' = false by decide) hmetric,
      newline_notMem_word hkind]
  | sample s =>
    obtain ⟨name, labels, value, timestamp⟩ := s
    simp only [Line.plain, Sample.plain, Bool.and_eq_true, List.all_eq_true] at h
    obtain ⟨⟨⟨hname, hlabels⟩, hvalue⟩, htimestamp⟩ := h
    have hname := newline_notMem_name (show isNameChar '\n' = false by decide) hname
    have hvalue := newline_notMem_word hvalue
    have htimestamp : '\n' ∉ ((timestamp.map (" " ++ ·)).getD "").toList := by
      cases timestamp with
      | none => exact List.not_mem_nil
      | some timestamp =>
        have htime := newline_notMem_word (show isWord timestamp = true from htimestamp)
        simp [htime]
    have hbraces : '\n' ∉ (Sample.labelsText labels).toList := by
      unfold Sample.labelsText
      split
      · exact List.not_mem_nil
      · simp [newline_notMem_renderLabels hlabels]
    rw [Line.render, render_eq]
    simp [hname, hvalue, htimestamp, hbraces]

/-! ### Files -/

theorem readLines_render (lines : List Line) (h : ∀ line ∈ lines, line.plain = true) :
    readLines ((lines.flatMap fun line => line.render.toList ++ ['\n']).splitOn '\n') =
      some lines := by
  induction lines with
  | nil => rfl
  | cons line lines ih =>
    obtain ⟨hline, hlines⟩ := List.forall_mem_cons.mp h
    rw [List.flatMap_cons, List.append_assoc, List.singleton_append,
      List.splitOn_append_cons_self_of_not_mem (newline_notMem_render line hline)]
    have ih := ih hlines
    obtain ⟨next, rest, hrest⟩ := List.exists_cons_of_ne_nil (List.splitOn_ne_nil '\n'
      (lines.flatMap fun line => line.render.toList ++ ['\n']))
    rw [hrest] at ih ⊢
    simp only [readLines, readLine_render line hline]
    rw [ih]
    rfl

/-- **The round trip.** -/
theorem read_render (lines : List Line) (h : ∀ line ∈ lines, line.plain = true) :
    read (render lines) = some lines := by
  have htext : (render lines).toList =
      lines.flatMap fun line => line.render.toList ++ ['\n'] := by
    simp [render, String.toList_join, List.flatMap_map]
  rw [read, htext]
  exact readLines_render lines h

end Lines

/-! ## Families -/

/-- A metric with its samples, each the values of its labels and a value. -/
structure Family where
  metric : String
  help : String
  kind : String
  samples : List (List (String × String) × String)
deriving DecidableEq

def Family.sample (f : Family) (s : List (String × String) × String) : Line :=
  .sample ⟨f.metric, s.1, s.2, none⟩

def Family.lines (f : Family) : List Line :=
  .help f.metric f.help :: .type f.metric f.kind :: f.samples.map f.sample

/-- A family that can be written. -/
structure Family.Plain (f : Family) : Prop where
  metric : isName isNameChar f.metric = true
  help : isHelpText f.help = true
  kind : isWord f.kind = true
  samples : ∀ s ∈ f.samples, s.1.all (fun l => isName isLabelChar l.1) = true ∧ isWord s.2 = true

theorem Family.Plain.lines {f : Family} (h : f.Plain) :
    ∀ line ∈ f.lines, line.plain = true := by
  refine List.forall_mem_cons.mpr ⟨by simp [Line.plain, h.metric, h.help],
    List.forall_mem_cons.mpr ⟨by simp [Line.plain, h.metric, h.kind], ?_⟩⟩
  intro line hline
  obtain ⟨s, hs, rfl⟩ := List.mem_map.mp hline
  obtain ⟨hlabels, hvalue⟩ := h.samples s hs
  show Sample.plain ⟨f.metric, s.1, s.2, none⟩ = true
  rw [Sample.plain, h.metric, hlabels, hvalue]
  rfl

theorem Family.filter_lines (f : Family) : f.lines.filter (· ≠ .blank) = f.lines := by
  refine List.filter_eq_self.mpr fun line hline => decide_eq_true ?_
  rintro rfl
  obtain ⟨s, -, hs⟩ : ∃ s ∈ f.samples, f.sample s = .blank := by simpa [lines] using hline
  cases hs

/-- A file is these families one after another, as readers demand it: no metric has two groups
    of lines, and no sample is there twice. -/
structure Holds (lines : List Line) (families : List Family) : Prop where
  lines : lines.filter (· ≠ .blank) = families.flatMap Family.lines
  metrics : (families.map Family.metric).Nodup
  samples : ∀ f ∈ families, (f.samples.map Prod.fst).Nodup

/-- The samples of one metric. -/
def Line.sampleOf (metric : String) : Line → Option (List (String × String) × String)
  | sample s => if s.name = metric then some (s.labels, s.value) else none
  | blank | comment | help .. | type .. => none

def samplesOf (metric : String) (lines : List Line) : List (List (String × String) × String) :=
  lines.filterMap (Line.sampleOf metric)

section SamplesOf

variable {metric : String} {lines : List Line} {families : List Family}

theorem samplesOf_lines (f : Family) :
    samplesOf metric f.lines = if f.metric = metric then f.samples else [] := by
  have htail : samplesOf metric f.lines = f.samples.filterMap fun s =>
      if f.metric = metric then some s else none := by
    rw [samplesOf, Family.lines, List.filterMap_cons_none rfl, List.filterMap_cons_none rfl,
      List.filterMap_map]
    rfl
  rw [htail]
  split
  · exact List.filterMap_some
  · exact List.filterMap_eq_nil_iff.mpr fun _ _ => rfl

/-- Empty lines do not matter. -/
theorem samplesOf_families (hlines : lines.filter (· ≠ .blank) = families.flatMap Family.lines) :
    samplesOf metric lines =
      families.flatMap fun f => if f.metric = metric then f.samples else [] := by
  have hfilter : samplesOf metric lines = samplesOf metric (lines.filter (· ≠ .blank)) := by
    rw [samplesOf, samplesOf, List.filterMap_filter]
    congr 1
    funext line
    cases line <;> rfl
  rw [hfilter, hlines, samplesOf, List.filterMap_flatMap]
  congr 1
  funext f
  exact samplesOf_lines f

theorem samplesOf_of_notMem (hlines : lines.filter (· ≠ .blank) = families.flatMap Family.lines)
    (h : metric ∉ families.map Family.metric) : samplesOf metric lines = [] := by
  rw [samplesOf_families hlines, List.flatMap_eq_nil_iff]
  intro f hf
  refine if_neg ?_
  rintro rfl
  exact h (List.mem_map_of_mem hf)

/-- The samples of a metric are those of its family. -/
theorem samplesOf_of_mem (hlines : lines.filter (· ≠ .blank) = families.flatMap Family.lines)
    (hmetrics : (families.map Family.metric).Nodup) {f : Family} (hf : f ∈ families) :
    samplesOf f.metric lines = f.samples := by
  rw [samplesOf_families hlines]
  clear hlines
  induction families with
  | nil => cases hf
  | cons g families ih =>
    obtain ⟨hg, hmetrics⟩ := List.nodup_cons.mp hmetrics
    rw [List.flatMap_cons]
    rcases List.mem_cons.mp hf with rfl | hf
    · have hrest : (families.flatMap fun g => if g.metric = f.metric then g.samples else []) =
          [] := by
        refine List.flatMap_eq_nil_iff.mpr fun g hg' => if_neg fun heq => hg ?_
        exact heq ▸ List.mem_map_of_mem hg'
      rw [if_pos rfl, hrest, List.append_nil]
    · have hne : g.metric ≠ f.metric := fun heq => hg (heq ▸ List.mem_map_of_mem hf)
      rw [if_neg hne, List.nil_append]
      exact ih hmetrics hf

end SamplesOf

end Exposition
