import Mathlib.Data.List.AList
import Mathlib.Order.Defs.LinearOrder
import Bosun.AptKey
import Bosun.Text

/-!
# Control files

What dpkg and apt write about packages: stanzas of fields, one field a line, with continuation
lines behind it, and an empty line between two stanzas.  The parser splits at empty lines first
and then goes through the lines of a stanza with the field it is in; `lookup_parseFields` says
that it reads what `Stanza.text` prints, whatever the continuation lines look like.
-/

namespace Bosun

/-! ## The parser -/

abbrev Fields := AList (fun _ : String => String)

/-- `text.split("\n\n")` -/
def splitBlankLines : List Char → List (List Char)
  | [] => [[]]
  | c :: cs =>
    match c, cs with
    | '\n', '\n' :: cs => [] :: splitBlankLines cs
    | c, cs => (splitBlankLines cs).modifyHead (c :: ·)

def splitSections (text : List Char) : List (List Char) :=
  (splitBlankLines text).filter (trim · ≠ [])

/-- `str::split_once` -/
def splitOnce (sep : Char) (cs : List Char) : Option (List Char × List Char) :=
  if sep ∈ cs then some (cs.takeWhile (· ≠ sep), (cs.dropWhile (· ≠ sep)).tail) else none

def isContinuation (line : List Char) : Bool := line.head? = some ' ' || line.head? = some '\t'

/-- The field that is being read goes into the map. -/
def closeField (fields : Fields) : Option (String × String) → Fields
  | some (key, value) => fields.insert key value
  | none => fields

/-- The loop of `parse_fields`; `current` is `current_key` with `current_value`. -/
def parseLines : List (List Char) → Fields → Option (String × String) → Fields
  | [], fields, current => closeField fields current
  | line :: lines, fields, current =>
    if isContinuation line then
      parseLines lines fields (current.map fun (key, value) =>
        (key, value ++ "\n" ++ String.ofList (trimStart line)))
    else
      -- a line without a colon is dropped
      parseLines lines (closeField fields current) ((splitOnce ':' line).map fun (key, rest) =>
        (String.ofList (trim key), String.ofList (trim rest)))

def parseFields (stanza : List Char) : Fields :=
  parseLines (linesOf (String.ofList stanza)) ∅ none

structure ParsedPackage where
  name : String
  version : Option String
  status : Option String
  priority : Option Int
deriving DecidableEq, Repr

/-- `str::parse::<i32>` -/
def parseI32 (cs : List Char) : Option Int :=
  let number (digits : List Char) : Option Nat :=
    if digits ≠ [] ∧ digits.all Char.isDigit then
      some (digits.foldl (fun n c => n * 10 + (c.toNat - '0'.toNat)) 0)
    else none
  match cs with
  | '-' :: digits => (number digits).bind fun n => if n ≤ 2 ^ 31 then some (-n : Int) else none
  | '+' :: digits | digits =>
    (number digits).bind fun n => if n < 2 ^ 31 then some (n : Int) else none

/-- A number, or one of the names of the policy. -/
def priorityValue (s : String) : Option Int :=
  let trimmed := trim s.toList
  match parseI32 trimmed with
  | some n => some n
  | none =>
    match String.ofList trimmed with
    | "required" => some 1000
    | "important" => some 800
    | "standard" => some 600
    | "optional" => some 500
    | "extra" => some 100
    | _ => none

/-- A stanza without a name is dropped. -/
def parsePackage (stanza : List Char) : Option ParsedPackage :=
  let fields := parseFields stanza
  (fields.lookup "Package").map fun name =>
    { name := name
      version := fields.lookup "Version"
      status := fields.lookup "Status"
      priority := (fields.lookup "Priority").bind priorityValue }

def parseControlFile (text : List Char) : List ParsedPackage :=
  (splitSections text).filterMap parsePackage

/-! ## Printing -/

structure ControlField where
  name : String
  value : String
  /-- the continuation lines -/
  more : List (List Char)

namespace ControlField

def firstLine (f : ControlField) : List Char :=
  f.name.toList ++ ':' :: (if f.value = "" then [] else ' ' :: f.value.toList)

def lines (f : ControlField) : List (List Char) := f.firstLine :: f.more

structure WellFormed (f : ControlField) : Prop where
  named : f.name ≠ ""
  unspaced : Unspaced f.name.toList
  noColon : ':' ∉ f.name.toList
  oneLine : '\n' ∉ f.value.toList
  trimmed : Trimmed f.value.toList
  /-- the text of a continuation line may be anything, also what looks like a field -/
  more : ∀ line ∈ f.more, isContinuation line = true ∧ '\n' ∉ line

instance (f : ControlField) : Decidable f.WellFormed :=
  decidable_of_iff (f.name ≠ "" ∧ Unspaced f.name.toList ∧ ':' ∉ f.name.toList ∧
    '\n' ∉ f.value.toList ∧ Trimmed f.value.toList ∧
    ∀ line ∈ f.more, isContinuation line = true ∧ '\n' ∉ line)
    ⟨fun ⟨h₁, h₂, h₃, h₄, h₅, h₆⟩ => ⟨h₁, h₂, h₃, h₄, h₅, h₆⟩,
      fun h => ⟨h.named, h.unspaced, h.noColon, h.oneLine, h.trimmed, h.more⟩⟩

end ControlField

structure Stanza where
  fields : List ControlField
  nonempty : fields ≠ []
  distinct : (fields.map ControlField.name).Nodup
  wellFormed : ∀ f ∈ fields, f.WellFormed

namespace Stanza

def lines (s : Stanza) : List (List Char) := s.fields.flatMap ControlField.lines

def text (s : Stanza) : List Char := ['\n'].intercalate s.lines

/-- The value of a field that has no continuation lines. -/
def get (s : Stanza) (name : String) : Option String :=
  (s.fields.find? fun f => f.name = name).map ControlField.value

end Stanza

/-- An empty line between two stanzas, and any number of line ends behind the last. -/
def printStanzas (stanzas : List Stanza) (ends : Nat) : List Char :=
  ['\n', '\n'].intercalate (stanzas.map Stanza.text) ++ List.replicate ends '\n'

/-! ## Sections -/

theorem splitBlankLines_cons_of_ne {c : Char} (hc : c ≠ '\n') (cs : List Char) :
    splitBlankLines (c :: cs) = (splitBlankLines cs).modifyHead (c :: ·) := by
  cases cs with
  | nil => simp [splitBlankLines]
  | cons d cs => simp [splitBlankLines, hc]

theorem splitBlankLines_newline {d : Char} (hd : d ≠ '\n') (cs : List Char) :
    splitBlankLines ('\n' :: d :: cs) = (splitBlankLines (d :: cs)).modifyHead ('\n' :: ·) := by
  simp [splitBlankLines, hd]

theorem splitBlankLines_line {line : List Char} (h : '\n' ∉ line) (rest : List Char) :
    splitBlankLines (line ++ rest) = (splitBlankLines rest).modifyHead (line ++ ·) := by
  induction line with
  | nil => cases hrest : splitBlankLines rest <;> simp [hrest]
  | cons c line ih =>
    have hc : c ≠ '\n' := fun hc => h (hc ▸ List.mem_cons_self)
    rw [List.cons_append, splitBlankLines_cons_of_ne hc,
      ih fun hmem => h (List.mem_cons_of_mem _ hmem), List.modifyHead_modifyHead]
    rfl

/-- No line is empty, and none has a line end in it. -/
def FullLines (lines : List (List Char)) : Prop := ∀ line ∈ lines, line ≠ [] ∧ '\n' ∉ line

/-- The lines of a stanza stay together. -/
theorem splitBlankLines_lines {lines : List (List Char)} (h : FullLines lines) (rest : List Char) :
    splitBlankLines (['\n'].intercalate lines ++ rest) =
      (splitBlankLines rest).modifyHead (['\n'].intercalate lines ++ ·) := by
  induction lines with
  | nil => cases hrest : splitBlankLines rest <;> simp [hrest]
  | cons line lines ih =>
    obtain ⟨hline, hlines⟩ := List.forall_mem_cons.mp h
    cases lines with
    | nil => simpa using splitBlankLines_line hline.2 rest
    | cons next lines =>
      have hsplit : ['\n'].intercalate (line :: next :: lines) =
          line ++ '\n' :: ['\n'].intercalate (next :: lines) := by simp
      -- the next line begins with another character
      obtain ⟨c, cs, hnext⟩ := List.exists_cons_of_ne_nil (hlines next List.mem_cons_self).1
      have hc : c ≠ '\n' := by
        rintro rfl
        exact (hlines next List.mem_cons_self).2 (by simp [hnext])
      obtain ⟨ds, hds⟩ : ∃ ds, ['\n'].intercalate (next :: lines) = c :: ds := by
        cases lines <;> simp [hnext]
      rw [hsplit, List.append_assoc, splitBlankLines_line hline.2, List.cons_append, hds,
        List.cons_append, splitBlankLines_newline hc, ← List.cons_append, ← hds, ih hlines,
        List.modifyHead_modifyHead, List.modifyHead_modifyHead]
      congr 1
      funext part
      simp

/-- Line ends alone leave only blank pieces. -/
theorem splitBlankLines_ends (ends : Nat) : ∃ first rest,
    splitBlankLines (List.replicate ends '\n') = first :: rest ∧
      (first = [] ∨ first = ['\n']) ∧ ∀ part ∈ rest, trim part = [] := by
  induction ends using Nat.twoStepInduction with
  | zero => exact ⟨[], [], rfl, .inl rfl, by simp⟩
  | one => exact ⟨['\n'], [], rfl, .inr rfl, by simp⟩
  | more ends ih _ =>
    obtain ⟨first, rest, hsplit, hfirst, hrest⟩ := ih
    refine ⟨[], first :: rest, ?_, .inl rfl, ?_⟩
    · rw [List.replicate_succ, List.replicate_succ, splitBlankLines, hsplit]
    · refine List.forall_mem_cons.mpr ⟨?_, hrest⟩
      rcases hfirst with rfl | rfl <;> decide

/-- What the parser gets of a stanza: its text, or with a line end behind it. -/
def IsPart (part : List Char) (s : Stanza) : Prop := part = s.text ∨ part = s.text ++ ['\n']

namespace ControlField.WellFormed

variable {f : ControlField} (h : f.WellFormed)
include h

theorem fullLines : FullLines f.lines := by
  refine List.forall_mem_cons.mpr ⟨⟨by simp [firstLine], ?_⟩, ?_⟩
  · have hname : '\n' ∉ f.name.toList := fun hmem => absurd (h.unspaced _ hmem) (by decide)
    have hvalue := h.oneLine
    unfold firstLine
    split <;> simp [hname, hvalue]
  · intro line hline
    refine ⟨?_, (h.more line hline).2⟩
    rintro rfl
    exact absurd (h.more [] hline).1 (by decide)

theorem not_continuation : isContinuation f.firstLine = false := by
  obtain ⟨c, cs, hname⟩ : ∃ c cs, f.name.toList = c :: cs :=
    List.exists_cons_of_ne_nil fun hnil => h.named (String.toList_eq_nil_iff.mp hnil)
  have hc : isWhitespace c = false := h.unspaced c (by simp [hname])
  have hspace : c ≠ ' ' := by rintro rfl; exact absurd hc (by decide)
  have htab : c ≠ '\t' := by rintro rfl; exact absurd hc (by decide)
  simp [isContinuation, firstLine, hname, hspace, htab]

end ControlField.WellFormed

namespace Stanza

variable (s : Stanza)

theorem fullLines : FullLines s.lines := by
  intro line hline
  obtain ⟨f, hf, hline⟩ := List.mem_flatMap.mp hline
  exact (s.wellFormed f hf).fullLines line hline

theorem lines_ne_nil : s.lines ≠ [] := by
  obtain ⟨f, fs, hfields⟩ := List.exists_cons_of_ne_nil s.nonempty
  simp [lines, hfields, ControlField.lines]

theorem trim_ne_nil {part : List Char} (h : IsPart part s) : trim part ≠ [] := by
  obtain ⟨f, fs, hfields⟩ := List.exists_cons_of_ne_nil s.nonempty
  have hcolon : ':' ∈ s.text := by
    have hline : ':' ∈ f.firstLine := by simp [ControlField.firstLine]
    rw [text, lines, hfields, List.flatMap_cons, ControlField.lines, List.cons_append]
    cases hrest : f.more ++ fs.flatMap ControlField.lines <;> simp [hline]
  rcases h with rfl | rfl
  · exact Bosun.trim_ne_nil hcolon (by decide)
  · exact Bosun.trim_ne_nil (List.mem_append_left _ hcolon) (by decide)

end Stanza

/-- A printed file falls apart into its stanzas. -/
theorem splitSections_printStanzas (stanzas : List Stanza) (ends : Nat) :
    List.Forall₂ IsPart (splitSections (printStanzas stanzas ends)) stanzas := by
  unfold splitSections
  induction stanzas with
  | nil =>
    obtain ⟨first, rest, hsplit, hfirst, hrest⟩ := splitBlankLines_ends ends
    have hblank : trim first = [] := by rcases hfirst with rfl | rfl <;> decide
    have hnone : (first :: rest).filter (trim · ≠ []) = [] := by
      rw [List.filter_eq_nil_iff]
      intro part hpart
      rcases List.mem_cons.mp hpart with rfl | hpart
      · simp [hblank]
      · simp [hrest part hpart]
    simp only [printStanzas, List.map_nil, List.intercalate_nil, List.nil_append, hsplit]
    rw [hnone]
    exact .nil
  | cons s stanzas ih =>
    cases stanzas with
    | nil =>
      obtain ⟨first, rest, hsplit, hfirst, hrest⟩ := splitBlankLines_ends ends
      have hpart : IsPart (s.text ++ first) s := by
        rcases hfirst with rfl | rfl
        · exact .inl (List.append_nil _)
        · exact .inr rfl
      have hnone : rest.filter (trim · ≠ []) = [] := by
        rw [List.filter_eq_nil_iff]
        intro part hpart
        simp [hrest part hpart]
      have htext : printStanzas [s] ends = s.text ++ List.replicate ends '\n' := by
        simp [printStanzas]
      rw [htext, Stanza.text, splitBlankLines_lines s.fullLines, hsplit, List.modifyHead_cons,
        ← Stanza.text, List.filter_cons_of_pos (by simpa using s.trim_ne_nil hpart), hnone]
      exact .cons hpart .nil
    | cons next stanzas =>
      have htext : printStanzas (s :: next :: stanzas) ends =
          s.text ++ '\n' :: '\n' :: printStanzas (next :: stanzas) ends := by
        simp [printStanzas]
      have hpart : IsPart s.text s := .inl rfl
      rw [htext, Stanza.text, splitBlankLines_lines s.fullLines, splitBlankLines,
        List.modifyHead_cons, ← Stanza.text, List.append_nil,
        List.filter_cons_of_pos (by simpa using s.trim_ne_nil hpart)]
      exact .cons hpart ih

/-! ## Lines -/

/-- The line, or the line without a carriage return at its end. -/
def SameLine (line line' : List Char) : Prop :=
  line' = line ∨ line.getLast? = some '\r' ∧ line' = line.dropLast

theorem linesOf_part {part : List Char} {s : Stanza} (h : IsPart part s) :
    List.Forall₂ SameLine s.lines (linesOf (String.ofList part)) := by
  have hends : ∀ line ∈ s.lines, '\n' ∉ line := fun line hline => (s.fullLines line hline).2
  have hcr : ∀ lines : List (List Char), List.Forall₂ SameLine lines (lines.map fun line =>
      if line.getLast? = some '\r' then line.dropLast else line) := by
    intro lines
    rw [List.forall₂_map_right_iff, List.forall₂_same]
    intro line _
    split
    · next hlast => exact .inr ⟨hlast, rfl⟩
    · exact .inl rfl
  have hsplit : s.text.splitOn '\n' = s.lines := List.splitOn_intercalate '\n' hends s.lines_ne_nil
  rcases h with rfl | rfl
  · obtain ⟨front, last, hlines⟩ := (List.eq_nil_or_concat' s.lines).resolve_left s.lines_ne_nil
    have hlast : last ≠ [] := (s.fullLines last (by simp [hlines])).1
    simp only [linesOf, String.toList_ofList, hsplit, hlines, List.dropLast_concat,
      List.getLast?_concat]
    refine List.rel_append (hcr front) ?_
    simp [Option.filter, hlast, SameLine]
  · have hmore : (s.text ++ ['\n']).splitOn '\n' = s.lines ++ [[]] := by
      rw [List.splitOn_append_cons_self, hsplit, List.splitOn_nil]
    simp only [linesOf, String.toList_ofList, hmore, List.dropLast_concat, List.getLast?_concat]
    simpa [Option.filter] using hcr s.lines

/-! ## Fields -/

theorem isContinuation_dropLast {line : List Char} (h : isContinuation line = true)
    (hlast : line.getLast? = some '\r') : isContinuation line.dropLast = true := by
  match line with
  | [] => simp at hlast
  | [c] =>
    obtain rfl : c = '\r' := by simpa using hlast
    exact absurd h (by decide)
  | c :: d :: line => simpa [isContinuation] using h

namespace ControlField.WellFormed

variable {f : ControlField} (h : f.WellFormed)
include h

/-- No carriage return is taken off the first line of a field. -/
theorem sameLine_firstLine {line : List Char} (hsame : SameLine f.firstLine line) :
    line = f.firstLine := by
  rcases hsame with rfl | ⟨hlast, -⟩
  · rfl
  · exfalso
    unfold firstLine at hlast
    by_cases hvalue : f.value = ""
    · simp [hvalue] at hlast
    · obtain ⟨front, c, hchars⟩ := (List.eq_nil_or_concat' f.value.toList).resolve_left
        fun hnil => hvalue (String.toList_eq_nil_iff.mp hnil)
      have hc := h.trimmed.last c (by simp [hchars])
      have hline : f.name.toList ++ ':' :: ' ' :: (front ++ [c]) =
          (f.name.toList ++ ':' :: ' ' :: front) ++ [c] := by simp
      rw [if_neg hvalue, hchars, hline, List.getLast?_concat, Option.some.injEq] at hlast
      rw [hlast] at hc
      exact absurd hc (by decide)

theorem splitOnce_firstLine : splitOnce ':' f.firstLine =
    some (f.name.toList, if f.value = "" then [] else ' ' :: f.value.toList) := by
  have hall : ∀ c ∈ f.name.toList, (decide (c ≠ ':')) = true := by
    intro c hc
    have hne : c ≠ ':' := fun h' => h.noColon (h' ▸ hc)
    simpa using hne
  unfold splitOnce firstLine
  rw [if_pos (by simp), List.takeWhile_append_of_pos hall, List.dropWhile_append_of_pos hall]
  simp

theorem trim_name : String.ofList (trim f.name.toList) = f.name := by
  rw [h.unspaced.trimmed.trim_eq, String.ofList_toList]

theorem trim_value :
    String.ofList (trim (if f.value = "" then [] else ' ' :: f.value.toList)) = f.value := by
  split
  · next hvalue => rw [hvalue]; rfl
  · have hstart : trim (' ' :: f.value.toList) = trim f.value.toList := rfl
    rw [hstart, h.trimmed.trim_eq, String.ofList_toList]

/-- The lines of a field close the one before and leave the field open; what it has by then is
    its value if it has no continuation lines. -/
theorem parseLines_lines (rest : List (List Char)) {lines : List (List Char)}
    (hsame : List.Forall₂ SameLine f.lines lines) (fields : Fields)
    (current : Option (String × String)) : ∃ value,
      (f.more = [] → value = f.value) ∧ parseLines (lines ++ rest) fields current =
        parseLines rest (closeField fields current) (some (f.name, value)) := by
  obtain ⟨first, more, rfl⟩ : ∃ first more, lines = first :: more := by
    cases hsame with
    | cons _ _ => exact ⟨_, _, rfl⟩
  obtain ⟨hfirst, hmore⟩ := List.forall₂_cons.mp hsame
  obtain rfl := h.sameLine_firstLine hfirst
  have hopen : ∀ (value : String) (before after : List (List Char)),
      (∀ line ∈ before, isContinuation line = true ∧ '\n' ∉ line) →
      List.Forall₂ SameLine before after → ∃ value',
        (before = [] → value' = value) ∧ parseLines (after ++ rest) (closeField fields current)
          (some (f.name, value)) = parseLines rest (closeField fields current)
          (some (f.name, value')) := by
    intro value before
    induction before generalizing value with
    | nil =>
      intro after _ hafter
      cases hafter
      exact ⟨value, fun _ => rfl, rfl⟩
    | cons line before ih =>
      intro after hbefore hafter
      obtain ⟨hline, hbefore⟩ := List.forall_mem_cons.mp hbefore
      cases hafter with
      | @cons _ line' _ after hsameLine hafter =>
        have hcont : isContinuation line' = true := by
          rcases hsameLine with rfl | ⟨hlast, rfl⟩
          · exact hline.1
          · exact isContinuation_dropLast hline.1 hlast
        obtain ⟨value', -, hrun⟩ :=
          ih (value ++ "\n" ++ String.ofList (trimStart line')) _ hbefore hafter
        refine ⟨value', by simp, ?_⟩
        rw [List.cons_append, parseLines, if_pos hcont]
        exact hrun
  obtain ⟨value, hvalue, hrun⟩ := hopen f.value f.more more h.more hmore
  refine ⟨value, hvalue, ?_⟩
  rw [List.cons_append, parseLines, if_neg (by simp [h.not_continuation]), h.splitOnce_firstLine,
    Option.map_some]
  simp only [h.trim_name, h.trim_value]
  exact hrun

end ControlField.WellFormed

/-- Where the fields of a stanza end up. -/
theorem lookup_parseLines (fs : List ControlField) : ∀ (lines : List (List Char)) (fields : Fields)
    (current : Option (String × String)), (fs.map ControlField.name).Nodup →
    (∀ f ∈ fs, f.WellFormed) →
    List.Forall₂ SameLine (fs.flatMap ControlField.lines) lines →
    (∀ f ∈ fs, f.more = [] → (parseLines lines fields current).lookup f.name = some f.value) ∧
    ∀ name, (∀ f ∈ fs, f.name ≠ name) →
      (parseLines lines fields current).lookup name = (closeField fields current).lookup name := by
  induction fs with
  | nil =>
    intro lines fields current _ _ hsame
    cases hsame
    exact ⟨by simp, fun _ _ => rfl⟩
  | cons f fs ih =>
    intro lines fields current hnodup hwf hsame
    obtain ⟨hfresh, hnodup⟩ := List.nodup_cons.mp hnodup
    obtain ⟨hf, hfs⟩ := List.forall_mem_cons.mp hwf
    rw [List.flatMap_cons] at hsame
    have hfirst := List.forall₂_take f.lines.length hsame
    have hrest := List.forall₂_drop f.lines.length hsame
    rw [List.take_left] at hfirst
    rw [List.drop_left] at hrest
    obtain ⟨value, hvalue, hrun⟩ := hf.parseLines_lines (lines.drop f.lines.length) hfirst
      fields current
    rw [List.take_append_drop] at hrun
    obtain ⟨hhave, hothers⟩ :=
      ih _ (closeField fields current) (some (f.name, value)) hnodup hfs hrest
    refine ⟨?_, ?_⟩
    · intro g hg hsimple
      rw [hrun]
      rcases List.mem_cons.mp hg with rfl | hg
      · rw [hothers g.name fun f' hf' hname => hfresh (List.mem_map.mpr ⟨f', hf', hname⟩),
          closeField, AList.lookup_insert, hvalue hsimple]
      · exact hhave g hg hsimple
    · intro name hname
      rw [hrun, hothers name fun f' hf' => hname f' (List.mem_cons_of_mem _ hf'), closeField,
        AList.lookup_insert_ne (hname f List.mem_cons_self).symm]

/-- What the parser reads of a printed stanza: a field of one line has its value, and there is
    no other. -/
theorem lookup_parseFields {part : List Char} {s : Stanza} (h : IsPart part s) :
    (∀ f ∈ s.fields, f.more = [] → (parseFields part).lookup f.name = some f.value) ∧
    ∀ name, (∀ f ∈ s.fields, f.name ≠ name) → (parseFields part).lookup name = none := by
  obtain ⟨hhave, hothers⟩ := lookup_parseLines s.fields _ ∅ none s.distinct s.wellFormed
    (linesOf_part h)
  exact ⟨hhave, fun name hname => (hothers name hname).trans (AList.lookup_empty name)⟩

/-- The fields of the stanza that the parser asks for have no continuation lines. -/
def Stanza.Simple (s : Stanza) (name : String) : Prop := ∀ f ∈ s.fields, f.name = name → f.more = []

instance (s : Stanza) (name : String) : Decidable (s.Simple name) :=
  inferInstanceAs (Decidable (∀ f ∈ s.fields, f.name = name → f.more = []))

theorem lookup_parseFields_eq_get {part : List Char} {s : Stanza} (h : IsPart part s)
    {name : String} (hsimple : s.Simple name) : (parseFields part).lookup name = s.get name := by
  obtain ⟨hhave, hothers⟩ := lookup_parseFields h
  unfold Stanza.get
  cases hfind : s.fields.find? fun f => f.name = name with
  | none =>
    refine hothers name fun f hf hname => ?_
    exact absurd (List.find?_eq_none.mp hfind f hf) (by simp [hname])
  | some f =>
    have hname : f.name = name := by simpa using List.find?_some hfind
    have hmem := List.mem_of_find?_eq_some hfind
    subst hname
    exact hhave f hmem (hsimple f hmem rfl)

/-- What the parser makes of a stanza. -/
def Stanza.package (s : Stanza) : Option ParsedPackage :=
  (s.get "Package").map fun name =>
    { name := name
      version := s.get "Version"
      status := s.get "Status"
      priority := (s.get "Priority").bind priorityValue }

structure Stanza.Readable (s : Stanza) : Prop where
  package : s.Simple "Package"
  version : s.Simple "Version"
  status : s.Simple "Status"
  priority : s.Simple "Priority"

instance (s : Stanza) : Decidable s.Readable :=
  decidable_of_iff (s.Simple "Package" ∧ s.Simple "Version" ∧ s.Simple "Status" ∧
    s.Simple "Priority") ⟨fun ⟨h₁, h₂, h₃, h₄⟩ => ⟨h₁, h₂, h₃, h₄⟩,
      fun h => ⟨h.package, h.version, h.status, h.priority⟩⟩

theorem parsePackage_eq {part : List Char} {s : Stanza} (h : IsPart part s) (hs : s.Readable) :
    parsePackage part = s.package := by
  unfold parsePackage Stanza.package
  simp only [lookup_parseFields_eq_get h hs.package, lookup_parseFields_eq_get h hs.version,
    lookup_parseFields_eq_get h hs.status, lookup_parseFields_eq_get h hs.priority]

/-- **Parsing inverts printing**, for any continuation lines and any end of the file. -/
theorem parseControlFile_printStanzas {stanzas : List Stanza} (h : ∀ s ∈ stanzas, s.Readable)
    (ends : Nat) :
    parseControlFile (printStanzas stanzas ends) = stanzas.filterMap Stanza.package := by
  unfold parseControlFile
  have hparts := splitSections_printStanzas stanzas ends
  generalize splitSections (printStanzas stanzas ends) = parts at hparts
  induction hparts with
  | nil => rfl
  | @cons part s parts stanzas hpart _ ih =>
    obtain ⟨hs, hstanzas⟩ := List.forall_mem_cons.mp h
    rw [List.filterMap_cons, List.filterMap_cons, parsePackage_eq hpart hs, ih hstanzas]

end Bosun
