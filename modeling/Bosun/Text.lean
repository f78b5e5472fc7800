import Mathlib.Data.List.TakeWhile
import Bosun.ModuleLoading

/-!
# Text

The functions on `str` that several parsers share, on lists of characters.
-/

namespace Bosun

/-- `str::trim_start` -/
def trimStart (cs : List Char) : List Char := cs.dropWhile isWhitespace

/-- `str::trim_end` -/
def trimEnd (cs : List Char) : List Char := (cs.reverse.dropWhile isWhitespace).reverse

/-- `str::trim` -/
def trim (cs : List Char) : List Char := trimEnd (trimStart cs)

/-- `str::split_whitespace` -/
def splitWhitespace (cs : List Char) : List (List Char) :=
  (cs.splitOnP isWhitespace).filter (· ≠ [])

/-- No character of the word is whitespace. -/
def Unspaced (cs : List Char) : Prop := ∀ c ∈ cs, isWhitespace c = false

instance (cs : List Char) : Decidable (Unspaced cs) :=
  List.decidableBAll (fun c => isWhitespace c = false) cs

theorem Unspaced.append {cs ds : List Char} (h : Unspaced cs) (h' : Unspaced ds) :
    Unspaced (cs ++ ds) := by
  intro c hc
  rcases List.mem_append.mp hc with hc | hc
  · exact h c hc
  · exact h' c hc

/-- What has a character that is no whitespace is not blank. -/
theorem trim_ne_nil {cs : List Char} {c : Char} (hc : c ∈ cs) (hword : isWhitespace c = false) :
    trim cs ≠ [] := by
  have hdrop : ∀ {ds : List Char}, c ∈ ds → c ∈ ds.dropWhile isWhitespace := by
    intro ds hd
    rw [← List.takeWhile_append_dropWhile (p := isWhitespace) (l := ds), List.mem_append] at hd
    rcases hd with hd | hd
    · exact absurd (List.mem_takeWhile_imp hd) (by simp [hword])
    · exact hd
  intro hnil
  have hmem : c ∈ trim cs := List.mem_reverse.mpr (hdrop (List.mem_reverse.mpr (hdrop hc)))
  rw [hnil] at hmem
  exact absurd hmem (by simp)

/-! ## Words -/

theorem splitWhitespace_append_cons (cs ds : List Char) {c : Char} (hc : isWhitespace c = true) :
    splitWhitespace (cs ++ c :: ds) = splitWhitespace cs ++ splitWhitespace ds := by
  rw [splitWhitespace, List.splitOnP_append_cons cs ds hc, List.filter_append]
  rfl

theorem splitWhitespace_word {cs : List Char} (h : Unspaced cs) (hne : cs ≠ []) :
    splitWhitespace cs = [cs] := by
  simp [splitWhitespace, List.splitOnP_eq_singleton h, hne]

/-- The end of the text, or whitespace. -/
def EndsWord (cs : List Char) : Prop := ∀ c ∈ cs.head?, isWhitespace c = true

theorem splitWhitespace_word_append {cs ds : List Char} (h : Unspaced cs) (hne : cs ≠ [])
    (hds : EndsWord ds) : splitWhitespace (cs ++ ds) = cs :: splitWhitespace ds := by
  cases ds with
  | nil => rw [List.append_nil, splitWhitespace_word h hne]; rfl
  | cons d ds =>
    have hd : isWhitespace d = true := hds d rfl
    have hrest : splitWhitespace (d :: ds) = splitWhitespace ds :=
      splitWhitespace_append_cons [] ds hd
    rw [splitWhitespace_append_cons cs ds hd, splitWhitespace_word h hne, hrest]
    rfl

theorem mem_splitWhitespace {cs word : List Char} (h : word ∈ splitWhitespace cs) :
    word ≠ [] ∧ Unspaced word := by
  obtain ⟨hmem, hne⟩ := List.mem_filter.mp h
  refine ⟨by simpa using hne, ?_⟩
  clear h hne
  induction cs generalizing word with
  | nil =>
    obtain rfl : word = [] := by simpa [List.splitOnP_nil] using hmem
    exact fun c hc => by cases hc
  | cons c cs ih =>
    rw [List.splitOnP_cons_eq_if_modifyHead] at hmem
    by_cases hc : isWhitespace c = true
    · rw [if_pos hc] at hmem
      rcases List.mem_cons.mp hmem with rfl | hmem
      · exact fun c hc => by cases hc
      · exact ih hmem
    · rw [if_neg hc] at hmem
      obtain ⟨first, rest, hsplit⟩ :=
        List.exists_cons_of_ne_nil (List.splitOnP_ne_nil isWhitespace cs)
      rw [hsplit, List.modifyHead_cons] at hmem
      rcases List.mem_cons.mp hmem with rfl | hmem
      · intro d hd
        rcases List.mem_cons.mp hd with rfl | hd
        · simpa using hc
        · have hfirst : Unspaced first := ih (by rw [hsplit]; exact List.mem_cons_self)
          exact hfirst d hd
      · exact ih (by rw [hsplit]; exact List.mem_cons_of_mem _ hmem)

/-- Words can be read back from the text they make with single spaces. -/
theorem intercalate_space_injective {words words' : List (List Char)}
    (h : ∀ word ∈ words, word ≠ [] ∧ Unspaced word)
    (h' : ∀ word ∈ words', word ≠ [] ∧ Unspaced word)
    (heq : [' '].intercalate words = [' '].intercalate words') : words = words' := by
  have hspace : ∀ {ws : List (List Char)}, (∀ word ∈ ws, word ≠ [] ∧ Unspaced word) →
      ∀ word ∈ ws, ' ' ∉ word := fun hws word hword hmem =>
    absurd ((hws word hword).2 ' ' hmem) (by decide)
  have hempty : ∀ {ws : List (List Char)}, (∀ word ∈ ws, word ≠ [] ∧ Unspaced word) →
      [' '].intercalate ws = [] → ws = [] := by
    intro ws hws hnil
    cases ws with
    | nil => rfl
    | cons word ws =>
      have hword := (hws word List.mem_cons_self).1
      cases ws with
      | nil => exact absurd (by simpa [List.intercalate] using hnil) hword
      | cons _ _ => exact absurd (by simp [List.intercalate] at hnil) hword
  by_cases hnil : words = []
  · subst hnil
    exact (hempty h' heq.symm).symm
  · by_cases hnil' : words' = []
    · subst hnil'
      exact absurd (hempty h heq) hnil
    · rw [← List.splitOn_intercalate ' ' (hspace h) hnil, heq,
        List.splitOn_intercalate ' ' (hspace h') hnil']

theorem splitWhitespace_intercalate {words : List (List Char)}
    (h : ∀ word ∈ words, word ≠ [] ∧ Unspaced word) :
    splitWhitespace ([' '].intercalate words) = words := by
  induction words with
  | nil => rfl
  | cons word words ih =>
    obtain ⟨hword, hwords⟩ := List.forall_mem_cons.mp h
    cases words with
    | nil => simpa [List.intercalate] using splitWhitespace_word hword.2 hword.1
    | cons next words =>
      have hsplit : [' '].intercalate (word :: next :: words) =
          word ++ ' ' :: [' '].intercalate (next :: words) := by simp [List.intercalate]
      rw [hsplit, splitWhitespace_append_cons _ _ (by decide), ih hwords,
        splitWhitespace_word hword.2 hword.1]
      rfl

/-- No whitespace at either end. -/
structure Trimmed (cs : List Char) : Prop where
  head : ∀ c ∈ cs.head?, isWhitespace c = false
  last : ∀ c ∈ cs.getLast?, isWhitespace c = false

instance (cs : List Char) : Decidable (Trimmed cs) :=
  decidable_of_iff (Unspaced cs.head?.toList ∧ Unspaced cs.getLast?.toList)
    ⟨fun h => ⟨fun c hc => h.1 c (Option.mem_toList.mpr hc),
        fun c hc => h.2 c (Option.mem_toList.mpr hc)⟩,
      fun h => ⟨fun c hc => h.head c (Option.mem_toList.mp hc),
        fun c hc => h.last c (Option.mem_toList.mp hc)⟩⟩

theorem Trimmed.trim_eq {cs : List Char} (h : Trimmed cs) : trim cs = cs := by
  have hkeep : ∀ {ds : List Char}, (∀ c ∈ ds.head?, isWhitespace c = false) →
      ds.dropWhile isWhitespace = ds := by
    intro ds hds
    cases ds with
    | nil => rfl
    | cons d ds => exact List.dropWhile_cons_of_neg (by simp [hds d rfl])
  have hlast : ∀ c ∈ cs.reverse.head?, isWhitespace c = false := by
    rw [List.head?_reverse]
    exact h.last
  rw [trim, trimStart, hkeep h.head, trimEnd, hkeep hlast, List.reverse_reverse]

theorem Unspaced.trimmed {cs : List Char} (h : Unspaced cs) : Trimmed cs :=
  ⟨fun c hc => h c (List.mem_of_mem_head? hc), fun c hc => h c (List.mem_of_getLast? hc)⟩

theorem isWhitespace_of_splitWhitespace_nil {cs : List Char} (h : splitWhitespace cs = []) :
    ∀ c ∈ cs, isWhitespace c = true := by
  induction cs with
  | nil => exact fun c hc => by cases hc
  | cons c cs ih =>
    cases hc : isWhitespace c with
    | true =>
      have hrest : splitWhitespace cs = [] := (splitWhitespace_append_cons [] cs hc).symm.trans h
      exact List.forall_mem_cons.mpr ⟨hc, ih hrest⟩
    | false =>
      -- the word of `c` is there
      obtain ⟨first, rest, hsplit⟩ :=
        List.exists_cons_of_ne_nil (List.splitOnP_ne_nil isWhitespace cs)
      simp [splitWhitespace, List.splitOnP_cons_eq_if_modifyHead, hc, hsplit] at h

/-- A trimmed text of one word is that word. -/
theorem Trimmed.eq_word {cs word : List Char} (h : Trimmed cs)
    (hword : splitWhitespace cs = [word]) : cs = word := by
  have hunspaced : Unspaced cs := by
    intro c hc
    by_contra hspace
    rw [Bool.not_eq_false] at hspace
    obtain ⟨before, after, rfl⟩ := List.append_of_mem hc
    rw [splitWhitespace_append_cons before after hspace] at hword
    rcases List.append_eq_cons_iff.mp hword with ⟨hbefore, -⟩ | ⟨rest, -, hafter⟩
    · cases before with
      | nil => exact absurd (h.head c rfl) (by simp [hspace])
      | cons b before =>
        have hb := isWhitespace_of_splitWhitespace_nil hbefore b List.mem_cons_self
        exact absurd (h.head b rfl) (by simp [hb])
    · have hnil : splitWhitespace after = [] := (List.append_eq_nil_iff.mp hafter.symm).2
      cases hlast : after.getLast? with
      | none =>
        obtain rfl := List.getLast?_eq_none_iff.mp hlast
        exact absurd (h.last c (by simp)) (by simp [hspace])
      | some l =>
        have hl := isWhitespace_of_splitWhitespace_nil hnil l (List.mem_of_getLast? hlast)
        exact absurd (h.last l (by simp [List.getLast?_cons, hlast])) (by simp [hl])
  by_cases hne : cs = []
  · subst hne
    exact absurd hword (by simp [splitWhitespace, List.splitOnP_nil])
  · simpa [splitWhitespace_word hunspaced hne] using hword

end Bosun
