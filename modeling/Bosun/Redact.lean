import Bosun.Text

/-!
# DSNs in logs

`redact_dsn` is to replace the password of a DSN before the DSN is logged.  What the `url` crate
takes for a URL gets a new password there; everything else is split at whitespace, and the words
that begin with `password=` are replaced.

Whether anything of a password is left shows in two DSNs that differ in nothing else: they are
to be redacted to the same text.  `redactDsn_eq_iff` says for which pairs that is so.
-/

namespace Bosun

/-- A URL as the crate has parsed it: the password of its userinfo and the rest. -/
structure ParsedUrl (O : Type) where
  password : Option String
  others : O
deriving DecidableEq

/-- `url::Url`: `parse` and `to_string`. -/
structure UrlCrate (O : Type) where
  parse : String → Option (ParsedUrl O)
  print : ParsedUrl O → String

def REDACTED : String := "*****"

def PASSWORD : List Char := ['p', 'a', 's', 's', 'w', 'o', 'r', 'd']

def PASSWORD_EQ : List Char := PASSWORD ++ ['=']

def isPasswordWord (word : List Char) : Bool := PASSWORD_EQ.isPrefixOf word

/-- A word of a DSN in key=value form. -/
def redactToken (token : List Char) : List Char :=
  if isPasswordWord token then PASSWORD_EQ ++ REDACTED.toList else token

def redactKeyValue (dsn : String) : String :=
  String.ofList ([' '].intercalate ((splitWhitespace dsn.toList).map redactToken))

/-- A URL that has a password takes another one. -/
def redactDsn {O : Type} (lib : UrlCrate O) (dsn : String) : String :=
  match lib.parse dsn with
  | some url =>
    if url.password.isSome then lib.print { url with password := some REDACTED } else dsn
  | none => redactKeyValue dsn

/-! ## Key=value -/

/-- Equal, or both replaced. -/
def SameRedacted (word word' : List Char) : Prop :=
  word = word' ∨ isPasswordWord word = true ∧ isPasswordWord word' = true

theorem redactToken_password {word : List Char} (h : isPasswordWord word = true) :
    redactToken word = PASSWORD_EQ ++ REDACTED.toList := if_pos h

theorem redactToken_other {word : List Char} (h : isPasswordWord word = false) :
    redactToken word = word := if_neg (by simp [h])

theorem isPasswordWord_redactToken (word : List Char) :
    isPasswordWord (redactToken word) = isPasswordWord word := by
  cases h : isPasswordWord word with
  | true =>
    rw [redactToken_password h]
    decide
  | false => rw [redactToken_other h, h]

theorem redactToken_eq_iff {word word' : List Char} :
    redactToken word = redactToken word' ↔ SameRedacted word word' := by
  constructor
  · intro heq
    have hsame := congrArg isPasswordWord heq
    rw [isPasswordWord_redactToken, isPasswordWord_redactToken] at hsame
    cases h : isPasswordWord word with
    | true => exact .inr ⟨h, hsame ▸ h⟩
    | false =>
      rw [redactToken_other h, redactToken_other (hsame ▸ h)] at heq
      exact .inl heq
  · rintro (rfl | ⟨h, h'⟩)
    · rfl
    · rw [redactToken_password h, redactToken_password h']

theorem unspaced_redactToken {word : List Char} (h : word ≠ [] ∧ Unspaced word) :
    redactToken word ≠ [] ∧ Unspaced (redactToken word) := by
  unfold redactToken
  split
  · exact ⟨by decide, by decide⟩
  · exact h

theorem redacted_words (dsn : String) :
    ∀ word ∈ (splitWhitespace dsn.toList).map redactToken, word ≠ [] ∧ Unspaced word := by
  intro word hword
  obtain ⟨token, htoken, rfl⟩ := List.mem_map.mp hword
  exact unspaced_redactToken (mem_splitWhitespace htoken)

/-- Two DSNs in key=value form come to the same text exactly if they agree word by word, except
    in words that begin with `password=`. -/
theorem redactKeyValue_eq_iff {dsn dsn' : String} :
    redactKeyValue dsn = redactKeyValue dsn' ↔
      List.Forall₂ SameRedacted (splitWhitespace dsn.toList) (splitWhitespace dsn'.toList) := by
  have hmap : (splitWhitespace dsn.toList).map redactToken =
      (splitWhitespace dsn'.toList).map redactToken ↔
      List.Forall₂ SameRedacted (splitWhitespace dsn.toList) (splitWhitespace dsn'.toList) := by
    rw [← List.forall₂_eq_eq_eq, List.forall₂_map_left_iff, List.forall₂_map_right_iff]
    simp only [redactToken_eq_iff]
  rw [← hmap]
  constructor
  · intro h
    exact intercalate_space_injective (redacted_words dsn) (redacted_words dsn')
      (String.ofList_injective h)
  · intro h
    unfold redactKeyValue
    rw [h]

/-- A DSN in key=value form with its password cut out; `gap` and `gap'` stand around the `=`. -/
structure PasswordContext where
  before : List Char
  gap : List Char
  gap' : List Char
  after : List Char

/-- The DSN with the password written as `value`, quotes and escapes included. -/
def PasswordContext.dsn (c : PasswordContext) (value : List Char) : String :=
  String.ofList (c.before ++ (PASSWORD ++ c.gap ++ '=' :: c.gap' ++ value ++ c.after))

/-- The password begins in a word of its own. -/
structure PasswordContext.Plain (c : PasswordContext) : Prop where
  start : ∀ b ∈ c.before.getLast?, isWhitespace b = true
  gap : c.gap = []
  gap' : c.gap' = []
  stop : EndsWord c.after

theorem splitWhitespace_before {before : List Char}
    (h : ∀ b ∈ before.getLast?, isWhitespace b = true) (cs : List Char) :
    splitWhitespace (before ++ cs) = splitWhitespace before ++ splitWhitespace cs := by
  cases hlast : before.getLast? with
  | none =>
    obtain rfl := List.getLast?_eq_none_iff.mp hlast
    rfl
  | some b =>
    have hb := h b hlast
    obtain ⟨front, rfl⟩ := List.getLast?_eq_some_iff.mp hlast
    have hnil : splitWhitespace [] = [] := by simp [splitWhitespace, List.splitOnP_nil]
    rw [List.append_assoc, List.singleton_append, splitWhitespace_append_cons front cs hb,
      splitWhitespace_append_cons front [] hb, hnil, List.append_nil]

/-- A password that is written without whitespace, right behind a `password=` that begins a
    word, leaves nothing. -/
theorem PasswordContext.Plain.redacted {c : PasswordContext} (h : c.Plain)
    {value value' : List Char} (hvalue : Unspaced value) (hvalue' : Unspaced value') :
    redactKeyValue (c.dsn value) = redactKeyValue (c.dsn value') := by
  have hwords : ∀ {value : List Char}, Unspaced value → splitWhitespace (c.dsn value).toList =
      splitWhitespace c.before ++ (PASSWORD_EQ ++ value) :: splitWhitespace c.after := by
    intro value hvalue
    have hkey : Unspaced PASSWORD_EQ := by decide
    have htext : (c.dsn value).toList = c.before ++ ((PASSWORD_EQ ++ value) ++ c.after) := by
      simp [PasswordContext.dsn, h.gap, h.gap', PASSWORD_EQ]
    rw [htext, splitWhitespace_before h.start,
      splitWhitespace_word_append (hkey.append hvalue) (by simp [PASSWORD_EQ]) h.stop]
  have hpassword : ∀ value : List Char, isPasswordWord (PASSWORD_EQ ++ value) = true := by
    intro value
    unfold isPasswordWord
    rw [List.isPrefixOf_iff_prefix]
    exact List.prefix_append _ _
  rw [redactKeyValue_eq_iff, hwords hvalue, hwords hvalue']
  refine List.rel_append (List.forall₂_same.mpr fun _ _ => .inl rfl) ?_
  exact .cons (.inr ⟨hpassword value, hpassword value'⟩) (List.forall₂_same.mpr fun _ _ => .inl rfl)

/-! ## URLs -/

/-- What is relied on of the crate. -/
structure UrlCrate.Faithful {O : Type} (lib : UrlCrate O) : Prop where
  /-- The marker needs no escaping, and a URL that is printed is read back. -/
  readBack : ∀ text url, lib.parse text = some url → url.password.isSome = true →
    lib.parse (lib.print { url with password := some REDACTED }) =
      some { url with password := some REDACTED }
  /-- A URL with a userinfo has a host, and the whitespace of such a URL is escaped. -/
  unspaced : ∀ text url, lib.parse text = some url → url.password.isSome = true →
    Unspaced (lib.print { url with password := some REDACTED }).toList
  /-- A relative URL needs a base. -/
  scheme : ∀ text : String, ':' ∉ text.toList → lib.parse text = none

/-- The two URLs have a password each, and the same of everything else; or they have none and
    are the same. -/
def SameUrl {O : Type} (dsn dsn' : String) (url url' : ParsedUrl O) : Prop :=
  url.password.isSome = true ∧ url'.password.isSome = true ∧ url.others = url'.others ∨
    url.password = none ∧ url'.password = none ∧ dsn = dsn'

section Urls

variable {O : Type} {lib : UrlCrate O} (hlib : lib.Faithful)

theorem redactDsn_url {dsn : String} {url : ParsedUrl O} (h : lib.parse dsn = some url)
    (hpassword : url.password.isSome = true) :
    redactDsn lib dsn = lib.print { url with password := some REDACTED } := by
  simp [redactDsn, h, hpassword]

theorem redactDsn_bare {dsn : String} {url : ParsedUrl O} (h : lib.parse dsn = some url)
    (hpassword : url.password = none) : redactDsn lib dsn = dsn := by
  simp [redactDsn, h, hpassword]

theorem redactDsn_keyValue {dsn : String} (h : lib.parse dsn = none) :
    redactDsn lib dsn = redactKeyValue dsn := by
  simp [redactDsn, h]

include hlib

/-- The marker stays in what is printed, so it is never the text of a URL without a password. -/
theorem redactDsn_ne_bare {dsn dsn' : String} {url url' : ParsedUrl O}
    (h : lib.parse dsn = some url) (hpassword : url.password.isSome = true)
    (h' : lib.parse dsn' = some url') (hbare : url'.password = none) :
    redactDsn lib dsn ≠ redactDsn lib dsn' := by
  rw [redactDsn_url h hpassword, redactDsn_bare h' hbare]
  intro heq
  have hback := hlib.readBack dsn url h hpassword
  rw [heq, h'] at hback
  obtain rfl := Option.some.inj hback
  exact absurd hbare (by simp)

theorem redactDsn_eq_iff_sameUrl {dsn dsn' : String} {url url' : ParsedUrl O}
    (h : lib.parse dsn = some url) (h' : lib.parse dsn' = some url') :
    redactDsn lib dsn = redactDsn lib dsn' ↔ SameUrl dsn dsn' url url' := by
  cases hpassword : url.password with
  | none =>
    cases hpassword' : url'.password with
    | none => simp [redactDsn_bare h hpassword, redactDsn_bare h' hpassword', SameUrl, hpassword,
        hpassword']
    | some pw' =>
      have hne := redactDsn_ne_bare hlib h' (by simp [hpassword']) h hpassword
      simp [SameUrl, hpassword, hpassword', hne.symm]
  | some pw =>
    cases hpassword' : url'.password with
    | none =>
      have hne := redactDsn_ne_bare hlib h (by simp [hpassword]) h' hpassword'
      simp [SameUrl, hpassword, hpassword', hne]
    | some pw' =>
      rw [redactDsn_url h (by simp [hpassword]), redactDsn_url h' (by simp [hpassword'])]
      have hback := hlib.readBack dsn url h (by simp [hpassword])
      have hback' := hlib.readBack dsn' url' h' (by simp [hpassword'])
      constructor
      · intro heq
        rw [heq, hback'] at hback
        have hothers := congrArg ParsedUrl.others (Option.some.inj hback)
        exact .inl ⟨by simp [hpassword], by simp [hpassword'], hothers.symm⟩
      · rintro (⟨-, -, hothers⟩ | ⟨hnone, -⟩)
        · rw [hothers]
        · exact absurd hnone (by simp [hpassword])

/-- Of a URL with a password and a text that the crate does not read as a URL, the text is shown
    as it is. -/
theorem redactDsn_ne_unparsed {dsn dsn' : String} {url : ParsedUrl O}
    (h : lib.parse dsn = some url) (hpassword : url.password.isSome = true)
    (h' : lib.parse dsn' = none) (htrimmed : Trimmed dsn'.toList) :
    redactDsn lib dsn ≠ redactDsn lib dsn' := by
  rw [redactDsn_url h hpassword, redactDsn_keyValue h']
  intro heq
  have hback := hlib.readBack dsn url h hpassword
  have hunspaced := hlib.unspaced dsn url h hpassword
  generalize lib.print { url with password := some REDACTED } = out at heq hback hunspaced
  have hcolon : ':' ∈ out.toList := by
    by_contra hno
    exact absurd (hlib.scheme out hno) (by simp [hback])
  have hne : out.toList ≠ [] := List.ne_nil_of_mem hcolon
  -- all of the other text is one word, and that word is shown
  have hwords : (splitWhitespace dsn'.toList).map redactToken = [out.toList] := by
    have hsplit := splitWhitespace_intercalate (redacted_words dsn')
    have hout : [' '].intercalate ((splitWhitespace dsn'.toList).map redactToken) = out.toList := by
      rw [heq, redactKeyValue, String.toList_ofList]
    rw [← hsplit, hout, splitWhitespace_word hunspaced hne]
  obtain ⟨word, hword, hshown⟩ := List.map_eq_singleton_iff.mp hwords
  have hother : isPasswordWord word = false := by
    by_contra hmarked
    rw [Bool.not_eq_false] at hmarked
    rw [redactToken_password hmarked] at hshown
    exact absurd (hshown ▸ hcolon) (by decide)
  rw [redactToken_other hother] at hshown
  have hsame : dsn' = out := String.toList_inj.mp ((htrimmed.eq_word hword).trans hshown)
  rw [hsame, hback] at h'
  exact absurd h' (by simp)

/-- A text of one word that the crate does not read is not what a URL without a password is. -/
theorem redactDsn_bare_ne_unparsed {dsn dsn' : String} {url : ParsedUrl O}
    (h : lib.parse dsn = some url) (hbare : url.password = none)
    (h' : lib.parse dsn' = none) (hword : Unspaced dsn'.toList) :
    redactDsn lib dsn ≠ redactDsn lib dsn' := by
  rw [redactDsn_bare h hbare, redactDsn_keyValue h']
  intro heq
  have hcolon : ':' ∈ dsn.toList := by
    by_contra hno
    exact absurd (hlib.scheme dsn hno) (by simp [h])
  have hne : dsn'.toList ≠ [] := by
    intro hnil
    have hempty : dsn.toList = [] := by
      rw [heq, redactKeyValue, String.toList_ofList, hnil]
      decide
    rw [hempty] at hcolon
    cases hcolon
  have htoken : dsn.toList = redactToken dsn'.toList := by
    rw [heq, redactKeyValue, String.toList_ofList, splitWhitespace_word hword hne]
    simp
  cases hmarked : isPasswordWord dsn'.toList with
  | true =>
    rw [htoken, redactToken_password hmarked] at hcolon
    exact absurd hcolon (by decide)
  | false =>
    rw [redactToken_other hmarked] at htoken
    rw [← String.toList_inj.mp htoken, h] at h'
    cases h'

/-- **What is left of a password.**  Two DSNs in key=value form are redacted to the same text
    exactly if they agree word by word except in words that begin with `password=`; two URLs,
    exactly if both have a password in their userinfo and agree in everything else, or are the
    same; and a DSN that the crate does not read is never redacted to what a URL is, of one word
    when the URL has no password. -/
theorem redactDsn_eq_iff :
    (∀ dsn dsn', lib.parse dsn = none → lib.parse dsn' = none →
      (redactDsn lib dsn = redactDsn lib dsn' ↔
        List.Forall₂ SameRedacted (splitWhitespace dsn.toList) (splitWhitespace dsn'.toList))) ∧
    (∀ dsn dsn' url url', lib.parse dsn = some url → lib.parse dsn' = some url' →
      (redactDsn lib dsn = redactDsn lib dsn' ↔ SameUrl dsn dsn' url url')) ∧
    (∀ dsn dsn' url, lib.parse dsn = some url → url.password.isSome = true →
      lib.parse dsn' = none → Trimmed dsn'.toList → redactDsn lib dsn ≠ redactDsn lib dsn') ∧
    (∀ dsn dsn' url, lib.parse dsn = some url → url.password = none →
      lib.parse dsn' = none → Unspaced dsn'.toList → redactDsn lib dsn ≠ redactDsn lib dsn') := by
  refine ⟨fun dsn dsn' h h' => ?_, fun dsn dsn' url url' h h' => redactDsn_eq_iff_sameUrl hlib h h',
    fun dsn dsn' url h hpassword h' htrimmed => redactDsn_ne_unparsed hlib h hpassword h' htrimmed,
    fun dsn dsn' url h hbare h' hword => redactDsn_bare_ne_unparsed hlib h hbare h' hword⟩
  rw [redactDsn_keyValue h, redactDsn_keyValue h', redactKeyValue_eq_iff]

end Urls

/-- The crate on the URLs of one database. -/
def oneDatabase : UrlCrate Unit where
  parse text :=
    if text = "postgres://u:first@h/db" then some ⟨some "first", ()⟩
    else if text = "postgres://u:second@h/db" then some ⟨some "second", ()⟩
    else if text = "postgres://u:*****@h/db" then some ⟨some REDACTED, ()⟩
    else none
  print url := "postgres://u:" ++ url.password.getD "" ++ "@h/db"

theorem faithful_oneDatabase : oneDatabase.Faithful where
  readBack _ _ _ _ := by
    show oneDatabase.parse (oneDatabase.print ⟨some REDACTED, ()⟩) = some ⟨some REDACTED, ()⟩
    decide +kernel
  unspaced _ _ _ _ := by
    show Unspaced (oneDatabase.print ⟨some REDACTED, ()⟩).toList
    decide +kernel
  scheme text hcolon := by
    have hno : ∀ url : String, ':' ∈ url.toList → text ≠ url := by
      rintro url hurl rfl
      exact hcolon hurl
    simp only [oneDatabase,
      if_neg (hno _ (by decide +kernel : ':' ∈ "postgres://u:first@h/db".toList)),
      if_neg (hno _ (by decide +kernel : ':' ∈ "postgres://u:second@h/db".toList)),
      if_neg (hno _ (by decide +kernel : ':' ∈ "postgres://u:*****@h/db".toList))]

theorem redactDsn_two_passwords : redactDsn oneDatabase "postgres://u:first@h/db" =
    redactDsn oneDatabase "postgres://u:second@h/db" :=
  ((redactDsn_eq_iff faithful_oneDatabase).2.1 _ _ ⟨some "first", ()⟩ ⟨some "second", ()⟩
    (by decide +kernel) (by decide +kernel)).mpr (.inl ⟨rfl, rfl, rfl⟩)

/-- What stands behind the first blank of a quoted password is shown. -/
theorem quoted_password_shown :
    oneDatabase.parse "user=u password='se cr et' dbname=d" = none ∧
    oneDatabase.parse "user=u password='se cr at' dbname=d" = none ∧
    redactDsn oneDatabase "user=u password='se cr et' dbname=d" ≠
      redactDsn oneDatabase "user=u password='se cr at' dbname=d" := by
  decide +kernel

end Bosun
