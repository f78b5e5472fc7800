import Mathlib.Data.List.TakeWhile
import Bosun.Library.PercentCoding

/-!
# The path of a URL

How the path of an `http` URL is read.  Tabs and line breaks are dropped, the path ends
at `?` or `#`, `/` and `\` part the segments, and every byte that may not stand in a path
is escaped.  A segment that is one dot is dropped and one that is two dots drops the
segment before it as well; each dot may be written `%2e`.  At the end of the path such a
segment leaves an empty one behind.

Two of these rules are all that is asked of a reader (`ReadsPaths`): a path that is built
from segments is read back as these segments when no segment is a dot segment and each is
made of bytes that stand for themselves, and no path is read as one with a dot segment in
it.  `parse` follows all of the rules.
-/

namespace UrlPath

open PercentCoding

/-- The escaped dot may be in either case. -/
def singleDots : List (List UInt8) := [".", "%2e", "%2E"].map ascii

def doubleDots : List (List UInt8) :=
  ["..", "%2e%2e", "%2e%2E", "%2E%2e", "%2E%2E", "%2e.", "%2E.", ".%2e", ".%2E"].map ascii

def isDropped (b : UInt8) : Bool := b ∈ ascii "\t\n\r"

def isEnd (b : UInt8) : Bool := b ∈ ascii "?#"

def isSeparator (b : UInt8) : Bool := b ∈ ascii "/\\"

/-- Controls, everything beyond ASCII and a few more are escaped. -/
def isPathByte (b : UInt8) : Bool :=
  32 < b.toNat && b.toNat < 127 && !(b ∈ ascii "\"#<>?^`\x7b\x7d")

/-- The segments between the separators. -/
def split : List UInt8 → List (List UInt8)
  | [] => [[]]
  | b :: bs =>
    if isSeparator b then [] :: split bs
    else
      match split bs with
      | [] => [[b]]
      | segment :: segments => (b :: segment) :: segments

/-- One segment of the path; `last` when nothing comes after it. -/
def addSegment (path : List (List UInt8)) (segment : List UInt8) (last : Bool) :
    List (List UInt8) :=
  if segment ∈ doubleDots then path.dropLast ++ if last then [[]] else []
  else if segment ∈ singleDots then path ++ if last then [[]] else []
  else path ++ [segment]

def addSegments (path : List (List UInt8)) : List (List UInt8) → List (List UInt8)
  | [] => path
  | segment :: segments =>
    addSegments (addSegment path (encode isPathByte segment) segments.isEmpty) segments

/-- What is between the authority and the query; the first slash parts nothing. -/
def parse (text : List UInt8) : List (List UInt8) :=
  match (text.filter (!isDropped ·)).takeWhile (!isEnd ·) with
  | [] => [[]]
  | b :: bs => addSegments [] (split (if isSeparator b then bs else b :: bs))

/-- The path with these segments. -/
def build (segments : List (List UInt8)) : List UInt8 :=
  segments.flatMap fun segment => ascii "/" ++ segment

/-- A byte that stands for itself in a segment. -/
def isPlain (b : UInt8) : Bool := isPathByte b && !isSeparator b

theorem kept_of_isPlain {b : UInt8} (h : isPlain b = true) :
    isPathByte b = true ∧ isSeparator b = false := by
  simpa [isPlain] using h

/-- A byte of a path is none of those that are dropped and does not end it. -/
theorem isPathByte_stays (b : UInt8) :
    isPathByte b = true → isDropped b = false ∧ isEnd b = false :=
  forall_byte (p := fun b => isPathByte b = true → isDropped b = false ∧ isEnd b = false)
    (by decide +kernel) b

/-! ## Dot segments -/

/-- A dot segment reads as its dots. -/
theorem decode_of_mem_singleDots : ∀ segment ∈ singleDots, decode segment = ascii "." := by
  decide

theorem decode_of_mem_doubleDots : ∀ segment ∈ doubleDots, decode segment = ascii ".." := by
  decide

def IsDots (segment : List UInt8) : Prop := segment ∈ singleDots ∨ segment ∈ doubleDots

instance (segment : List UInt8) : Decidable (IsDots segment) := inferInstanceAs (Decidable (_ ∨ _))

/-- **No name becomes a dot segment but the dots themselves**, as long as they are kept. -/
theorem isDots_encode_iff {keep : UInt8 → Bool} (hpercent : keep percent = false)
    (hdot : ∀ b ∈ ascii ".", keep b = true) (bs : List UInt8) :
    IsDots (encode keep bs) ↔ bs = ascii "." ∨ bs = ascii ".." := by
  constructor
  · intro hdots
    rw [← decode_encode hpercent bs]
    exact hdots.imp (decode_of_mem_singleDots _) (decode_of_mem_doubleDots _)
  · intro hbs
    have hkept : ∀ b ∈ bs, keep b = true := by
      intro b hb
      refine hdot b ?_
      rcases hbs with rfl | rfl <;> simpa [ascii] using hb
    rw [encode_eq_self hkept]
    rcases hbs with rfl | rfl <;> decide

/-- The rules of the standard that a reader of paths is relied on for. -/
structure ReadsPaths (read : List UInt8 → List (List UInt8)) : Prop where
  /-- What stands for itself is kept, and parted at the slashes. -/
  kept : ∀ segment segments,
    (∀ s ∈ segment :: segments, (∀ b ∈ s, isPlain b = true) ∧ ¬ IsDots s) →
    read (build (segment :: segments)) = segment :: segments
  /-- Dot segments are gone. -/
  undotted : ∀ text, ∀ s ∈ read text, ¬ IsDots s

/-- **A built path is read as the segments it was built from exactly when none of them is
a dot segment.** -/
theorem ReadsPaths.read_build_eq_iff {read : List UInt8 → List (List UInt8)}
    (h : ReadsPaths read) {segment : List UInt8} {segments : List (List UInt8)}
    (hplain : ∀ s ∈ segment :: segments, ∀ b ∈ s, isPlain b = true) :
    read (build (segment :: segments)) = segment :: segments ↔
      ∀ s ∈ segment :: segments, ¬ IsDots s := by
  constructor
  · intro heq
    rw [← heq]
    exact h.undotted _
  · intro hdots
    exact h.kept segment segments fun s hs => ⟨hplain s hs, hdots s hs⟩

/-! ## A reader that follows the rules -/

theorem addSegment_of_not_isDots {segment : List UInt8} (h : ¬ IsDots segment)
    (path : List (List UInt8)) (last : Bool) :
    addSegment path segment last = path ++ [segment] := by
  rw [addSegment, if_neg fun hd => h (.inr hd), if_neg fun hs => h (.inl hs)]

theorem split_of_plain {segment : List UInt8} (h : ∀ b ∈ segment, isPlain b = true) :
    split segment = [segment] := by
  induction segment with
  | nil => rfl
  | cons b bs ih =>
    have hb := (kept_of_isPlain (h b List.mem_cons_self)).2
    simp [split, hb, ih fun c hc => h c (List.mem_cons_of_mem _ hc)]

theorem split_append_slash {segment : List UInt8} (h : ∀ b ∈ segment, isPlain b = true)
    (rest : List UInt8) : split (segment ++ (ascii "/" ++ rest)) = segment :: split rest := by
  induction segment with
  | nil => simp [ascii, split, show isSeparator '/'.toUInt8 = true from by decide]
  | cons b bs ih =>
    have hb := (kept_of_isPlain (h b List.mem_cons_self)).2
    rw [List.cons_append, split, if_neg (by simp [hb]),
      ih fun c hc => h c (List.mem_cons_of_mem _ hc)]

/-- The separators part what was put between them. -/
theorem split_build {segment : List UInt8} {segments : List (List UInt8)}
    (h : ∀ s ∈ segment :: segments, ∀ b ∈ s, isPlain b = true) :
    split (segment ++ build segments) = segment :: segments := by
  induction segments generalizing segment with
  | nil => simpa [build] using split_of_plain (h segment List.mem_cons_self)
  | cons next segments ih =>
    have hrest := ih fun s hs => h s (List.mem_cons_of_mem _ hs)
    rw [build, List.flatMap_cons, List.append_assoc, split_append_slash (h _ List.mem_cons_self)]
    rw [build] at hrest
    rw [hrest]

theorem isSeparator_or_isPathByte_of_mem_build {segments : List (List UInt8)}
    (h : ∀ s ∈ segments, ∀ b ∈ s, isPlain b = true) {b : UInt8} (hb : b ∈ build segments) :
    isPathByte b = true := by
  obtain ⟨s, hs, hb⟩ := List.mem_flatMap.mp hb
  rcases List.mem_append.mp hb with hb | hb
  · have hslash : ∀ b ∈ ascii "/", isPathByte b = true := by decide +kernel
    exact hslash b hb
  · exact (kept_of_isPlain (h s hs b hb)).1

/-- **A built path is read segment by segment.** -/
theorem parse_build {segment : List UInt8} {segments : List (List UInt8)}
    (h : ∀ s ∈ segment :: segments, ∀ b ∈ s, isPlain b = true) :
    parse (build (segment :: segments)) = addSegments [] (segment :: segments) := by
  have hbytes : ∀ b ∈ build (segment :: segments), isDropped b = false ∧ isEnd b = false :=
    fun b hb => isPathByte_stays b (isSeparator_or_isPathByte_of_mem_build h hb)
  have hfilter :
      (build (segment :: segments)).filter (!isDropped ·) = build (segment :: segments) :=
    List.filter_eq_self.mpr fun b hb => by simp [(hbytes b hb).1]
  have hwhole : (build (segment :: segments)).takeWhile (!isEnd ·) = build (segment :: segments) :=
    List.takeWhile_eq_self_iff.mpr fun b hb => by simp [(hbytes b hb).2]
  have hslash : isSeparator '/'.toUInt8 = true := by decide +kernel
  rw [parse, hfilter, hwhole]
  show addSegments [] (split (if isSeparator '/'.toUInt8 then _ else _)) = _
  rw [if_pos hslash]
  exact congrArg _ (split_build h)

/-- Without dot segments nothing is dropped. -/
theorem addSegments_of_not_isDots {segments : List (List UInt8)}
    (h : ∀ s ∈ segments, (∀ b ∈ s, isPlain b = true) ∧ ¬ IsDots s) (path : List (List UInt8)) :
    addSegments path segments = path ++ segments := by
  induction segments generalizing path with
  | nil => simp [addSegments]
  | cons s segments ih =>
    obtain ⟨hplain, hdots⟩ := h s List.mem_cons_self
    have hself : encode isPathByte s = s :=
      encode_eq_self fun b hb => (kept_of_isPlain (hplain b hb)).1
    rw [addSegments, hself, addSegment_of_not_isDots hdots,
      ih fun t ht => h t (List.mem_cons_of_mem _ ht)]
    simp

/-- No dot segment is left in a path. -/
theorem not_isDots_of_mem_addSegments {path : List (List UInt8)} (h : ∀ s ∈ path, ¬ IsDots s)
    (segments : List (List UInt8)) : ∀ s ∈ addSegments path segments, ¬ IsDots s := by
  induction segments generalizing path with
  | nil => exact h
  | cons segment segments ih =>
    refine ih fun s hs => ?_
    have hempty : ∀ s ∈ if segments.isEmpty then [([] : List UInt8)] else [], ¬ IsDots s := by
      intro s hs
      have hnil : s = [] := by
        split at hs <;> simp_all
      subst hnil
      decide
    by_cases hdots : IsDots (encode isPathByte segment)
    · unfold addSegment at hs
      split at hs
      · exact (List.mem_append.mp hs).elim (fun hp => h s (List.dropLast_subset _ hp)) (hempty s)
      · rw [if_pos (hdots.resolve_right ‹_›)] at hs
        exact (List.mem_append.mp hs).elim (h s) (hempty s)
    · rw [addSegment_of_not_isDots hdots] at hs
      rcases List.mem_append.mp hs with hp | hp
      · exact h s hp
      · rwa [List.mem_singleton.mp hp]

theorem readsPaths_parse : ReadsPaths parse where
  kept segment segments h := by
    rw [parse_build fun s hs => (h s hs).1, addSegments_of_not_isDots h, List.nil_append]
  undotted text := by
    unfold parse
    split
    · decide
    · exact not_isDots_of_mem_addSegments (by simp) _

end UrlPath
