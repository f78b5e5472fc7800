import Mathlib.Algebra.GroupWithZero.Nat
import Mathlib.Data.List.Basic

/-!
# Text as UTF-8

Lengths and positions in a text are counted in bytes.  A position can be between two
characters or inside one; a text can be cut at it only in the first case.

`decodeLossy` reads any bytes as text: what is not UTF-8 becomes U+FFFD, one for every
maximal run of bytes that could have begun a character.  Bytes that are UTF-8 are read as
the text they encode.
-/

namespace Utf8

def encode (cs : List Char) : List UInt8 := cs.flatMap String.utf8EncodeChar

/-- `str::len` -/
def len (cs : List Char) : Nat := (cs.map Char.utf8Size).sum

@[simp] theorem len_nil : len [] = 0 := rfl

@[simp] theorem len_cons (c : Char) (cs : List Char) : len (c :: cs) = c.utf8Size + len cs := by
  simp [len]

@[simp] theorem len_append (cs ds : List Char) : len (cs ++ ds) = len cs + len ds := by
  simp [len]

theorem len_replicate (n : Nat) (c : Char) : len (List.replicate n c) = n * c.utf8Size := by
  rw [len, List.map_replicate, List.sum_replicate_nat]

theorem length_encode (cs : List Char) : (encode cs).length = len cs := by
  induction cs with
  | nil => rfl
  | cons c cs ih =>
    rw [encode] at ih
    rw [encode, List.flatMap_cons, List.length_append, ih, String.length_utf8EncodeChar, len_cons]

/-! ## Positions -/

/-- `str::is_char_boundary`: some of the text ends there. -/
def IsCharBoundary (cs : List Char) (n : Nat) : Prop := ∃ ds, ds <+: cs ∧ len ds = n

/-- `&text[..n]`, nothing when it is out of range or inside a character. -/
def sliceTo : List Char → Nat → Option (List Char)
  | _, 0 => some []
  | [], _ + 1 => none
  | c :: cs, n + 1 =>
    if c.utf8Size ≤ n + 1 then (sliceTo cs (n + 1 - c.utf8Size)).map (c :: ·) else none

/-- Only the empty text takes no bytes. -/
theorem len_eq_zero {cs : List Char} (h : len cs = 0) : cs = [] := by
  cases cs with
  | nil => rfl
  | cons c cs =>
    have := c.utf8Size_pos
    simp only [len_cons] at h
    omega

/-- **A slice is the beginning of the text that takes so many bytes.** -/
theorem sliceTo_eq_some_iff {cs ds : List Char} {n : Nat} :
    sliceTo cs n = some ds ↔ ds <+: cs ∧ len ds = n := by
  fun_induction sliceTo cs n generalizing ds with
  | case1 cs =>
    simp only [Option.some.injEq]
    constructor
    · rintro rfl
      exact ⟨List.nil_prefix, rfl⟩
    · exact fun h => (len_eq_zero h.2).symm
  | case2 n =>
    simp only [reduceCtorEq, false_iff, List.prefix_nil]
    rintro ⟨rfl, h⟩
    cases h
  | case3 c cs n hle ih =>
    simp only [Option.map_eq_some_iff, ih]
    constructor
    · rintro ⟨ds, ⟨hpre, hlen⟩, rfl⟩
      refine ⟨List.cons_prefix_cons.mpr ⟨rfl, hpre⟩, ?_⟩
      rw [len_cons, hlen]
      omega
    · rintro ⟨hpre, hlen⟩
      cases ds with
      | nil => cases hlen
      | cons d ds =>
        obtain ⟨rfl, htail⟩ := List.cons_prefix_cons.mp hpre
        rw [len_cons] at hlen
        exact ⟨ds, ⟨htail, by omega⟩, rfl⟩
  | case4 c cs n hle =>
    simp only [reduceCtorEq, false_iff]
    rintro ⟨hpre, hlen⟩
    cases ds with
    | nil => cases hlen
    | cons d ds =>
      obtain ⟨rfl, -⟩ := List.cons_prefix_cons.mp hpre
      rw [len_cons] at hlen
      omega

theorem isCharBoundary_iff (cs : List Char) (n : Nat) :
    IsCharBoundary cs n ↔ ∃ ds, sliceTo cs n = some ds := by
  simp only [sliceTo_eq_some_iff, IsCharBoundary]

/-- After some text, a position inside the next character is no boundary. -/
theorem not_isCharBoundary_inside (cs : List Char) {c : Char} (ds : List Char) {k : Nat}
    (hpos : 0 < k) (hlt : k < c.utf8Size) : ¬ IsCharBoundary (cs ++ c :: ds) (len cs + k) := by
  rintro ⟨es, hes, hlen⟩
  rcases List.prefix_or_prefix_of_prefix hes (List.prefix_append cs (c :: ds)) with hpre | hpre
  · have hle : len es ≤ len cs := by
      obtain ⟨rest, rfl⟩ := hpre
      simp
    omega
  · obtain ⟨fs, rfl⟩ := hpre
    have hfs := (List.prefix_append_right_inj cs).mp hes
    rw [len_append] at hlen
    cases fs with
    | nil => simp at hlen; omega
    | cons f fs =>
      obtain ⟨rfl, -⟩ := List.cons_prefix_cons.mp hfs
      rw [len_cons] at hlen
      omega

/-! ## Reading bytes -/

/-- The character that the bytes begin with. -/
def decodeFirst (bs : List UInt8) : Option Char := bs.toByteArray.utf8DecodeChar? 0

def isContinuation (b : UInt8) : Bool := 0x80 ≤ b && b ≤ 0xBF

/-- Whether some character begins with these two bytes and takes more than two. -/
def opensLonger (b c : UInt8) : Bool :=
  if b = 0xE0 then 0xA0 ≤ c && c ≤ 0xBF
  else if b = 0xED then 0x80 ≤ c && c ≤ 0x9F
  else if b = 0xF0 then 0x90 ≤ c && c ≤ 0xBF
  else if b = 0xF4 then 0x80 ≤ c && c ≤ 0x8F
  else 0xE0 ≤ b && b ≤ 0xF4 && isContinuation c

/-- How many bytes one U+FFFD stands for where no character begins. -/
def invalidLen : List UInt8 → Nat
  | b :: c :: d :: _ =>
    if opensLonger b c then if 0xF0 ≤ b && isContinuation d then 3 else 2 else 1
  | [b, c] => if opensLonger b c then 2 else 1
  | _ => 1

/-- `String::from_utf8_lossy`, with fuel for the bytes that are left -/
def decodeLossyAux : Nat → List UInt8 → List Char
  | 0, _ | _, [] => []
  | fuel + 1, bs =>
    match decodeFirst bs with
    | some c => c :: decodeLossyAux fuel (bs.drop c.utf8Size)
    | none => '\uFFFD' :: decodeLossyAux fuel (bs.drop (invalidLen bs))

def decodeLossy (bs : List UInt8) : List Char := decodeLossyAux bs.length bs

theorem decodeFirst_encode_append (c : Char) (bs : List UInt8) :
    decodeFirst (String.utf8EncodeChar c ++ bs) = some c := by
  rw [decodeFirst, List.toByteArray_append]
  exact ByteArray.utf8DecodeChar?_utf8EncodeChar_append

theorem decodeLossyAux_encode {fuel : Nat} {cs : List Char} (hfuel : len cs ≤ fuel) :
    decodeLossyAux fuel (encode cs) = cs := by
  induction cs generalizing fuel with
  | nil => cases fuel <;> rfl
  | cons c cs ih =>
    have hpos := c.utf8Size_pos
    have hlen := String.length_utf8EncodeChar c
    rw [len_cons] at hfuel
    cases fuel with
    | zero => omega
    | succ fuel =>
      have hne : encode (c :: cs) ≠ [] := by
        rw [← List.length_pos_iff, length_encode, len_cons]
        omega
      have hfirst : decodeFirst (encode (c :: cs)) = some c := decodeFirst_encode_append c _
      have hrest : (encode (c :: cs)).drop c.utf8Size = encode cs := by
        rw [← hlen]
        exact List.drop_left
      rw [decodeLossyAux.eq_3 _ _ hne, hfirst]
      show c :: decodeLossyAux fuel ((encode (c :: cs)).drop c.utf8Size) = _
      rw [hrest, ih (by omega)]

/-- **Bytes that are UTF-8 are read as the text they encode.** -/
theorem decodeLossy_encode (cs : List Char) : decodeLossy (encode cs) = cs :=
  decodeLossyAux_encode (Nat.le_of_eq (length_encode cs).symm)

end Utf8
