import Mathlib.Data.List.Basic

/-!
# Percent-coding

A byte string is written byte by byte: a byte that is kept stands for itself, every other
one becomes `%` and two upper-case hexadecimal digits.  Which bytes are kept is a
parameter.  A reader takes `%` with two digits of either case for the byte they stand for
and leaves everything else as it is.

What is written reads back as what it was, as soon as `%` itself is not kept.
-/

namespace PercentCoding

/-- The bytes of an ASCII text. -/
def ascii (s : String) : List UInt8 := s.toList.map Char.toUInt8

def percent : UInt8 := '%'.toUInt8

/-- `0`-`9` and `A`-`F`. -/
def hexDigit (n : Nat) : UInt8 := UInt8.ofNat (if n < 10 then 48 + n else 55 + n)

def hexValue (b : UInt8) : Option Nat :=
  if 48 ≤ b.toNat ∧ b.toNat ≤ 57 then some (b.toNat - 48)
  else if 65 ≤ b.toNat ∧ b.toNat ≤ 70 then some (b.toNat - 55)
  else if 97 ≤ b.toNat ∧ b.toNat ≤ 102 then some (b.toNat - 87)
  else none

def escape (b : UInt8) : List UInt8 := [percent, hexDigit (b.toNat / 16), hexDigit (b.toNat % 16)]

def encode (keep : UInt8 → Bool) (bs : List UInt8) : List UInt8 :=
  bs.flatMap fun b => if keep b then [b] else escape b

def decode : List UInt8 → List UInt8
  | [] => []
  | [b] => [b]
  | [b, c] => [b, c]
  | b :: c :: d :: rest =>
    if b = percent then
      match hexValue c, hexValue d with
      | some hi, some lo => UInt8.ofNat (16 * hi + lo) :: decode rest
      | _, _ => b :: decode (c :: d :: rest)
    else b :: decode (c :: d :: rest)

/-- What can be checked on every byte holds of every byte. -/
theorem forall_byte {p : UInt8 → Prop} (h : ∀ n < 256, p (UInt8.ofNat n)) (b : UInt8) : p b := by
  have hb := h b.toNat b.toNat_lt
  rwa [UInt8.ofNat_toNat] at hb

theorem hexValue_hexDigit : ∀ n < 16, hexValue (hexDigit n) = some n := by decide

theorem decode_cons_of_ne {b : UInt8} (h : b ≠ percent) (rest : List UInt8) :
    decode (b :: rest) = b :: decode rest := by
  match rest with
  | [] => rfl
  | [_] => rfl
  | _ :: _ :: _ => rw [decode, if_neg h]

/-- An escaped byte reads back as itself, whatever follows. -/
theorem decode_escape_append (b : UInt8) (rest : List UInt8) :
    decode (escape b ++ rest) = b :: decode rest := by
  have hlt := b.toNat_lt
  have hhi := hexValue_hexDigit (b.toNat / 16) (by omega)
  have hlo := hexValue_hexDigit (b.toNat % 16) (by omega)
  have hsum : 16 * (b.toNat / 16) + b.toNat % 16 = b.toNat := by omega
  simp [escape, decode, hhi, hlo, hsum]

section Keep

variable {keep : UInt8 → Bool}

@[simp] theorem encode_nil : encode keep [] = [] := rfl

theorem encode_cons (b : UInt8) (bs : List UInt8) :
    encode keep (b :: bs) = (if keep b then [b] else escape b) ++ encode keep bs :=
  List.flatMap_cons

/-- **Round trip.**  What is written reads back as what it was. -/
theorem decode_encode (hpercent : keep percent = false) (bs : List UInt8) :
    decode (encode keep bs) = bs := by
  induction bs with
  | nil => rfl
  | cons b bs ih =>
    rw [encode_cons]
    by_cases hkeep : keep b = true
    · have hne : b ≠ percent := by
        rintro rfl
        rw [hpercent] at hkeep
        cases hkeep
      rw [if_pos hkeep, List.singleton_append, decode_cons_of_ne hne, ih]
    · rw [if_neg hkeep, decode_escape_append, ih]

theorem encode_injective (hpercent : keep percent = false) :
    Function.Injective (encode keep) :=
  Function.LeftInverse.injective (decode_encode hpercent)

/-- Where everything is kept, nothing changes. -/
theorem encode_eq_self {bs : List UInt8} (h : ∀ b ∈ bs, keep b = true) : encode keep bs = bs := by
  induction bs with
  | nil => rfl
  | cons b bs ih =>
    rw [encode_cons, if_pos (h b List.mem_cons_self), List.singleton_append,
      ih fun c hc => h c (List.mem_cons_of_mem _ hc)]

/-- Only kept bytes, `%` and the digits occur in what is written. -/
theorem of_mem_encode {p : UInt8 → Prop} (hkeep : ∀ b, keep b = true → p b) (hpercent : p percent)
    (hdigit : ∀ n < 16, p (hexDigit n)) {bs : List UInt8} {c : UInt8} (hc : c ∈ encode keep bs) :
    p c := by
  obtain ⟨b, -, hc⟩ := List.mem_flatMap.mp hc
  by_cases hb : keep b = true
  · rw [if_pos hb, List.mem_singleton] at hc
    exact hc ▸ hkeep b hb
  · have hlt := b.toNat_lt
    rw [if_neg hb] at hc
    simp only [escape, List.mem_cons, List.not_mem_nil, or_false] at hc
    rcases hc with rfl | rfl | rfl
    · exact hpercent
    · exact hdigit _ (by omega)
    · exact hdigit _ (by omega)

end Keep

end PercentCoding
