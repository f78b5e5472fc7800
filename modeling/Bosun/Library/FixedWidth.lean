import Mathlib.Data.Char
import Mathlib.Data.List.Lex
import Mathlib.Tactic.IntervalCases
import Mathlib.Tactic.Ring

/-!
# Numbers of a fixed width

Decimal numbers padded with zeros to a fixed width compare as texts the way they compare as
numbers, and so do texts put together from such fields.

`decimal` writes a number of units of `10 ^ -places` with a point, and tells all of it
(`decimal_injective`).  What such a text loses of a fraction is lost in `roundRatio`;
`two_mul_abs_roundRatio_sub` bounds it.
-/

namespace FixedWidth

/-- Two texts that begin with parts of the same length. -/
theorem append_lt_append {α : Type*} [LinearOrder α] {b d : List α} : ∀ {a c : List α},
    a.length = c.length → (a ++ b < c ++ d ↔ a < c ∨ a = c ∧ b < d) := by
  intro a
  induction a with
  | nil =>
    intro c h
    obtain rfl : c = [] := List.eq_nil_of_length_eq_zero h.symm
    simp
  | cons x a ih =>
    intro c h
    cases c with
    | nil => simp at h
    | cons y c =>
      rw [List.cons_append, List.cons_append, List.cons_lt_cons_iff, List.cons_lt_cons_iff,
        ih (Nat.succ.inj h), List.cons.injEq]
      tauto

/-- The last `width` digits. -/
def digits : Nat → Nat → List Char
  | 0, _ => []
  | width + 1, n => digits width (n / 10) ++ [Nat.digitChar (n % 10)]

@[simp] theorem length_digits (width : Nat) : ∀ n, (digits width n).length = width := by
  induction width with
  | zero =>
    intro n
    rfl
  | succ width ih =>
    intro n
    rw [digits, List.length_append, ih, List.length_singleton]

theorem digitChar_lt_iff {m n : Nat} (hm : m < 10) (hn : n < 10) :
    Nat.digitChar m < Nat.digitChar n ↔ m < n := by
  interval_cases m <;> interval_cases n <;> decide

theorem isDigit_digitChar {n : Nat} (hn : n < 10) : (Nat.digitChar n).isDigit = true := by
  interval_cases n <;> decide

theorem isDigit_of_mem {width : Nat} {c : Char} : ∀ {n}, c ∈ digits width n → c.isDigit = true := by
  induction width with
  | zero =>
    intro n h
    cases h
  | succ width ih =>
    intro n h
    rcases List.mem_append.mp h with hinit | hlast
    · exact ih hinit
    · rw [List.mem_singleton.mp hlast]
      exact isDigit_digitChar (Nat.mod_lt _ (by omega))

theorem digits_injective {width : Nat} : ∀ {m n : Nat}, m < 10 ^ width → n < 10 ^ width →
    digits width m = digits width n → m = n := by
  induction width with
  | zero =>
    intro m n hm hn _
    rw [pow_zero] at hm hn
    omega
  | succ width ih =>
    intro m n hm hn h
    rw [pow_succ] at hm hn
    obtain ⟨hinit, hlast⟩ := List.append_inj' h rfl
    have hdiv := ih (by omega) (by omega) hinit
    have hmod : m % 10 = n % 10 := by
      have hm' := Nat.mod_lt m (by omega : 10 > 0)
      have hn' := Nat.mod_lt n (by omega : 10 > 0)
      have hchar := List.singleton_inj.mp hlast
      rcases lt_trichotomy (m % 10) (n % 10) with hlt | heq | hgt
      · have := (digitChar_lt_iff hm' hn').mpr hlt
        rw [hchar] at this
        exact absurd this (lt_irrefl _)
      · exact heq
      · have := (digitChar_lt_iff hn' hm').mpr hgt
        rw [hchar] at this
        exact absurd this (lt_irrefl _)
    omega

/-- The order of the texts is the order of the numbers. -/
theorem digits_lt_iff {width : Nat} : ∀ {m n : Nat}, m < 10 ^ width → n < 10 ^ width →
    (digits width m < digits width n ↔ m < n) := by
  induction width with
  | zero =>
    intro m n hm hn
    rw [pow_zero] at hm hn
    simp [digits]
    omega
  | succ width ih =>
    intro m n hm hn
    rw [pow_succ] at hm hn
    have hm' := Nat.mod_lt m (by omega : 10 > 0)
    have hn' := Nat.mod_lt n (by omega : 10 > 0)
    have hmdiv : m / 10 < 10 ^ width := by omega
    have hndiv : n / 10 < 10 ^ width := by omega
    have heq : digits width (m / 10) = digits width (n / 10) ↔ m / 10 = n / 10 :=
      ⟨digits_injective hmdiv hndiv, fun h => by rw [h]⟩
    have hlast : [Nat.digitChar (m % 10)] < [Nat.digitChar (n % 10)] ↔ m % 10 < n % 10 := by
      rw [List.cons_lt_cons_iff, digitChar_lt_iff hm' hn']
      simp
    rw [digits, digits, append_lt_append (by simp), ih hmdiv hndiv, heq, hlast]
    omega

/-! ## Behind a point -/

/-- `n` units of `10 ^ -places` -/
def decimal (places n : Nat) : String :=
  toString (n / 10 ^ places) ++ "." ++ String.ofList (digits places (n % 10 ^ places))

theorem toList_decimal (places n : Nat) : (decimal places n).toList =
    (toString (n / 10 ^ places)).toList ++ '.' :: digits places (n % 10 ^ places) := by
  simp [decimal]

theorem decimal_injective (places : Nat) : Function.Injective (decimal places) := by
  intro m n h
  have hlist := congrArg String.toList h
  rw [toList_decimal, toList_decimal] at hlist
  obtain ⟨hwhole, hbehind⟩ := List.append_inj' hlist (by simp)
  have hdiv : m / 10 ^ places = n / 10 ^ places := by
    have hvalue := congrArg (fun chars => Nat.ofDigitChars 10 chars 0) hwhole
    simpa using hvalue
  have hpos : 0 < 10 ^ places := Nat.pow_pos (by decide)
  have hmod : m % 10 ^ places = n % 10 ^ places :=
    digits_injective (Nat.mod_lt m hpos) (Nat.mod_lt n hpos) (List.cons.inj hbehind).2
  rw [← Nat.div_add_mod m (10 ^ places), ← Nat.div_add_mod n (10 ^ places), hdiv, hmod]

/-- The whole number nearest to `num / den`, the even one of two. -/
def roundRatio (num den : Nat) : Nat :=
  let down := num / den
  let rest := num % den
  if den < 2 * rest ∨ den = 2 * rest ∧ down % 2 = 1 then down + 1 else down

theorem two_mul_abs_roundRatio_sub (num : Nat) {den : Nat} (hden : 0 < den) :
    2 * |(roundRatio num den * den : Int) - num| ≤ den := by
  have hsplit : (num : Int) = den * (num / den : Nat) + (num % den : Nat) := by
    exact_mod_cast (Nat.div_add_mod num den).symm
  have hrest : num % den < den := Nat.mod_lt num hden
  unfold roundRatio
  dsimp only
  split
  · rename_i hup
    have hdiff : (((num / den + 1 : Nat) : Int) * den : Int) - num = den - (num % den : Nat) := by
      rw [hsplit]
      push_cast
      ring
    rw [hdiff, abs_of_nonneg (by omega)]
    omega
  · rename_i hdown
    have hdiff : (((num / den : Nat) : Int) * den : Int) - num = -(num % den : Nat) := by
      rw [hsplit]
      push_cast
      ring
    rw [hdiff, abs_neg, abs_of_nonneg (by omega)]
    omega

/-- A sixteenth lies half way between two thousandths, and goes to the even one. -/
example : decimal 3 (roundRatio 1000 16) = "0.062" := by decide

end FixedWidth
