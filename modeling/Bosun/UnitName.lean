import Mathlib.Data.List.Basic

/-!
# Names of units

`unit_name.rs`: a name that comes from the author of a bundle is checked once, before
it gets into the path of a request or the name of a file.  A `UnitName` is a string
that has passed the check.

Lengths are lengths in bytes.
-/

namespace Bosun

inductive UnitNameError
  | empty
  | tooLong (len : Nat)
  | invalidChar (input : String) (offset : Nat) (ch : Char)
  | badFirstChar (input : String) (ch : Char)
deriving DecidableEq, Repr

def UNIT_NAME_MAX_BYTES : Nat := 255

namespace UnitName

/-- Letters and digits of ASCII, and four more. -/
def isAllowedByte (c : Char) : Bool :=
  c.isAlphanum || c = '.' || c = '_' || c = '@' || c = '-'

/-- The first character that is not allowed.  Those before it take one byte each. -/
def firstInvalid : Nat → List Char → Option (Nat × Char)
  | _, [] => none
  | offset, c :: cs => if isAllowedByte c then firstInvalid (offset + 1) cs else some (offset, c)

def validate (s : String) : Except UnitNameError Unit :=
  if s = "" then .error .empty
  else if UNIT_NAME_MAX_BYTES < s.utf8ByteSize then .error (.tooLong s.utf8ByteSize)
  else
    match s.toList with
    | [] => .error .empty
    | first :: rest =>
      if !first.isAlphanum then .error (.badFirstChar s first)
      else
        match firstInvalid 0 (first :: rest) with
        | some (offset, ch) => .error (.invalidChar s offset ch)
        | none => .ok ()

end UnitName

structure UnitName where
  asStr : String
  valid : UnitName.validate asStr = .ok ()

namespace UnitName

def new (s : String) : Except UnitNameError UnitName :=
  match h : validate s with
  | .ok () => .ok ⟨s, h⟩
  | .error e => .error e

theorem ext {name name' : UnitName} (h : name.asStr = name'.asStr) : name = name' := by
  cases name
  cases name'
  simpa using h

theorem firstInvalid_eq_none {offset : Nat} {cs : List Char} :
    firstInvalid offset cs = none ↔ ∀ c ∈ cs, isAllowedByte c = true := by
  induction cs generalizing offset with
  | nil => simp [firstInvalid]
  | cons c cs ih =>
    by_cases hc : isAllowedByte c = true
    · simp [firstInvalid, hc, ih]
    · simp [firstInvalid, hc]

/-- `^[a-zA-Z0-9][a-zA-Z0-9._@-]*$`, and not too long. -/
theorem validate_ok_iff (s : String) : validate s = .ok () ↔
    s.utf8ByteSize ≤ UNIT_NAME_MAX_BYTES ∧
    (∃ first rest, s.toList = first :: rest ∧ first.isAlphanum = true) ∧
    ∀ c ∈ s.toList, isAllowedByte c = true := by
  unfold validate
  by_cases hempty : s = ""
  · simp [hempty]
  · by_cases hlen : UNIT_NAME_MAX_BYTES < s.utf8ByteSize
    · simp [hempty, hlen, Nat.not_le.mpr hlen]
    · rw [if_neg hempty, if_neg hlen]
      match hlist : s.toList with
      | [] => simp
      | first :: rest =>
        by_cases hfirst : first.isAlphanum = true
        · cases hinvalid : firstInvalid 0 (first :: rest) with
          | none =>
            have hall := firstInvalid_eq_none.mp hinvalid
            simpa [hfirst, hinvalid, Nat.le_of_not_lt hlen] using hall
          | some p =>
            have hnot : ¬ ∀ c ∈ first :: rest, isAllowedByte c = true := fun hall => by
              rw [firstInvalid_eq_none.mpr hall] at hinvalid
              cases hinvalid
            simp only [hfirst, hinvalid, Bool.not_true, Bool.false_eq_true, if_false, reduceCtorEq,
              false_iff]
            exact fun h => hnot h.2.2
        · simp [hfirst]

theorem new_ok_iff (s : String) : (∃ name, new s = .ok name) ↔ validate s = .ok () := by
  unfold new
  split <;> simp_all

theorem isAllowedByte_of_mem (name : UnitName) {c : Char} (h : c ∈ name.asStr.toList) :
    isAllowedByte c = true :=
  ((validate_ok_iff name.asStr).mp name.valid).2.2 c h

theorem utf8ByteSize_le (name : UnitName) : name.asStr.utf8ByteSize ≤ UNIT_NAME_MAX_BYTES :=
  ((validate_ok_iff name.asStr).mp name.valid).1

end UnitName

end Bosun
