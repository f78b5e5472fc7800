import Bosun.AptPackage
import Bosun.Library.Utf8

/-!
# Excerpts of stderr

When `apt-get update` of `apt.update_cache` or `sysctl -p` of `sysctl.reload` fails, the
error quotes the first 512 bytes of stderr.  The bytes are counted in the decoded text, and
the text is cut at a position in bytes: a slice of a `str` panics when that is inside a
character.

The panic is caught where the orchestrator calls the primitive, and what it reports there
is no longer the error of the command.
-/

namespace Bosun

open Utf8

/-- The code and the decoded output of a command that has written these bytes. -/
def CommandResult.ofBytes (exitCode : Option Int) (stdout stderr : List UInt8) : CommandResult :=
  ⟨exitCode, String.ofList (decodeLossy stdout), String.ofList (decodeLossy stderr)⟩

/-- Bytes of stderr in an error. -/
def STDERR_LIMIT : Nat := 512

/-- `&text[..n]`; the panic says where it was cut. -/
def slice (sliceError : String → Nat → String) (text : String) (n : Nat) :
    Except PanicPayload String :=
  match sliceTo text.toList n with
  | some cs => .ok (String.ofList cs)
  | none => .error (.string (sliceError text n))

section Backends

variable (sliceError : String → Nat → String)

/-- What both backends put into their error. -/
def excerptOf (stderr : String) : Except PanicPayload String :=
  if STDERR_LIMIT < len stderr.toList then
    (slice sliceError stderr STDERR_LIMIT).map (· ++ "…")
  else .ok stderr

/-- `RealAptCacheBackend::update`; `runCommand` is the runner. -/
def aptCacheUpdate (runCommand : String → List String → Nat → Except PrimitiveError CommandResult)
    (deadline : Nat) : Except PanicPayload (Except PrimitiveError Unit) :=
  match runCommand "apt-get"
      ["update", "-qy", "-oDPkg::Lock::Timeout=30", "-oAPT::Acquire::Retries=3"] deadline with
  | .error e => .ok (.error e)
  | .ok result =>
    if result.exitCode = some 0 then .ok (.ok ())
    else
      match excerptOf sliceError result.stderr with
      | .error payload => .error payload
      | .ok excerpt => .ok (.error (.exec "apt-get update failed" result.exitCode excerpt))

/-- What `Command::output` gives. -/
structure ProcessOutput where
  code : Option Int
  stderr : List UInt8

/-- `RealSysctlBackend::reload`; `output` runs the command with both streams read. -/
def sysctlReload (output : String → List String → Except String ProcessOutput) (path : String) :
    Except PanicPayload (Except String Unit) :=
  match output "sysctl" ["-p", path] with
  | .error e => .ok (.error ("spawn sysctl -p " ++ path ++ ": " ++ e))
  | .ok output =>
    if output.code = some 0 then .ok (.ok ())
    else
      match excerptOf sliceError (String.ofList (decodeLossy output.stderr)) with
      | .error payload => .error payload
      | .ok excerpt =>
        .ok (.error ("sysctl -p " ++ path ++ " exit " ++ PrimitiveError.debugPid output.code ++
          ": " ++ excerpt))

/-- The end of `apt.update_cache`'s apply as the orchestrator sees it. -/
def aptCacheCall (result : Except PanicPayload (Except PrimitiveError Unit)) : Call Unit :=
  match result with
  | .ok result => .returned result
  | .error payload => .panicked payload

/-- The end of `sysctl.reload`'s apply. -/
def sysctlCall (result : Except PanicPayload (Except String Unit)) : Call Unit :=
  match result with
  | .ok (.ok ()) => .returned (.ok ())
  | .ok (.error reason) => .returned (.error (.apply reason))
  | .error payload => .panicked payload

/-! ## When the text can be cut -/

/-- The beginning of the text, not too long, with an ellipsis where something is missing. -/
def IsExcerpt (text excerpt : String) : Prop :=
  (excerpt = text ∧ len text.toList ≤ STDERR_LIMIT) ∨
  ∃ cs, cs <+: text.toList ∧ len cs ≤ STDERR_LIMIT ∧ excerpt = String.ofList cs ++ "…"

/-- The text is short, or position 512 is between two characters. -/
def Cuttable (text : String) : Prop :=
  len text.toList ≤ STDERR_LIMIT ∨ IsCharBoundary text.toList STDERR_LIMIT

theorem excerptOf_of_cuttable {text : String} (h : Cuttable text) :
    ∃ excerpt, excerptOf sliceError text = .ok excerpt ∧ IsExcerpt text excerpt := by
  unfold excerptOf
  by_cases hlong : STDERR_LIMIT < len text.toList
  · obtain ⟨cs, hcs⟩ := (isCharBoundary_iff _ _).mp (h.resolve_left (by omega))
    obtain ⟨hpre, hlen⟩ := sliceTo_eq_some_iff.mp hcs
    refine ⟨String.ofList cs ++ "…", ?_, .inr ⟨cs, hpre, by omega, rfl⟩⟩
    simp only [if_pos hlong, slice, hcs]
    rfl
  · exact ⟨text, if_neg hlong, .inl ⟨rfl, by omega⟩⟩

theorem excerptOf_of_not_cuttable {text : String} (h : ¬ Cuttable text) :
    excerptOf sliceError text = .error (.string (sliceError text STDERR_LIMIT)) := by
  obtain ⟨hlong, hinside⟩ := not_or.mp h
  have hnone : sliceTo text.toList STDERR_LIMIT = none := by
    rw [Option.eq_none_iff_forall_ne_some]
    exact fun cs hcs => hinside ((isCharBoundary_iff _ _).mpr ⟨cs, hcs⟩)
  rw [excerptOf, if_pos (by omega), slice, hnone]
  rfl

/-- The command has failed and its stderr is these bytes: both backends return their error,
with an excerpt of the decoded text. -/
def ExcerptsSafe (stderr : List UInt8) : Prop :=
  (∀ runCommand deadline exitCode stdout, exitCode ≠ some 0 →
    runCommand "apt-get" ["update", "-qy", "-oDPkg::Lock::Timeout=30", "-oAPT::Acquire::Retries=3"]
      deadline = .ok (CommandResult.ofBytes exitCode stdout stderr) →
    ∃ excerpt, IsExcerpt (String.ofList (decodeLossy stderr)) excerpt ∧
      aptCacheUpdate sliceError runCommand deadline =
        .ok (.error (.exec "apt-get update failed" exitCode excerpt))) ∧
  ∀ output path code, code ≠ some 0 → output "sysctl" ["-p", path] = .ok ⟨code, stderr⟩ →
    ∃ excerpt, IsExcerpt (String.ofList (decodeLossy stderr)) excerpt ∧
      sysctlReload sliceError output path =
        .ok (.error ("sysctl -p " ++ path ++ " exit " ++ PrimitiveError.debugPid code ++ ": " ++
          excerpt))

theorem not_excerptsSafe {stderr : List UInt8}
    (h : ¬ Cuttable (String.ofList (decodeLossy stderr))) : ¬ ExcerptsSafe sliceError stderr := by
  rintro ⟨-, hreload⟩
  obtain ⟨excerpt, -, heq⟩ := hreload (fun _ _ => .ok ⟨some 1, stderr⟩) "" (some 1) (by simp) rfl
  simp [sysctlReload, excerptOf_of_not_cuttable sliceError h] at heq

/-- **The failure paths quote stderr exactly when the decoded text can be cut.**  Otherwise
they panic. -/
theorem excerptsSafe_iff (stderr : List UInt8) :
    ExcerptsSafe sliceError stderr ↔ Cuttable (String.ofList (decodeLossy stderr)) := by
  refine ⟨fun hsafe => ?_, fun hcut => ?_⟩
  · by_contra hcut
    exact not_excerptsSafe sliceError hcut hsafe
  · obtain ⟨excerpt, hexcerpt, his⟩ := excerptOf_of_cuttable sliceError hcut
    refine ⟨fun runCommand deadline exitCode stdout hcode hrun => ⟨excerpt, his, ?_⟩,
      fun output path code hcode hout => ⟨excerpt, his, ?_⟩⟩
    · simp only [aptCacheUpdate, hrun, CommandResult.ofBytes, if_neg hcode, hexcerpt]
    · simp only [sysctlReload, hout, if_neg hcode, hexcerpt]

/-- 511 letters and then a letter of two bytes. -/
def misaligned : List Char := List.replicate 511 'a' ++ ['é', '!']

theorem not_cuttable_misaligned : ¬ Cuttable (String.ofList misaligned) := by
  have hlen : len (List.replicate 511 'a') = 511 := len_replicate 511 'a'
  rintro (hshort | hinside)
  · rw [String.toList_ofList, misaligned, len_append, hlen] at hshort
    exact absurd hshort (by decide)
  · rw [String.toList_ofList] at hinside
    have hnot := not_isCharBoundary_inside (List.replicate 511 'a') (c := 'é') ['!'] Nat.one_pos
      (by decide)
    rw [hlen] at hnot
    exact hnot hinside

/-- stderr of 514 bytes of which the 512th begins a letter. -/
theorem misaligned_not_safe : ¬ ExcerptsSafe (fun _ _ => "") (encode misaligned) := by
  apply not_excerptsSafe
  rw [decodeLossy_encode]
  exact not_cuttable_misaligned

/-- What the orchestrator reports then is the panic, and not what the command has said. -/
theorem callPrimitive_of_not_cuttable {stderr : List UInt8} (context : String)
    (h : ¬ Cuttable (String.ofList (decodeLossy stderr))) {exitCode : Option Int}
    (hcode : exitCode ≠ some 0) (stdout : List UInt8) (deadline : Nat) :
    callPrimitive context (aptCacheCall (aptCacheUpdate sliceError
        (fun _ _ _ => .ok (CommandResult.ofBytes exitCode stdout stderr)) deadline)) =
      .error (.panic context (sliceError (String.ofList (decodeLossy stderr)) STDERR_LIMIT)) := by
  simp only [aptCacheUpdate, CommandResult.ofBytes, if_neg hcode,
    excerptOf_of_not_cuttable sliceError h]
  rfl

end Backends

end Bosun
