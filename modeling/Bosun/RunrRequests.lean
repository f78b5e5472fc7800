import Bosun.Library.UrlPath
import Bosun.UnitName

/-!
# Requests to runr

`client.rs` of the runr client: the name of a unit gets into the path of the request, as
one segment between `services` or `timers` and the action.  The encoder is there so that a
name that nobody has checked cannot turn into another path.  The URL library then reads
the path by its own rules.

Names are bytes here, valid as a `UnitName` or not, valid UTF-8 or not.
-/

namespace Bosun

open PercentCoding UrlPath

/-! ## The encoder -/

/-- What RFC 3986 calls unreserved, and `@`. -/
def isKeptByte (b : UInt8) : Bool :=
  (65 ≤ b.toNat && b.toNat ≤ 90) || (97 ≤ b.toNat && b.toNat ≤ 122) ||
    (48 ≤ b.toNat && b.toNat ≤ 57) || b ∈ ascii "-._~@"

def percentEncodePathSegment (s : List UInt8) : List UInt8 := encode isKeptByte s

/-! ## The calls -/

structure StartOptions where
  idempotent : Bool
deriving DecidableEq

structure StopOptions where
  timeout : Option String
  force : Bool
deriving DecidableEq

structure RestartOptions where
  stop : StopOptions
  start : StartOptions
deriving DecidableEq

inductive RequestBody
  | start (options : StartOptions)
  | stop (options : StopOptions)
  | restart (options : RestartOptions)
  | toggle (now : Bool)
  | empty
deriving DecidableEq

/-- What `post_json` gets; `unitLookup` is the kind and the name for an answer 404. -/
structure UnitRequest where
  path : List UInt8
  body : RequestBody
  unitLookup : String × List UInt8
deriving DecidableEq

/-- `format!("/api/v1/{collection}/{encoded}/{action}")` -/
def unitPath (collection action : String) (name : List UInt8) : List UInt8 :=
  ascii "/api/v1/" ++ ascii collection ++ ascii "/" ++ percentEncodePathSegment name ++
    ascii "/" ++ ascii action

def serviceStart (name : List UInt8) (idempotent : Bool) : UnitRequest :=
  ⟨unitPath "services" "start" name, .start ⟨idempotent⟩, ("service", name)⟩

def serviceStop (name : List UInt8) (force : Bool) (timeoutHumantime : Option String) :
    UnitRequest :=
  ⟨unitPath "services" "stop" name, .stop ⟨timeoutHumantime, force⟩, ("service", name)⟩

def serviceRestart (name : List UInt8) : UnitRequest :=
  ⟨unitPath "services" "restart" name, .restart ⟨⟨none, false⟩, ⟨true⟩⟩, ("service", name)⟩

def serviceReload (name : List UInt8) : UnitRequest :=
  ⟨unitPath "services" "reload" name, .empty, ("service", name)⟩

def timerStart (name : List UInt8) : UnitRequest :=
  ⟨unitPath "timers" "start" name, .empty, ("timer", name)⟩

def timerStop (name : List UInt8) : UnitRequest :=
  ⟨unitPath "timers" "stop" name, .empty, ("timer", name)⟩

def timerEnable (name : List UInt8) (now : Bool) : UnitRequest :=
  ⟨unitPath "timers" "enable" name, .toggle now, ("timer", name)⟩

def timerDisable (name : List UInt8) (now : Bool) : UnitRequest :=
  ⟨unitPath "timers" "disable" name, .toggle now, ("timer", name)⟩

/-- The calls that are about one unit. -/
inductive UnitCall
  | serviceStart (idempotent : Bool)
  | serviceStop (force : Bool) (timeoutHumantime : Option String)
  | serviceRestart
  | serviceReload
  | timerStart
  | timerStop
  | timerEnable (now : Bool)
  | timerDisable (now : Bool)

namespace UnitCall

def request (call : UnitCall) (name : List UInt8) : UnitRequest :=
  match call with
  | serviceStart idempotent => Bosun.serviceStart name idempotent
  | serviceStop force timeout => Bosun.serviceStop name force timeout
  | serviceRestart => Bosun.serviceRestart name
  | serviceReload => Bosun.serviceReload name
  | timerStart => Bosun.timerStart name
  | timerStop => Bosun.timerStop name
  | timerEnable now => Bosun.timerEnable name now
  | timerDisable now => Bosun.timerDisable name now

/-- Where the units of this kind are. -/
def collection : UnitCall → String
  | serviceStart _ | serviceStop _ _ | serviceRestart | serviceReload => "services"
  | timerStart | timerStop | timerEnable _ | timerDisable _ => "timers"

def action : UnitCall → String
  | serviceStart _ | timerStart => "start"
  | serviceStop _ _ | timerStop => "stop"
  | serviceRestart => "restart"
  | serviceReload => "reload"
  | timerEnable _ => "enable"
  | timerDisable _ => "disable"

/-- The segments that the path of the call is to have. -/
def segments (call : UnitCall) (name : List UInt8) : List (List UInt8) :=
  [ascii "api", ascii "v1", ascii call.collection, percentEncodePathSegment name,
    ascii call.action]

theorem path_request (call : UnitCall) (name : List UInt8) :
    (call.request name).path = build (call.segments name) := by
  have hprefix : ascii "/api/v1/" = build [ascii "api", ascii "v1"] ++ ascii "/" := by decide
  cases call <;>
    simp [request, Bosun.serviceStart, Bosun.serviceStop, Bosun.serviceRestart,
      Bosun.serviceReload, Bosun.timerStart, Bosun.timerStop, Bosun.timerEnable,
      Bosun.timerDisable, unitPath, hprefix, build, segments, collection, action]

end UnitCall

/-! ## What the library makes of it -/

theorem isKeptByte_percent : isKeptByte percent = false := by decide

theorem isPlain_of_isKeptByte (b : UInt8) : isKeptByte b = true → isPlain b = true :=
  forall_byte (p := fun b => isKeptByte b = true → isPlain b = true) (by decide +kernel) b

/-- The encoded name has nothing in it that the URL library would read as more than itself. -/
theorem isPlain_of_mem_encoded {name : List UInt8} {b : UInt8}
    (hb : b ∈ percentEncodePathSegment name) : isPlain b = true :=
  of_mem_encode isPlain_of_isKeptByte (by decide) (by decide) hb

namespace UnitCall

/-- What the client itself puts into a path. -/
def words : List String :=
  ["api", "v1", "services", "timers", "start", "stop", "restart", "reload", "enable", "disable"]

theorem words_plain : ∀ w ∈ words, (∀ b ∈ ascii w, isPlain b = true) ∧ ¬ IsDots (ascii w) := by
  decide +kernel

theorem mem_segments (call : UnitCall) {name s : List UInt8} (hs : s ∈ call.segments name) :
    s = percentEncodePathSegment name ∨ ∃ w ∈ words, s = ascii w := by
  have hcollection : call.collection ∈ words := by cases call <;> simp [collection, words]
  have haction : call.action ∈ words := by cases call <;> simp [action, words]
  simp only [segments, List.mem_cons, List.not_mem_nil, or_false] at hs
  rcases hs with rfl | rfl | rfl | rfl | rfl
  · exact .inr ⟨"api", by simp [words], rfl⟩
  · exact .inr ⟨"v1", by simp [words], rfl⟩
  · exact .inr ⟨_, hcollection, rfl⟩
  · exact .inl rfl
  · exact .inr ⟨_, haction, rfl⟩

theorem isPlain_of_mem_segments (call : UnitCall) (name : List UInt8) :
    ∀ s ∈ call.segments name, ∀ b ∈ s, isPlain b = true := by
  intro s hs
  rcases call.mem_segments hs with rfl | ⟨w, hw, rfl⟩
  · exact fun b hb => isPlain_of_mem_encoded hb
  · exact (words_plain w hw).1

/-- Only the name can be a dot segment. -/
theorem isDots_segments_iff (call : UnitCall) (name : List UInt8) :
    (∀ s ∈ call.segments name, ¬ IsDots s) ↔ ¬ IsDots (percentEncodePathSegment name) := by
  constructor
  · exact fun h => h _ (by simp [segments])
  · intro hname s hs
    rcases call.mem_segments hs with rfl | ⟨w, hw, rfl⟩
    · exact hname
    · exact (words_plain w hw).2

/-- **The path of a call is read as it was meant exactly when the name is not made of dots.** -/
theorem read_request_iff {read : List UInt8 → List (List UInt8)} (hread : ReadsPaths read)
    (call : UnitCall) (name : List UInt8) :
    read (call.request name).path = call.segments name ↔ name ≠ ascii "." ∧ name ≠ ascii ".." := by
  rw [path_request]
  refine (hread.read_build_eq_iff (call.isPlain_of_mem_segments name)).trans ?_
  rw [← segments, isDots_segments_iff, percentEncodePathSegment,
    isDots_encode_iff isKeptByte_percent (by decide +kernel), not_or]

end UnitCall

/-- A name that nobody has checked is still one segment of the path, and its own.  `read` is
    how the URL library reads a path. -/
def KeepsPath (read : List UInt8 → List (List UInt8)) (name : List UInt8) : Prop :=
  decode (percentEncodePathSegment name) = name ∧
  (∀ other, percentEncodePathSegment other = percentEncodePathSegment name → other = name) ∧
  ∀ call : UnitCall, read (call.request name).path =
    [ascii "api", ascii "v1", ascii call.collection, percentEncodePathSegment name,
      ascii call.action]

section Read

variable {read : List UInt8 → List (List UInt8)} (hread : ReadsPaths read)

include hread

/-- The round trip and the distinct encodings hold for every name. -/
theorem keepsPath_of_ne {name : List UInt8} (h : name ≠ ascii "." ∧ name ≠ ascii "..") :
    KeepsPath read name := by
  refine ⟨decode_encode isKeptByte_percent name, ?_, fun call => ?_⟩
  · exact fun other heq => encode_injective isKeptByte_percent heq
  · exact (call.read_request_iff hread name).mpr h

/-- **A name cannot change the path unless it is one dot or two.** -/
theorem keepsPath_iff (name : List UInt8) :
    KeepsPath read name ↔ name ≠ ascii "." ∧ name ≠ ascii ".." :=
  ⟨fun h => (UnitCall.read_request_iff hread .serviceRestart name).mp (h.2.2 _),
    keepsPath_of_ne hread⟩

end Read

/-- A name with a slash in it stays one segment. -/
theorem keepsPath_slash : KeepsPath parse (ascii "../start") :=
  (keepsPath_iff readsPaths_parse _).mpr (by decide +kernel)

/-- Two dots as a name: the request goes to `/api/v1/start`. -/
theorem dots_leave_services :
    parse (serviceStart (ascii "..") true).path = [ascii "api", ascii "v1", ascii "start"] ∧
      ¬ KeepsPath parse (ascii "..") := by
  refine ⟨by decide +kernel, fun h => ?_⟩
  exact absurd (h.2.2 (.serviceStart true)) (by decide +kernel)

/-! ## Checked names -/

def UnitName.bytes (name : UnitName) : List UInt8 :=
  name.asStr.toList.flatMap String.utf8EncodeChar

/-- The characters of a checked name are ASCII, so that what holds of these holds of them. -/
theorem of_isAllowedByte {p : Char → Prop} (hp : ∀ n < 128, p (Char.ofNat n)) {c : Char}
    (h : UnitName.isAllowedByte c = true) : p c := by
  have hlt : c.toNat < 128 := by
    have halnum : c.isAlphanum = ((decide (c.val ≥ 'A'.val ∧ c.val ≤ 'Z'.val) ||
        (decide (c.val ≥ 'a'.val) && decide (c.val ≤ 'z'.val))) ||
        (decide (c.val ≥ '0'.val) && decide (c.val ≤ '9'.val))) := rfl
    simp only [UnitName.isAllowedByte, halnum, Bool.or_eq_true, Bool.and_eq_true,
      decide_eq_true_eq, ge_iff_le, UInt32.le_iff_toNat_le] at h
    have hbounds : 'Z'.val.toNat < 128 ∧ 'z'.val.toNat < 128 ∧ '9'.val.toNat < 128 := by decide
    rcases h with (((h | rfl) | rfl) | rfl) | rfl
    · simp only [Char.toNat]
      omega
    all_goals decide
  have hc := hp c.toNat hlt
  rwa [Char.ofNat_toNat] at hc

/-- Each of them is one byte that is kept; a letter or a digit is not a dot. -/
theorem utf8EncodeChar_of_isAllowedByte {c : Char} (h : UnitName.isAllowedByte c = true) :
    (∀ b ∈ String.utf8EncodeChar c, isKeptByte b = true) ∧
      (c.isAlphanum = true → (String.utf8EncodeChar c).head? ≠ (ascii ".").head?) :=
  of_isAllowedByte (p := fun c => UnitName.isAllowedByte c = true →
    (∀ b ∈ String.utf8EncodeChar c, isKeptByte b = true) ∧
      (c.isAlphanum = true → (String.utf8EncodeChar c).head? ≠ (ascii ".").head?))
    (by decide +kernel) h h

/-- **A checked name is written as it is, and its path is its own.** -/
theorem UnitName.keepsPath {read : List UInt8 → List (List UInt8)} (hread : ReadsPaths read)
    (name : UnitName) :
    percentEncodePathSegment name.bytes = name.bytes ∧ KeepsPath read name.bytes := by
  have hallowed : ∀ c ∈ name.asStr.toList, isAllowedByte c = true :=
    fun c hc => name.isAllowedByte_of_mem hc
  constructor
  · refine encode_eq_self fun b hb => ?_
    obtain ⟨c, hc, hb⟩ := List.mem_flatMap.mp hb
    exact (utf8EncodeChar_of_isAllowedByte (hallowed c hc)).1 b hb
  · -- a checked name begins with a letter or a digit
    obtain ⟨first, rest, hlist, hfirst⟩ := ((validate_ok_iff name.asStr).mp name.valid).2.1
    have hhead := (utf8EncodeChar_of_isAllowedByte (hallowed first (by simp [hlist]))).2 hfirst
    have hbytes : name.bytes.head? = (String.utf8EncodeChar first).head? := by
      have hne : String.utf8EncodeChar first ≠ [] := by
        rw [← List.length_pos_iff, String.length_utf8EncodeChar]
        exact first.utf8Size_pos
      rw [bytes, hlist, List.flatMap_cons, List.head?_append_of_ne_nil _ hne]
    refine keepsPath_of_ne hread ⟨?_, ?_⟩
    · intro hdot
      rw [← hbytes, hdot] at hhead
      exact hhead rfl
    · intro hdots
      rw [← hbytes, hdots] at hhead
      exact hhead rfl

end Bosun
