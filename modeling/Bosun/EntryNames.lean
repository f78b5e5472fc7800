import Bosun.EnqueueFaults
import Bosun.JournalOracle
import Bosun.ProcessSignal
import Bosun.UnitName

/-!
# Names of files for names of units

The name of a unit may have up to 255 bytes, as many as POSIX allows for the name of a
file.  The journal puts a sort key and a prefix in front of it and an extension behind
it, and while it writes the file, `.tmp.` and the time in nanoseconds as well.

`journalable_iff` says for which names there is room left: `NAME_MAX` is what the file
system allows, and a journal on such a file system is a journal whose `atomicWrite`
cannot create a file with a longer name.
-/

namespace Bosun

/-- POSIX. -/
def NAME_MAX : Nat := 255

namespace Journal

/-! ## A journal on a file system with a limit -/

/-- `ENAMETOOLONG` -/
def checkName (max : Nat) (name : String) : FsM Unit :=
  if name.utf8ByteSize ≤ max then pure ()
  else throw (.io name (.other "File name too long (os error 36)"))

/-- The temporary file cannot be created under a name that is too long.  Its name is the
    longest of those that `atomicWrite` uses. -/
def atomicWriteWithin (max : Nat) (e : DeferEntry) : FsM Unit := do
  let nanos ← nanosNow
  checkName max (stagingName e nanos)
  atomicWrite e

/-- `enqueue`, with the write it ends with as a parameter. -/
def enqueueBy (write : DeferEntry → FsM Unit) (entry : DeferEntry) : FsM EnqueueResult := do
  let existing ← listSorted
  let olds := sameTarget entry existing
  if olds.any (fun e => e.id = entry.id) then return .alreadyExists
  if olds.any (fun e => subsumes e.action entry.action) then return .subsumed
  let replacedAny ← removeSubsumed entry olds
  if replacedAny then fsyncDir
  write entry
  return if replacedAny then .replacedLowerPriority else .created

theorem enqueueBy_atomicWrite (e : DeferEntry) : enqueueBy atomicWrite e = enqueue e := rfl

def enqueueWithin (max : Nat) : DeferEntry → FsM EnqueueResult := enqueueBy (atomicWriteWithin max)

/-! ### Where the limit makes no difference -/

theorem bind_congr_of_ok {α β : Type} {x : FsM α} {f g : α → FsM β} {fs : Fs}
    (h : ∀ a fs', x fs = .ok a fs' → f a fs' = g a fs') : (x >>= f) fs = (x >>= g) fs := by
  show EStateM.bind x f fs = EStateM.bind x g fs
  unfold EStateM.bind
  cases hrun : x fs with
  | ok a fs' => exact h a fs' hrun
  | error err fs' => rfl

/-- Two ways to write that are the same as long as the clock shows what it shows. -/
theorem enqueueBy_congr {write write' : DeferEntry → FsM Unit} {e : DeferEntry} {fs : Fs}
    (h : ∀ fs', fs'.wallClock = fs.wallClock → write e fs' = write' e fs') :
    enqueueBy write e fs = enqueueBy write' e fs := by
  refine bind_congr_of_ok fun existing fs₁ hlist => ?_
  have hclock₁ := (listSorted_keepsOracle.ok hlist).2
  by_cases hexists : (sameTarget e existing).any (fun q => q.id = e.id)
  · simp only [if_pos hexists]
  by_cases hsub : (sameTarget e existing).any (fun q => subsumes q.action e.action)
  · simp only [if_neg hexists, if_pos hsub]
  simp only [if_neg hexists, if_neg hsub]
  refine bind_congr_of_ok fun replacedAny fs₂ hremove => ?_
  have hclock₂ := ((removeSubsumed_keepsOracle e _).ok hremove).2
  have hwrite : ∀ fs', fs'.wallClock = fs₂.wallClock → ∀ k : Unit → FsM EnqueueResult,
      (write e >>= k) fs' = (write' e >>= k) fs' := by
    intro fs' hclock k
    have hsame := h fs' (hclock.trans (hclock₂.trans hclock₁))
    show EStateM.bind (write e) k fs' = EStateM.bind (write' e) k fs'
    unfold EStateM.bind
    rw [hsame]
  cases replacedAny with
  | true =>
    exact bind_congr_of_ok fun _ fs₃ hsync => hwrite fs₃ (fsyncDir_keepsOracle.ok hsync).2 _
  | false => exact hwrite fs₂ rfl _

/-- The clock does not show a later time. -/
def ClockUntil (horizon : Nat) (fs : Fs) : Prop :=
  ∀ i nanos, fs.wallClock i = some nanos → nanos ≤ horizon

theorem nanosNow_some {fs : Fs} {nanos : Nat} (h : fs.wallClock fs.ops = some nanos) :
    nanosNow fs = .ok nanos fs :=
  (bind_eq (get_eq fs)).trans (by rw [h]; rfl)

theorem nanosNow_none {fs : Fs} (h : fs.wallClock fs.ops = none) :
    nanosNow fs = .error .clock fs :=
  (bind_eq (get_eq fs)).trans (by rw [h]; rfl)

theorem atomicWriteWithin_eq {max horizon : Nat} {e : DeferEntry} {fs : Fs}
    (hfits : ∀ nanos ≤ horizon, (stagingName e nanos).utf8ByteSize ≤ max)
    (hclock : ClockUntil horizon fs) : atomicWriteWithin max e fs = atomicWrite e fs := by
  cases hnow : fs.wallClock fs.ops with
  | none =>
    exact (bind_eq_error (nanosNow_none hnow)).trans (bind_eq_error (nanosNow_none hnow)).symm
  | some nanos =>
    refine (bind_eq (nanosNow_some hnow)).trans ?_
    rw [checkName, if_pos (hfits nanos (hclock _ _ hnow))]
    rfl

theorem atomicWriteWithin_error {max nanos : Nat} {e : DeferEntry} {fs : Fs}
    (hnow : fs.wallClock fs.ops = some nanos)
    (hlong : max < (stagingName e nanos).utf8ByteSize) :
    atomicWriteWithin max e fs = .error (.io (stagingName e nanos)
      (.other "File name too long (os error 36)")) fs := by
  refine (bind_eq (nanosNow_some hnow)).trans ?_
  rw [checkName, if_neg (Nat.not_le.mpr hlong)]
  rfl

theorem enqueueWithin_eq {max horizon : Nat} {e : DeferEntry} {fs : Fs}
    (hfits : ∀ nanos ≤ horizon, (stagingName e nanos).utf8ByteSize ≤ max)
    (hclock : ClockUntil horizon fs) : enqueueWithin max e fs = enqueue e fs := by
  rw [← enqueueBy_atomicWrite]
  refine enqueueBy_congr fun fs' hsame => atomicWriteWithin_eq hfits ?_
  intro i nanos hnow
  exact hclock i nanos (hsame ▸ hnow)

end Journal

/-! ## Names -/

/-- The number of digits `n` is written with. -/
def digits (n : Nat) : Nat := (Nat.toDigits 10 n).length

theorem digits_mono {m n : Nat} (h : m ≤ n) : digits m ≤ digits n := by
  have hn : n < 10 ^ digits n :=
    (Nat.length_toDigits_le_iff (by decide) Nat.length_toDigits_pos).mp (Nat.le_refl _)
  exact (Nat.length_toDigits_le_iff (by decide) Nat.length_toDigits_pos).mpr (h.trans_lt hn)

theorem utf8ByteSize_ofList {cs : List Char} (h : ∀ c ∈ cs, c.utf8Size = 1) :
    (String.ofList cs).utf8ByteSize = cs.length := by
  induction cs with
  | nil => rfl
  | cons c cs ih =>
    have hsplit : String.ofList (c :: cs) = String.singleton c ++ String.ofList cs := by
      rw [String.singleton_eq_ofList, ← String.ofList_append]
      rfl
    rw [hsplit, String.utf8ByteSize_append, String.utf8ByteSize_singleton, h c List.mem_cons_self,
      ih fun c' hc => h c' (List.mem_cons_of_mem _ hc), List.length_cons, Nat.add_comm]

theorem utf8ByteSize_toString (n : Nat) : (toString n).utf8ByteSize = digits n := by
  rw [Nat.toString_eq_ofList_toDigits]
  refine utf8ByteSize_ofList fun c hc => ?_
  have hdigit := Nat.isDigit_of_mem_toDigits (by decide) (by decide) hc
  rw [Char.isDigit, Bool.and_eq_true, decide_eq_true_iff, decide_eq_true_iff] at hdigit
  rw [Char.utf8Size_eq_one_iff]
  exact UInt32.le_trans hdigit.2 (by decide)

/-- Without the two characters that end a component. -/
def Plain (s : String) : Prop := '/' ∉ s.toList ∧ '\x00' ∉ s.toList

instance (s : String) : Decidable (Plain s) := inferInstanceAs (Decidable (_ ∧ _))

theorem Plain.append {s s' : String} (h : Plain s) (h' : Plain s') : Plain (s ++ s') := by
  simp only [Plain, String.toList_append, List.mem_append, not_or]
  exact ⟨⟨h.1, h'.1⟩, ⟨h.2, h'.2⟩⟩

/-- One component of a path, as the file system takes it. -/
structure Component (name : String) : Prop where
  proper : name ≠ "" ∧ name ≠ "." ∧ name ≠ ".."
  plain : Plain name
  fits : name.utf8ByteSize ≤ NAME_MAX

theorem DeferEntry.utf8ByteSize_filename (e : DeferEntry) :
    e.filename.utf8ByteSize = e.id.utf8ByteSize + 12 := by
  have hkey : e.priority.sortkey.utf8ByteSize = 2 := by cases e.priority <;> rfl
  simp only [DeferEntry.filename, String.utf8ByteSize_append, hkey]
  have hdash : "-".utf8ByteSize = 1 := rfl
  have hext : ".deferred".utf8ByteSize = 9 := rfl
  omega

theorem DeferEntry.utf8ByteSize_manualClearFilename (e : DeferEntry) :
    e.manualClearFilename.utf8ByteSize = e.id.utf8ByteSize + 16 := by
  have hkey : e.priority.sortkey.utf8ByteSize = 2 := by cases e.priority <;> rfl
  simp only [DeferEntry.manualClearFilename, String.utf8ByteSize_append, hkey]
  have hdash : "-".utf8ByteSize = 1 := rfl
  have hext : ".manual_clear".utf8ByteSize = 13 := rfl
  omega

theorem utf8ByteSize_stagingName (e : DeferEntry) (nanos : Nat) :
    (Journal.stagingName e nanos).utf8ByteSize = e.id.utf8ByteSize + 17 + digits nanos := by
  have htmp : ".tmp.".utf8ByteSize = 5 := rfl
  simp only [Journal.stagingName, String.utf8ByteSize_append, utf8ByteSize_toString,
    e.utf8ByteSize_filename, htmp]

/-! ## What the primitives defer -/

inductive DeferKind
  | restart (init : InitSystem)
  | reload (init : InitSystem)
  | signal
deriving DecidableEq

namespace DeferKind

/-- What the id of an entry has in front of the name of the unit. -/
def idPrefix : DeferKind → String
  | restart .systemd => "systemd.restart:"
  | restart .runr => "runr.restart:"
  | reload .systemd => "systemd.reload:"
  | reload .runr => "runr.reload:"
  | signal => "process.signal:"

def priority : DeferKind → DeferPriority
  | restart _ => .restart
  | reload _ => .reload
  | signal => .command

/-- The bytes of the prefix. -/
def overhead : DeferKind → Nat
  | restart .systemd => 16
  | restart .runr => 13
  | reload .systemd => 15
  | reload .runr => 12
  | signal => 15

theorem utf8ByteSize_idPrefix (kind : DeferKind) : kind.idPrefix.utf8ByteSize = kind.overhead := by
  rcases kind with ⟨_ | _⟩ | ⟨_ | _⟩ | _ <;> rfl

end DeferKind

/-- The entry is one that a primitive puts into the journal for this unit, however often
    it was tried since. -/
inductive Deferred : DeferKind → UnitName → DeferEntry → Prop
  | restart {init : InitSystem} {name : UnitName} (spec : ServiceSpec) (sources : List String)
      (now : Nat) (attempts : U32) (hname : spec.name = name.asStr) :
      Deferred (.restart init) name
        { ServiceEnv.deferEntry init spec .restart .restart sources now with
          attemptCount := attempts }
  | reload {init : InitSystem} {name : UnitName} (spec : ServiceSpec) (sources : List String)
      (now : Nat) (attempts : U32) (hname : spec.name = name.asStr) :
      Deferred (.reload init) name
        { ServiceEnv.deferEntry init spec .reload .reload sources now with
          attemptCount := attempts }
  | signal {name : UnitName} (spec : ProcessSignalSpec) (argv : List String) (now : Nat)
      (attempts : U32) (hname : spec.name = name.asStr) :
      Deferred .signal name
        { SignalEnv.signalEntry spec argv now with attemptCount := attempts }

namespace Deferred

variable {kind kind' : DeferKind} {name name' : UnitName} {e e' : DeferEntry}

theorem id_eq (h : Deferred kind name e) : e.id = kind.idPrefix ++ name.asStr := by
  cases h with
  | @restart init _ spec sources now attempts hname =>
    rw [← hname]
    cases init <;> simp [ServiceEnv.deferEntry, makeId, DeferAction.filenameSlug, InitSystem.tag,
      DeferKind.idPrefix]
  | @reload init _ spec sources now attempts hname =>
    rw [← hname]
    cases init <;> simp [ServiceEnv.deferEntry, makeId, DeferAction.filenameSlug, InitSystem.tag,
      DeferKind.idPrefix]
  | signal spec argv now attempts hname =>
    rw [← hname]
    rfl

theorem priority_eq (h : Deferred kind name e) : e.priority = kind.priority := by
  cases h <;> rfl

/-- Kind and unit say what the entry is to do. -/
theorem same_parts (h : Deferred kind name e) (h' : Deferred kind name e') :
    e.initSystem = e'.initSystem ∧ e.action.filenameSlug = e'.action.filenameSlug ∧
      e.target = e'.target := by
  cases h with
  | restart spec sources now attempts hname =>
    cases h' with
    | restart spec' sources' now' attempts' hname' => exact ⟨rfl, rfl, hname.trans hname'.symm⟩
  | reload spec sources now attempts hname =>
    cases h' with
    | reload spec' sources' now' attempts' hname' => exact ⟨rfl, rfl, hname.trans hname'.symm⟩
  | signal spec argv now attempts hname =>
    cases h' with
    | signal spec' argv' now' attempts' hname' => exact ⟨rfl, rfl, hname.trans hname'.symm⟩

/-- One file for each kind and unit. -/
theorem eq_of_filename (h : Deferred kind name e) (h' : Deferred kind' name' e')
    (hfile : e.filename = e'.filename) : kind = kind' ∧ name = name' := by
  obtain ⟨hpriority, hid⟩ := DeferEntry.filename_inj hfile
  rw [h.priority_eq, h'.priority_eq] at hpriority
  rw [h.id_eq, h'.id_eq] at hid
  have hkind : kind = kind' := by
    have hhead := congrArg (fun id : String => id.toList.head?) hid
    rcases kind with ⟨_ | _⟩ | ⟨_ | _⟩ | _ <;> rcases kind' with ⟨_ | _⟩ | ⟨_ | _⟩ | _ <;>
      simp [DeferKind.priority, DeferKind.idPrefix, String.toList_append] at hpriority hhead ⊢
  subst hkind
  refine ⟨rfl, UnitName.ext ?_⟩
  simpa using hid

theorem plain_id (h : Deferred kind name e) : Plain e.id := by
  rw [h.id_eq]
  apply Plain.append
  · rcases kind with ⟨_ | _⟩ | ⟨_ | _⟩ | _ <;> decide
  · constructor
    · intro hc
      exact absurd (name.isAllowedByte_of_mem hc) (by decide)
    · intro hc
      exact absurd (name.isAllowedByte_of_mem hc) (by decide)

theorem utf8ByteSize_id (h : Deferred kind name e) :
    e.id.utf8ByteSize = kind.overhead + name.asStr.utf8ByteSize := by
  rw [h.id_eq, String.utf8ByteSize_append, kind.utf8ByteSize_idPrefix]

end Deferred

theorem plain_toString (n : Nat) : Plain (toString n) := by
  have hdigit : ∀ c ∈ (toString n).toList, c.isDigit = true := by
    intro c hc
    rw [Nat.toString_eq_ofList_toDigits, String.toList_ofList] at hc
    exact Nat.isDigit_of_mem_toDigits (by decide) (by decide) hc
  constructor
  · intro hc
    exact absurd (hdigit _ hc) (by decide)
  · intro hc
    exact absurd (hdigit _ hc) (by decide)

theorem plain_of_id {e : DeferEntry} (h : Plain e.id) : Plain e.filename ∧
    Plain e.manualClearFilename ∧ ∀ nanos, Plain (Journal.stagingName e nanos) := by
  have hkey : Plain e.priority.sortkey := by cases e.priority <;> decide
  have hstem := (hkey.append (show Plain "-" by decide)).append h
  have hfile : Plain e.filename := hstem.append (by decide)
  constructor
  · exact hfile
  constructor
  · exact hstem.append (by decide)
  · intro nanos
    exact (hfile.append (by decide)).append (plain_toString nanos)

theorem Component.of_plain {name : String} (hplain : Plain name) (hlong : 2 < name.utf8ByteSize)
    (hfits : name.utf8ByteSize ≤ NAME_MAX) : Component name := by
  refine ⟨⟨?_, ?_, ?_⟩, hplain, hfits⟩ <;> rintro rfl <;> exact absurd hlong (by decide)

/-! ## Room for a name -/

/-- The names of an entry are sound until the clock passes `horizon`. -/
structure Journalable (e : DeferEntry) (horizon : Nat) : Prop where
  file : Component e.filename
  staging : ∀ nanos ≤ horizon, Component (Journal.stagingName e nanos)
  manualClear : Component e.manualClearFilename
  /-- Entries of the same name are to do the same. -/
  distinct : ∀ kind name e', Deferred kind name e' → e'.filename = e.filename →
    e'.initSystem = e.initSystem ∧ e'.action.filenameSlug = e.action.filenameSlug ∧
      e'.target = e.target
  /-- To `enqueue` it is as if there were no limit. -/
  admitted : ∀ fs, Journal.ClockUntil horizon fs →
    Journal.enqueueWithin NAME_MAX e fs = Journal.enqueue e fs
  /-- The file of another entry is not written to. -/
  overwritesNone : ∀ fs, Journal.ClockUntil horizon fs → ∀ kind name q, Deferred kind name q →
    fs.dir.lookup q.filename = some (.entry q) → q.filename ≠ e.filename ∨ fs.Healthy →
    ∀ content, (Journal.after (Journal.enqueueWithin NAME_MAX e) fs).dir.lookup q.filename =
      some content → content = .entry q

/-- An entry whose file is there stays as it is, and others are at most removed. -/
theorem Deferred.not_overwritten {kind kind' : DeferKind} {name name' : UnitName}
    {e q : DeferEntry} (he : Deferred kind name e) (hq : Deferred kind' name' q) {fs : Fs}
    (hfile : fs.dir.lookup q.filename = some (.entry q))
    (hother : q.filename ≠ e.filename ∨ fs.Healthy) {content : FileContent}
    (hafter : (Journal.after (Journal.enqueue e) fs).dir.lookup q.filename = some content) :
    content = .entry q := by
  have hdeferred := Journal.isDeferred_filename q
  by_cases hne : q.filename ≠ e.filename
  · have htriple := Journal.enqueue_triple_superseded fs.dir e fs rfl
    have htouched : Touched (Journal.Superseded fs.dir e) (Journal.Staging e) (· = e) fs.dir
        (Journal.after (Journal.enqueue e) fs).dir := by
      unfold Journal.after
      cases hrun : Journal.enqueue e fs with
      | ok result fs' =>
        rw [hrun] at htriple
        exact htriple.1
      | error err fs' =>
        rw [hrun] at htriple
        exact htriple
    have hscratch : ¬ Journal.Staging e q.filename := fun hstaging => by
      simp [hstaging.not_isDeferred] at hdeferred
    rcases htouched q.filename hscratch with hsame | ⟨-, hnone⟩ | ⟨e', rfl, heq, -⟩
    · rw [hsame, hfile] at hafter
      exact (Option.some.inj hafter).symm
    · rw [hnone] at hafter
      cases hafter
    · exact absurd heq hne
  · -- the file is found, and nothing is done
    rw [not_not] at hne
    have hhealthy : fs.Healthy := hother.resolve_left fun h => h hne
    obtain ⟨rfl, rfl⟩ := hq.eq_of_filename he hne
    obtain ⟨hinit, -, htarget⟩ := hq.same_parts he
    have hmem : q ∈ Journal.sameTarget e (Journal.pending fs.dir) :=
      Journal.mem_sameTarget.mpr ⟨Journal.mem_pending.mpr ⟨_, hdeferred, hfile⟩,
        Prod.ext hinit htarget⟩
    have hexists : (Journal.sameTarget e (Journal.pending fs.dir)).any
        (fun p => p.id = e.id) = true :=
      List.any_eq_true.mpr ⟨q, hmem, by simp [hq.id_eq, he.id_eq]⟩
    obtain ⟨ops, hops⟩ := Journal.listSorted_settles hhealthy
    have hsettles : Settles (Journal.enqueue e) fs .alreadyExists fs.dir := by
      refine Settles.bind_ok hops ?_
      simp only [if_pos hexists]
      exact Settles.pure _
    obtain ⟨ops', hend⟩ := Journal.after_of_settles hsettles
    rw [hend, Fs.withDir_dir, hfile] at hafter
    exact (Option.some.inj hafter).symm

/-- **What a primitive defers can be journaled, until the clock passes `horizon`, exactly
    when the name of the unit leaves room for the rest of the temporary name.** -/
theorem journalable_iff {kind : DeferKind} {name : UnitName} {e : DeferEntry}
    (h : Deferred kind name e) (horizon : Nat) : Journalable e horizon ↔
      kind.overhead + name.asStr.utf8ByteSize + digits horizon ≤ 238 := by
  have hbytes := h.utf8ByteSize_id
  constructor
  · intro hjournalable
    have hfits := (hjournalable.staging horizon (Nat.le_refl _)).fits
    rw [utf8ByteSize_stagingName, hbytes, NAME_MAX] at hfits
    omega
  · intro hroom
    obtain ⟨hfile, hmanual, hstaging⟩ := plain_of_id h.plain_id
    have hdigits : 1 ≤ digits horizon := Nat.length_toDigits_pos
    have hfits : ∀ nanos ≤ horizon, (Journal.stagingName e nanos).utf8ByteSize ≤ NAME_MAX := by
      intro nanos hnanos
      have hmono := digits_mono hnanos
      rw [utf8ByteSize_stagingName, hbytes, NAME_MAX]
      omega
    have hadmitted : ∀ fs, Journal.ClockUntil horizon fs →
        Journal.enqueueWithin NAME_MAX e fs = Journal.enqueue e fs :=
      fun fs hclock => Journal.enqueueWithin_eq hfits hclock
    refine ⟨.of_plain hfile ?_ ?_, fun nanos hnanos => .of_plain (hstaging nanos) ?_
      (hfits nanos hnanos), .of_plain hmanual ?_ ?_, fun kind' name' e' h' hsame => ?_, hadmitted,
      fun fs hclock kind' name' q hq hheld hother content hafter => ?_⟩
    · rw [e.utf8ByteSize_filename]
      omega
    · rw [e.utf8ByteSize_filename, hbytes, NAME_MAX]
      omega
    · rw [utf8ByteSize_stagingName]
      omega
    · rw [e.utf8ByteSize_manualClearFilename]
      omega
    · rw [e.utf8ByteSize_manualClearFilename, hbytes, NAME_MAX]
      omega
    · obtain ⟨rfl, rfl⟩ := h'.eq_of_filename h hsame
      exact h'.same_parts h
    · have hafter' : Journal.after (Journal.enqueueWithin NAME_MAX e) fs =
          Journal.after (Journal.enqueue e) fs := by
        unfold Journal.after
        rw [hadmitted fs hclock]
      rw [hafter'] at hafter
      exact h.not_overwritten hq hheld hother hafter

/-- In 2001 the clock got a nineteenth digit. -/
theorem digits_2001 : digits (10 ^ 18) = 19 := by decide

def unitRestart (name : UnitName) : DeferEntry :=
  ServiceEnv.deferEntry .systemd ⟨name.asStr, .running, true, none, none⟩ .restart .restart [] 0

theorem deferred_unitRestart (name : UnitName) :
    Deferred (.restart .systemd) name (unitRestart name) :=
  .restart ⟨name.asStr, .running, true, none, none⟩ [] 0 0 rfl

theorem journalable_iff_nginx : Journalable (unitRestart ⟨"nginx", by decide⟩) (10 ^ 18) :=
  (journalable_iff (deferred_unitRestart _) (10 ^ 18)).mpr (by decide)

/-- 204 bytes; 255 are allowed. -/
def longName : UnitName where
  asStr := String.ofList (List.replicate 204 'a')
  valid := by
    rw [UnitName.validate_ok_iff, String.toList_ofList]
    refine ⟨?_, ⟨'a', List.replicate 203 'a', List.replicate_succ, by decide⟩, fun c hc => ?_⟩
    · rw [utf8ByteSize_ofList fun c hc => by rw [List.eq_of_mem_replicate hc]; rfl,
        List.length_replicate]
      decide
    · rw [List.eq_of_mem_replicate hc]
      decide

/-- An empty journal in 2001. -/
def freshFs : Fs := { Journal.emptyFs with wallClock := fun _ => some (10 ^ 18) }

/-- The service of this name is not restarted through the journal: there is no file to
    be had for it. -/
theorem longName_not_journaled :
    (¬ ∀ kind name e, Deferred kind name e → Journalable e (10 ^ 18)) ∧
    Journal.enqueueWithin NAME_MAX (unitRestart longName) freshFs =
      .error (.io (Journal.stagingName (unitRestart longName) (10 ^ 18))
        (.other "File name too long (os error 36)")) { freshFs with ops := 1 } := by
  have hname : longName.asStr.utf8ByteSize = 204 :=
    (utf8ByteSize_ofList fun c hc => by rw [List.eq_of_mem_replicate hc]; rfl).trans
      List.length_replicate
  have hlong : NAME_MAX < (Journal.stagingName (unitRestart longName) (10 ^ 18)).utf8ByteSize := by
    rw [utf8ByteSize_stagingName, (deferred_unitRestart longName).utf8ByteSize_id, hname,
      digits_2001]
    decide
  constructor
  · intro h
    have hfits := ((h _ _ _ (deferred_unitRestart longName)).staging (10 ^ 18) (Nat.le_refl _)).fits
    exact absurd hfits (Nat.not_le.mpr hlong)
  · have hlist : Journal.listSorted freshFs = .ok [] { freshFs with ops := 1 } := rfl
    refine (Journal.bind_eq hlist).trans ?_
    have hremove : Journal.removeSubsumed (unitRestart longName) [] { freshFs with ops := 1 } =
      .ok false { freshFs with ops := 1 } := rfl
    refine (Journal.bind_eq hremove).trans ?_
    exact Journal.bind_eq_error (Journal.atomicWriteWithin_error rfl hlong)

end Bosun
