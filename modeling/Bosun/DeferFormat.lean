import Mathlib.Algebra.GroupWithZero.Nat
import Mathlib.Data.Fin.Basic
import Mathlib.Data.String.Basic

/-!
# Entries of the defer journal

`defers/format.rs` and `defers/priority.rs`: one entry is one action put off to a
replay, kept in a file of its own.  The name of the file starts with a two
character sort key, so that the names in lexicographic order are the entries in
the order in which they are to be carried out.

Only what the journal and the replay read is spelled out; the JSON text of a file
is not, a file holds an entry or something that does not parse.
-/

namespace Bosun

/-- `u32`, with the saturating successor the counters use. -/
abbrev U32 := Fin 4294967296

instance U32.neZero : NeZero 4294967296 := ⟨by decide⟩

def U32.saturatingSucc (n : U32) : U32 :=
  if h : n.val + 1 < 4294967296 then ⟨n.val + 1, h⟩ else n

theorem U32.val_saturatingSucc (n : U32) :
    n.saturatingSucc.val = min (n.val + 1) 4294967295 := by
  have hn := n.isLt
  unfold saturatingSucc
  split
  · rename_i h
    show n.val + 1 = _
    omega
  · omega

inductive DeferPriority
  | restart
  | reloadOrRestart
  | reload
  | command
  | daemonReload
deriving DecidableEq, Repr

namespace DeferPriority

def sortkey : DeferPriority → String
  | restart => "0r"
  | reloadOrRestart => "1r"
  | reload => "2r"
  | command => "3c"
  | daemonReload => "4d"

/-- Position in the order of execution. -/
def rank : DeferPriority → Nat
  | restart => 0
  | reloadOrRestart => 1
  | reload => 2
  | command => 3
  | daemonReload => 4

end DeferPriority

inductive DeferAction
  | start
  | stop
  | restart
  | reload
  | reloadOrRestart
  | command (argv : List String)
  | daemonReload
deriving DecidableEq, Repr

namespace DeferAction

def filenameSlug : DeferAction → String
  | start => "start"
  | stop => "stop"
  | restart => "restart"
  | reload => "reload"
  | reloadOrRestart => "reload_or_restart"
  | command _ => "command.run"
  | daemonReload => "daemon_reload"

def defaultPriority : DeferAction → DeferPriority
  | restart | start | stop => .restart
  | reloadOrRestart => .reloadOrRestart
  | reload => .reload
  | command _ => .command
  | daemonReload => .daemonReload

end DeferAction

/-- The probe that follows a successful action. -/
inductive HealthCheck
  | cmd (cmd : List String) (timeoutSec retryCount retryIntervalSec : Option U32)
  | url (url : String) (expectedStatus : Option Nat)
      (timeoutSec retryCount retryIntervalSec : Option U32)
deriving DecidableEq, Repr

def CURRENT_SPEC_VERSION : Nat := 1

structure DeferEntry where
  specVersion : Nat
  id : String
  action : DeferAction
  initSystem : String
  target : String
  validateCmd : Option (List String)
  healthCheck : Option HealthCheck
  priority : DeferPriority
  enqueuedAt : Nat
  enqueuedBy : List String
  attemptCount : U32
  maxAttempts : U32
deriving DecidableEq, Repr

/-- The canonical id of `(init_system, action, target)`. -/
def makeId (initSystem : String) (action : DeferAction) (target : String) : String :=
  match action with
  | .command _ => "command.run:" ++ target
  | .daemonReload =>
    if initSystem = "" then "daemon_reload" else initSystem ++ ".daemon_reload"
  | other => initSystem ++ "." ++ other.filenameSlug ++ ":" ++ target

namespace DeferEntry

def filename (e : DeferEntry) : String := e.priority.sortkey ++ "-" ++ e.id ++ ".deferred"

def manualClearFilename (e : DeferEntry) : String :=
  e.priority.sortkey ++ "-" ++ e.id ++ ".manual_clear"

/-- The entry as `bump_attempt` writes it back. -/
def bumped (e : DeferEntry) : DeferEntry := { e with attemptCount := e.attemptCount.saturatingSucc }

@[simp] theorem filename_bumped (e : DeferEntry) : e.bumped.filename = e.filename := rfl

@[simp] theorem manualClearFilename_bumped (e : DeferEntry) :
    e.bumped.manualClearFilename = e.manualClearFilename := rfl

/-- Id and priority are those the constructors of the source compute. -/
structure Canonical (e : DeferEntry) : Prop where
  id : e.id = makeId e.initSystem e.action e.target
  priority : e.priority = e.action.defaultPriority

end DeferEntry

/-! ## File names -/

/-- `Path::extension`: what stands behind the last dot, unless that dot is the
    first character. -/
def extension (name : String) : Option String :=
  let rev := name.toList.reverse
  match rev.dropWhile (· ≠ '.') with
  | _ :: _ :: _ => some (String.ofList (rev.takeWhile (· ≠ '.')).reverse)
  | _ => none

theorem extension_append {stem ext : String} (hstem : stem ≠ "") (hext : '.' ∉ ext.toList) :
    extension (stem ++ ("." ++ ext)) = some ext := by
  have hrev : (stem ++ ("." ++ ext)).toList.reverse =
      ext.toList.reverse ++ '.' :: stem.toList.reverse := by
    simp [String.toList_append]
  have hall : ∀ c ∈ ext.toList.reverse, (decide (c ≠ '.')) = true := by
    intro c hc
    have hne : c ≠ '.' := fun h => hext (h ▸ List.mem_reverse.mp hc)
    simpa using hne
  have hdrop : (ext.toList.reverse ++ '.' :: stem.toList.reverse).dropWhile (· ≠ '.') =
      '.' :: stem.toList.reverse := by
    rw [List.dropWhile_append_of_pos hall]
    rfl
  have htake : (ext.toList.reverse ++ '.' :: stem.toList.reverse).takeWhile (· ≠ '.') =
      ext.toList.reverse := by
    rw [List.takeWhile_append_of_pos hall]
    simp
  obtain ⟨c, cs, hcs⟩ : ∃ c cs, stem.toList.reverse = c :: cs := by
    refine List.exists_cons_of_ne_nil fun hnil => hstem ?_
    rw [List.reverse_eq_nil_iff] at hnil
    exact String.toList_inj.mp hnil
  simp only [extension, hrev, hdrop, htake, List.reverse_reverse, String.ofList_toList]
  rw [hcs]

namespace DeferEntry

theorem extension_filename (e : DeferEntry) : extension e.filename = some "deferred" := by
  have heq : e.filename = (e.priority.sortkey ++ "-" ++ e.id) ++ ("." ++ "deferred") := rfl
  rw [heq]
  refine extension_append ?_ (by decide)
  intro h
  have := congrArg String.toList h
  simp [String.toList_append] at this

theorem extension_manualClearFilename (e : DeferEntry) :
    extension e.manualClearFilename = some "manual_clear" := by
  have heq : e.manualClearFilename =
      (e.priority.sortkey ++ "-" ++ e.id) ++ ("." ++ "manual_clear") := rfl
  rw [heq]
  refine extension_append ?_ (by decide)
  intro h
  have := congrArg String.toList h
  simp [String.toList_append] at this

/-- A file name determines priority and id. -/
theorem filename_inj {e e' : DeferEntry} (h : e.filename = e'.filename) :
    e.priority = e'.priority ∧ e.id = e'.id := by
  simp only [filename, String.append_left_inj] at h
  cases hp : e.priority <;> cases hp' : e'.priority <;>
    simp [hp, hp', DeferPriority.sortkey, ← String.toList_inj, String.toList_append] at h ⊢ <;>
    exact h

/-- So does the name of the quarantined file. -/
theorem manualClearFilename_inj {e e' : DeferEntry}
    (h : e.manualClearFilename = e'.manualClearFilename) : e.filename = e'.filename := by
  simp only [manualClearFilename, String.append_left_inj] at h
  simp only [filename, h]

end DeferEntry

/-- Names in lexicographic order are in the order of execution. -/
theorem rank_le_of_filename_le {e e' : DeferEntry} (h : e.filename ≤ e'.filename) :
    e.priority.rank ≤ e'.priority.rank := by
  by_contra hlt
  refine absurd h ?_
  rw [not_le, String.lt_iff_toList_lt]
  cases hp : e.priority <;> cases hp' : e'.priority <;>
    simp [hp, hp', DeferPriority.rank] at hlt <;>
    simp [DeferEntry.filename, hp, hp', DeferPriority.sortkey, String.toList_append,
      List.cons_lt_cons_iff]

/-! ## Ids -/

/-- Actions on a unit of an init system, as opposed to commands and daemon
    reloads. -/
def DeferAction.onUnit : DeferAction → Bool
  | command _ | daemonReload => false
  | _ => true

theorem append_cons_inj {α : Type} {c : α} {xs xs' ys ys' : List α} (hxs : c ∉ xs)
    (hxs' : c ∉ xs') (h : xs ++ c :: ys = xs' ++ c :: ys') : xs = xs' ∧ ys = ys' := by
  induction xs generalizing xs' with
  | nil =>
    cases xs' with
    | nil => simpa using h
    | cons x' xs' =>
      obtain ⟨rfl, -⟩ := List.cons.inj h
      exact absurd List.mem_cons_self hxs'
  | cons x xs ih =>
    cases xs' with
    | nil =>
      obtain ⟨rfl, -⟩ := List.cons.inj h
      exact absurd List.mem_cons_self hxs
    | cons x' xs' =>
      obtain ⟨rfl, htail⟩ := List.cons.inj h
      obtain ⟨rfl, hys⟩ := ih (fun hmem => hxs (List.mem_cons_of_mem _ hmem))
        (fun hmem => hxs' (List.mem_cons_of_mem _ hmem)) htail
      exact ⟨rfl, hys⟩

theorem makeId_onUnit {initSystem target : String} {action : DeferAction}
    (h : action.onUnit = true) : (makeId initSystem action target).toList =
      initSystem.toList ++ '.' :: (action.filenameSlug.toList ++ ':' :: target.toList) := by
  cases action <;> simp [DeferAction.onUnit] at h <;> simp [makeId, String.toList_append]

/-- As long as the tags of the init systems have no dot, the id of an action on a
    unit determines all three parts. -/
theorem makeId_inj {initSystem initSystem' target target' : String}
    {action action' : DeferAction} (hinit : '.' ∉ initSystem.toList)
    (hinit' : '.' ∉ initSystem'.toList) (hunit : action.onUnit = true)
    (hunit' : action'.onUnit = true)
    (h : makeId initSystem action target = makeId initSystem' action' target') :
    initSystem = initSystem' ∧ action = action' ∧ target = target' := by
  have hlist := congrArg String.toList h
  rw [makeId_onUnit hunit, makeId_onUnit hunit'] at hlist
  obtain ⟨hinitEq, hrest⟩ := append_cons_inj hinit hinit' hlist
  have hslug : ∀ a : DeferAction, ':' ∉ a.filenameSlug.toList := by
    intro a
    cases a <;> simp [DeferAction.filenameSlug]
  obtain ⟨hslugEq, htarget⟩ := append_cons_inj (hslug _) (hslug _) hrest
  refine ⟨String.toList_inj.mp hinitEq, ?_, String.toList_inj.mp htarget⟩
  cases action <;> cases action' <;>
    simp [DeferAction.onUnit, DeferAction.filenameSlug] at hunit hunit' hslugEq ⊢

/-- The ids of commands and daemon reloads are not ids of actions on a unit. -/
theorem onUnit_of_makeId {initSystem initSystem' target target' : String}
    {action action' : DeferAction} (hinit : '.' ∉ initSystem.toList)
    (hinit' : '.' ∉ initSystem'.toList) (hunit : action.onUnit = true)
    (h : makeId initSystem action target = makeId initSystem' action' target') :
    action'.onUnit = true := by
  have hlist := congrArg String.toList h
  rw [makeId_onUnit hunit] at hlist
  cases haction : action' with
  | command argv =>
    have hcmd : (makeId initSystem' (.command argv) target').toList =
        "command".toList ++ '.' :: ("run".toList ++ ':' :: target'.toList) := by
      simp [makeId, String.toList_append]
    rw [haction, hcmd] at hlist
    obtain ⟨-, hrest⟩ := append_cons_inj hinit (by decide) hlist
    have hslug : ':' ∉ action.filenameSlug.toList := by
      cases action <;> simp [DeferAction.filenameSlug]
    obtain ⟨hrun, -⟩ := append_cons_inj hslug (by decide) hrest
    cases action <;> simp [DeferAction.onUnit, DeferAction.filenameSlug] at hunit hrun
  | daemonReload =>
    rw [haction] at hlist
    by_cases hempty : initSystem' = ""
    · have hdot : '.' ∈ "daemon_reload".toList := by
        simp only [makeId, if_pos hempty] at hlist
        rw [← hlist]
        simp
      exact absurd hdot (by decide)
    · have hid : (makeId initSystem' .daemonReload target').toList =
          initSystem'.toList ++ '.' :: "daemon_reload".toList := by
        simp [makeId, hempty, String.toList_append]
      rw [hid] at hlist
      obtain ⟨-, hrest⟩ := append_cons_inj hinit hinit' hlist
      have hcolon : ':' ∈ "daemon_reload".toList := by
        rw [← hrest]
        simp
      exact absurd hcolon (by decide)
  | _ => rfl

namespace DeferEntry

/-- The unit an entry is about. -/
def key (e : DeferEntry) : String × String := (e.initSystem, e.target)

/-- Canonical, and the tag of the init system is free of dots, as `systemd`,
    `runr` and the empty tag are. -/
structure WellNamed (e : DeferEntry) : Prop where
  canonical : e.Canonical
  dotless : '.' ∉ e.initSystem.toList

theorem WellNamed.bumped {e : DeferEntry} (h : e.WellNamed) : e.bumped.WellNamed :=
  ⟨⟨h.canonical.id, h.canonical.priority⟩, h.dotless⟩

theorem filename_eq_of_id {e e' : DeferEntry} (hp : e.priority = e'.priority)
    (hid : e.id = e'.id) : e.filename = e'.filename := by
  simp only [filename, hp, hid]

/-- One file for each action on a unit. -/
theorem WellNamed.eq_of_filename {e e' : DeferEntry} (h : e.WellNamed) (h' : e'.WellNamed)
    (hunit : e.action.onUnit = true) (hname : e.filename = e'.filename) :
    e.key = e'.key ∧ e.action = e'.action := by
  obtain ⟨hpriority, hid⟩ := filename_inj hname
  have hunit' : e'.action.onUnit = true := by
    rw [h.canonical.priority, h'.canonical.priority] at hpriority
    cases ha : e.action <;> cases ha' : e'.action <;>
      simp [ha, ha', DeferAction.onUnit, DeferAction.defaultPriority] at hunit hpriority ⊢
  rw [h.canonical.id, h'.canonical.id] at hid
  obtain ⟨hinit, haction, htarget⟩ := makeId_inj h.dotless h'.dotless hunit hunit' hid
  exact ⟨Prod.ext hinit htarget, haction⟩

theorem WellNamed.action_of_id {e e' : DeferEntry} (h : e.WellNamed) (h' : e'.WellNamed)
    (hunit : e.action.onUnit = true) (hid : e.id = e'.id) : e.action = e'.action := by
  rw [h.canonical.id, h'.canonical.id] at hid
  have hunit' := onUnit_of_makeId h.dotless h'.dotless hunit hid
  exact (makeId_inj h.dotless h'.dotless hunit hunit' hid).2.1

theorem WellNamed.filename_eq {e e' : DeferEntry} (h : e.WellNamed) (h' : e'.WellNamed)
    (hkey : e.key = e'.key) (haction : e.action = e'.action) : e.filename = e'.filename := by
  obtain ⟨hinit, htarget⟩ := Prod.mk.inj hkey
  refine filename_eq_of_id ?_ ?_
  · rw [h.canonical.priority, h'.canonical.priority, haction]
  · rw [h.canonical.id, h'.canonical.id, hinit, haction, htarget]

end DeferEntry

end Bosun
