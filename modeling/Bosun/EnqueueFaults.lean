import Bosun.JournalFamily
import Bosun.JournalFaults

/-!
# `enqueue` that fails half way

`enqueue` first deletes what the new entry supersedes and then writes the new one
through a staging file.  A call that fails between the two leaves the journal with
neither.  `Spared` says of a journal and a new entry that this does no harm, and
`failureAtomic_iff` that it is exactly then that no failure does any.

For a journal that bosun has written the condition comes down to one thing: no
weaker entry of the family is pending for the unit (`spared_iff_of_orderly`).
-/

namespace Bosun

namespace Journal

/-! ## What a failure may not do -/

/-- The unit of `e` has kept the strongest of what was pending for it, and no entry
    of another unit has changed. -/
structure Unharmed (d d' : Dir) (e : DeferEntry) : Prop where
  strength : ∀ q ∈ pending d, q.key = e.key → q.action.strength ≠ ⊥ →
    ∃ q' ∈ pending d', q'.key = e.key ∧ q.action.strength ≤ q'.action.strength
  others : ∀ name q, isDeferred name = true → q.key ≠ e.key →
    (d'.lookup name = some (.entry q) ↔ d.lookup name = some (.entry q))

/-- Whatever call into the file system fails, the journal comes to no harm. -/
def FailureAtomic (d : Dir) (e : DeferEntry) : Prop :=
  ∀ fs err fs', fs.dir = d → enqueue e fs = .error err fs' → Unharmed d fs'.dir e

/-- The files that may go, or be written over, hold nothing of another unit, and of
    its own unit something as strong as any entry stays outside them. -/
structure Spared (d : Dir) (e : DeferEntry) : Prop where
  strength : ∀ q ∈ pending d, q.key = e.key → q.action.strength ≠ ⊥ →
    ∃ name q', isDeferred name = true ∧ d.lookup name = some (.entry q') ∧ q'.key = e.key ∧
      q.action.strength ≤ q'.action.strength ∧ ¬ Superseded d e name ∧
      (name = e.filename → q.action.strength ≤ e.action.strength)
  others : ∀ name q, Superseded d e name ∨ name = e.filename →
    d.lookup name = some (.entry q) → q.key = e.key

theorem Spared.unharmed {d d' : Dir} {e : DeferEntry} (h : Spared d e)
    (htouched : Touched (Superseded d e) (Staging e) (· = e) d d') : Unharmed d d' e := by
  have hfile : ∀ name, isDeferred name = true → d'.lookup name = d.lookup name ∨
      (Superseded d e name ∧ d'.lookup name = none) ∨
      (name = e.filename ∧ d'.lookup name = some (.entry e)) := by
    intro name hname
    rcases htouched name (fun hs => by simp [hs.not_isDeferred] at hname) with
      heq | hgone | ⟨_, rfl, hfinal, hl⟩
    · exact .inl heq
    · exact .inr (.inl hgone)
    · exact .inr (.inr ⟨hfinal, hl⟩)
  refine ⟨fun q hq hkey hfamily => ?_, fun name q hname hkey => ⟨fun hl => ?_, fun hl => ?_⟩⟩
  · obtain ⟨name, q', hname, hl, hkey', hle, hkept, hfinal⟩ := h.strength q hq hkey hfamily
    rcases hfile name hname with heq | ⟨hgone, -⟩ | ⟨heq, hl'⟩
    · exact ⟨q', mem_pending.mpr ⟨name, hname, heq.trans hl⟩, hkey', hle⟩
    · exact absurd hgone hkept
    · exact ⟨e, mem_pending.mpr ⟨name, hname, hl'⟩, rfl, hfinal heq⟩
  · rcases hfile name hname with heq | ⟨-, hnone⟩ | ⟨-, hl'⟩
    · exact heq.symm.trans hl
    · rw [hnone] at hl
      cases hl
    · rw [hl'] at hl
      obtain rfl : e = q := by simpa using hl
      exact absurd rfl hkey
  · rcases hfile name hname with heq | ⟨hgone, -⟩ | ⟨heq, -⟩
    · exact heq.trans hl
    · exact absurd (h.others name q (.inl hgone) hl) hkey
    · exact absurd (h.others name q (.inr heq) hl) hkey

/-! ## Calls that fail from some point on -/

theorem bind_eq {α β : Type} {x : FsM α} {f : α → FsM β} {fs fs' : Fs} {a : α}
    (h : x fs = .ok a fs') : (x >>= f) fs = f a fs' := by
  show EStateM.bind x f fs = _
  rw [EStateM.bind, h]

theorem bind_eq_error {α β : Type} {x : FsM α} {f : α → FsM β} {fs fs' : Fs} {err : DeferError}
    (h : x fs = .error err fs') : (x >>= f) fs = .error err fs' := by
  show EStateM.bind x f fs = _
  rw [EStateM.bind, h]

theorem syscall_ok {fs : Fs} (err : IoError → DeferError) (h : fs.fault fs.ops = none) :
    syscall err fs = .ok () (fs.withDir fs.dir (fs.ops + 1)) := by
  simp [syscall, h, Fs.withDir]

theorem syscall_error {fs : Fs} (err : IoError → DeferError) {e : IoError}
    (h : fs.fault fs.ops = some e) :
    syscall err fs = .error (err e) (fs.withDir fs.dir (fs.ops + 1)) := by
  simp [syscall, h, Fs.withDir]

theorem get_eq (fs : Fs) : (get : FsM Fs) fs = .ok fs fs := rfl

theorem setFile_eq (name : String) (content : FileContent) (fs : Fs) :
    setFile name content fs = .ok () (fs.withDir (fs.dir.insert name content) fs.ops) := rfl

/-- Only the files that `pick` knows can be read. -/
theorem readAll_picked (pick : String → Option DeferEntry) (names : List String) (fs : Fs)
    (hpick : ∀ name q, pick name = some q → fs.dir.lookup name = some (.entry q))
    (hfault : ∀ k (hk : k < names.length),
      fs.fault (fs.ops + k) = none ↔ (pick names[k]).isSome = true) :
    readAll names fs = .ok (names.filterMap pick) (fs.withDir fs.dir (fs.ops + names.length)) := by
  induction names generalizing fs with
  | nil => rfl
  | cons name names ih =>
    have hrest : readAll names (fs.withDir fs.dir (fs.ops + 1)) =
        .ok (names.filterMap pick) (fs.withDir fs.dir (fs.ops + (name :: names).length)) := by
      rw [List.length_cons, Nat.add_comm names.length 1, ← Nat.add_assoc]
      refine ih (fs.withDir fs.dir (fs.ops + 1)) hpick fun k hk => ?_
      show fs.fault (fs.ops + 1 + k) = none ↔ _
      rw [Nat.add_assoc, Nat.add_comm 1 k]
      exact hfault (k + 1) (Nat.succ_lt_succ hk)
    have hfirst := hfault 0 (Nat.succ_pos _)
    simp only [Nat.add_zero, List.getElem_cons_zero] at hfirst
    unfold readAll
    cases hname : pick name with
    | some q =>
      have hread : readEntry name fs = .ok q (fs.withDir fs.dir (fs.ops + 1)) := by
        refine (bind_eq (syscall_ok _ (hfirst.mpr (by rw [hname]; rfl)))).trans ?_
        have hget : ∀ fs : Fs, (get : FsM Fs) fs = .ok fs fs := fun _ => rfl
        simp only [bind, EStateM.bind, hget, Fs.withDir_dir, hpick name q hname]
        rfl
      rw [bind_eq (show FsM.attempt (readEntry name) fs = .ok (.ok q) _ by
        rw [FsM.attempt, hread]), List.filterMap_cons_some hname]
      exact bind_eq hrest
    | none =>
      obtain ⟨fault, hfault⟩ : ∃ fault, fs.fault fs.ops = some fault := by
        rw [← Option.isSome_iff_exists, ← Option.ne_none_iff_isSome]
        exact fun h => by simp [hname] at hfirst; exact hfirst h
      have hread : readEntry name fs =
          .error (.io name fault) (fs.withDir fs.dir (fs.ops + 1)) :=
        bind_eq_error (syscall_error _ hfault)
      rw [bind_eq (show FsM.attempt (readEntry name) fs = .ok (.error (.io name fault)) _ by
        rw [FsM.attempt, hread]), List.filterMap_cons_none hname]
      exact hrest

/-- As long as no call fails, everything on the list goes. -/
theorem removeSubsumed_all (e : DeferEntry) (olds : List DeferEntry) (fs : Fs)
    (holds : ∀ q ∈ olds, subsumes e.action q.action = true)
    (hfault : ∀ k < olds.length, fs.fault (fs.ops + k) = none) :
    ∃ dir, removeSubsumed e olds fs =
        .ok (olds.any fun q => (fs.dir.lookup q.filename).isSome)
          (fs.withDir dir (fs.ops + olds.length)) ∧
      ∀ name, dir.lookup name =
        if ∃ q ∈ olds, q.filename = name then none else fs.dir.lookup name := by
  induction olds generalizing fs with
  | nil => exact ⟨fs.dir, rfl, by simp⟩
  | cons old olds ih =>
    obtain ⟨hold, holds⟩ := List.forall_mem_cons.mp holds
    have hcall := syscall_ok (.io old.filename) (hfault 0 (Nat.succ_pos _))
    have hlater : ∀ k < olds.length, fs.fault (fs.ops + 1 + k) = none := by
      intro k hk
      rw [Nat.add_assoc, Nat.add_comm 1 k]
      exact hfault (k + 1) (Nat.succ_lt_succ hk)
    have hlength : fs.ops + 1 + olds.length = fs.ops + (old :: olds).length := by
      rw [List.length_cons]
      omega
    unfold removeSubsumed
    rw [if_pos hold]
    cases hl : fs.dir.lookup old.filename with
    | some content =>
      have hremove : FsM.attempt (removeFile old.filename) fs =
          .ok (.ok ()) (fs.withDir (fs.dir.erase old.filename) (fs.ops + 1)) := by
        rw [FsM.attempt, removeFile, bind_eq hcall, bind_eq (get_eq _)]
        simp only [Fs.withDir_dir, hl]
        rfl
      obtain ⟨dir, hrest, hdir⟩ := ih (fs.withDir (fs.dir.erase old.filename) (fs.ops + 1))
        holds hlater
      refine ⟨dir, ?_, fun name => ?_⟩
      · rw [bind_eq hremove]
        refine (bind_eq hrest).trans ?_
        rw [← hlength, List.any_cons, hl]
        rfl
      · rw [hdir, Fs.withDir_dir]
        by_cases hname : old.filename = name
        · subst hname
          simp [AList.lookup_erase]
        · rw [AList.lookup_erase_ne (Ne.symm hname)]
          simp [hname]
    | none =>
      have hremove : FsM.attempt (removeFile old.filename) fs =
          .ok (.error (.io old.filename .notFound)) (fs.withDir fs.dir (fs.ops + 1)) := by
        rw [FsM.attempt, removeFile, bind_eq hcall, bind_eq (get_eq _)]
        simp only [Fs.withDir_dir, hl]
        rfl
      obtain ⟨dir, hrest, hdir⟩ := ih (fs.withDir fs.dir (fs.ops + 1)) holds hlater
      refine ⟨dir, ?_, fun name => ?_⟩
      · rw [bind_eq hremove]
        refine hrest.trans ?_
        rw [← hlength, List.any_cons, hl]
        rfl
      · rw [hdir, Fs.withDir_dir]
        by_cases hname : old.filename = name
        · subst hname
          simp [hl]
        · simp [hname]

/-- The last thing `atomicWrite` does is to sync the directory, and then the entry is
    in its place. -/
theorem atomicWrite_unsynced (e : DeferEntry) (fs : Fs) {nanos : Nat} {fault : IoError}
    (hclock : fs.wallClock fs.ops = some nanos)
    (hfault : ∀ k < 6, fs.fault (fs.ops + k) = none)
    (hsync : fs.fault (fs.ops + 6) = some fault) :
    ∃ fs', atomicWrite e fs = .error (.io "." fault) fs' ∧ Written fs.dir fs'.dir e nanos := by
  let tmp := stagingName e nanos
  let open' : Dir := fs.dir.insert tmp .corrupt
  let full : Dir := open'.insert tmp (.entry e)
  have hfull : full.lookup tmp = some (.entry e) := AList.lookup_insert _
  have hcall : ∀ (dir : Dir) k (err : IoError → DeferError), k < 6 →
      syscall err (fs.withDir dir (fs.ops + k)) = .ok () (fs.withDir dir (fs.ops + (k + 1))) :=
    fun dir k err hk => syscall_ok err (show (fs.withDir dir (fs.ops + k)).fault _ = none from
      hfault k hk)
  have hrename : FsM.attempt (renameFile tmp e.filename e.filename)
      (fs.withDir full (fs.ops + 5)) = .ok (.ok ())
        (fs.withDir ((full.erase tmp).insert e.filename (.entry e)) (fs.ops + 6)) := by
    rw [FsM.attempt, renameFile, bind_eq (hcall full 5 _ (by decide)),
      bind_eq (get_eq _)]
    simp only [Fs.withDir_dir, hfull]
    rfl
  have hnanos : nanosNow fs = .ok nanos fs := by
    rw [nanosNow, bind_eq (get_eq _)]
    simp only [hclock]
    rfl
  refine ⟨fs.withDir ((full.erase tmp).insert e.filename (.entry e)) (fs.ops + 7), ?_, ?_⟩
  · unfold atomicWrite
    refine (bind_eq hnanos).trans ((bind_eq (hcall fs.dir 0 _ (by decide))).trans ?_)
    refine (bind_eq (setFile_eq _ _ _)).trans ((bind_eq (hcall open' 1 _ (by decide))).trans ?_)
    refine (bind_eq (hcall open' 2 _ (by decide))).trans ?_
    refine (bind_eq (hcall open' 3 _ (by decide))).trans ?_
    refine (bind_eq (setFile_eq _ _ _)).trans ((bind_eq (hcall full 4 _ (by decide))).trans ?_)
    refine (bind_eq hrename).trans ?_
    exact bind_eq_error (syscall_error _ hsync)
  · have hne : e.filename ≠ tmp := (stagingName_ne_filename e nanos).symm
    refine ⟨AList.lookup_insert _, ?_, ?_⟩
    · rw [Fs.withDir_dir, AList.lookup_insert_ne (Ne.symm hne)]
      exact AList.lookup_erase _ _
    · intro name hfinal hstaging
      rw [Fs.withDir_dir, AList.lookup_insert_ne hfinal, AList.lookup_erase_ne hstaging,
        AList.lookup_insert_ne hstaging, AList.lookup_insert_ne hstaging]

/-! ## The disk that does the harm -/

/-- The entry in a file, if `e` supersedes it. -/
def supersededIn (d : Dir) (e : DeferEntry) (name : String) : Option DeferEntry :=
  match d.lookup name with
  | some (.entry q) =>
    if q.key = e.key ∧ q.id ≠ e.id ∧ subsumes e.action q.action = true then some q else none
  | _ => none

theorem supersededIn_eq_some {d : Dir} {e q : DeferEntry} {name : String} :
    supersededIn d e name = some q ↔ d.lookup name = some (.entry q) ∧ q.key = e.key ∧
      q.id ≠ e.id ∧ subsumes e.action q.action = true := by
  unfold supersededIn
  rcases d.lookup name with _ | ⟨q' | _⟩
  · simp
  · simp only [Option.ite_none_right_eq_some, Option.some.injEq, FileContent.entry.injEq]
    constructor
    · rintro ⟨hq, rfl⟩
      exact ⟨rfl, hq⟩
    · rintro ⟨rfl, hq⟩
      exact ⟨hq, rfl⟩
  · simp

def deferredNames (d : Dir) : List String := (d.keys.filter isDeferred).insertionSort (· ≤ ·)

def supersededEntries (d : Dir) (e : DeferEntry) : List DeferEntry :=
  (deferredNames d).filterMap (supersededIn d e)

theorem superseded_iff {d : Dir} {e : DeferEntry} {name : String} :
    Superseded d e name ↔ ∃ q ∈ supersededEntries d e, q.filename = name := by
  constructor
  · rintro ⟨q, hq, hkey, hid, hsub, rfl⟩
    obtain ⟨source, hsource, hl⟩ := mem_pending.mp hq
    refine ⟨q, List.mem_filterMap.mpr ⟨source, ?_, supersededIn_eq_some.mpr ⟨hl, hkey, hid, hsub⟩⟩,
      rfl⟩
    rw [deferredNames, List.mem_insertionSort, List.mem_filter]
    refine ⟨?_, hsource⟩
    rw [← AList.mem_keys, ← AList.lookup_isSome, hl]
    rfl
  · rintro ⟨q, hq, rfl⟩
    obtain ⟨source, hsource, hin⟩ := List.mem_filterMap.mp hq
    obtain ⟨hl, hkey, hid, hsub⟩ := supersededIn_eq_some.mp hin
    rw [deferredNames, List.mem_insertionSort, List.mem_filter] at hsource
    exact ⟨q, mem_pending.mpr ⟨source, hsource.2, hl⟩, hkey, hid, hsub, rfl⟩

theorem mem_supersededEntries {d : Dir} {e q : DeferEntry} (h : q ∈ supersededEntries d e) :
    q.key = e.key ∧ q.id ≠ e.id ∧ subsumes e.action q.action = true := by
  obtain ⟨name, -, hin⟩ := List.mem_filterMap.mp h
  exact (supersededIn_eq_some.mp hin).2

/-- It reads nothing but what `e` supersedes, and breaks at call `stop`. -/
def breakingFs (d : Dir) (e : DeferEntry) (stop : Nat) : Fs where
  dir := d
  ops := 0
  fault i := if i = 0 then none else match (deferredNames d)[i - 1]? with
    | some name =>
      if (supersededIn d e name).isSome then none else some (.other "Input/output error")
    | none => if stop ≤ i then some (.other "Input/output error") else none
  wallClock _ := some 0

/-- The calls up to the last removal. -/
def removalCalls (d : Dir) (e : DeferEntry) : Nat :=
  1 + (deferredNames d).length + (supersededEntries d e).length

theorem fault_breakingFs {d : Dir} {e : DeferEntry} {stop i : Nat}
    (hi : 1 + (deferredNames d).length ≤ i) : (breakingFs d e stop).fault i =
      if stop ≤ i then some (.other "Input/output error") else none := by
  have hnone : (deferredNames d)[i - 1]? = none := by
    rw [List.getElem?_eq_none_iff]
    omega
  simp only [breakingFs, hnone]
  rw [if_neg (by omega)]

/-- On that disk `enqueue` removes what `e` supersedes and goes on from there. -/
theorem enqueue_breakingFs (d : Dir) (e : DeferEntry) {stop : Nat}
    (hstop : removalCalls d e ≤ stop) : ∃ mid,
    (∀ name, Superseded d e name → mid.lookup name = none) ∧
    (∀ name, ¬ Superseded d e name → mid.lookup name = d.lookup name) ∧
    enqueue e (breakingFs d e stop) = (do
      if (supersededEntries d e).any fun q => (d.lookup q.filename).isSome then fsyncDir
      atomicWrite e
      return if (supersededEntries d e).any fun q => (d.lookup q.filename).isSome
        then .replacedLowerPriority else .created : FsM EnqueueResult)
        ((breakingFs d e stop).withDir mid (removalCalls d e)) := by
  have hread : listSorted (breakingFs d e stop) = .ok (supersededEntries d e)
      ((breakingFs d e stop).withDir d (1 + (deferredNames d).length)) := by
    unfold listSorted
    refine (bind_eq (syscall_ok _ rfl)).trans ((bind_eq (get_eq _)).trans ?_)
    refine readAll_picked (supersededIn d e) (deferredNames d) ((breakingFs d e stop).withDir d 1)
      (fun name q h => (supersededIn_eq_some.mp h).1) fun k hk => ?_
    have hname : (deferredNames d)[1 + k - 1]? = some (deferredNames d)[k] := by
      rw [Nat.add_sub_cancel_left]
      exact List.getElem?_eq_getElem hk
    show (breakingFs d e stop).fault (1 + k) = none ↔ _
    simp only [breakingFs, hname]
    rw [if_neg (by omega)]
    split
    · simp_all
    · simp_all
  have hall : ∀ q ∈ supersededEntries d e, q.key = e.key ∧ q.id ≠ e.id ∧
      subsumes e.action q.action = true := fun q => mem_supersededEntries
  have htarget : sameTarget e (supersededEntries d e) = supersededEntries d e := by
    refine List.filter_eq_self.mpr fun q hq => ?_
    obtain ⟨hinit, htarget⟩ := Prod.mk.inj (hall q hq).1
    simp [hinit, htarget]
  have hexists : ¬ (supersededEntries d e).any (fun q => q.id = e.id) := by
    rw [List.any_eq_true]
    rintro ⟨q, hq, hid⟩
    exact (hall q hq).2.1 (by simpa using hid)
  have hsub : ¬ (supersededEntries d e).any (fun q => subsumes q.action e.action) := by
    rw [List.any_eq_true]
    rintro ⟨q, hq, hsub⟩
    exact absurd (subsumes_iff.mp hsub).2 (subsumes_iff.mp (hall q hq).2.2).2.not_gt
  obtain ⟨mid, hremove, hmid⟩ := removeSubsumed_all e (supersededEntries d e)
    ((breakingFs d e stop).withDir d (1 + (deferredNames d).length))
    (fun q hq => (hall q hq).2.2) fun k hk => by
      show (breakingFs d e stop).fault (1 + (deferredNames d).length + k) = none
      rw [fault_breakingFs (by omega), if_neg (by unfold removalCalls at hstop; omega)]
  refine ⟨mid, fun name hname => ?_, fun name hname => ?_, ?_⟩
  · rw [hmid, if_pos (superseded_iff.mp hname)]
  · rw [hmid, if_neg fun h => hname (superseded_iff.mpr h)]
    rfl
  · unfold enqueue
    refine (bind_eq hread).trans ?_
    simp only [htarget, if_neg hexists, if_neg hsub]
    exact bind_eq hremove

/-- The disk breaks when everything that `e` supersedes has gone. -/
theorem enqueue_fails_removed (d : Dir) (e : DeferEntry) : ∃ fs err fs', fs.dir = d ∧
    enqueue e fs = .error err fs' ∧ (∀ name, Superseded d e name → fs'.dir.lookup name = none) ∧
    ∀ name, ¬ Superseded d e name → fs'.dir.lookup name = d.lookup name := by
  let fs := breakingFs d e (removalCalls d e)
  obtain ⟨mid, hgone, hkept, hrun⟩ := enqueue_breakingFs d e (Nat.le_refl (removalCalls d e))
  have hbroken : ∀ err : IoError → DeferError, ∃ broken,
      syscall err (fs.withDir mid (removalCalls d e)) =
        .error broken (fs.withDir mid (removalCalls d e + 1)) := by
    refine fun err => ⟨_, syscall_error (e := .other "Input/output error") err ?_⟩
    refine (fault_breakingFs ?_).trans (if_pos (Nat.le_refl _))
    exact Nat.le_add_right _ _
  obtain ⟨err, herr⟩ : ∃ err, enqueue e fs =
      .error err (fs.withDir mid (removalCalls d e + 1)) := by
    rw [hrun]
    -- the next call is the sync of the directory or opens the staging file
    cases (supersededEntries d e).any fun q => (d.lookup q.filename).isSome with
    | true =>
      obtain ⟨broken, hsync⟩ := hbroken (.io ".")
      exact ⟨broken, bind_eq_error (bind_eq_error hsync)⟩
    | false =>
      obtain ⟨broken, hopen⟩ := hbroken (.io (stagingName e 0))
      have hnanos : nanosNow (fs.withDir mid (removalCalls d e)) =
          .ok 0 (fs.withDir mid (removalCalls d e)) := rfl
      exact ⟨broken, bind_eq_error ((bind_eq hnanos).trans (bind_eq_error hopen))⟩
  exact ⟨fs, err, fs.withDir mid (removalCalls d e + 1), rfl, herr, hgone, hkept⟩

/-- It breaks when, besides, `e` has been written. -/
theorem enqueue_fails_written (d : Dir) (e : DeferEntry) : ∃ fs err fs', fs.dir = d ∧
    enqueue e fs = .error err fs' ∧ fs'.dir.lookup e.filename = some (.entry e) ∧
    ∀ name, isDeferred name = true → name ≠ e.filename →
      (Superseded d e name → fs'.dir.lookup name = none) ∧
      (¬ Superseded d e name → fs'.dir.lookup name = d.lookup name) := by
  -- the directory is synced first, if anything has gone
  let synced := if (supersededEntries d e).any fun q => (d.lookup q.filename).isSome then 2 else 0
  let fs := breakingFs d e (removalCalls d e + synced + 6)
  obtain ⟨mid, hgone, hkept, hrun⟩ := enqueue_breakingFs d e
    (show removalCalls d e ≤ removalCalls d e + synced + 6 by omega)
  have hquiet : ∀ k < synced + 6, fs.fault (removalCalls d e + k) = none := by
    intro k hk
    refine (fault_breakingFs ?_).trans (if_neg (by omega))
    unfold removalCalls
    omega
  have hbroken : fs.fault (removalCalls d e + synced + 6) = some (.other "Input/output error") := by
    refine (fault_breakingFs ?_).trans (if_pos (Nat.le_refl _))
    unfold removalCalls
    omega
  obtain ⟨fs', hwrite, hwritten⟩ := atomicWrite_unsynced e
    (fs.withDir mid (removalCalls d e + synced)) (show some 0 = some 0 from rfl)
    (fun k hk => by
      show fs.fault (removalCalls d e + synced + k) = none
      rw [Nat.add_assoc]
      exact hquiet (synced + k) (by omega)) hbroken
  refine ⟨fs, .io "." (.other "Input/output error"), fs', rfl, ?_, hwritten.final,
    fun name hname hfinal => ?_⟩
  · refine hrun.trans ?_
    cases hreplaced : (supersededEntries d e).any fun q => (d.lookup q.filename).isSome with
    | true =>
      have hsynced : synced = 2 := by simp only [synced, hreplaced, if_true]
      have hsync : fsyncDir (fs.withDir mid (removalCalls d e)) =
          .ok () (fs.withDir mid (removalCalls d e + 2)) :=
        (bind_eq (syscall_ok _ (hquiet 0 (by omega)))).trans
          (syscall_ok _ (hquiet 1 (by omega)))
      rw [hsynced] at hwrite
      exact (bind_eq hsync).trans (bind_eq_error hwrite)
    | false =>
      have hsynced : synced = 0 := by simp only [synced, hreplaced, Bool.false_eq_true, if_false]
      rw [hsynced] at hwrite
      exact bind_eq_error hwrite
  · have hother : fs'.dir.lookup name = mid.lookup name := by
      refine hwritten.others name hfinal ?_
      rintro rfl
      simp [not_isDeferred_stagingName] at hname
    exact ⟨fun h => hother.trans (hgone name h), fun h => hother.trans (hkept name h)⟩

/-- **`enqueue` is failure-atomic on just the journals that are spared.** -/
theorem failureAtomic_iff (d : Dir) (e : DeferEntry) : FailureAtomic d e ↔ Spared d e := by
  constructor
  · intro hatomic
    obtain ⟨fs, err, fs', hfs, hrun, hgone, hkept⟩ := enqueue_fails_removed d e
    have hremoved := hatomic fs err fs' hfs hrun
    obtain ⟨gs, err', gs', hgs, hrun', hfinal, hrest⟩ := enqueue_fails_written d e
    have hwritten := hatomic gs err' gs' hgs hrun'
    refine ⟨fun q hq hkey hfamily => ?_, fun name q hname hl => ?_⟩
    · by_cases hle : q.action.strength ≤ e.action.strength
      · obtain ⟨q', hq', hkey', hle'⟩ := hremoved.strength q hq hkey hfamily
        obtain ⟨name, hname, hl⟩ := mem_pending.mp hq'
        have hnot : ¬ Superseded d e name := fun h => by simp [hgone name h] at hl
        exact ⟨name, q', hname, (hkept name hnot).symm.trans hl, hkey', hle', hnot, fun _ => hle⟩
      · obtain ⟨q', hq', hkey', hle'⟩ := hwritten.strength q hq hkey hfamily
        obtain ⟨name, hname, hl⟩ := mem_pending.mp hq'
        have hne : name ≠ e.filename := by
          rintro rfl
          rw [hfinal] at hl
          obtain rfl : e = q' := by simpa using hl
          exact hle hle'
        have hnot : ¬ Superseded d e name := fun h => by simp [(hrest name hname hne).1 h] at hl
        exact ⟨name, q', hname, ((hrest name hname hne).2 hnot).symm.trans hl, hkey', hle', hnot,
          fun h => absurd h hne⟩
    · by_contra hkey
      rcases hname with hname | rfl
      · have hdeferred : isDeferred name = true := by
          obtain ⟨p, -, -, -, -, rfl⟩ := hname
          exact isDeferred_filename p
        have hl' := (hremoved.others name q hdeferred hkey).mpr hl
        simp [hgone name hname] at hl'
      · have hl' := (hwritten.others e.filename q (isDeferred_filename e) hkey).mpr hl
        rw [hfinal] at hl'
        obtain rfl : e = q := by simpa using hl'
        exact hkey rfl
  · intro hspared fs err fs' hfs hrun
    exact hspared.unharmed ((enqueue_triple_superseded d e).error hfs hrun)

/-- **In a journal that bosun has written** a failure does harm exactly when a weaker
    entry of the family is pending for the unit. -/
theorem spared_iff_of_orderly {d : Dir} {e : DeferEntry} (hd : Orderly d) (hone : AtMostOne d)
    (he : e.WellNamed) (hfamily : e.action.strength ≠ ⊥) :
    Spared d e ↔ ∀ q ∈ pending d, q.key = e.key → subsumes e.action q.action = false := by
  have hfilename : ∀ q ∈ pending d, d.lookup q.filename = some (.entry q) :=
    fun q hq => hd.mem_iff.mp hq
  constructor
  · intro hspared q hq hkey
    by_contra hsub
    rw [Bool.not_eq_false] at hsub
    have hfamily' := (subsumes_iff.mp hsub).1
    obtain ⟨name, q', hname, hl, hkey', hle, hnot, -⟩ := hspared.strength q hq hkey hfamily'
    have hq' : q' ∈ pending d := mem_pending.mpr ⟨name, hname, hl⟩
    -- the one entry of the family is the one that goes
    obtain rfl := hone q' hq' q hq (hkey'.trans hkey.symm)
      (fun hbot => hfamily' (le_bot_iff.mp (hbot ▸ hle))) hfamily'
    refine hnot ⟨q', hq', hkey', fun hid => ?_, hsub, hd.own name q' hname hl⟩
    have haction := he.action_of_id (hd.wellNamed q' hq') (DeferAction.onUnit_of_strength hfamily)
      hid.symm
    rw [haction] at hsub
    exact absurd (subsumes_iff.mp hsub).2 (lt_irrefl _)
  · intro hnone
    have hnot : ∀ name, ¬ Superseded d e name := by
      rintro name ⟨q, hq, hkey, -, hsub, -⟩
      simp [hnone q hq hkey] at hsub
    have hown : ∀ name q, isDeferred name = true → d.lookup name = some (.entry q) →
        name = e.filename → q.key = e.key ∧ q.action = e.action := by
      intro name q hname hl hfinal
      obtain ⟨hkey, haction⟩ := he.eq_of_filename
        (hd.wellNamed q (mem_pending.mpr ⟨name, hname, hl⟩))
        (DeferAction.onUnit_of_strength hfamily) (hfinal.symm.trans (hd.own name q hname hl))
      exact ⟨hkey.symm, haction.symm⟩
    refine ⟨fun q hq hkey _ => ?_, fun name q hname hl => ?_⟩
    · refine ⟨q.filename, q, isDeferred_filename q, hfilename q hq, hkey, le_refl _, hnot _,
        fun hfinal => ?_⟩
      rw [(hown _ q (isDeferred_filename q) (hfilename q hq) hfinal).2]
    · obtain rfl := hname.resolve_left (hnot name)
      exact (hown _ q (isDeferred_filename e) hl rfl).1

/-- The journal of one put off reload. -/
def reloadPending : Dir :=
  (∅ : Dir).insert (plainEntry "systemd" .reload "nginx").filename
    (.entry (plainEntry "systemd" .reload "nginx"))

/-- A disk that is full when the new entry is to be written. -/
def fullFs : Fs where
  dir := reloadPending
  ops := 0
  fault i := if i = 5 then some (.other "No space left on device (os error 28)") else none
  wallClock _ := some 0

/-- The restart that is to take its place comes to nothing, and the reload is gone. -/
theorem reload_lost : ¬ FailureAtomic reloadPending (plainEntry "systemd" .restart "nginx") := by
  intro hatomic
  obtain ⟨err, fs', hrun, hgone⟩ : ∃ err fs',
      enqueue (plainEntry "systemd" .restart "nginx") fullFs = .error err fs' ∧
        pending fs'.dir = [] := ⟨_, _, rfl, by decide⟩
  obtain ⟨q, hq, -⟩ := (hatomic fullFs err fs' rfl hrun).strength
    (plainEntry "systemd" .reload "nginx") (by decide) rfl
    (by simp [plainEntry, DeferAction.strength])
  simp [hgone] at hq

end Journal

end Bosun
