import Bosun.Journal

/-!
# The journal as a map, when no call fails

One specification for each operation of the journal: what it returns and what
the directory maps each name to afterwards.  They are stated for a file system
on which no call fails (`Healthy`); callers use them and unfold nothing.
-/

namespace Bosun

namespace Fs

/-- No call fails, and the clock is past the epoch. -/
structure Healthy (fs : Fs) : Prop where
  fault : ∀ n, fs.fault n = none
  wallClock : ∀ n, (fs.wallClock n).isSome = true

/-- The same file system with another directory, some calls later. -/
def withDir (fs : Fs) (dir : Dir) (ops : Nat) : Fs := { fs with dir := dir, ops := ops }

@[simp] theorem withDir_dir (fs : Fs) (dir : Dir) (ops : Nat) : (fs.withDir dir ops).dir = dir :=
  rfl

@[simp] theorem withDir_withDir (fs : Fs) (dir dir' : Dir) (ops ops' : Nat) :
    (fs.withDir dir ops).withDir dir' ops' = fs.withDir dir' ops' := rfl

theorem Healthy.withDir {fs : Fs} (h : fs.Healthy) (dir : Dir) (ops : Nat) :
    (fs.withDir dir ops).Healthy := ⟨h.fault, h.wallClock⟩

end Fs

/-- `x` succeeds with `a` and leaves the directory `dir`. -/
def Settles {α : Type} (x : FsM α) (fs : Fs) (a : α) (dir : Dir) : Prop :=
  ∃ ops, x fs = .ok a (fs.withDir dir ops)

/-- `x` fails with `err` and leaves the directory `dir`. -/
def Fails {α : Type} (x : FsM α) (fs : Fs) (err : DeferError) (dir : Dir) : Prop :=
  ∃ ops, x fs = .error err (fs.withDir dir ops)

namespace Settles

variable {α β : Type} {fs : Fs}

theorem bind_ok {x : FsM α} {f : α → FsM β} {a : α} {b : β} {dir dir' : Dir} {ops : Nat}
    (hx : x fs = .ok a (fs.withDir dir ops)) (hf : Settles (f a) (fs.withDir dir ops) b dir') :
    Settles (x >>= f) fs b dir' := by
  obtain ⟨ops', hops'⟩ := hf
  refine ⟨ops', ?_⟩
  show EStateM.bind x f fs = _
  rw [EStateM.bind, hx]
  exact hops'

theorem bind {x : FsM α} {f : α → FsM β} {a : α} {b : β} {dir dir' : Dir}
    (hx : Settles x fs a dir) (hf : ∀ ops, Settles (f a) (fs.withDir dir ops) b dir') :
    Settles (x >>= f) fs b dir' := by
  obtain ⟨ops, hops⟩ := hx
  exact bind_ok hops (hf ops)

theorem pure (a : α) : Settles (Pure.pure a) fs a fs.dir := ⟨fs.ops, rfl⟩

theorem attempt {x : FsM α} {a : α} {dir : Dir} (hx : Settles x fs a dir) :
    Settles (FsM.attempt x) fs (.ok a) dir := by
  obtain ⟨ops, hops⟩ := hx
  exact ⟨ops, by rw [FsM.attempt, hops]⟩

theorem bind_fails {x : FsM α} {f : α → FsM β} {a : α} {err : DeferError} {dir dir' : Dir}
    (hx : Settles x fs a dir) (hf : ∀ ops, Fails (f a) (fs.withDir dir ops) err dir') :
    Fails (x >>= f) fs err dir' := by
  obtain ⟨ops, hops⟩ := hx
  obtain ⟨ops', hops'⟩ := hf ops
  refine ⟨ops', ?_⟩
  show EStateM.bind x f fs = _
  rw [EStateM.bind, hops]
  exact hops'

end Settles

theorem Fails.bind {α β : Type} {x : FsM α} {fs : Fs} {err : DeferError} {dir : Dir}
    (hx : Fails x fs err dir) (f : α → FsM β) : Fails (x >>= f) fs err dir := by
  obtain ⟨ops, hops⟩ := hx
  refine ⟨ops, ?_⟩
  show EStateM.bind x f fs = _
  rw [EStateM.bind, hops]

theorem Fails.attempt {α : Type} {x : FsM α} {fs : Fs} {err : DeferError} {dir : Dir}
    (hx : Fails x fs err dir) : Settles (FsM.attempt x) fs (.error err) dir := by
  obtain ⟨ops, hops⟩ := hx
  exact ⟨ops, by rw [FsM.attempt, hops]⟩

namespace Journal

variable {fs : Fs} (hfs : fs.Healthy)
include hfs

/-! ## Single calls -/

theorem syscall_settles (err : IoError → DeferError) : Settles (syscall err) fs () fs.dir :=
  ⟨fs.ops + 1, by simp [syscall, hfs.fault, Fs.withDir]⟩

omit hfs in
theorem setFile_settles (name : String) (content : FileContent) :
    Settles (setFile name content) fs () (fs.dir.insert name content) := ⟨fs.ops, rfl⟩

omit hfs in
theorem get_settles : Settles (get : FsM Fs) fs fs fs.dir := ⟨fs.ops, rfl⟩

theorem nanosNow_settles : ∃ nanos, Settles nanosNow fs nanos fs.dir := by
  obtain ⟨nanos, hnanos⟩ := Option.isSome_iff_exists.mp (hfs.wallClock fs.ops)
  refine ⟨nanos, get_settles.bind fun ops => ?_⟩
  simp only [hnanos]
  exact ⟨ops, rfl⟩

theorem removeFile_settles {name : String} {content : FileContent}
    (h : fs.dir.lookup name = some content) :
    Settles (removeFile name) fs () (fs.dir.erase name) := by
  refine (syscall_settles hfs _).bind fun ops => ?_
  refine get_settles.bind fun ops' => ?_
  simp only [Fs.withDir_dir, h]
  exact ⟨ops', rfl⟩

theorem removeFile_missing {name : String} (h : fs.dir.lookup name = none) :
    Fails (removeFile name) fs (.io name .notFound) fs.dir := by
  refine (syscall_settles hfs _).bind_fails fun ops => ?_
  refine get_settles.bind_fails fun ops' => ?_
  simp only [Fs.withDir_dir, h]
  exact ⟨ops', rfl⟩

theorem renameFile_settles {source target errPath : String} {content : FileContent}
    (h : fs.dir.lookup source = some content) :
    Settles (renameFile source target errPath) fs ()
      ((fs.dir.erase source).insert target content) := by
  refine (syscall_settles hfs _).bind fun ops => ?_
  refine get_settles.bind fun ops' => ?_
  simp only [Fs.withDir_dir, h]
  exact ⟨ops', rfl⟩

theorem renameFile_missing {source target errPath : String} (h : fs.dir.lookup source = none) :
    Fails (renameFile source target errPath) fs (.io errPath .notFound) fs.dir := by
  refine (syscall_settles hfs _).bind_fails fun ops => ?_
  refine get_settles.bind_fails fun ops' => ?_
  simp only [Fs.withDir_dir, h]
  exact ⟨ops', rfl⟩

theorem fsyncDir_settles : Settles fsyncDir fs () fs.dir :=
  (syscall_settles hfs _).bind fun ops => syscall_settles (hfs.withDir fs.dir ops) _

/-! ## Reading -/

/-- The entries the journal holds, in the order of their file names. -/
def pending (dir : Dir) : List DeferEntry :=
  ((dir.keys.filter isDeferred).insertionSort (· ≤ ·)).filterMap fun name =>
    match dir.lookup name with
    | some (.entry e) => some e
    | _ => none

omit hfs in
theorem mem_pending {dir : Dir} {e : DeferEntry} :
    e ∈ pending dir ↔ ∃ name, isDeferred name = true ∧ dir.lookup name = some (.entry e) := by
  rw [pending, List.mem_filterMap]
  constructor
  · rintro ⟨name, hname, h⟩
    rw [List.mem_insertionSort, List.mem_filter] at hname
    refine ⟨name, hname.2, ?_⟩
    cases hl : dir.lookup name with
    | none => simp [hl] at h
    | some content =>
      cases content with
      | corrupt => simp [hl] at h
      | entry e' => simp only [hl, Option.some.injEq] at h; rw [h]
  · rintro ⟨name, hname, h⟩
    have hkey : name ∈ dir.keys := by
      rw [← AList.mem_keys, ← AList.lookup_isSome, h]
      rfl
    exact ⟨name, by simp [hkey, hname], by simp [h]⟩

theorem readEntry_settles {name : String} {e : DeferEntry}
    (h : fs.dir.lookup name = some (.entry e)) : Settles (readEntry name) fs e fs.dir := by
  refine (syscall_settles hfs _).bind fun ops => ?_
  refine get_settles.bind fun ops' => ?_
  simp only [Fs.withDir_dir, h]
  exact ⟨ops', rfl⟩

theorem readEntry_fails {name : String} (h : ∀ e, fs.dir.lookup name ≠ some (.entry e)) :
    ∃ err, Fails (readEntry name) fs err fs.dir := by
  cases hl : fs.dir.lookup name with
  | none =>
    refine ⟨.io name .notFound, (syscall_settles hfs _).bind_fails fun ops => ?_⟩
    refine get_settles.bind_fails fun ops' => ?_
    simp only [Fs.withDir_dir, hl]
    exact ⟨ops', rfl⟩
  | some content =>
    cases content with
    | entry e => exact absurd hl (h e)
    | corrupt =>
      refine ⟨.serde name, (syscall_settles hfs _).bind_fails fun ops => ?_⟩
      refine get_settles.bind_fails fun ops' => ?_
      simp only [Fs.withDir_dir, hl]
      exact ⟨ops', rfl⟩

theorem readAll_settles (names : List String) :
    Settles (readAll names) fs (names.filterMap fun name =>
      match fs.dir.lookup name with
      | some (.entry e) => some e
      | _ => none) fs.dir := by
  induction names generalizing fs with
  | nil => exact Settles.pure _
  | cons name names ih =>
    by_cases h : ∃ e, fs.dir.lookup name = some (.entry e)
    · obtain ⟨e, he⟩ := h
      refine (readEntry_settles hfs he).attempt.bind fun ops => ?_
      simp only [List.filterMap_cons, he]
      exact (ih (hfs.withDir fs.dir ops)).bind fun ops' => Settles.pure _
    · have hnone : ∀ e, fs.dir.lookup name ≠ some (.entry e) := fun e he => h ⟨e, he⟩
      obtain ⟨err, herr⟩ := readEntry_fails hfs hnone
      refine herr.attempt.bind fun ops => ?_
      simp only [List.filterMap_cons]
      exact ih (hfs.withDir fs.dir ops)

theorem listSorted_settles : Settles listSorted fs (pending fs.dir) fs.dir := by
  refine (syscall_settles hfs _).bind fun ops => ?_
  refine get_settles.bind fun ops' => ?_
  exact readAll_settles ((hfs.withDir fs.dir ops).withDir fs.dir ops') _

/-! ## What `enqueue` looks for -/

/-- The journal holds an entry that makes `e` superfluous. -/
def Covered (dir : Dir) (e : DeferEntry) : Prop :=
  ∃ q ∈ pending dir, q.key = e.key ∧ (q.id = e.id ∨ subsumes q.action e.action = true)

omit hfs in
theorem mem_sameTarget {e q : DeferEntry} {existing : List DeferEntry} :
    q ∈ sameTarget e existing ↔ q ∈ existing ∧ q.key = e.key := by
  simp [sameTarget, DeferEntry.key]

/-! ## Writing -/

/-- The directory after `atomicWrite`: the entry is in its place, and the name it
    was staged under is free. -/
structure Written (dir dir' : Dir) (e : DeferEntry) (nanos : Nat) : Prop where
  final : dir'.lookup e.filename = some (.entry e)
  staging : dir'.lookup (stagingName e nanos) = none
  others : ∀ name, name ≠ e.filename → name ≠ stagingName e nanos →
    dir'.lookup name = dir.lookup name

omit hfs in
theorem stagingName_ne_filename (e : DeferEntry) (nanos : Nat) :
    stagingName e nanos ≠ e.filename := by
  intro h
  have hlen := congrArg String.length h
  have htmp : ".tmp.".length = 5 := rfl
  simp only [stagingName, String.length_append, htmp] at hlen
  omega

omit hfs in
/-- The extension of a staging file is a number. -/
theorem extension_stagingName_ne (e : DeferEntry) (nanos : Nat) {ext : String} {c : Char}
    (hc : c ∈ ext.toList) (hdigit : c.isDigit = false) :
    extension (stagingName e nanos) ≠ some ext := by
  have heq : stagingName e nanos = (e.filename ++ ".tmp") ++ ("." ++ toString nanos) := by
    simp [stagingName, String.append_assoc]
    rfl
  have hdigits : ∀ c ∈ (toString nanos).toList, c.isDigit = true := by
    intro c hc
    refine Nat.isDigit_of_mem_toDigits (b := 10) (n := nanos) (by decide) (by decide) ?_
    simpa [toString, Nat.repr] using hc
  have hext : extension (stagingName e nanos) = some (toString nanos) := by
    rw [heq]
    refine extension_append ?_ fun hdot => absurd (hdigits _ hdot) (by decide)
    intro h
    have := congrArg String.toList h
    simp [String.toList_append] at this
  rw [hext]
  intro h
  obtain rfl : toString nanos = ext := by simpa using h
  rw [hdigits c hc] at hdigit
  cases hdigit

omit hfs in
/-- A staging file is not taken for an entry. -/
theorem not_isDeferred_stagingName (e : DeferEntry) (nanos : Nat) :
    isDeferred (stagingName e nanos) = false := by
  have hd : 'd' ∈ "deferred".toList := by decide
  simpa [isDeferred] using extension_stagingName_ne e nanos hd (by decide)

omit hfs in
/-- Nor for a quarantined one. -/
theorem manualClearFilename_ne_stagingName (e e' : DeferEntry) (nanos : Nat) :
    e.manualClearFilename ≠ stagingName e' nanos := by
  intro h
  have hm : 'm' ∈ "manual_clear".toList := by decide
  refine extension_stagingName_ne e' nanos hm (by decide) ?_
  rw [← h, e.extension_manualClearFilename]

theorem atomicWrite_settles (e : DeferEntry) :
    ∃ nanos dir, Settles (atomicWrite e) fs () dir ∧ Written fs.dir dir e nanos := by
  obtain ⟨nanos, hnanos⟩ := nanosNow_settles hfs
  let tmp := stagingName e nanos
  let open' : Dir := fs.dir.insert tmp .corrupt
  let full : Dir := open'.insert tmp (.entry e)
  have hfull : full.lookup tmp = some (.entry e) := AList.lookup_insert _
  have hne : e.filename ≠ tmp := (stagingName_ne_filename e nanos).symm
  refine ⟨nanos, (full.erase tmp).insert e.filename (.entry e), ?_, ?_⟩
  · refine hnanos.bind fun ops => ?_
    refine (syscall_settles (hfs.withDir _ _) _).bind fun ops => ?_
    refine (setFile_settles tmp .corrupt).bind fun ops => ?_
    refine (syscall_settles (hfs.withDir open' _) _).bind fun ops => ?_
    refine (syscall_settles (hfs.withDir open' _) _).bind fun ops => ?_
    refine (syscall_settles (hfs.withDir open' _) _).bind fun ops => ?_
    refine (setFile_settles tmp (.entry e)).bind fun ops => ?_
    refine (syscall_settles (hfs.withDir full _) _).bind fun ops => ?_
    refine (renameFile_settles (hfs.withDir full _) hfull).attempt.bind fun ops => ?_
    exact fsyncDir_settles (hfs.withDir _ _)
  · refine ⟨AList.lookup_insert _, ?_, ?_⟩
    · rw [AList.lookup_insert_ne (Ne.symm hne)]
      exact AList.lookup_erase _ _
    · intro name hfinal hstaging
      rw [AList.lookup_insert_ne hfinal, AList.lookup_erase_ne hstaging,
        AList.lookup_insert_ne hstaging, AList.lookup_insert_ne hstaging]

theorem bumpAttempt_settles (e : DeferEntry) :
    ∃ nanos dir, Settles (bumpAttempt e) fs e.bumped dir ∧
      Written fs.dir dir e.bumped nanos := by
  obtain ⟨nanos, dir, hwrite, hdir⟩ := atomicWrite_settles hfs e.bumped
  exact ⟨nanos, dir, hwrite.bind fun ops => Settles.pure _, hdir⟩

theorem remove_settles (e : DeferEntry) :
    ∃ dir, Settles (remove e) fs () dir ∧ dir.lookup e.filename = none ∧
      ∀ name, name ≠ e.filename → dir.lookup name = fs.dir.lookup name := by
  cases hl : fs.dir.lookup e.filename with
  | none =>
    exact ⟨fs.dir, (removeFile_missing hfs hl).attempt.bind fun ops => Settles.pure _, hl,
      fun _ _ => rfl⟩
  | some content =>
    refine ⟨fs.dir.erase e.filename, ?_, AList.lookup_erase _ _,
      fun name hne => AList.lookup_erase_ne hne⟩
    exact (removeFile_settles hfs hl).attempt.bind fun ops =>
      fsyncDir_settles (hfs.withDir _ ops)

omit hfs in
theorem manualClearFilename_ne_filename (e e' : DeferEntry) :
    e.manualClearFilename ≠ e'.filename := by
  intro h
  have hext := congrArg extension h
  rw [e.extension_manualClearFilename, e'.extension_filename] at hext
  exact absurd hext (by decide)

theorem moveToManualClear_settles {e : DeferEntry} {content : FileContent}
    (h : fs.dir.lookup e.filename = some content) :
    ∃ dir, Settles (moveToManualClear e) fs () dir ∧ dir.lookup e.filename = none ∧
      dir.lookup e.manualClearFilename = some content ∧
      ∀ name, name ≠ e.filename → name ≠ e.manualClearFilename →
        dir.lookup name = fs.dir.lookup name := by
  have hne := manualClearFilename_ne_filename e e
  refine ⟨(fs.dir.erase e.filename).insert e.manualClearFilename content, ?_, ?_,
    AList.lookup_insert _, ?_⟩
  · exact (renameFile_settles hfs h).bind fun ops => fsyncDir_settles (hfs.withDir _ ops)
  · rw [AList.lookup_insert_ne hne.symm]
    exact AList.lookup_erase _ _
  · intro name hfinal hmanual
    rw [AList.lookup_insert_ne hmanual, AList.lookup_erase_ne hfinal]

end Journal

end Bosun
