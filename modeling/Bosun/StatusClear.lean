import Bosun.JournalFamily

/-!
# `bosun status --clear`

The operator clears one file of the journal by its id, or all files that were set aside for
them.  A file is searched for in the order in which the directory lists it, and the first that
matches goes; `statusClears_iff` says for which journals that is the pending one.
-/

namespace Bosun

namespace Journal

def isManualClear (name : String) : Bool := extension name = some "manual_clear"

/-- `clear_one`, over what `read_dir` lists; says whether a file was found. -/
def clearOneIn (id : String) : List String → FsM Bool
  | [] => pure false
  | name :: names => do
    syscall (.io ".")
    if !(isDeferred name || isManualClear name) then clearOneIn id names
    else if name = id then
      removeFile name
      fsyncDir
      pure true
    else
      match ← FsM.attempt (readEntry name) with
      | .ok e =>
        if e.id = id then
          removeFile name
          fsyncDir
          pure true
        else clearOneIn id names
      | .error (.serde _) | .error (.io _ .notFound) => clearOneIn id names
      | .error err => throw err

def clearOne (id : String) (names : List String) : FsM Bool := do
  syscall (.io ".")
  clearOneIn id names

/-- `clear_all_manual`, over what `read_dir` lists; counts the files. -/
def clearAllManualIn : List String → FsM Nat
  | [] => pure 0
  | name :: names => do
    syscall (.io ".")
    if !isManualClear name then clearAllManualIn names
    else
      match ← FsM.attempt (removeFile name) with
      | .ok () => return (← clearAllManualIn names) + 1
      | .error (.io _ .notFound) => clearAllManualIn names
      | .error err => throw err

def clearAllManual (names : List String) : FsM Nat := do
  syscall (.io ".")
  let removed ← clearAllManualIn names
  if 0 < removed then fsyncDir
  pure removed

end Journal

/-! ## What matches an id -/

/-- The entry of a file of the journal, if it has one, has this id. -/
def holdsId (id : String) : Option FileContent → Bool
  | some (.entry e) => e.id = id
  | _ => false

/-- The file is one of the journal's, and `id` is its name or the id of its entry. -/
def clearMatches (dir : Dir) (id name : String) : Bool :=
  (Journal.isDeferred name || Journal.isManualClear name) &&
    (name = id || holdsId id (dir.lookup name))

/-- The directory without those of the names that were set aside. -/
def withoutManual (dir : Dir) (names : List String) : Dir :=
  names.foldl (fun dir name => if Journal.isManualClear name then dir.erase name else dir) dir

theorem withoutManual_cons (dir : Dir) (name : String) (names : List String) :
    withoutManual dir (name :: names) =
      withoutManual (if Journal.isManualClear name then dir.erase name else dir) names := rfl

theorem lookup_withoutManual (names : List String) (name : String) : ∀ dir : Dir,
    (withoutManual dir names).lookup name =
      if name ∈ names ∧ Journal.isManualClear name = true then none else dir.lookup name := by
  induction names with
  | nil => exact fun dir => by simp [withoutManual]
  | cons n names ih =>
    intro dir
    rw [withoutManual_cons, ih]
    by_cases hname : name = n
    · subst hname
      cases hkind : Journal.isManualClear name <;> simp
    · by_cases hkind : Journal.isManualClear n = true
      · simp [hkind, hname, AList.lookup_erase_ne hname]
      · simp [hkind, hname]

namespace Journal

variable {fs : Fs} (hfs : fs.Healthy)
include hfs

theorem readEntry_corrupt {name : String} (h : fs.dir.lookup name = some .corrupt) :
    Fails (readEntry name) fs (.serde name) fs.dir := by
  refine (syscall_settles hfs _).bind_fails fun ops => get_settles.bind_fails fun ops' => ?_
  simp only [Fs.withDir_dir, h]
  exact ⟨ops', rfl⟩

/-- A file that is there is removed. -/
theorem removeAndSync_settles {name : String} {content : FileContent}
    (h : fs.dir.lookup name = some content) :
    Settles (do removeFile name; fsyncDir; pure true) fs true (fs.dir.erase name) :=
  (removeFile_settles hfs h).bind fun ops =>
    (fsyncDir_settles (hfs.withDir _ ops)).bind fun _ => .pure true

omit hfs in
/-- The first file that matches goes. -/
theorem clearOneIn_settles (id : String) (names : List String) : ∀ {fs : Fs}, fs.Healthy →
    (∀ name ∈ names, (fs.dir.lookup name).isSome = true) →
    Settles (clearOneIn id names) fs (names.find? (clearMatches fs.dir id)).isSome
      (match names.find? (clearMatches fs.dir id) with
        | some name => fs.dir.erase name
        | none => fs.dir) := by
  induction names with
  | nil => exact fun _ _ => .pure false
  | cons name names ih =>
    intro fs hfs hthere
    obtain ⟨content, hcontent⟩ := Option.isSome_iff_exists.mp (hthere name List.mem_cons_self)
    have hrest : ∀ ops, Settles (clearOneIn id names) (fs.withDir fs.dir ops)
        (names.find? (clearMatches fs.dir id)).isSome
        (match names.find? (clearMatches fs.dir id) with
          | some name => fs.dir.erase name
          | none => fs.dir) := fun ops =>
      ih (hfs.withDir _ ops) fun n hn => hthere n (List.mem_cons_of_mem _ hn)
    have hfound : ∀ ops, Settles (do removeFile name; fsyncDir; pure true)
        (fs.withDir fs.dir ops) true (fs.dir.erase name) := fun ops =>
      removeAndSync_settles (hfs.withDir _ ops) hcontent
    refine (syscall_settles hfs _).bind fun ops => ?_
    cases hkind : isDeferred name || isManualClear name with
    | false =>
      have hno : clearMatches fs.dir id name = false := by simp [clearMatches, hkind]
      rw [List.find?_cons_of_neg (by simp [hno])]
      simpa using hrest ops
    | true =>
      simp only [Bool.not_true, Bool.false_eq_true, if_false]
      by_cases hname : name = id
      · have hyes : clearMatches fs.dir id name = true := by
          unfold clearMatches
          simp [hkind, ← hname]
        rw [List.find?_cons_of_pos hyes, if_pos hname]
        exact hfound ops
      · rw [if_neg hname]
        have hmatch : clearMatches fs.dir id name = holdsId id (some content) := by
          simp [clearMatches, hkind, hname, hcontent]
        cases content with
        | corrupt =>
          have hno : clearMatches fs.dir id name = false := by rw [hmatch]; rfl
          rw [List.find?_cons_of_neg (by simp [hno])]
          exact (readEntry_corrupt (hfs.withDir _ ops) hcontent).attempt.bind fun ops' => hrest ops'
        | entry e =>
          refine (readEntry_settles (hfs.withDir _ ops) hcontent).attempt.bind fun ops' => ?_
          by_cases hid : e.id = id
          · have hyes : clearMatches fs.dir id name = true := by rw [hmatch]; simp [holdsId, hid]
            rw [List.find?_cons_of_pos hyes]
            simp only [hid, if_true]
            exact hfound ops'
          · have hno : clearMatches fs.dir id name = false := by rw [hmatch]; simp [holdsId, hid]
            rw [List.find?_cons_of_neg (by simp [hno])]
            simp only [hid, if_false]
            exact hrest ops'

theorem clearOne_settles (id : String) {names : List String} (hperm : names.Perm fs.dir.keys) :
    Settles (clearOne id names) fs (names.find? (clearMatches fs.dir id)).isSome
      (match names.find? (clearMatches fs.dir id) with
        | some name => fs.dir.erase name
        | none => fs.dir) := by
  refine (syscall_settles hfs _).bind fun ops => ?_
  refine clearOneIn_settles id names (hfs.withDir _ ops) fun name hname => ?_
  rw [Fs.withDir_dir, AList.lookup_isSome, AList.mem_keys]
  exact hperm.mem_iff.mp hname

omit hfs in
/-- Every file that was set aside goes, and no other. -/
theorem clearAllManualIn_settles (names : List String) : ∀ {fs : Fs}, fs.Healthy →
    names.Nodup → (∀ name ∈ names, (fs.dir.lookup name).isSome = true) →
    Settles (clearAllManualIn names) fs (names.countP isManualClear)
      (withoutManual fs.dir names) := by
  induction names with
  | nil => exact fun _ _ _ => .pure 0
  | cons name names ih =>
    intro fs hfs hnodup hthere
    obtain ⟨hfresh, hnodup⟩ := List.nodup_cons.mp hnodup
    obtain ⟨content, hcontent⟩ := Option.isSome_iff_exists.mp (hthere name List.mem_cons_self)
    refine (syscall_settles hfs _).bind fun ops => ?_
    cases hkind : isManualClear name with
    | false =>
      have hrest := ih (hfs.withDir fs.dir ops) hnodup
        fun n hn => hthere n (List.mem_cons_of_mem _ hn)
      rw [List.countP_cons_of_neg (by simp [hkind]), withoutManual_cons, hkind]
      exact hrest
    | true =>
      rw [List.countP_cons_of_pos hkind, withoutManual_cons, hkind]
      refine (removeFile_settles (hfs.withDir _ ops) hcontent).attempt.bind fun ops' => ?_
      refine (ih ((hfs.withDir _ ops).withDir _ ops') hnodup fun n hn => ?_).bind fun _ => .pure _
      have hne : n ≠ name := fun h => hfresh (h ▸ hn)
      rw [Fs.withDir_dir, Fs.withDir_dir, AList.lookup_erase_ne hne]
      exact hthere n (List.mem_cons_of_mem _ hn)

theorem clearAllManual_settles {names : List String} (hperm : names.Perm fs.dir.keys) :
    Settles (clearAllManual names) fs (names.countP isManualClear)
      (withoutManual fs.dir names) := by
  refine (syscall_settles hfs _).bind fun ops => ?_
  refine (clearAllManualIn_settles names (hfs.withDir _ ops)
    (hperm.nodup_iff.mpr fs.dir.keys_nodup) fun name hname => ?_).bind fun ops' => ?_
  · rw [Fs.withDir_dir, AList.lookup_isSome, AList.mem_keys]
    exact hperm.mem_iff.mp hname
  · by_cases hremoved : 0 < names.countP isManualClear
    · simp only [hremoved, if_true]
      exact (fsyncDir_settles ((hfs.withDir _ ops).withDir _ ops')).bind fun _ => .pure _
    · simp only [hremoved, if_false]
      exact .pure _

end Journal

/-! ## Clearing -/

/-- A file of the journal that the operator means by `id`. -/
def Matching (dir : Dir) (id name : String) : Prop :=
  name ∈ dir.keys ∧ clearMatches dir id name = true

/-- What clearing one id is to do: a pending file goes if one matches, otherwise one that was
    set aside; exactly one file goes, and the answer says whether there was any. -/
structure ClearsOne (before : Dir) (id : String) (answer : Bool) (after : Dir) : Prop where
  pending : (∃ name, Matching before id name ∧ Journal.isDeferred name = true) →
    answer = true ∧ ∃ name, Matching before id name ∧ Journal.isDeferred name = true ∧
      after = before.erase name
  setAside : (∀ name, Matching before id name → Journal.isDeferred name = false) →
    (∃ name, Matching before id name) →
    answer = true ∧ ∃ name, Matching before id name ∧ after = before.erase name
  unknown : (∀ name, ¬ Matching before id name) → answer = false ∧ after = before

/-- Clearing does what it is to do, in whatever order the directory lists its files, and the
    order makes no difference. -/
structure StatusClears (fs : Fs) (id : String) : Prop where
  one : ∀ names, names.Perm fs.dir.keys → ∃ answer after,
    Settles (Journal.clearOne id names) fs answer after ∧ ClearsOne fs.dir id answer after
  anyOrder : ∀ names names', names.Perm fs.dir.keys → names'.Perm fs.dir.keys →
    ∀ answer answer' after after', Settles (Journal.clearOne id names) fs answer after →
      Settles (Journal.clearOne id names') fs answer' after' → after = after'
  allManual : ∀ names, names.Perm fs.dir.keys → ∃ removed after,
    Settles (Journal.clearAllManual names) fs removed after ∧
      removed = fs.dir.keys.countP Journal.isManualClear ∧
      ∀ name, after.lookup name =
        if Journal.isManualClear name then none else fs.dir.lookup name

theorem Settles.unique {α : Type} {x : FsM α} {fs : Fs} {a a' : α} {dir dir' : Dir}
    (h : Settles x fs a dir) (h' : Settles x fs a' dir') : a = a' ∧ dir = dir' := by
  obtain ⟨ops, hops⟩ := h
  obtain ⟨ops', hops'⟩ := h'
  rw [hops] at hops'
  injection hops' with ha hfs
  exact ⟨ha, congrArg Fs.dir hfs⟩

/-- Whatever goes matches. -/
theorem matching_of_find {dir : Dir} {id name : String} {names : List String}
    (hperm : names.Perm dir.keys) (h : names.find? (clearMatches dir id) = some name) :
    Matching dir id name :=
  ⟨hperm.mem_iff.mp (List.mem_of_find?_eq_some h), List.find?_some h⟩

theorem not_matching_of_find {dir : Dir} {id : String} {names : List String}
    (hperm : names.Perm dir.keys) (h : names.find? (clearMatches dir id) = none) (name : String) :
    ¬ Matching dir id name := by
  rintro ⟨hmem, hmatch⟩
  have hno := List.find?_eq_none.mp h name (hperm.mem_iff.mpr hmem)
  exact hno hmatch

/-- The directory may list any of its files first. -/
theorem exists_perm_first {dir : Dir} {name : String} (h : name ∈ dir.keys) :
    ∃ names, (name :: names).Perm dir.keys :=
  ⟨dir.keys.erase name, (List.perm_cons_erase h).symm⟩

section Clearing

variable {fs : Fs} (hfs : fs.Healthy) (id : String)
include hfs

theorem clearAllManual_exact {names : List String} (hperm : names.Perm fs.dir.keys) :
    ∃ removed after, Settles (Journal.clearAllManual names) fs removed after ∧
      removed = fs.dir.keys.countP Journal.isManualClear ∧
      ∀ name, after.lookup name =
        if Journal.isManualClear name then none else fs.dir.lookup name := by
  refine ⟨_, _, Journal.clearAllManual_settles hfs hperm, hperm.countP_eq _, fun name => ?_⟩
  rw [lookup_withoutManual]
  by_cases hmem : name ∈ names
  · simp [hmem]
  · have hnone : fs.dir.lookup name = none :=
      AList.lookup_eq_none.mpr fun h => hmem (hperm.mem_iff.mpr (AList.mem_keys.mp h))
    simp [hmem, hnone]

/-- **When clearing does not depend on the directory.**  It removes the right file in every
    order exactly if no two files of the journal match the id. -/
theorem statusClears_iff : StatusClears fs id ↔
    ∀ name name', Matching fs.dir id name → Matching fs.dir id name' → name = name' := by
  constructor
  · intro hclears name name' hname hname'
    by_contra hne
    -- each of the two is listed first once
    obtain ⟨rest, hperm⟩ := exists_perm_first hname.1
    obtain ⟨rest', hperm'⟩ := exists_perm_first hname'.1
    have hrun := Journal.clearOne_settles hfs id hperm
    have hrun' := Journal.clearOne_settles hfs id hperm'
    rw [List.find?_cons_of_pos hname.2] at hrun
    rw [List.find?_cons_of_pos hname'.2] at hrun'
    have hsame : fs.dir.erase name = fs.dir.erase name' :=
      hclears.anyOrder _ _ hperm hperm' _ _ _ _ hrun hrun'
    have hgone := AList.lookup_erase name fs.dir
    rw [hsame, AList.lookup_erase_ne hne, AList.lookup_eq_none] at hgone
    exact hgone (AList.mem_keys.mpr hname.1)
  · intro hunique
    refine ⟨fun names hperm => ⟨_, _, Journal.clearOne_settles hfs id hperm, ?_⟩, ?_,
      fun names hperm => clearAllManual_exact hfs hperm⟩
    · cases hfind : names.find? (clearMatches fs.dir id) with
      | none =>
        have hnone := not_matching_of_find hperm hfind
        exact ⟨fun ⟨name, hname, _⟩ => absurd hname (hnone name),
          fun _ ⟨name, hname⟩ => absurd hname (hnone name), fun _ => ⟨rfl, rfl⟩⟩
      | some name =>
        have hname := matching_of_find hperm hfind
        refine ⟨fun ⟨name', hname', hpending⟩ => ⟨rfl, name, hname, ?_, rfl⟩,
          fun _ _ => ⟨rfl, name, hname, rfl⟩, fun hnone => absurd hname (hnone name)⟩
        rw [hunique name name' hname hname']
        exact hpending
    · intro names names' hperm hperm' answer answer' after after' hrun hrun'
      obtain ⟨-, rfl⟩ := (Journal.clearOne_settles hfs id hperm).unique hrun
      obtain ⟨-, rfl⟩ := (Journal.clearOne_settles hfs id hperm').unique hrun'
      cases hfind : names.find? (clearMatches fs.dir id) with
      | none =>
        cases hfind' : names'.find? (clearMatches fs.dir id) with
        | none => rfl
        | some name' =>
          exact absurd (matching_of_find hperm' hfind') (not_matching_of_find hperm hfind name')
      | some name =>
        have hname := matching_of_find hperm hfind
        cases hfind' : names'.find? (clearMatches fs.dir id) with
        | none => exact absurd hname (not_matching_of_find hperm' hfind' name)
        | some name' => rw [hunique name name' hname (matching_of_find hperm' hfind')]

end Clearing

def nginxRestart : DeferEntry := Journal.plainEntry "runr" .restart "nginx"
def redisRestart : DeferEntry := Journal.plainEntry "runr" .restart "redis"

/-- One restart is pending, and another one was set aside. -/
def clearableFs : Fs := { Journal.emptyFs with
  dir := ((∅ : Dir).insert nginxRestart.filename (.entry nginxRestart)).insert
    redisRestart.manualClearFilename (.entry redisRestart) }

theorem statusClears_pending : StatusClears clearableFs nginxRestart.id := by
  refine (statusClears_iff ⟨fun _ => rfl, fun _ => rfl⟩ nginxRestart.id).mpr ?_
  have hkeys : clearableFs.dir.keys =
      [redisRestart.manualClearFilename, nginxRestart.filename] := by decide
  have hother : clearMatches clearableFs.dir nginxRestart.id redisRestart.manualClearFilename =
      false := by decide
  have hown : ∀ name, Matching clearableFs.dir nginxRestart.id name →
      name = nginxRestart.filename := by
    rintro name ⟨hmem, hmatch⟩
    rw [hkeys, List.mem_cons, List.mem_singleton] at hmem
    rcases hmem with rfl | rfl
    · rw [hother] at hmatch
      cases hmatch
    · rfl
  exact fun name name' hname hname' => (hown name hname).trans (hown name' hname').symm

/-- A restart that was set aside and has been enqueued again. -/
def requeuedFs : Fs := { Journal.emptyFs with
  dir := ((∅ : Dir).insert nginxRestart.manualClearFilename (.entry nginxRestart)).insert
    nginxRestart.filename (.entry nginxRestart) }

/-- The file that was set aside is listed first, and the restart stays pending. -/
theorem requeued_not_cleared : ¬ StatusClears requeuedFs nginxRestart.id := by
  intro hclears
  have hperm : [nginxRestart.manualClearFilename, nginxRestart.filename].Perm
      requeuedFs.dir.keys := by decide
  have hpending : Matching requeuedFs.dir nginxRestart.id nginxRestart.filename ∧
      Journal.isDeferred nginxRestart.filename = true := by unfold Matching; decide
  have hfirst :
      clearMatches requeuedFs.dir nginxRestart.id nginxRestart.manualClearFilename = true := by
    decide
  have hrun := Journal.clearOne_settles ⟨fun _ => rfl, fun _ => rfl⟩ nginxRestart.id hperm
  rw [List.find?_cons_of_pos hfirst] at hrun
  dsimp only at hrun
  obtain ⟨answer, after, hrun', hone⟩ := hclears.one _ hperm
  obtain ⟨-, rfl⟩ := hrun.unique hrun'
  obtain ⟨-, name, -, hname, herase⟩ := hone.pending ⟨_, hpending⟩
  have hne : nginxRestart.manualClearFilename ≠ name := by
    rintro rfl
    exact absurd hname (by decide)
  have hgone := AList.lookup_erase nginxRestart.manualClearFilename requeuedFs.dir
  rw [herase, AList.lookup_erase_ne hne] at hgone
  exact absurd hgone (by decide)

end Bosun
