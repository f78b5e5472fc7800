import Mathlib.Data.String.Basic
import Mathlib.Data.List.Sort
import Bosun.FileSystem
import Bosun.Library.FixedWidth
import Bosun.Library.Retention

/-!
# Backups

Before `file.content` replaces a file it copies it below the backup root, under the place and
the name of the file with the time of the copy after a dot, and then removes the oldest of what
has the same prefix.

A copy goes to a new file or over a regular one.  What a link or a device in its place would
lead to is not modelled; the call counts as failed.
-/

namespace Bosun

open FileTree

/-! ## The time of a backup -/

structure UtcTime where
  year : Nat
  month : Nat
  day : Nat
  hour : Nat
  minute : Nat
  second : Nat
  year_le : year ≤ 9999
  month_le : month ≤ 12
  day_le : day ≤ 31
  hour_le : hour ≤ 23
  minute_le : minute ≤ 59
  second_le : second ≤ 60

namespace UtcTime

/-- What earlier and later go by. -/
def fields (t : UtcTime) : List Nat := [t.year, t.month, t.day, t.hour, t.minute, t.second]

instance : LT UtcTime := ⟨fun t u => t.fields < u.fields⟩

instance (t u : UtcTime) : Decidable (t < u) := inferInstanceAs (Decidable (t.fields < u.fields))

def stampChars (t : UtcTime) : List Char :=
  FixedWidth.digits 4 t.year ++ (FixedWidth.digits 2 t.month ++ (FixedWidth.digits 2 t.day ++
    (['T'] ++ (FixedWidth.digits 2 t.hour ++ (FixedWidth.digits 2 t.minute ++
      (FixedWidth.digits 2 t.second ++ ['Z']))))))

/-- `%Y%m%dT%H%M%SZ` -/
def stamp (t : UtcTime) : String := String.ofList t.stampChars

theorem ext_fields {t u : UtcTime} (h : t.fields = u.fields) : t = u := by
  obtain ⟨y, m, d, hh, mm, ss⟩ := t
  obtain ⟨y', m', d', hh', mm', ss'⟩ := u
  simp only [fields, List.cons.injEq, and_true] at h
  obtain ⟨rfl, rfl, rfl, rfl, rfl, rfl⟩ := h
  rfl

/-- The stamps sort the way the times do. -/
theorem stampChars_lt_iff (t u : UtcTime) : t.stampChars < u.stampChars ↔ t < u := by
  have hyear : FixedWidth.digits 4 t.year = FixedWidth.digits 4 u.year ↔ t.year = u.year :=
    ⟨FixedWidth.digits_injective (by have := t.year_le; omega) (by have := u.year_le; omega),
      fun h => by rw [h]⟩
  have htwo : ∀ {m n : Nat}, m ≤ 60 → n ≤ 60 →
      (FixedWidth.digits 2 m = FixedWidth.digits 2 n ↔ m = n) := by
    intro m n hm hn
    exact ⟨FixedWidth.digits_injective (by omega) (by omega), fun h => by rw [h]⟩
  have hyearLt : FixedWidth.digits 4 t.year < FixedWidth.digits 4 u.year ↔ t.year < u.year :=
    FixedWidth.digits_lt_iff (by have := t.year_le; omega) (by have := u.year_le; omega)
  have htwoLt : ∀ {m n : Nat}, m ≤ 60 → n ≤ 60 →
      (FixedWidth.digits 2 m < FixedWidth.digits 2 n ↔ m < n) := by
    intro m n hm hn
    exact FixedWidth.digits_lt_iff (by omega) (by omega)
  have ht := (⟨t.month_le, t.day_le, t.hour_le, t.minute_le⟩ : _ ∧ _ ∧ _ ∧ _)
  have hu := (⟨u.month_le, u.day_le, u.hour_le, u.minute_le⟩ : _ ∧ _ ∧ _ ∧ _)
  have hts := t.second_le
  have hus := u.second_le
  have hlt : t < u ↔ t.fields < u.fields := Iff.rfl
  rw [hlt, stampChars, stampChars, fields, fields]
  rw [FixedWidth.append_lt_append (by simp), hyearLt, hyear,
    FixedWidth.append_lt_append (by simp), htwoLt (by omega) (by omega), htwo (by omega) (by omega),
    FixedWidth.append_lt_append (by simp), htwoLt (by omega) (by omega), htwo (by omega) (by omega),
    FixedWidth.append_lt_append rfl,
    FixedWidth.append_lt_append (by simp), htwoLt (by omega) (by omega), htwo (by omega) (by omega),
    FixedWidth.append_lt_append (by simp), htwoLt (by omega) (by omega), htwo (by omega) (by omega),
    FixedWidth.append_lt_append (by simp), htwoLt (by omega) (by omega), htwo (by omega) (by omega)]
  simp only [List.cons_lt_cons_iff, lt_irrefl, and_false, or_false, false_or, true_and]

theorem stamp_lt_iff (t u : UtcTime) : t.stamp < u.stamp ↔ t < u := by
  rw [String.lt_iff_toList_lt, stamp, stamp, String.toList_ofList, String.toList_ofList,
    stampChars_lt_iff]

theorem stamp_injective {t u : UtcTime} (h : t.stamp = u.stamp) : t = u := by
  have hnot : ¬ t < u ∧ ¬ u < t := by
    rw [← stamp_lt_iff, ← stamp_lt_iff, h]
    exact ⟨lt_irrefl _, lt_irrefl _⟩
  exact ext_fields (le_antisymm (not_lt.mp hnot.2) (not_lt.mp hnot.1))

theorem dot_notMem_stampChars (t : UtcTime) : '.' ∉ t.stampChars := by
  have hdigits : ∀ width n, '.' ∉ FixedWidth.digits width n := by
    intro width n h
    exact absurd (FixedWidth.isDigit_of_mem h) (by decide)
  simp [stampChars, hdigits]

end UtcTime

/-! ## Copying and removing -/

section Rotation

variable {B : Type}

/-- `build_backup_path`, in places: the target below the root, the stamp after a dot. -/
def buildBackupPath (root target : List String) (ts : String) :
    Except PrimitiveError (List String) :=
  match target ++ root with
  | [] => .error (.invalidPayload
      ("cannot build backup path: target " ++ render target ++ " has no file_name"))
  | name :: dir => .ok ((name ++ "." ++ ts) :: dir)

/-- `std::fs::copy`: the copy takes the mode, and the owner of whoever makes it. -/
def copyFile (env : FileEnv) (source dest : List String) : FileM B Unit := do
  let context := "copy " ++ render source ++ " -> " ++ render dest
  FileM.ofExcept (env.call .copy source context)
  match nodeAt (← get) source with
  | some (.file f) =>
    match nodeAt (← get) dest with
    | none => modify (AList.insert dest (.file { f with uid := env.euid, gid := env.egid }))
    | some (.file g) =>
      modify (AList.insert dest (.file { g with bytes := f.bytes, mode := f.mode }))
    | some _ => throw (.io context "not a regular file")
  | _ => throw (.io context "the source path is not an existing regular file")

def removeFile (env : FileEnv) (place : List String) : FileM B Unit := do
  let context := "remove_file " ++ render place
  FileM.ofExcept (env.call .removeFile place context)
  match nodeAt (← get) place with
  | none => throw (.io context "No such file or directory")
  | some .dir => throw (.io context "Is a directory")
  | some _ => modify (AList.erase place)

/-- One after the other, up to the first that cannot be removed. -/
def removeAll (env : FileEnv) (dir : List String) : List String → FileM B Unit
  | [] => pure ()
  | name :: names => do
    removeFile env (name :: dir)
    removeAll env dir names

/-- The names in a directory. -/
def namesIn (nodes : Nodes B) (dir : List String) : List String :=
  nodes.keys.filterMap fun
    | [] => none
    | name :: parent => if parent = dir then some name else none

/-- All up to the last dot and the dot. -/
def uptoLastDot (name : String) : Option String :=
  match name.toList.reverse.dropWhile (· ≠ '.') with
  | [] => none
  | rest => some (String.ofList rest.reverse)

def hasPrefix (pre name : String) : Bool := pre.toList.isPrefixOf name.toList

/-- The names in a directory with a prefix, sorted. -/
def siblings (nodes : Nodes B) (dir : List String) (pre : String) : List String :=
  ((namesIn nodes dir).filter (hasPrefix pre)).insertionSort (· ≤ ·)

def rotate (env : FileEnv) (newBackup : List String) (keepLast : Nat) : FileM B Unit :=
  match newBackup with
  | [] => pure ()
  | newName :: dir =>
    match uptoLastDot newName with
    | none => pure ()
    | some pre => do
      FileM.ofExcept (env.call .readDir newBackup ("read_dir " ++ render dir))
      FileM.ofExcept (env.call .readDirEntry newBackup ("read_dir entry in " ++ render dir))
      removeAll env dir (Retention.oldest keepLast (siblings (← get) dir pre))

/-- `backup_with_rotation`; `now` is what the clock says. -/
def backupWithRotation (env : FileEnv) (target root : List String) (keepLast : Nat)
    (now : UtcTime) : FileM B (List String) := do
  let backupPath ← FileM.ofExcept (buildBackupPath root target now.stamp)
  createDirAll env backupPath backupPath.tail
  copyFile env target backupPath
  rotate env backupPath keepLast
  return backupPath

/-! ## What the calls change -/

theorem mem_namesIn {nodes : Nodes B} {dir : List String} {name : String} :
    name ∈ namesIn nodes dir ↔ (nodeAt nodes (name :: dir)).isSome := by
  rw [nodeAt_cons, AList.lookup_isSome, AList.mem_keys, namesIn, List.mem_filterMap]
  constructor
  · rintro ⟨place, hmem, hname⟩
    cases place with
    | nil => cases hname
    | cons head parent =>
      by_cases hdir : parent = dir
      · simp only [hdir, if_true, Option.some.injEq] at hname
        rwa [hdir, hname] at hmem
      · simp [hdir] at hname
  · intro hmem
    exact ⟨name :: dir, hmem, by simp⟩

theorem nodup_namesIn (nodes : Nodes B) (dir : List String) : (namesIn nodes dir).Nodup := by
  apply List.Nodup.filterMap _ nodes.nodupKeys
  intro p q name hp hq
  cases p <;> cases q <;> simp_all

theorem nodeAt_erase_self {place : List String} (hplace : place ≠ []) (nodes : Nodes B) :
    nodeAt (nodes.erase place) place = none := by
  rw [nodeAt, if_neg hplace, AList.lookup_erase]

theorem nodeAt_erase_ne {place other : List String} (h : other ≠ place) (nodes : Nodes B) :
    nodeAt (nodes.erase place) other = nodeAt nodes other := by
  unfold nodeAt
  by_cases hroot : other = []
  · rw [if_pos hroot, if_pos hroot]
  · rw [if_neg hroot, if_neg hroot, AList.lookup_erase_ne h]

theorem removeFile_cases (env : FileEnv) (place : List String) (nodes : Nodes B) :
    (∃ err, removeFile env place nodes = .error err nodes) ∨
      place ≠ [] ∧ removeFile env place nodes = .ok () (nodes.erase place) := by
  cases hcall : env.call .removeFile place ("remove_file " ++ render place) with
  | error e =>
    left
    exact ⟨e, by simp [removeFile, hcall]⟩
  | ok _ =>
    cases hnode : nodeAt nodes place with
    | none =>
      left
      exact ⟨_, by simp [removeFile, hcall, hnode]; rfl⟩
    | some node =>
      by_cases hdir : node = .dir
      · left
        subst hdir
        exact ⟨_, by simp [removeFile, hcall, hnode]; rfl⟩
      · right
        constructor
        · rintro rfl
          cases hnode
          exact hdir rfl
        · cases node <;> simp_all [removeFile]

/-- Whether or not all can be removed, nothing else is. -/
theorem removeAll_leaves (env : FileEnv) {dir place : List String} {names : List String}
    (hplace : ∀ name ∈ names, place ≠ name :: dir) : ∀ nodes : Nodes B,
      nodeAt ((removeAll env dir names).leaves nodes) place = nodeAt nodes place := by
  induction names with
  | nil =>
    intro nodes
    rfl
  | cons name names ih =>
    intro nodes
    rw [removeAll]
    rcases removeFile_cases env (name :: dir) nodes with ⟨err, hfail⟩ | ⟨-, hgone⟩
    · rw [FileM.leaves_bind_error hfail]
    · rw [FileM.leaves_bind_ok hgone,
        ih fun next hnext => hplace next (List.mem_cons_of_mem _ hnext)]
      exact nodeAt_erase_ne (hplace name List.mem_cons_self) nodes

/-- All that was to be removed is gone. -/
theorem removeAll_ok {env : FileEnv} {dir : List String} {names : List String} :
    ∀ {nodes nodes' : Nodes B}, removeAll env dir names nodes = .ok () nodes' →
      ∀ name ∈ names, nodeAt nodes' (name :: dir) = none := by
  induction names with
  | nil =>
    intro nodes nodes' _ name hname
    cases hname
  | cons first names ih =>
    intro nodes nodes' h name hname
    rw [removeAll, FileM.bind_apply] at h
    rcases removeFile_cases env (first :: dir) nodes with ⟨err, hfail⟩ | ⟨hplace, hgone⟩
    · rw [hfail] at h
      cases h
    · rw [hgone] at h
      by_cases hmem : name ∈ names
      · exact ih h name hmem
      · obtain rfl : name = first := by simpa [hmem] using hname
        have hrest : ∀ next ∈ names, name :: dir ≠ next :: dir := by
          intro next hnext heq
          rw [(List.cons.inj heq).1] at hmem
          exact hmem hnext
        have hkept := removeAll_leaves env hrest (nodes.erase (name :: dir))
        rw [FileM.leaves_ok h] at hkept
        rw [hkept]
        exact nodeAt_erase_self hplace nodes

theorem createDirAll_cases (env : FileEnv) (target place : List String) (nodes : Nodes B) :
    (∃ err, createDirAll env target place nodes = .error err nodes) ∨
      createDirAll env target place nodes = .ok () (mkdirs place nodes) := by
  cases hcall : env.call .createDirAll target ("create_dir_all " ++ render place) with
  | error e =>
    left
    exact ⟨e, by simp [createDirAll, hcall]⟩
  | ok _ =>
    by_cases hblocked : blocked nodes place = true
    · left
      exact ⟨.io ("create_dir_all " ++ render place) "Not a directory",
        by simp [createDirAll, hcall, hblocked]⟩
    · right
      simp [createDirAll, hcall, hblocked]

theorem hasPrefix_iff {pre name : String} :
    hasPrefix pre name = true ↔ pre.toList <+: name.toList := by
  rw [hasPrefix, List.isPrefixOf_iff_prefix]

theorem mem_siblings {nodes : Nodes B} {dir : List String} {pre name : String} :
    name ∈ siblings nodes dir pre ↔
      (nodeAt nodes (name :: dir)).isSome ∧ hasPrefix pre name = true := by
  rw [siblings, List.mem_insertionSort, List.mem_filter, mem_namesIn]

theorem siblings_pairwise (nodes : Nodes B) (dir : List String) (pre : String) :
    (siblings nodes dir pre).Pairwise (· < ·) := by
  have hsorted : (siblings nodes dir pre).Pairwise (· ≤ ·) := List.pairwise_insertionSort _ _
  have hnodup : (siblings nodes dir pre).Nodup := by
    rw [siblings, (List.perm_insertionSort _ _).nodup_iff]
    exact (nodup_namesIn nodes dir).filter _
  exact hsorted.imp₂ (fun _ _ hle hne => lt_of_le_of_ne hle hne) hnodup

theorem nodup_siblings (nodes : Nodes B) (dir : List String) (pre : String) :
    (siblings nodes dir pre).Nodup :=
  (siblings_pairwise nodes dir pre).imp fun hlt => hlt.ne

/-- The listing goes by what is there, not by the order it is found in. -/
theorem siblings_congr {nodes nodes' : Nodes B} {dir : List String}
    (h : ∀ name, (nodeAt nodes (name :: dir)).isSome = (nodeAt nodes' (name :: dir)).isSome)
    (pre : String) : siblings nodes dir pre = siblings nodes' dir pre := by
  apply List.Perm.eq_of_pairwise' (siblings_pairwise nodes dir pre)
    (siblings_pairwise nodes' dir pre)
  rw [List.perm_ext_iff_of_nodup (nodup_siblings _ _ _) (nodup_siblings _ _ _)]
  intro name
  rw [mem_siblings, mem_siblings, h]

theorem rotate_ok {env : FileEnv} {newName pre : String} {dir : List String} {keep : Nat}
    {nodes nodes' : Nodes B} (hpre : uptoLastDot newName = some pre)
    (h : rotate env (newName :: dir) keep nodes = .ok () nodes') :
    (∀ name ∈ Retention.oldest keep (siblings nodes dir pre),
      nodeAt nodes' (name :: dir) = none) ∧
    ∀ place, (∀ name ∈ Retention.oldest keep (siblings nodes dir pre), place ≠ name :: dir) →
      nodeAt nodes' place = nodeAt nodes place := by
  cases hread : env.call .readDir (newName :: dir) ("read_dir " ++ render dir) with
  | error e => simp [rotate, hpre, hread] at h
  | ok _ =>
    cases hentry : env.call .readDirEntry (newName :: dir) ("read_dir entry in " ++ render dir) with
    | error e => simp [rotate, hpre, hread, hentry] at h
    | ok _ =>
      simp only [rotate, hpre, hread, hentry, FileM.bind_apply, FileM.ofExcept_ok,
        FileM.get_apply] at h
      constructor
      · exact removeAll_ok h
      · intro place hplace
        rw [← FileM.leaves_ok h]
        exact removeAll_leaves env hplace nodes

/-- Nothing without the prefix is removed, whether or not the rotation succeeds. -/
theorem rotate_leaves {env : FileEnv} {newName pre : String} {dir place : List String} {keep : Nat}
    (hpre : uptoLastDot newName = some pre)
    (hplace : ∀ name, hasPrefix pre name = true → place ≠ name :: dir) (nodes : Nodes B) :
    nodeAt ((rotate env (newName :: dir) keep).leaves nodes) place = nodeAt nodes place := by
  cases hread : env.call .readDir (newName :: dir) ("read_dir " ++ render dir) with
  | error e => simp [rotate, hpre, hread, FileM.leaves]
  | ok _ =>
    cases hentry : env.call .readDirEntry (newName :: dir) ("read_dir entry in " ++ render dir) with
    | error e => simp [rotate, hpre, hread, hentry, FileM.leaves]
    | ok _ =>
      have hrun : (rotate env (newName :: dir) keep).leaves nodes =
          (removeAll env dir (Retention.oldest keep (siblings nodes dir pre))).leaves nodes := by
        simp only [rotate, hpre, hread, hentry, FileM.leaves, FileM.bind_apply,
          FileM.ofExcept_ok, FileM.get_apply]
      rw [hrun]
      apply removeAll_leaves
      intro name hname
      exact hplace name (mem_siblings.mp (List.mem_of_mem_take hname)).2

theorem copyFile_cases (env : FileEnv) (source dest : List String) (nodes : Nodes B) :
    (∃ err, copyFile env source dest nodes = .error err nodes) ∨
      ∃ f g, nodeAt nodes source = some (.file f) ∧ g.bytes = f.bytes ∧
        (nodeAt nodes dest = none ∨ ∃ old, nodeAt nodes dest = some (.file old)) ∧
        copyFile env source dest nodes = .ok () (nodes.insert dest (.file g)) := by
  have hfails : ∀ {err}, copyFile env source dest nodes = .error err nodes →
      ∃ err, copyFile env source dest nodes = .error err nodes := fun h => ⟨_, h⟩
  cases hcall : env.call .copy source ("copy " ++ render source ++ " -> " ++ render dest) with
  | error e =>
    left
    exact ⟨e, by simp [copyFile, hcall]⟩
  | ok _ =>
    by_cases hsource : ∃ f, nodeAt nodes source = some (.file f)
    · obtain ⟨f, hsource⟩ := hsource
      cases hdest : nodeAt nodes dest with
      | none =>
        right
        exact ⟨f, ⟨f.bytes, f.mode, env.euid, env.egid⟩, hsource, rfl, .inl rfl,
          by simp [copyFile, hcall, hsource, hdest]⟩
      | some there =>
        cases there with
        | file old =>
          right
          exact ⟨f, ⟨f.bytes, f.mode, old.uid, old.gid⟩, hsource, rfl, .inr ⟨old, rfl⟩,
            by simp [copyFile, hcall, hsource, hdest]⟩
        | _ =>
          left
          apply hfails
          simp only [copyFile, hcall, hsource, hdest, FileM.bind_apply, FileM.ofExcept_ok,
            FileM.get_apply]
          rfl
    · left
      cases hnode : nodeAt nodes source with
      | none =>
        apply hfails
        simp only [copyFile, hcall, hnode, FileM.bind_apply, FileM.ofExcept_ok, FileM.get_apply]
        rfl
      | some node =>
        cases node with
        | file f => exact absurd ⟨f, hnode⟩ hsource
        | _ =>
          apply hfails
          simp only [copyFile, hcall, hnode, FileM.bind_apply, FileM.ofExcept_ok, FileM.get_apply]
          rfl

end Rotation

end Bosun
