import Mathlib.Data.Set.Card
import Bosun.Backup

/-!
# What rotation deletes

`rotate` takes everything with the prefix of a target's backups for a backup of the target, and
the order of the names for the order in time.  `backups_kept_iff` says when that does what it
should: there are few enough files with the prefix that nothing is deleted, or all of them are
backups of the target and the clock has not gone back behind too many of them.
-/

namespace Bosun

variable {B : Type}

/-! ## Backups of a target -/

/-- The name of the backup of a file called `base`. -/
def backupName (base : String) (t : UtcTime) : String := base ++ "." ++ t.stamp

def BackupAt (nodes : Nodes B) (dir : List String) (base : String) (t : UtcTime) : Prop :=
  ∃ f, nodeAt nodes (backupName base t :: dir) = some (.file f)

theorem toList_backupName (base : String) (t : UtcTime) :
    (backupName base t).toList = (base ++ ".").toList ++ t.stampChars := by
  rw [backupName, String.toList_append, UtcTime.stamp, String.toList_ofList]

theorem backupName_lt_iff (base : String) (t u : UtcTime) :
    backupName base t < backupName base u ↔ t < u := by
  rw [String.lt_iff_toList_lt, toList_backupName, toList_backupName,
    FixedWidth.append_lt_append rfl, UtcTime.stampChars_lt_iff]
  simp

theorem backupName_injective (base : String) : Function.Injective (backupName base) := by
  intro t u h
  have hchars : t.stampChars = u.stampChars := by
    have hlist := congrArg String.toList h
    rw [toList_backupName, toList_backupName] at hlist
    exact List.append_cancel_left hlist
  apply UtcTime.stamp_injective
  rw [UtcTime.stamp, UtcTime.stamp, hchars]

theorem hasPrefix_backupName (base : String) (t : UtcTime) :
    hasPrefix (base ++ ".") (backupName base t) = true := by
  rw [hasPrefix_iff, toList_backupName]
  exact List.prefix_append _ _

/-- The stamp has no dot, so the prefix is the name of the target and a dot. -/
theorem uptoLastDot_backupName (base : String) (t : UtcTime) :
    uptoLastDot (backupName base t) = some (base ++ ".") := by
  have hstamp : ∀ c ∈ t.stampChars.reverse, decide (c ≠ '.') = true := by
    intro c hc
    rw [List.mem_reverse] at hc
    rw [decide_eq_true_eq]
    rintro rfl
    exact t.dot_notMem_stampChars hc
  have hdrop : (backupName base t).toList.reverse.dropWhile (· ≠ '.') =
      '.' :: base.toList.reverse := by
    rw [toList_backupName, List.reverse_append, List.dropWhile_append_of_pos hstamp,
      String.toList_append, List.reverse_append]
    rfl
  rw [uptoLastDot, hdrop]
  simp

/-! ## What rotation owes -/

/-- A call of `backup_with_rotation` has led from `nodes` to `nodes'` the way it should. -/
structure BackupsKept (target dir : List String) (base : String) (keep : Nat) (now : UtcTime)
    (nodes nodes' : Nodes B) : Prop where
  /-- what is no backup of the target stays -/
  isolated : ∀ place node, nodeAt nodes place = some node →
    (∀ t f, place = backupName base t :: dir → node ≠ .file f) →
    nodeAt nodes' place = some node
  /-- the new backup is there and has what the target had -/
  made : ∃ f g, nodeAt nodes target = some (.file f) ∧
    nodeAt nodes' (backupName base now :: dir) = some (.file g) ∧ g.bytes = f.bytes
  /-- the backups that remain are those with fewer than `keep` later ones -/
  recent : ∀ t, BackupAt nodes' dir base t ↔ (t = now ∨ BackupAt nodes dir base t) ∧
    {u | t < u ∧ (u = now ∨ BackupAt nodes dir base u)}.ncard < keep

/-- What has the prefix of the backups, the name of the new one aside. -/
def otherSiblings (nodes : Nodes B) (dir : List String) (base : String) (now : UtcTime) :
    List String :=
  (siblings nodes dir (base ++ ".")).filter (· ≠ backupName base now)

/-- Nothing is to be deleted, or only backups of the target can be and fewer than `keep` of them
    are later than `now`. -/
def RotationSound (dir : List String) (base : String) (keep : Nat) (now : UtcTime)
    (nodes : Nodes B) : Prop :=
  (otherSiblings nodes dir base now).length < keep ∨
    (∀ name ∈ otherSiblings nodes dir base now, ∃ t, name = backupName base t ∧
      BackupAt nodes dir base t) ∧
    {u | now < u ∧ BackupAt nodes dir base u}.ncard < keep

/-! ## After the copy -/

/-- The new backup stands, and `dir` holds nothing else that is new. -/
structure Copied (target : List String) (newName : String) (dir : List String)
    (nodes nodes₂ : Nodes B) : Prop where
  copy : ∃ f g, nodeAt nodes target = some (.file f) ∧ g.bytes = f.bytes ∧
    nodeAt nodes₂ (newName :: dir) = some (.file g)
  before : nodeAt nodes (newName :: dir) = none ∨
    ∃ old, nodeAt nodes (newName :: dir) = some (.file old)
  beside : ∀ name, name ≠ newName → nodeAt nodes₂ (name :: dir) = nodeAt nodes (name :: dir)
  rest : ∀ place node, place ≠ newName :: dir → nodeAt nodes place = some node →
    nodeAt nodes₂ place = some node

theorem backupWithRotation_ok {env : FileEnv} {target root dir backup : List String}
    {base : String} {keep : Nat} {now : UtcTime} {nodes nodes' : Nodes B}
    (hplace : target ++ root = base :: dir)
    (h : backupWithRotation env target root keep now nodes = .ok backup nodes') :
    ∃ nodes₂, Copied target (backupName base now) dir nodes nodes₂ ∧
      rotate env (backupName base now :: dir) keep nodes₂ = .ok () nodes' := by
  have hpath : buildBackupPath root target now.stamp = .ok (backupName base now :: dir) := by
    rw [buildBackupPath, hplace]
    rfl
  simp only [backupWithRotation, hpath, FileM.bind_apply, FileM.ofExcept_ok, List.tail_cons] at h
  rcases createDirAll_cases env (backupName base now :: dir) dir nodes with ⟨err, hdirs⟩ | hdirs
  · simp [hdirs] at h
  · rw [hdirs] at h
    rcases copyFile_cases env target (backupName base now :: dir) (mkdirs dir nodes) with
      ⟨err, hcopy⟩ | ⟨f, g, hsource, hbytes, hdest, hcopy⟩
    · simp [hcopy] at h
    · simp only [hcopy] at h
      cases hrotate : rotate env (backupName base now :: dir) keep
        ((mkdirs dir nodes).insert (backupName base now :: dir) (.file g)) with
      | error e nodes₃ => simp [hrotate] at h
      | ok _ nodes₃ =>
        simp only [hrotate, FileM.pure_apply] at h
        cases h
        refine ⟨_, ?_, hrotate⟩
        -- nothing in `dir` and no file is made on the way down to `dir`
        have honly : ∀ name, OnlyParents (name :: dir) nodes (mkdirs dir nodes) :=
          fun _ => .inr rfl
        have hsame : ∀ name, nodeAt (mkdirs dir nodes) (name :: dir) = nodeAt nodes (name :: dir) :=
          fun name => (honly name).target_eq
        constructor
        · refine ⟨f, g, ?_, hbytes, nodeAt_insert_self (List.cons_ne_nil _ _) _ _⟩
          cases hbefore : nodeAt nodes target with
          | some node =>
            rw [nodeAt_mkdirs_of_some dir hbefore] at hsource
            exact hsource
          | none =>
            rcases (honly "").of_none hbefore with hnone | hdir
            · rw [hnone] at hsource
              cases hsource
            · rw [hdir] at hsource
              cases hsource
        · rwa [hsame] at hdest
        · intro name hname
          rw [nodeAt_insert_ne (fun heq => hname (List.cons.inj heq).1), hsame]
        · intro place node hne hnode
          rw [nodeAt_insert_ne hne]
          exact nodeAt_mkdirs_of_some dir hnode

namespace Copied

variable {target dir : List String} {base : String} {now : UtcTime} {nodes nodes₂ : Nodes B}

theorem backupAt_iff (h : Copied target (backupName base now) dir nodes nodes₂) (t : UtcTime) :
    BackupAt nodes₂ dir base t ↔ t = now ∨ BackupAt nodes dir base t := by
  obtain ⟨f, g, -, -, hnew⟩ := h.copy
  by_cases hnow : t = now
  · subst hnow
    exact iff_of_true ⟨g, hnew⟩ (.inl rfl)
  · have hne : backupName base t ≠ backupName base now :=
      fun heq => hnow (backupName_injective base heq)
    rw [BackupAt, h.beside _ hne]
    simp [hnow, BackupAt]

theorem mem_siblings_iff (h : Copied target (backupName base now) dir nodes nodes₂)
    (name : String) : name ∈ siblings nodes₂ dir (base ++ ".") ↔
      name = backupName base now ∨ name ∈ otherSiblings nodes dir base now := by
  obtain ⟨f, g, -, -, hnew⟩ := h.copy
  rw [mem_siblings, otherSiblings, List.mem_filter, mem_siblings, decide_eq_true_eq]
  by_cases hname : name = backupName base now
  · subst hname
    rw [hnew]
    exact iff_of_true ⟨rfl, hasPrefix_backupName base now⟩ (.inl rfl)
  · rw [h.beside name hname]
    tauto

/-- There is one more than before the copy, whether or not it took the place of another. -/
theorem siblings_perm (h : Copied target (backupName base now) dir nodes nodes₂) :
    (siblings nodes₂ dir (base ++ ".")).Perm
      (backupName base now :: otherSiblings nodes dir base now) := by
  have hnodup : (backupName base now :: otherSiblings nodes dir base now).Nodup := by
    rw [List.nodup_cons]
    constructor
    · simp [otherSiblings]
    · exact (nodup_siblings nodes dir _).filter _
  rw [List.perm_ext_iff_of_nodup (nodup_siblings nodes₂ dir _) hnodup]
  intro name
  rw [h.mem_siblings_iff, List.mem_cons]

theorem length_siblings (h : Copied target (backupName base now) dir nodes nodes₂) :
    (siblings nodes₂ dir (base ++ ".")).length =
      (otherSiblings nodes dir base now).length + 1 := by
  rw [h.siblings_perm.length_eq, List.length_cons]

end Copied

/-! ## The deletions -/

/-- A backup of `base`, by its name. -/
def Owned (nodes : Nodes B) (dir : List String) (base : String) (name : String) : Prop :=
  ∃ t, name = backupName base t ∧ BackupAt nodes dir base t

theorem owned_backupName {nodes : Nodes B} {dir : List String} {base : String} {t : UtcTime} :
    Owned nodes dir base (backupName base t) ↔ BackupAt nodes dir base t := by
  constructor
  · rintro ⟨u, heq, hu⟩
    rwa [backupName_injective base heq]
  · intro h
    exact ⟨t, rfl, h⟩

theorem mem_siblings_of_backupAt {nodes : Nodes B} {dir : List String} {base : String}
    {t : UtcTime} (h : BackupAt nodes dir base t) :
    backupName base t ∈ siblings nodes dir (base ++ ".") := by
  obtain ⟨f, hf⟩ := h
  rw [mem_siblings, hf]
  exact ⟨rfl, hasPrefix_backupName base t⟩

open Classical in
/-- The owned names above a backup are the later backups. -/
theorem length_above_owned (nodes : Nodes B) (dir : List String) (base : String) (t : UtcTime) :
    (Retention.above ((siblings nodes dir (base ++ ".")).filter (Owned nodes dir base))
      (backupName base t)).length = {u | t < u ∧ BackupAt nodes dir base u}.ncard := by
  have himage : backupName base '' {u | t < u ∧ BackupAt nodes dir base u} =
      ((Retention.above ((siblings nodes dir (base ++ ".")).filter (Owned nodes dir base))
        (backupName base t)).toFinset : Set String) := by
    ext name
    simp only [Set.mem_image, Set.mem_ofPred_eq, List.coe_toFinset, Retention.above,
      List.mem_filter, decide_eq_true_eq]
    constructor
    · rintro ⟨u, ⟨hlt, hu⟩, rfl⟩
      exact ⟨⟨mem_siblings_of_backupAt hu, owned_backupName.mpr hu⟩,
        (backupName_lt_iff base t u).mpr hlt⟩
    · rintro ⟨⟨-, u, rfl, hu⟩, hlt⟩
      exact ⟨u, ⟨(backupName_lt_iff base t u).mp hlt, hu⟩, rfl⟩
  have hnodup : (Retention.above ((siblings nodes dir (base ++ ".")).filter (Owned nodes dir base))
      (backupName base t)).Nodup :=
    ((nodup_siblings nodes dir _).filter _).filter _
  rw [← Set.ncard_image_of_injective _ (backupName_injective base), himage, Set.ncard_coe_finset,
    List.toFinset_card_of_nodup hnodup]

section Rotated

variable {env : FileEnv} {target dir : List String} {base : String} {keep : Nat} {now : UtcTime}
  {nodes nodes₂ nodes' : Nodes B}

open Classical in
/-- What rotation owes is that only backups are dropped, as if there was nothing else. -/
theorem backupsKept_iff_dropsOwned (hcopied : Copied target (backupName base now) dir nodes nodes₂)
    (hrotate : rotate env (backupName base now :: dir) keep nodes₂ = .ok () nodes') :
    BackupsKept target dir base keep now nodes nodes' ↔
      Retention.DropsOwned (Owned nodes₂ dir base) keep (siblings nodes₂ dir (base ++ "."))
        (backupName base now) := by
  obtain ⟨hgone, hstays⟩ := rotate_ok (uptoLastDot_backupName base now) hrotate
  have hkeeps : ∀ name, name ∉ Retention.oldest keep (siblings nodes₂ dir (base ++ ".")) →
      nodeAt nodes' (name :: dir) = nodeAt nodes₂ (name :: dir) := by
    intro name hname
    apply hstays
    rintro other hother heq
    rw [(List.cons.inj heq).1] at hname
    exact hname hother
  have hleft : ∀ t, BackupAt nodes' dir base t ↔ BackupAt nodes₂ dir base t ∧
      backupName base t ∉ Retention.oldest keep (siblings nodes₂ dir (base ++ ".")) := by
    intro t
    by_cases hmem : backupName base t ∈ Retention.oldest keep (siblings nodes₂ dir (base ++ "."))
    · simp [BackupAt, hgone _ hmem, hmem]
    · simp [BackupAt, hkeeps _ hmem, hmem]
  have hcount : ∀ t, (Retention.above ((siblings nodes₂ dir (base ++ ".")).filter
      (Owned nodes₂ dir base)) (backupName base t)).length =
      {u | t < u ∧ (u = now ∨ BackupAt nodes dir base u)}.ncard := by
    intro t
    rw [length_above_owned]
    simp only [hcopied.backupAt_iff]
  obtain ⟨f, g, hsource, hbytes, hnew⟩ := hcopied.copy
  constructor
  · intro hkept
    refine ⟨?_, ?_, ?_⟩
    · intro name hname
      by_contra hforeign
      have hne : name ≠ backupName base now := by
        rintro rfl
        exact hforeign (owned_backupName.mpr ⟨g, hnew⟩)
      have hthere := (mem_siblings.mp (List.mem_of_mem_take hname)).1
      obtain ⟨node, hnode⟩ := Option.isSome_iff_exists.mp hthere
      have hstill := hkept.isolated (name :: dir) node (by rw [← hcopied.beside name hne, hnode])
        (by
          rintro t f' heq rfl
          obtain rfl := (List.cons.inj heq).1
          exact hforeign (owned_backupName.mpr ⟨f', hnode⟩))
      rw [hgone name hname] at hstill
      cases hstill
    · intro hdropped
      obtain ⟨f', g', -, hstill, -⟩ := hkept.made
      rw [hgone _ hdropped] at hstill
      cases hstill
    · rintro name - ⟨t, rfl, ht⟩
      rw [hcount, ← and_iff_right (a := BackupAt nodes₂ dir base t) (b := _ ∉ _) ht, ← hleft,
        hkept.recent, ← hcopied.backupAt_iff, and_iff_right ht]
  · rintro ⟨howned, hspared, hrecent⟩
    constructor
    · intro place node hnode hforeign
      have hplace : place ≠ backupName base now :: dir := by
        rintro rfl
        rcases hcopied.before with hnone | ⟨old, hold⟩
        · rw [hnone] at hnode
          cases hnode
        · rw [hold] at hnode
          cases hnode
          exact hforeign now old rfl rfl
      have hnode₂ := hcopied.rest place node hplace hnode
      rw [hstays place _, hnode₂]
      rintro name hname rfl
      obtain ⟨t, rfl, f', hf'⟩ := howned name hname
      rw [hf'] at hnode₂
      cases hnode₂
      exact hforeign t f' rfl rfl
    · exact ⟨f, g, hsource, by rw [hkeeps _ hspared, hnew], hbytes⟩
    · intro t
      rw [hleft, ← hcopied.backupAt_iff, ← hcount]
      apply and_congr_right
      intro ht
      exact hrecent _ (mem_siblings_of_backupAt ht) (owned_backupName.mpr ht)

/-- **When rotation is right.**  A backup that succeeds deletes nothing but backups of its target,
    leaves the one it has made and keeps the `keep` most recent exactly when there are fewer than
    `keep` other files with the prefix, or all of them are backups of the target and fewer than
    `keep` of these carry a later time. -/
theorem backups_kept_iff {root backup : List String} (hplace : target ++ root = base :: dir)
    (h : backupWithRotation env target root keep now nodes = .ok backup nodes') :
    BackupsKept target dir base keep now nodes nodes' ↔ RotationSound dir base keep now nodes := by
  classical
  obtain ⟨nodes₂, hcopied, hrotate⟩ := backupWithRotation_ok hplace h
  have hnewAt : BackupAt nodes₂ dir base now := (hcopied.backupAt_iff now).mpr (.inl rfl)
  rw [backupsKept_iff_dropsOwned hcopied hrotate, Retention.oldest_owned_iff _
    (siblings_pairwise nodes₂ dir _) (mem_siblings_of_backupAt hnewAt), hcopied.length_siblings,
    RotationSound, Nat.succ_le_iff]
  have hall : (∀ name ∈ siblings nodes₂ dir (base ++ "."), Owned nodes₂ dir base name) ↔
      ∀ name ∈ otherSiblings nodes dir base now, Owned nodes dir base name := by
    constructor
    · intro howned name hname
      have hne : name ≠ backupName base now := by
        simpa using (List.mem_filter.mp hname).2
      obtain ⟨t, rfl, ht⟩ := howned name ((hcopied.mem_siblings_iff name).mpr (.inr hname))
      rcases (hcopied.backupAt_iff t).mp ht with rfl | ht
      · exact absurd rfl hne
      · exact ⟨t, rfl, ht⟩
    · intro howned name hname
      rcases (hcopied.mem_siblings_iff name).mp hname with rfl | hother
      · exact ⟨now, rfl, hnewAt⟩
      · obtain ⟨t, rfl, ht⟩ := howned name hother
        exact ⟨t, rfl, (hcopied.backupAt_iff t).mpr (.inr ht)⟩
  rw [hall]
  apply or_congr_right
  apply and_congr_right
  intro howned
  -- everything is owned, so what is above the new one is a later backup
  have hself : (siblings nodes₂ dir (base ++ ".")).filter (Owned nodes₂ dir base) =
      siblings nodes₂ dir (base ++ ".") := by
    rw [List.filter_eq_self]
    intro name hname
    simpa using hall.mpr howned name hname
  have hcount := length_above_owned nodes₂ dir base now
  rw [hself] at hcount
  have hlater : {u | now < u ∧ BackupAt nodes₂ dir base u} =
      {u | now < u ∧ BackupAt nodes dir base u} := by
    ext u
    simp only [Set.mem_ofPred_eq, hcopied.backupAt_iff, and_congr_right_iff, or_iff_right_iff_imp]
    rintro hlt rfl
    exact absurd hlt (lt_irrefl u.fields)
  rw [hcount, hlater]

end Rotated

/-! ## One name that extends another -/

instance neZero_dayBound : NeZero 32 := ⟨by decide⟩

def noonOn (day : Fin 32) : UtcTime where
  year := 2026
  month := 5
  day := day
  hour := 12
  minute := 0
  second := 0
  year_le := by decide
  month_le := by decide
  day_le := by omega
  hour_le := by decide
  minute_le := by decide
  second_le := by decide

/-- `/etc/foo`, and in the directory of its backups the backups of `foo.conf` from these days. -/
def etcFoo (days : List UtcTime) : Nodes String :=
  let backups : Nodes String := days.foldr (fun t =>
    AList.insert [backupName "foo.conf" t, "etc", "backups"] (.file ⟨"conf", 0o644, 0, 0⟩)) ∅
  backups.insert ["foo", "etc"] (.file ⟨"foo", 0o644, 0, 0⟩)

def backupFoo : FileM String (List String) :=
  backupWithRotation .calm ["foo", "etc"] ["backups"] 5 (noonOn 20)

theorem backups_kept_alone :
    BackupsKept ["foo", "etc"] ["etc", "backups"] "foo" 5 (noonOn 20)
      (etcFoo [noonOn 1, noonOn 2]) (backupFoo.leaves (etcFoo [noonOn 1, noonOn 2])) ↔
    RotationSound ["etc", "backups"] "foo" 5 (noonOn 20) (etcFoo [noonOn 1, noonOn 2]) :=
  have hrun : backupWithRotation .calm ["foo", "etc"] ["backups"] 5 (noonOn 20)
      (etcFoo [noonOn 1, noonOn 2]) = .ok [backupName "foo" (noonOn 20), "etc", "backups"]
        (backupFoo.leaves (etcFoo [noonOn 1, noonOn 2])) :=
    FileM.ok_of_value? (by decide +kernel)
  backups_kept_iff rfl hrun

def fiveConfs : Nodes String := etcFoo [noonOn 1, noonOn 2, noonOn 3, noonOn 4, noonOn 5]

/-- Five backups of `foo.conf` sort after the new backup of `foo`, which is deleted at once. -/
theorem new_backup_deleted :
    backupFoo fiveConfs =
      .ok [backupName "foo" (noonOn 20), "etc", "backups"] (backupFoo.leaves fiveConfs) ∧
    ¬ BackupsKept ["foo", "etc"] ["etc", "backups"] "foo" 5 (noonOn 20) fiveConfs
      (backupFoo.leaves fiveConfs) := by
  refine ⟨FileM.ok_of_value? (by decide +kernel), fun hkept => ?_⟩
  obtain ⟨f, g, -, hnew, -⟩ := hkept.made
  have hgone : nodeAt (backupFoo.leaves fiveConfs)
      [backupName "foo" (noonOn 20), "etc", "backups"] = none := by decide +kernel
  rw [hgone] at hnew
  cases hnew

end Bosun
