import Bosun.FileConvergence

/-!
# The gate of `validate_with`

An apply that fails leaves the target as it was, and the content of a target changes only to
what the validator has accepted.  That a backup of the old content exists is another matter: the
rotation that follows the backup can take it away again, before the rename.
-/

namespace Bosun

/-! ## Backups of a content -/

def contentAt (nodes : Nodes Bytes) (place : List String) : Option Bytes :=
  (fileAt nodes place).map (·.bytes)

/-- Some backup of the file called `base` has this content. -/
def ContentBackedUp (dir : List String) (base : String) (bytes : Bytes) (nodes : Nodes Bytes) :
    Prop :=
  ∃ t f, nodeAt nodes (backupName base t :: dir) = some (.file f) ∧ f.bytes = bytes

/-- Of the names with the prefix, fewer than `keep` come after the new backup, or after an earlier
    one of the same content. -/
def ContentKept (dir : List String) (base : String) (keep : Nat) (now : UtcTime) (bytes : Bytes)
    (nodes : Nodes Bytes) : Prop :=
  ∃ t, (t = now ∨ ∃ f, nodeAt nodes (backupName base t :: dir) = some (.file f) ∧ f.bytes = bytes) ∧
    (Retention.above (backupName base now :: otherSiblings nodes dir base now)
      (backupName base t)).length < keep

section Kept

variable {dir : List String} {base : String} {keep : Nat} {now : UtcTime}

/-- A backup of the old content is there after the rotation when the rotation has left one. -/
theorem contentBackedUp_iff {env : FileEnv} {target root backup : List String}
    {nodes nodes' : Nodes Bytes} {old : RegularFile Bytes} (hplace : target ++ root = base :: dir)
    (hold : nodeAt nodes target = some (.file old))
    (h : backupWithRotation env target root keep now nodes = .ok backup nodes') :
    ContentBackedUp dir base old.bytes nodes' ↔
      ContentKept dir base keep now old.bytes nodes := by
  obtain ⟨nodes₂, hcopied, hrotate⟩ := backupWithRotation_ok hplace h
  obtain ⟨hgone, hstays⟩ := rotate_ok (uptoLastDot_backupName base now) hrotate
  obtain ⟨f, g, hsource, hbytes, hnew⟩ := hcopied.copy
  obtain rfl : f = old := by
    rw [hsource] at hold
    cases hold
    rfl
  have hsorted := siblings_pairwise nodes₂ dir (base ++ ".")
  have hcount : ∀ t, BackupAt nodes₂ dir base t →
      (backupName base t ∉ Retention.oldest keep (siblings nodes₂ dir (base ++ ".")) ↔
        (Retention.above (backupName base now :: otherSiblings nodes dir base now)
          (backupName base t)).length < keep) := by
    intro t ht
    rw [Retention.mem_oldest_iff hsorted, and_iff_right (mem_siblings_of_backupAt ht), not_le,
      Retention.above, (hcopied.siblings_perm.filter _).length_eq]
    rfl
  have hkeeps : ∀ t, backupName base t ∉ Retention.oldest keep (siblings nodes₂ dir (base ++ ".")) →
      nodeAt nodes' (backupName base t :: dir) = nodeAt nodes₂ (backupName base t :: dir) := by
    intro t ht
    apply hstays
    intro name hname heq
    rw [(List.cons.inj heq).1] at ht
    exact ht hname
  constructor
  · rintro ⟨t, b, hb, hbytes'⟩
    have hleft : backupName base t ∉ Retention.oldest keep (siblings nodes₂ dir (base ++ ".")) := by
      intro hmem
      rw [hgone _ hmem] at hb
      cases hb
    have hb₂ := (hkeeps t hleft).symm.trans hb
    refine ⟨t, ?_, (hcount t ⟨b, hb₂⟩).mp hleft⟩
    by_cases hnow : t = now
    · exact .inl hnow
    · right
      rw [hcopied.beside _ fun heq => hnow (backupName_injective base heq)] at hb₂
      exact ⟨b, hb₂, hbytes'⟩
  · rintro ⟨t, hthere, hfew⟩
    have hb₂ : ∃ b, nodeAt nodes₂ (backupName base t :: dir) = some (.file b) ∧
        b.bytes = f.bytes := by
      by_cases hnow : t = now
      · subst hnow
        exact ⟨g, hnew, hbytes⟩
      · obtain ⟨b, hb, hbytes'⟩ := hthere.resolve_left hnow
        refine ⟨b, ?_, hbytes'⟩
        rw [hcopied.beside _ fun heq => hnow (backupName_injective base heq)]
        exact hb
    obtain ⟨b, hb, hbytes'⟩ := hb₂
    have hleft := (hcount t ⟨b, hb⟩).mpr hfew
    exact ⟨t, b, by rw [hkeeps t hleft, hb], hbytes'⟩

/-- It goes by the names in the directory and by the backups of the target. -/
theorem contentKept_congr {nodes nodes' : Nodes Bytes} (bytes : Bytes)
    (hnames : ∀ name, (nodeAt nodes (name :: dir)).isSome = (nodeAt nodes' (name :: dir)).isSome)
    (hbackups : ∀ t, nodeAt nodes (backupName base t :: dir) =
      nodeAt nodes' (backupName base t :: dir)) :
    ContentKept dir base keep now bytes nodes ↔ ContentKept dir base keep now bytes nodes' := by
  have hothers : otherSiblings nodes dir base now = otherSiblings nodes' dir base now := by
    rw [otherSiblings, otherSiblings, siblings_congr hnames]
  simp only [ContentKept, hothers, hbackups]

end Kept

/-! ## The gate -/

section Gate

variable {P : Type} (tools : FileTools P) (env : FileEnv) (spec : FileContentSpec)

/-- What is promised where a validator is given and the content of the target has changed. -/
structure Gated (dir : List String) (base : String) (contents : Bytes)
    (nodes nodes' : Nodes Bytes) : Prop where
  /-- the validator has accepted what the target has now -/
  validated : ∀ argv, spec.validateWith = some argv →
    contentAt nodes' spec.target ≠ contentAt nodes spec.target →
    let seen := (putNewPath env spec contents (fileAt nodes spec.target)).leaves nodes
    tools.validator (validatorArgv spec argv) seen = .ok () ∧
      contentAt nodes' spec.target = contentAt seen (newPathFor spec.target)
  /-- what the target had is in a backup -/
  backedUp : ∀ argv, spec.validateWith = some argv →
    contentAt nodes' spec.target ≠ contentAt nodes spec.target →
    ∀ old, nodeAt nodes spec.target = some (.file old) →
      ContentBackedUp dir base old.bytes nodes'

/-- Where a validator is given and another content is to be replaced, the backup will be kept,
    with the new file among the names if it lies in the same directory. -/
def SwapKeepsBackup (dir : List String) (base : String) (now : UtcTime) (contents : Bytes)
    (nodes : Nodes Bytes) : Prop :=
  ∀ argv old, spec.validateWith = some argv → nodeAt nodes spec.target = some (.file old) →
    old.bytes ≠ contents → upToDate tools env spec (some old) ≠ .ok true →
      ContentKept dir base keepBackups now old.bytes
        (nodes.insert (newPathFor spec.target) (.file ⟨contents, spec.mode, env.euid, env.egid⟩))

variable {tools env spec}

/-- The new file changes nothing about the backups, unless it is among the names. -/
theorem contentKept_seen {root dir : List String} {base : String} {now : UtcTime} {keep : Nat}
    {nodes nodes₁ : Nodes Bytes} {f g : RegularFile Bytes} (bytes : Bytes)
    (hplace : spec.target ++ root = base :: dir) (htarget : spec.target ≠ [])
    (honly : OnlyParents spec.target nodes nodes₁) :
    ContentKept dir base keep now bytes (nodes₁.insert (newPathFor spec.target) (.file f)) ↔
      ContentKept dir base keep now bytes (nodes.insert (newPathFor spec.target) (.file g)) := by
  have hbelow : ∀ name, nodeAt nodes₁ (name :: dir) = nodeAt nodes (name :: dir) := by
    intro name
    apply honly.of_length (List.cons_ne_nil _ _)
    have hlength := congrArg List.length hplace
    rw [List.length_append, List.length_cons] at hlength
    rw [List.length_cons]
    omega
  apply contentKept_congr
  · intro name
    by_cases hname : name :: dir = newPathFor spec.target
    · rw [hname, nodeAt_insert_self (newPathFor_ne_nil _),
        nodeAt_insert_self (newPathFor_ne_nil _)]
      rfl
    · rw [nodeAt_insert_ne hname, nodeAt_insert_ne hname, hbelow]
  · intro t
    have hne := (newPathFor_ne_backup hplace htarget t).symm
    rw [nodeAt_insert_ne hne, nodeAt_insert_ne hne, hbelow]

theorem target_ne_nil_of_file {nodes : Nodes Bytes} {f : RegularFile Bytes}
    (h : nodeAt nodes spec.target = some (.file f)) : spec.target ≠ [] := by
  intro hroot
  rw [hroot] at h
  cases h

theorem contentAt_file {nodes : Nodes Bytes} {place : List String} {f : RegularFile Bytes}
    (h : nodeAt nodes place = some (.file f)) : contentAt nodes place = some f.bytes := by
  rw [contentAt, fileAt, h]
  rfl

/-- After a replacement the gate has held exactly when the backup was kept. -/
theorem gated_iff_of_replaced {backupRoot dir : List String} {base : String} {now : UtcTime}
    {contents : Bytes} {existing : Option (RegularFile Bytes)} {nodes nodes' : Nodes Bytes}
    (hplace : spec.target ++ backupRoot = base :: dir)
    (htarget : nodeAt nodes spec.target = existing.map .file)
    (hstale : upToDate tools env spec existing = .ok false)
    (h : Replaced tools env backupRoot now spec contents existing nodes nodes') :
    Gated tools env spec dir base contents nodes nodes' ↔
      SwapKeepsBackup tools env spec dir base now contents nodes := by
  obtain ⟨f, place, note, hstage, hfile⟩ := h.stands
  have hbytes : f.bytes = contents := stageTemp_bytes hstage
  have hnow : contentAt nodes' spec.target = some contents := by
    rw [contentAt_file hfile, hbytes]
  have hexisting : fileAt nodes spec.target = existing := by
    rw [fileAt, htarget]
    cases existing <;> rfl
  -- what is left after the rename is what the backup has left
  have hkept : ∀ argv old, spec.validateWith = some argv →
      nodeAt nodes spec.target = some (.file old) →
      (ContentBackedUp dir base old.bytes nodes' ↔ ContentKept dir base keepBackups now old.bytes
        (nodes.insert (newPathFor spec.target)
          (.file ⟨contents, spec.mode, env.euid, env.egid⟩))) := by
    intro argv old hargv hold
    have hroot := target_ne_nil_of_file hold
    obtain ⟨-, g, nodes₁, honly, -, hseen⟩ := h.validated argv hargv
    have hsome : existing = some old := by
      rw [hold] at htarget
      cases existing <;> cases htarget
      rfl
    obtain ⟨backup, nodes₂, hrun, hleft⟩ := h.backedUp argv hargv old hsome
    rw [hseen] at hrun
    have holdSeen : nodeAt (nodes₁.insert (newPathFor spec.target) (.file g)) spec.target =
        some (.file old) := by
      rw [nodeAt_insert_ne (newPathFor_ne hroot).symm, honly.of_some hold]
    have hsame : ContentBackedUp dir base old.bytes nodes' ↔
        ContentBackedUp dir base old.bytes nodes₂ := by
      have hbackups : ∀ t, nodeAt nodes' (backupName base t :: dir) =
          nodeAt nodes₂ (backupName base t :: dir) := by
        intro t
        apply hleft
        · exact (target_ne_sibling hplace hroot _ (hasPrefix_backupName base t)).symm
        · exact (newPathFor_ne_backup hplace hroot t).symm
      simp only [ContentBackedUp, hbackups]
    rw [hsame, contentBackedUp_iff hplace holdSeen hrun]
    exact contentKept_seen old.bytes hplace hroot honly
  constructor
  · intro hgated argv old hargv hold hne _
    rw [← hkept argv old hargv hold]
    apply hgated.backedUp argv hargv _ old hold
    rw [hnow, contentAt_file hold]
    exact fun heq => hne (Option.some.inj heq).symm
  · intro hswap
    constructor
    · intro argv hargv _
      obtain ⟨haccepts, g, nodes₁, -, hg, hseen⟩ := h.validated argv hargv
      have hnewAt : contentAt ((putNewPath env spec contents existing).leaves nodes)
          (newPathFor spec.target) = some g.bytes := by
        apply contentAt_file
        rw [hseen]
        exact nodeAt_insert_self (newPathFor_ne_nil _) _ _
      rw [hexisting]
      exact ⟨haccepts, by rw [hnow, hnewAt, hg]⟩
    · intro argv hargv hchanged old hold
      rw [hkept argv old hargv hold]
      apply hswap argv old hargv hold
      · rintro rfl
        exact hchanged (by rw [hnow, contentAt_file hold])
      · have hsome : existing = some old := by
          rw [← hexisting, fileAt, hold]
        rw [← hsome, hstale]
        simp

/-- **Errors and the gate.**  An apply that fails leaves the target as it was.  One that succeeds
    has changed the content only to what the validator has accepted, with the old content in a
    backup, exactly when the rotation keeps such a backup. -/
theorem apply_gated_iff {resource : Resource P} {backupRoot dir : List String} {base : String}
    (now : UtcTime) (sensitive : Option Bytes) (nodes : Nodes Bytes)
    (hspec : tools.fileSpec resource.payload = .ok spec)
    (hplace : spec.target ++ backupRoot = base :: dir) :
    (∀ err nodes', fileApply tools env backupRoot now resource sensitive nodes =
        .error err nodes' → nodeAt nodes' spec.target = nodeAt nodes spec.target) ∧
    ∀ contents report nodes', sensitive = some contents →
      fileApply tools env backupRoot now resource sensitive nodes = .ok report nodes' →
      (Gated tools env spec dir base contents nodes nodes' ↔
        SwapKeepsBackup tools env spec dir base now contents nodes) := by
  rcases applySpec_cases tools env backupRoot now spec sensitive nodes with
    ⟨err, nodes₂, hfail, hsame⟩ | ⟨contents', existing, -, hcheck, htarget, hrun⟩
  · constructor
    · intro err' nodes' h
      simp only [fileApply, hspec, hfail, FileM.bind_apply] at h
      cases h
      exact hsame
    · intro contents report nodes' _ h
      simp [fileApply, hspec, hfail] at h
  have hcontents : ∀ contents, sensitive = some contents → contents' = contents := by
    rintro contents rfl
    by_cases hsha : tools.sha256Hex contents = spec.contentSha256
    · simpa [checkContents, hsha] using hcheck.symm
    · simp [checkContents, hsha] at hcheck
  rcases hrun with ⟨hcurrent, hrun⟩ | ⟨hstale, nodes₂, hrun, hreplaced⟩
  · constructor
    · intro err nodes' h
      simp [fileApply, hspec, hrun] at h
    · intro contents report nodes' _ h
      simp only [fileApply, hspec, hrun, FileM.bind_apply] at h
      cases h
      -- nothing has changed, and nothing was to be replaced
      apply iff_of_true
      · exact ⟨fun _ _ hchanged => absurd rfl hchanged, fun _ _ hchanged => absurd rfl hchanged⟩
      · intro argv old _ hold _ hnot
        rw [hold] at htarget
        cases existing <;> cases htarget
        exact absurd hcurrent hnot
  · constructor
    · intro err nodes' h
      simp [fileApply, hspec, hrun] at h
    · intro contents report nodes' hsome h
      simp only [fileApply, hspec, hrun, FileM.bind_apply] at h
      cases h
      obtain rfl := hcontents contents hsome
      exact gated_iff_of_replaced hplace htarget hstale hreplaced

end Gate

/-! ## A backup that does not last -/

def checkedSpec : FileContentSpec :=
  { abcSpec 0o644 with validateWith := some ["check", "{new_path}"] }

/-- `/tool` is empty, and the backups of `/tool.conf` from these days are there. -/
def checkedNodes (days : List UtcTime) : Nodes Bytes :=
  let backups : Nodes Bytes := days.foldr (fun t =>
    AList.insert [backupName "tool.conf" t, "backups"] (.file ⟨[1], 0o644, 0, 0⟩)) ∅
  backups.insert ["tool"] (.file ⟨[], 0o644, 0, 0⟩)

def applyChecked : FileM Bytes ChangeReport :=
  fileApply (sampleTools checkedSpec) .calm ["backups"] (noonOn 20) toolResource
    (some [97, 98, 99])

theorem apply_gated_alone :
    (∀ err nodes', applyChecked (checkedNodes []) = .error err nodes' →
      nodeAt nodes' checkedSpec.target = nodeAt (checkedNodes []) checkedSpec.target) ∧
    ∀ contents report nodes', some [97, 98, 99] = some contents →
      applyChecked (checkedNodes []) = .ok report nodes' →
      (Gated (sampleTools checkedSpec) .calm checkedSpec ["backups"] "tool" contents
          (checkedNodes []) nodes' ↔
        SwapKeepsBackup (sampleTools checkedSpec) .calm checkedSpec ["backups"] "tool" (noonOn 20)
          contents (checkedNodes [])) :=
  apply_gated_iff (noonOn 20) (some [97, 98, 99]) (checkedNodes []) rfl (by decide +kernel)

def fiveToolConfs : Nodes Bytes := checkedNodes [noonOn 1, noonOn 2, noonOn 3, noonOn 4, noonOn 5]

/-- Five backups of `tool.conf` come after the new backup of `tool`: it is deleted before the
    rename, and nothing has the old content. -/
theorem swap_without_backup :
    applyChecked fiveToolConfs = .ok toolReport (applyChecked.leaves fiveToolConfs) ∧
    ¬ Gated (sampleTools checkedSpec) .calm checkedSpec ["backups"] "tool" [97, 98, 99]
      fiveToolConfs (applyChecked.leaves fiveToolConfs) := by
  refine ⟨FileM.ok_of_value? (by decide +kernel), fun hgated => ?_⟩
  have hfile : nodeAt fiveToolConfs checkedSpec.target = some (.file ⟨[], 0o644, 0, 0⟩) := by
    decide +kernel
  obtain ⟨t, f, hbackup, -⟩ :=
    hgated.backedUp ["check", "{new_path}"] rfl (by decide +kernel) _ hfile
  -- the directory has the backups of `tool.conf` and no other name
  have hnames : (namesIn (applyChecked.leaves fiveToolConfs) ["backups"]).all
      fun name => hasPrefix "tool.conf." name := by decide +kernel
  have hmem : backupName "tool" t ∈ namesIn (applyChecked.leaves fiveToolConfs) ["backups"] := by
    rw [mem_namesIn, hbackup]
    rfl
  have hprefix := hasPrefix_iff.mp (List.all_eq_true.mp hnames _ hmem)
  have hdot : '.' ∈ (backupName "tool" t).toList.drop 5 := by
    obtain ⟨rest, hrest⟩ := hprefix
    rw [← hrest]
    simp
  rw [toList_backupName] at hdot
  exact t.dot_notMem_stampChars hdot

end Bosun
