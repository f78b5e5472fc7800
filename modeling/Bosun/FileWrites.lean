import Bosun.BackupRotation
import Bosun.FileContent

/-!
# How a write of `file.content` ends

Whatever fails, the target is as it was (`applySpec_cases`): the backup does not touch it, the
new file is staged elsewhere, and the last call is the rename.  A write that succeeds leaves the
staged file, and what it did on the way is in `Replaced`.
-/

namespace Bosun

/-! ## The backup and the target -/

/-- Nothing that lacks the prefix is touched by a backup, whatever becomes of it. -/
theorem backup_leaves {B : Type} {env : FileEnv} {target root dir place : List String}
    {base : String} {keep : Nat} {now : UtcTime} (hplace : target ++ root = base :: dir)
    {nodes : Nodes B} {node : FileNode B} (hnode : nodeAt nodes place = some node)
    (hsafe : ∀ name, hasPrefix (base ++ ".") name = true → place ≠ name :: dir) :
    nodeAt ((backupWithRotation env target root keep now).leaves nodes) place = some node := by
  have hpath : buildBackupPath root target now.stamp = .ok (backupName base now :: dir) := by
    rw [buildBackupPath, hplace]
    rfl
  have hbuilt : (FileM.ofExcept (buildBackupPath root target now.stamp) : FileM B _) nodes =
      .ok (backupName base now :: dir) nodes := by
    rw [hpath, FileM.ofExcept_ok]
  rw [backupWithRotation, FileM.leaves_bind_ok hbuilt, List.tail_cons]
  rcases createDirAll_cases env (backupName base now :: dir) dir nodes with ⟨err, hdirs⟩ | hdirs
  · rw [FileM.leaves_bind_error hdirs]
    exact hnode
  · rw [FileM.leaves_bind_ok hdirs]
    have hmade := nodeAt_mkdirs_of_some dir hnode
    rcases copyFile_cases env target (backupName base now :: dir) (mkdirs dir nodes) with
      ⟨err, hcopy⟩ | ⟨f, g, -, -, -, hcopy⟩
    · rw [FileM.leaves_bind_error hcopy]
      exact hmade
    · have hcopied := nodeAt_insert_ne (hsafe _ (hasPrefix_backupName base now)) (.file g)
        (mkdirs dir nodes)
      rw [FileM.leaves_bind_ok hcopy, FileM.leaves_bind_pure,
        rotate_leaves (uptoLastDot_backupName base now) hsafe, hcopied]
      exact hmade

/-- The name of the target lacks the prefix. -/
theorem target_ne_sibling {target root dir : List String} {base : String}
    (hplace : target ++ root = base :: dir) (htarget : target ≠ []) (name : String)
    (hname : hasPrefix (base ++ ".") name = true) : target ≠ name :: dir := by
  cases target with
  | nil => exact absurd rfl htarget
  | cons first parent =>
    rintro heq
    obtain rfl := (List.cons.inj hplace).1
    obtain rfl := (List.cons.inj heq).1
    have hlength := (hasPrefix_iff.mp hname).length_le
    rw [String.toList_append, List.length_append] at hlength
    have hdot : ".".toList.length = 1 := rfl
    omega

theorem backup_target {B : Type} (env : FileEnv) {target : List String} (root : List String)
    (keep : Nat) (now : UtcTime) {nodes : Nodes B} {f : RegularFile B}
    (hfile : nodeAt nodes target = some (.file f)) :
    nodeAt ((backupWithRotation env target root keep now).leaves nodes) target =
      some (.file f) := by
  have htarget : target ≠ [] := by
    rintro rfl
    cases hfile
  obtain ⟨base, dir, hplace⟩ := List.exists_cons_of_ne_nil
    (List.append_ne_nil_of_left_ne_nil htarget root)
  exact backup_leaves hplace hfile (target_ne_sibling hplace htarget)

/-! ## The calls of a write -/

theorem newPathFor_ne {target : List String} (htarget : target ≠ []) :
    newPathFor target ≠ target := by
  cases target with
  | nil => exact absurd rfl htarget
  | cons name parent =>
    intro heq
    have hlength := congrArg String.length (List.cons.inj heq).1
    rw [String.length_append] at hlength
    have hnew : ".new".length = 4 := rfl
    omega

theorem newPathFor_ne_nil (target : List String) : newPathFor target ≠ [] := by
  cases target <;> exact List.cons_ne_nil _ _

/-- A backup of a target never lies where its new file does. -/
theorem newPathFor_ne_backup {target root dir : List String} {base : String}
    (hplace : target ++ root = base :: dir) (htarget : target ≠ []) (t : UtcTime) :
    newPathFor target ≠ backupName base t :: dir := by
  cases target with
  | nil => exact absurd rfl htarget
  | cons name parent =>
    intro heq
    obtain rfl := (List.cons.inj hplace).1
    have hlength := congrArg (fun s => s.toList.length) (List.cons.inj heq).1
    simp only [toList_backupName, String.toList_append, List.length_append,
      UtcTime.stampChars, FixedWidth.length_digits, List.length_singleton] at hlength
    have hnew : ".new".toList.length = 4 := rfl
    have hdot : ".".toList.length = 1 := rfl
    omega

theorem renameFile_cases (env : FileEnv) (source target : List String) (nodes : Nodes Bytes) :
    (∃ err, renameFile env source target nodes = .error err nodes) ∨
      ∃ f, nodeAt nodes source = some (.file f) ∧
        renameFile env source target nodes =
          .ok () ((nodes.erase source).insert target (.file f)) := by
  have hfails : ∀ {err}, renameFile env source target nodes = .error err nodes →
      ∃ err, renameFile env source target nodes = .error err nodes := fun h => ⟨_, h⟩
  cases hcall : env.call .rename target
    ("rename " ++ FileTree.render source ++ " -> " ++ FileTree.render target) with
  | error e =>
    left
    exact ⟨e, by simp [renameFile, hcall]⟩
  | ok _ =>
    cases hnode : nodeAt nodes source with
    | none =>
      left
      apply hfails
      simp only [renameFile, hcall, hnode, FileM.bind_apply, FileM.ofExcept_ok, FileM.get_apply]
      rfl
    | some node =>
      cases node with
      | file f =>
        by_cases hdir : isDirectory (nodeAt nodes target) = true
        · left
          apply hfails
          simp only [renameFile, hcall, hnode, hdir, FileM.bind_apply, FileM.ofExcept_ok,
            FileM.get_apply, if_true]
          rfl
        · right
          exact ⟨f, rfl, by simp [renameFile, hcall, hnode, hdir]⟩
      | _ =>
        left
        apply hfails
        simp only [renameFile, hcall, hnode, FileM.bind_apply, FileM.ofExcept_ok, FileM.get_apply]
        rfl

/-- The new file stands at `<path>.new`, or it does not; only directories come with it. -/
theorem putNewPath_cases (env : FileEnv) (spec : FileContentSpec) (contents : Bytes)
    (existing : Option (RegularFile Bytes)) (nodes : Nodes Bytes) :
    (∃ err nodes', OnlyParents spec.target nodes nodes' ∧
      putNewPath env spec contents existing nodes = .error err nodes') ∨
    ∃ f nodes', spec.target ≠ [] ∧ OnlyParents spec.target nodes nodes' ∧
      stageTemp env (fileInstall env spec contents existing (newPathFor spec.target)
        " (validate flow)") = .ok f ∧
      putNewPath env spec contents existing nodes =
        .ok () (nodes'.insert (newPathFor spec.target) (.file f)) := by
  rcases ensureParent_cases env "" spec.target nodes with
    ⟨err, hparent⟩ | ⟨hroot, nodes', honly, hparent⟩
  · left
    exact ⟨err, nodes, .inl rfl, by simp only [putNewPath, FileM.bind_apply, hparent]⟩
  · cases hstage : stageTemp env (fileInstall env spec contents existing (newPathFor spec.target)
      " (validate flow)") with
    | error e =>
      left
      exact ⟨e, nodes', honly, by simp [putNewPath, hparent, hstage]⟩
    | ok f =>
      rcases persist_cases env f (newPathFor spec.target) nodes' with
        ⟨err, hpersist⟩ | ⟨-, hpersist⟩
      · left
        exact ⟨err, nodes', honly, by simp [putNewPath, hparent, hstage, hpersist]⟩
      · right
        exact ⟨f, nodes', hroot, honly, rfl, by simp [putNewPath, hparent, hstage, hpersist]⟩

section Apply

variable {P : Type} {tools : FileTools P} {env : FileEnv} {backupRoot : List String}
  {now : UtcTime} {spec : FileContentSpec}

/-- The backup happens where a file is replaced, and it leaves the file. -/
theorem backupExisting_cases (env : FileEnv) (backupRoot : List String) (now : UtcTime)
    (existing : Option (RegularFile Bytes)) {nodes : Nodes Bytes}
    (htarget : nodeAt nodes spec.target = existing.map .file) :
    (∃ err nodes', backupExisting env backupRoot now spec existing nodes = .error err nodes' ∧
      nodeAt nodes' spec.target = nodeAt nodes spec.target) ∨
    ∃ nodes', backupExisting env backupRoot now spec existing nodes = .ok () nodes' ∧
      nodeAt nodes' spec.target = nodeAt nodes spec.target ∧
      ∀ old, existing = some old → ∃ backup,
        backupWithRotation env spec.target backupRoot keepBackups now nodes =
          .ok backup nodes' := by
  cases existing with
  | none =>
    right
    exact ⟨nodes, rfl, rfl, by simp⟩
  | some f =>
    have hkept := backup_target env backupRoot keepBackups now htarget
    cases hrun : backupWithRotation env spec.target backupRoot keepBackups now nodes with
    | error err nodes' =>
      left
      rw [FileM.leaves_error hrun] at hkept
      exact ⟨err, nodes', by simp [backupExisting, hrun], by rw [hkept, htarget]; rfl⟩
    | ok backup nodes' =>
      right
      rw [FileM.leaves_ok hrun] at hkept
      exact ⟨nodes', by simp [backupExisting, hrun], by rw [hkept, htarget]; rfl,
        fun _ _ => ⟨backup, rfl⟩⟩

/-- The target has been replaced. -/
structure Replaced (tools : FileTools P) (env : FileEnv) (backupRoot : List String) (now : UtcTime)
    (spec : FileContentSpec) (contents : Bytes) (existing : Option (RegularFile Bytes))
    (nodes nodes' : Nodes Bytes) : Prop where
  stands : ∃ f place note, stageTemp env (fileInstall env spec contents existing place note) =
    .ok f ∧ nodeAt nodes' spec.target = some (.file f)
  /-- the validator has seen the new content -/
  validated : ∀ argv, spec.validateWith = some argv →
    tools.validator (validatorArgv spec argv)
      ((putNewPath env spec contents existing).leaves nodes) = .ok () ∧
    ∃ f nodes₁, OnlyParents spec.target nodes nodes₁ ∧ f.bytes = contents ∧
      (putNewPath env spec contents existing).leaves nodes =
        nodes₁.insert (newPathFor spec.target) (.file f)
  /-- what the backup has left is left -/
  backedUp : ∀ argv, spec.validateWith = some argv → ∀ old, existing = some old →
    ∃ backup nodes₂, backupWithRotation env spec.target backupRoot keepBackups now
        ((putNewPath env spec contents existing).leaves nodes) = .ok backup nodes₂ ∧
      ∀ place, place ≠ spec.target → place ≠ newPathFor spec.target →
        nodeAt nodes' place = nodeAt nodes₂ place

/-- What the rename finds is what has been put there. -/
theorem backup_newPath {root : List String} {keep : Nat} {target backup : List String}
    {nodes nodes' : Nodes Bytes} {f g : RegularFile Bytes}
    (hfile : nodeAt nodes (newPathFor target) = some (.file f)) (htarget : target ≠ [])
    (h : backupWithRotation env target root keep now nodes = .ok backup nodes')
    (hafter : nodeAt nodes' (newPathFor target) = some (.file g)) : g = f := by
  obtain ⟨base, dir, hplace⟩ := List.exists_cons_of_ne_nil
    (List.append_ne_nil_of_left_ne_nil htarget root)
  obtain ⟨nodes₂, hcopied, hrotate⟩ := backupWithRotation_ok hplace h
  obtain ⟨hgone, hstays⟩ := rotate_ok (uptoLastDot_backupName base now) hrotate
  have hmiddle := hcopied.rest _ _ (newPathFor_ne_backup hplace htarget now) hfile
  by_cases hremoved : ∃ name ∈ Retention.oldest keep (siblings nodes₂ dir (base ++ ".")),
      newPathFor target = name :: dir
  · obtain ⟨name, hname, heq⟩ := hremoved
    rw [heq, hgone name hname] at hafter
    cases hafter
  · push Not at hremoved
    rw [hstays _ hremoved, hmiddle] at hafter
    cases hafter
    rfl

theorem writeWithValidation_cases (tools : FileTools P) (env : FileEnv)
    (backupRoot : List String) (now : UtcTime) (contents : Bytes)
    {existing : Option (RegularFile Bytes)} {argv : List String} {nodes : Nodes Bytes}
    (hargv : spec.validateWith = some argv)
    (htarget : nodeAt nodes spec.target = existing.map .file) :
    (∃ err nodes', writeWithValidation tools env backupRoot now spec contents existing argv nodes =
      .error err nodes' ∧ nodeAt nodes' spec.target = nodeAt nodes spec.target) ∨
    ∃ nodes', writeWithValidation tools env backupRoot now spec contents existing argv nodes =
      .ok () nodes' ∧
      Replaced tools env backupRoot now spec contents existing nodes nodes' := by
  rcases putNewPath_cases env spec contents existing nodes with
    ⟨err, nodes', honly, hput⟩ | ⟨f, nodes', hroot, honly, hstage, hput⟩
  · left
    exact ⟨err, nodes', by simp [writeWithValidation, hput], honly.target_eq⟩
  have hleaves := FileM.leaves_ok hput
  have hnew : nodeAt (nodes'.insert (newPathFor spec.target) (.file f)) (newPathFor spec.target) =
      some (.file f) := nodeAt_insert_self (newPathFor_ne_nil _) _ _
  have hsame : nodeAt (nodes'.insert (newPathFor spec.target) (.file f)) spec.target =
      nodeAt nodes spec.target := by
    rw [nodeAt_insert_ne (newPathFor_ne hroot).symm, honly.target_eq]
  cases hvalid : tools.validator (validatorArgv spec argv)
    (nodes'.insert (newPathFor spec.target) (.file f)) with
  | error err =>
    left
    exact ⟨_, _, by simp only [writeWithValidation, runValidator, hput, hvalid, FileM.bind_apply,
      FileM.get_apply]; rfl, hsame⟩
  | ok _ =>
    rcases backupExisting_cases env backupRoot now existing (hsame.trans htarget) with
      ⟨err, nodes₂, hbackup, hkept⟩ | ⟨nodes₂, hbackup, hkept, hdone⟩
    · left
      exact ⟨err, nodes₂, by simp [writeWithValidation, runValidator, hput, hvalid, hbackup],
        hkept.trans hsame⟩
    rcases renameFile_cases env (newPathFor spec.target) spec.target nodes₂ with
      ⟨err, hrename⟩ | ⟨g, hg, hrename⟩
    · left
      exact ⟨err, nodes₂, by simp [writeWithValidation, runValidator, hput, hvalid, hbackup,
        hrename], hkept.trans hsame⟩
    · right
      have hgf : g = f := by
        cases existing with
        | none =>
          simp only [backupExisting, FileM.pure_apply] at hbackup
          cases hbackup
          rw [hnew] at hg
          cases hg
          rfl
        | some old =>
          obtain ⟨backup, hrun⟩ := hdone old rfl
          exact backup_newPath hnew hroot hrun hg
      subst hgf
      refine ⟨_, by simp only [writeWithValidation, runValidator, hput, hvalid, hbackup, hrename,
        FileM.bind_apply, FileM.get_apply, FileM.pure_apply]; rfl, ?_⟩
      constructor
      · exact ⟨g, _, _, hstage, nodeAt_insert_self hroot _ _⟩
      · intro argv' hargv'
        obtain rfl := Option.some.inj (hargv.symm.trans hargv')
        rw [hleaves]
        exact ⟨hvalid, g, nodes', honly, stageTemp_bytes hstage, rfl⟩
      · intro argv' _ old hold
        obtain ⟨backup, hrun⟩ := hdone old hold
        rw [hleaves]
        refine ⟨backup, nodes₂, hrun, ?_⟩
        intro place hne hneNew
        rw [nodeAt_insert_ne hne, nodeAt_erase_ne hneNew]

theorem replaceTarget_cases (tools : FileTools P) (env : FileEnv) (backupRoot : List String)
    (now : UtcTime) (contents : Bytes) {existing : Option (RegularFile Bytes)}
    {nodes : Nodes Bytes} (htarget : nodeAt nodes spec.target = existing.map .file) :
    (∃ err nodes', replaceTarget tools env backupRoot now spec contents existing nodes =
      .error err nodes' ∧ nodeAt nodes' spec.target = nodeAt nodes spec.target) ∨
    ∃ nodes', replaceTarget tools env backupRoot now spec contents existing nodes =
      .ok () nodes' ∧
      Replaced tools env backupRoot now spec contents existing nodes nodes' := by
  cases hvalidate : spec.validateWith with
  | some argv =>
    cases argv with
    | nil =>
      left
      exact ⟨_, nodes, by rw [replaceTarget, hvalidate]; rfl, rfl⟩
    | cons program args =>
      have hcases := writeWithValidation_cases tools env backupRoot now contents hvalidate htarget
      rw [replaceTarget, hvalidate]
      exact hcases
  | none =>
    rcases backupExisting_cases env backupRoot now existing htarget with
      ⟨err, nodes₂, hbackup, hkept⟩ | ⟨nodes₂, hbackup, hkept, -⟩
    · left
      exact ⟨err, nodes₂, by simp [replaceTarget, hvalidate, hbackup], hkept⟩
    rcases installFile_cases env "" (fileInstall env spec contents existing spec.target "")
        nodes₂ with ⟨err, nodes₃, honly, hinstall⟩ | ⟨f, nodes₃, hroot, honly, hstage, hinstall⟩
    · left
      exact ⟨err, nodes₃, by simp [replaceTarget, hvalidate, hbackup, hinstall],
        honly.target_eq.trans hkept⟩
    · right
      refine ⟨nodes₃.insert spec.target (.file f), ?_, ?_⟩
      · simp only [replaceTarget, hvalidate, hbackup, hinstall, FileM.bind_apply]
        rfl
      · constructor
        · exact ⟨f, _, _, hstage, nodeAt_insert_self hroot _ _⟩
        · intro argv hargv
          rw [hvalidate] at hargv
          cases hargv
        · intro argv hargv
          rw [hvalidate] at hargv
          cases hargv

/-! ## The whole call -/

theorem statTarget_ok {note : String} {nodes : Nodes Bytes}
    {existing : Option (RegularFile Bytes)} (h : statTarget env spec note nodes = .ok existing) :
    nodeAt nodes spec.target = existing.map .file := by
  unfold statTarget at h
  simp only [bind, Except.bind] at h
  split at h
  · cases h
  cases hnode : nodeAt nodes spec.target with
  | none =>
    rw [hnode] at h
    by_cases hblocked : blocked nodes spec.target.tail = true
    · simp [hblocked, throw, throwThe, MonadExceptOf.throw] at h
    · simp only [hblocked, pure, Except.pure] at h
      cases h
      rfl
  | some node =>
    rw [hnode] at h
    cases node with
    | file f =>
      cases h
      rfl
    | _ => cases h

/-- **How an apply ends.**  With an error the target is as it was.  Without one either it needed
    nothing, or it has been replaced. -/
theorem applySpec_cases (tools : FileTools P) (env : FileEnv) (backupRoot : List String)
    (now : UtcTime) (spec : FileContentSpec) (sensitive : Option Bytes) (nodes : Nodes Bytes) :
    (∃ err nodes', applySpec tools env backupRoot now spec sensitive nodes = .error err nodes' ∧
      nodeAt nodes' spec.target = nodeAt nodes spec.target) ∨
    ∃ contents existing, spec.validate = .ok () ∧
      checkContents tools spec sensitive = .ok contents ∧
      nodeAt nodes spec.target = existing.map .file ∧
      (upToDate tools env spec existing = .ok true ∧
          applySpec tools env backupRoot now spec sensitive nodes = .ok false nodes ∨
        upToDate tools env spec existing = .ok false ∧ ∃ nodes',
          applySpec tools env backupRoot now spec sensitive nodes = .ok true nodes' ∧
          Replaced tools env backupRoot now spec contents existing nodes nodes') := by
  cases hvalidate : spec.validate with
  | error err =>
    left
    exact ⟨err, nodes, by simp [applySpec, hvalidate], rfl⟩
  | ok _ =>
    cases hcheck : checkContents tools spec sensitive with
    | error err =>
      left
      exact ⟨err, nodes, by simp [applySpec, hvalidate, hcheck], rfl⟩
    | ok contents =>
      cases hstat : statTarget env spec " in apply" nodes with
      | error err =>
        left
        exact ⟨err, nodes, by simp [applySpec, hvalidate, hcheck, hstat], rfl⟩
      | ok existing =>
        have htarget := statTarget_ok hstat
        cases hcurrent : upToDate tools env spec existing with
        | error err =>
          left
          exact ⟨err, nodes, by simp [applySpec, hvalidate, hcheck, hstat, hcurrent], rfl⟩
        | ok current =>
          cases current with
          | true =>
            right
            exact ⟨contents, existing, rfl, rfl, htarget, .inl ⟨hcurrent, by
              simp [applySpec, hvalidate, hcheck, hstat, hcurrent]⟩⟩
          | false =>
            rcases replaceTarget_cases tools env backupRoot now contents htarget with
              ⟨err, nodes', hreplace, hsame⟩ | ⟨nodes', hreplace, hdone⟩
            · left
              exact ⟨err, nodes', by
                simp [applySpec, hvalidate, hcheck, hstat, hcurrent, hreplace], hsame⟩
            · right
              exact ⟨contents, existing, rfl, rfl, htarget, .inr ⟨hcurrent, nodes', by
                simp [applySpec, hvalidate, hcheck, hstat, hcurrent, hreplace], hdone⟩⟩

end Apply

end Bosun
