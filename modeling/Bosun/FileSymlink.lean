import Bosun.CertTls
import Bosun.Library.TreeEdits
import Bosun.Services

/-!
# `file.symlink`

A symbolic link is created, pointed elsewhere or removed.  Whatever else is at its path is
replaced only with `force`, a directory with everything below it.

A place is a path without symbolic links among its parents, as in `file.content`; here it
stands in a tree, so that what is below a directory is there too.  Any call may fail, and each
of them is made at most once.  A call that fails has done nothing, except that
`remove_dir_all` may have removed some of what is below the directory and `create_dir_all` may
have made some of the directories.
-/

namespace Bosun

open FileTree

/-! ## The spec -/

inductive SymlinkState
  | present
  | absent
deriving DecidableEq, Repr

structure FileSymlinkSpec where
  path : String
  target : String
  state : SymlinkState
  force : Bool

namespace FileSymlinkSpec

def validate (spec : FileSymlinkSpec) : Except PrimitiveError Unit :=
  if hasNul spec.target then .error (.invalidPayload "file.symlink.target contains NUL byte")
  else validatePath "file.symlink.path" spec.path

/-- A slash at the end of the path is dropped; what it changes in a call comes in as a fault of
    the call. -/
def place (spec : FileSymlinkSpec) : List String := placeOf spec.path

end FileSymlinkSpec

theorem isName_of_mem_placeOf (path : String) {name : String} (h : name ∈ placeOf path) :
    IsName name := by
  rw [placeOf, List.mem_reverse, List.mem_filterMap] at h
  obtain ⟨c, hc, hname⟩ := h
  have hnormal : c = .normal name := by
    cases c <;> simp_all [PathComponent.name]
  subst hnormal
  have hsegment : ∃ segment ∈ segments path, component segment = some (.normal name) := by
    rw [components, List.mem_append] at hc
    rcases hc with hc | hc
    · split at hc
      · simp at hc
      · split at hc <;> simp at hc
    · exact List.mem_filterMap.mp hc
  obtain ⟨segment, hmem, hcomponent⟩ := hsegment
  unfold component at hcomponent
  split at hcomponent
  · cases hcomponent
  · rename_i hdot
    split at hcomponent
    · cases hcomponent
    · rename_i hdotdot
      cases hcomponent
      rw [not_or] at hdot
      exact ⟨hdot.1, hdot.2, hdotdot, no_slash_of_mem_segments hmem⟩

/-! ## The calls -/

inductive SymlinkOp
  | symlinkMetadata
  | readLink
  | exists
  | createDirAll
  | symlink
  | symlinkMetadataForUpdate
  | removeDirAll
  | removeFile
deriving DecidableEq, Repr

structure SymlinkFaults where
  fault : SymlinkOp → Option String
  /-- what a `remove_dir_all` that fails has left -/
  survives : List String → Bool
  /-- so many of the directories, less one, are not made by a `create_dir_all` that fails -/
  unmade : Nat

/-- No call fails. -/
def SymlinkFaults.calm : SymlinkFaults := ⟨fun _ => none, fun _ => true, 0⟩

/-- Above the place there is something that is no directory. -/
def hasFileAbove (t : Tree) (place : List String) : Bool :=
  place.tail.tails.any fun above =>
    match t.node above with
    | none | some .dir => false
    | some _ => true

/-- Below the place, and not left by a `remove_dir_all` that fails. -/
def goneBelow (place : List String) (survives : List String → Bool) (p : List String) : Bool :=
  place <:+ p && p ≠ place && !survives p

theorem goneBelow_root (place : List String) (survives : List String → Bool) :
    goneBelow place survives [] = false := by
  by_cases hplace : place = []
  · simp [goneBelow, hplace]
  · simp [goneBelow, List.suffix_nil, hplace]

namespace FileSymlink

variable (faults : SymlinkFaults) (spec : FileSymlinkSpec) (t : Tree)

def lstat (op : SymlinkOp) : Except IoError Node :=
  match faults.fault op with
  | some e => .error (.other e)
  | none =>
    match t.node spec.place with
    | some node => .ok node
    | none =>
      if hasFileAbove t spec.place then .error (.other "Not a directory (os error 20)")
      else .error .notFound

/-- `std::os::unix::fs::symlink`; nothing may be at the place, and no link is empty.  A target
    that is too long, or a slash at the end of the path, is a fault. -/
def symlinkCall (context : String) : Except PrimitiveError Tree :=
  match faults.fault .symlink with
  | some e => .error (.io context e)
  | none =>
    if spec.target = "" then .error (.io context "No such file or directory (os error 2)")
    else
      match hplace : spec.place with
      | [] => .error (.io context "File exists (os error 17)")
      | name :: parent =>
        if hfree : t.node (name :: parent) = none then
          if hdir : t.node parent = some .dir then
            .ok (t.insert name parent (.link spec.target)
              (isName_of_mem_placeOf spec.path
                (by rw [← FileSymlinkSpec.place, hplace]; exact List.mem_cons_self)) hdir hfree)
          else .error (.io context "Not a directory (os error 20)")
        else .error (.io context "File exists (os error 17)")

/-- `std::fs::remove_file`, on what is no directory -/
def removeFile : Except IoError Tree :=
  match faults.fault .removeFile with
  | some e => .error (.other e)
  | none =>
    match t.node spec.place with
    | none => .error .notFound
    | some .dir => .error (.other "Is a directory (os error 21)")
    | some _ =>
      if hroot : ([] : List String) = spec.place then .error (.other "Is a directory (os error 21)")
      else .ok (t.prune (· = spec.place) (by simpa using hroot))

/-- `std::fs::remove_dir_all`; the root stays. -/
def removeDirAll (context : String) : Except PrimitiveError Unit × Tree :=
  let rest := t.prune (goneBelow spec.place faults.survives) (goneBelow_root _ _)
  match faults.fault .removeDirAll with
  | some e => (.error (.io context e), rest)
  | none =>
    if hroot : ([] : List String) = spec.place then
      (.error (.io context "Device or resource busy (os error 16)"), rest)
    else (.ok (), t.prune (· = spec.place) (by simpa using hroot))

/-- `ensure_parent_dir` -/
def ensureParentDir : Except PrimitiveError Unit × Tree :=
  match hplace : spec.place with
  | [] => (.ok (), t)
  | name :: parent =>
    if (t.node parent).isSome && (faults.fault .exists).isNone then (.ok (), t)
    else
      let context := "create_dir_all " ++ render parent
      have hnames : ∀ n ∈ parent, IsName n := fun n hn =>
        isName_of_mem_placeOf spec.path
          (by rw [← FileSymlinkSpec.place, hplace]; exact List.mem_cons_of_mem _ hn)
      match faults.fault .createDirAll with
      | some e =>
        (.error (.io context e),
          (t.mkdirs (parent.drop (faults.unmade + 1))
            fun n hn => hnames n (List.mem_of_mem_drop hn)).getD t)
      | none =>
        match t.mkdirs parent hnames with
        | none => (.error (.io context "Not a directory (os error 20)"), t)
        | some t => (.ok (), t)

/-! ## Plan -/

inductive SymlinkAction
  | noChange
  | create
  | update
  | delete
deriving DecidableEq, Repr

def decideActionSymlink : Except PrimitiveError SymlinkAction :=
  match lstat faults spec t .symlinkMetadata with
  | .error .notFound =>
    match spec.state with
    | .present => .ok .create
    | .absent => .ok .noChange
  | .error e => .error (.io ("symlink_metadata " ++ spec.path) e.display)
  | .ok node =>
    match spec.state, node with
    | .absent, .link _ => .ok .delete
    | .absent, _ => .error (.apply ("file.symlink: path " ++ spec.path ++
        " exists but is not a symlink; refusing to delete"))
    | .present, .link current =>
      match faults.fault .readLink with
      | some e => .error (.io ("read_link " ++ spec.path) e)
      | none => if components current = components spec.target then .ok .noChange else .ok .update
    | .present, _ =>
      if spec.force then .ok .update
      else .error (.apply ("file.symlink: path " ++ spec.path ++
        " exists but is not a symlink; use force=true to replace"))

/-! ## Apply -/

def createSymlink : Except PrimitiveError ChangeReport × Tree :=
  match ensureParentDir faults spec t with
  | (.error e, t) => (.error e, t)
  | (.ok (), t) =>
    match symlinkCall faults spec t ("symlink " ++ spec.path ++ " -> " ++ spec.target) with
    | .error e => (.error e, t)
    | .ok t => (.ok (.ofChanged ("created symlink " ++ spec.path ++ " -> " ++ spec.target)), t)

/-- The end of `replace_symlink`. -/
def relink : Except PrimitiveError ChangeReport × Tree :=
  match symlinkCall faults spec t
      ("symlink " ++ spec.path ++ " -> " ++ spec.target ++ " after remove") with
  | .error e => (.error e, t)
  | .ok t => (.ok (.ofChanged ("updated symlink " ++ spec.path ++ " -> " ++ spec.target)), t)

def replaceSymlink : Except PrimitiveError ChangeReport × Tree :=
  match lstat faults spec t .symlinkMetadataForUpdate with
  | .error e => (.error (.io ("symlink_metadata " ++ spec.path ++ " for update") e.display), t)
  | .ok .dir =>
    if !spec.force then
      (.error (.apply ("file.symlink: path " ++ spec.path ++
        " is a directory; use force=true to replace")), t)
    else
      match removeDirAll faults spec t
          ("remove_dir_all " ++ spec.path ++ " for symlink replace") with
      | (.error e, t) => (.error e, t)
      | (.ok (), t) => relink faults spec t
  | .ok _ =>
    match removeFile faults spec t with
    | .error e =>
      (.error (.io ("remove_file " ++ spec.path ++ " for symlink replace") e.display), t)
    | .ok t => relink faults spec t

def deleteSymlink : Except PrimitiveError ChangeReport × Tree :=
  match removeFile faults spec t with
  | .ok t => (.ok (.ofChanged ("deleted symlink " ++ spec.path)), t)
  | .error .notFound => (.ok .noChange, t)
  | .error e => (.error (.io ("remove_file " ++ spec.path ++ " (symlink)") e.display), t)

/-- `apply`; the payload decodes to the spec, and of the diff it asks only whether it is
`NoChange`. -/
def applySymlink (diffIsNoChange : Bool) : Except PrimitiveError ChangeReport × Tree :=
  if diffIsNoChange then (.ok .noChange, t)
  else
    match spec.validate with
    | .error e => (.error e, t)
    | .ok () =>
      match decideActionSymlink faults spec t with
      | .error e => (.error e, t)
      | .ok .noChange => (.ok .noChange, t)
      | .ok .create => createSymlink faults spec t
      | .ok .update => replaceSymlink faults spec t
      | .ok .delete => deleteSymlink faults spec t

/-- `plan`, without the texts of the diff. -/
def planSymlink : Except PrimitiveError SymlinkAction :=
  match spec.validate with
  | .error e => .error e
  | .ok () => decideActionSymlink faults spec t

/-! ## What the calls leave -/

variable {faults spec t} {t' : Tree}

theorem symlinkCall_ok {context : String} (h : symlinkCall faults spec t context = .ok t') :
    t.node spec.place = none ∧ t'.node spec.place = some (.link spec.target) ∧
      ∀ p, p ≠ spec.place → t'.node p = t.node p := by
  unfold symlinkCall at h
  split at h
  · cases h
  · split at h
    · cases h
    · split at h
      · cases h
      · rename_i name parent hplace
        split at h
        · split at h
          · cases h
            refine ⟨by rwa [hplace], ?_, fun p hp => ?_⟩
            · exact (congrArg _ hplace).trans Tree.node_insert_self
            · exact Tree.node_insert_of_ne (hplace ▸ hp)
          · cases h
        · cases h

/-- The link is made where nothing is, in a directory. -/
theorem exists_symlinkCall (context : String) (hfault : faults.fault .symlink = none)
    (htarget : spec.target ≠ "") (hplace : spec.place ≠ [])
    (hfree : t.node spec.place = none) (hdir : t.node spec.place.tail = some .dir) :
    ∃ t', symlinkCall faults spec t context = .ok t' := by
  unfold symlinkCall
  rw [hfault]
  simp only [if_neg htarget]
  split
  · exact absurd ‹_› hplace
  · rename_i name parent heq
    rw [heq] at hfree hdir
    have hparent : t.node parent = some .dir := hdir
    rw [dif_pos hfree, dif_pos hparent]
    exact ⟨_, rfl⟩

theorem symlinkCall_fails (context : String)
    (h : faults.fault .symlink ≠ none ∨ spec.target = "") :
    ∃ e, symlinkCall faults spec t context = .error e := by
  unfold symlinkCall
  split
  · exact ⟨_, rfl⟩
  · rename_i hnone
    rw [if_pos (h.resolve_left fun hne => hne hnone)]
    exact ⟨_, rfl⟩

/-- What is at the place is gone with everything below, and nothing else is. -/
def Gone (place : List String) (t t' : Tree) : Prop :=
  (∀ p, place <:+ p → t'.node p = none) ∧ ∀ p, ¬ place <:+ p → t'.node p = t.node p

theorem gone_prune {place : List String} (t : Tree) (hroot) :
    Gone place t (t.prune (· = place) hroot) := by
  constructor
  · exact fun p hp => Tree.node_prune_of_gone hp (by simp)
  · intro p hp
    refine Tree.node_prune_of_stays fun above habove => ?_
    rw [decide_eq_false_iff_not]
    rintro rfl
    exact hp habove

theorem removeFile_ok (h : removeFile faults spec t = .ok t') :
    t.node spec.place ≠ some .dir ∧ faults.fault .removeFile = none ∧ spec.place ≠ [] ∧
      Gone spec.place t t' := by
  unfold removeFile at h
  split at h
  · cases h
  · split at h
    · cases h
    · cases h
    · split at h
      · cases h
      · rename_i node hdir hnode hroot
        cases h
        refine ⟨?_, ‹_›, fun heq => hroot heq.symm, gone_prune t _⟩
        rw [hnode]
        simpa using hdir

theorem removeFile_of_node {node : Node} (hnode : t.node spec.place = some node)
    (hdir : node ≠ .dir) (hfault : faults.fault .removeFile = none) :
    ∃ t', removeFile faults spec t = .ok t' := by
  have hroot : ¬ [] = spec.place := by
    intro hroot
    rw [← hroot, t.root_dir] at hnode
    exact hdir (Option.some.inj hnode).symm
  unfold removeFile
  rw [hfault, hnode]
  cases node with
  | dir => exact absurd rfl hdir
  | file content => exact ⟨_, dif_neg hroot⟩
  | link target => exact ⟨_, dif_neg hroot⟩

theorem removeDirAll_ok {context : String}
    (h : removeDirAll faults spec t context = (.ok (), t')) :
    spec.place ≠ [] ∧ Gone spec.place t t' := by
  unfold removeDirAll at h
  split at h
  · cases h
  · split at h
    · cases h
    · rename_i hroot
      cases h
      exact ⟨fun heq => hroot heq.symm, gone_prune t _⟩

/-- A `remove_dir_all` that fails: not all of what was below need be there. -/
def RemoveDirFails (faults : SymlinkFaults) (spec : FileSymlinkSpec) : Prop :=
  faults.fault .removeDirAll ≠ none ∨ spec.place = []

theorem removeDirAll_fails (context : String) (h : RemoveDirFails faults spec) :
    ∃ e, removeDirAll faults spec t context = (.error e,
      t.prune (goneBelow spec.place faults.survives) (goneBelow_root _ _)) := by
  unfold removeDirAll
  split
  · exact ⟨_, rfl⟩
  · rename_i hnone
    rw [dif_pos (h.resolve_left fun hne => hne hnone).symm]
    exact ⟨_, rfl⟩

theorem removeDirAll_succeeds (context : String) (h : ¬ RemoveDirFails faults spec) :
    ∃ t', removeDirAll faults spec t context = (.ok (), t') := by
  obtain ⟨hfault, hroot⟩ := not_or.mp h
  unfold removeDirAll
  rw [not_not.mp hfault]
  exact ⟨_, dif_neg fun heq => hroot heq.symm⟩

/-- Directories are made above the place; nothing that was there changes. -/
theorem ensureParentDir_leaves {result : Except PrimitiveError Unit}
    (h : ensureParentDir faults spec t = (result, t')) :
    (∀ p node, t.node p = some node → t'.node p = some node) ∧
      t'.node spec.place = t.node spec.place := by
  have hmkdirs : ∀ {above : List String} {hnames : ∀ n ∈ above, IsName n} {t' : Tree},
      spec.place ≠ [] → above <:+ spec.place.tail → t.mkdirs above hnames = some t' →
      (∀ p node, t.node p = some node → t'.node p = some node) ∧
        t'.node spec.place = t.node spec.place := by
    intro above hnames t' hplace habove hmade
    obtain ⟨-, hother, hkeep⟩ := Tree.mkdirs_spec hmade
    refine ⟨hkeep, hother _ fun hsuffix => ?_⟩
    have hlength := (hsuffix.trans habove).length_le
    have := List.length_pos_iff.mpr hplace
    rw [List.length_tail] at hlength
    omega
  have hsame : ∀ t' : Tree, t' = t → (∀ p node, t.node p = some node → t'.node p = some node) ∧
      t'.node spec.place = t.node spec.place := by
    rintro t' rfl
    exact ⟨fun _ _ hp => hp, rfl⟩
  unfold ensureParentDir at h
  split at h
  · exact hsame t' (Prod.mk.inj h).2.symm
  · rename_i name parent hplace
    have hne : spec.place ≠ [] := by simp [hplace]
    have htail : spec.place.tail = parent := by simp [hplace]
    split at h
    · exact hsame t' (Prod.mk.inj h).2.symm
    · dsimp only at h
      split at h
      · obtain ⟨-, rfl⟩ := Prod.mk.inj h
        cases hmade : t.mkdirs (parent.drop (faults.unmade + 1)) _ with
        | none => exact hsame _ rfl
        | some t₁ => exact hmkdirs hne (htail ▸ List.drop_suffix _ _) hmade
      · split at h
        · exact hsame t' (Prod.mk.inj h).2.symm
        · rename_i t₁ hmade
          obtain ⟨-, rfl⟩ := Prod.mk.inj h
          exact hmkdirs hne (htail ▸ List.suffix_refl _) hmade

/-! ## Plans -/

theorem lstat_ok {op : SymlinkOp} {node : Node} (h : lstat faults spec t op = .ok node) :
    t.node spec.place = some node := by
  unfold lstat at h
  split at h
  · cases h
  · split at h
    · cases h
      assumption
    · split at h <;> cases h

theorem lstat_notFound {op : SymlinkOp} (h : lstat faults spec t op = .error .notFound) :
    t.node spec.place = none ∧ hasFileAbove t spec.place = false := by
  unfold lstat at h
  split at h
  · cases h
  · split at h
    · cases h
    · split at h
      · cases h
      · exact ⟨‹_›, by simp_all⟩

theorem lstat_calm_of_node {op : SymlinkOp} {node : Node} (h : t.node spec.place = some node) :
    lstat .calm spec t op = .ok node := by
  simp [lstat, SymlinkFaults.calm, h]

theorem lstat_calm_of_none {op : SymlinkOp} (h : t.node spec.place = none)
    (habove : hasFileAbove t spec.place = false) : lstat .calm spec t op = .error .notFound := by
  simp [lstat, SymlinkFaults.calm, h, habove]

/-- What each action is decided for. -/
theorem decideActionSymlink_ok {action : SymlinkAction}
    (h : decideActionSymlink faults spec t = .ok action) :
    match action with
    | .noChange => decideActionSymlink .calm spec t = .ok .noChange
    | .create => spec.state = .present ∧ t.node spec.place = none
    | .update => spec.state = .present ∧ ∃ node, t.node spec.place = some node ∧
        ((∃ target, node = .link target) ∨ spec.force = true)
    | .delete => spec.state = .absent ∧ ∃ target, t.node spec.place = some (.link target) := by
  unfold decideActionSymlink at h
  split at h
  · rename_i hlstat
    obtain ⟨hnone, habove⟩ := lstat_notFound hlstat
    split at h <;> cases h
    · exact ⟨‹_›, hnone⟩
    · simp only [decideActionSymlink, lstat_calm_of_none hnone habove, ‹spec.state = .absent›]
  · cases h
  · rename_i node hlstat
    have hnode := lstat_ok hlstat
    split at h
    · cases h
      exact ⟨‹_›, _, hnode⟩
    · cases h
    · rename_i current
      split at h
      · cases h
      · split at h <;> cases h
        · simp only [decideActionSymlink, lstat_calm_of_node hnode, ‹spec.state = .present›]
          simp [SymlinkFaults.calm, *]
        · exact ⟨‹_›, _, hnode, .inl ⟨_, rfl⟩⟩
    · split at h <;> cases h
      exact ⟨‹_›, _, hnode, .inr ‹_›⟩

/-- The link that was asked for is nothing to change. -/
theorem planSymlink_of_link (hvalid : spec.validate = .ok ()) (hstate : spec.state = .present)
    (hnode : t.node spec.place = some (.link spec.target)) :
    planSymlink .calm spec t = .ok .noChange := by
  simp only [planSymlink, hvalid, decideActionSymlink, lstat_calm_of_node hnode, hstate]
  simp [SymlinkFaults.calm]

theorem planSymlink_of_none (hvalid : spec.validate = .ok ()) (hstate : spec.state = .absent)
    (hnode : t.node spec.place = none) (habove : hasFileAbove t spec.place = false) :
    planSymlink .calm spec t = .ok .noChange := by
  simp only [planSymlink, hvalid, decideActionSymlink, lstat_calm_of_none hnode habove, hstate]

/-- Above what is there are directories only, also when it is gone. -/
theorem hasFileAbove_of_gone {node : Node} (hnode : t.node spec.place = some node)
    (hroot : spec.place ≠ []) (hgone : Gone spec.place t t') :
    hasFileAbove t' spec.place = false := by
  rw [hasFileAbove, List.any_eq_false]
  intro above habove
  rw [List.mem_tails] at habove
  obtain ⟨name, parent, hplace⟩ := List.exists_cons_of_ne_nil hroot
  have hlength : above.length < spec.place.length := by
    have := habove.length_le
    rw [hplace] at this ⊢
    exact Nat.lt_succ_of_le this
  obtain ⟨names, hnames⟩ := habove.trans (List.tail_suffix spec.place)
  have hne : names ≠ [] := by
    rintro rfl
    rw [← hnames] at hlength
    exact absurd hlength (by simp)
  have hdir : t.node above = some .dir := Tree.dir_of_suffix hne (by rw [hnames, hnode]; rfl)
  rw [hgone.2 above fun hsuffix => absurd hsuffix.length_le (by omega), hdir]
  simp

/-! ## What the actions leave -/

/-- The link can be made where something has been. -/
def LinkIsMade (faults : SymlinkFaults) (spec : FileSymlinkSpec) : Prop :=
  faults.fault .symlink = none ∧ spec.target ≠ ""

instance (faults : SymlinkFaults) (spec : FileSymlinkSpec) : Decidable (LinkIsMade faults spec) :=
  inferInstanceAs (Decidable (_ ∧ _))

theorem createSymlink_leaves (hfree : t.node spec.place = none)
    {result : Except PrimitiveError ChangeReport}
    (h : createSymlink faults spec t = (result, t')) :
    (∀ p node, t.node p = some node → t'.node p = some node) ∧
      match result with
      | .ok _ => t'.node spec.place = some (.link spec.target)
      | .error _ => t'.node spec.place = none := by
  unfold createSymlink at h
  split at h
  · rename_i e t₁ hensure
    obtain ⟨rfl, rfl⟩ := Prod.mk.inj h
    obtain ⟨hkeep, hplace⟩ := ensureParentDir_leaves hensure
    exact ⟨hkeep, hplace.trans hfree⟩
  · rename_i t₁ hensure
    obtain ⟨hkeep, hplace⟩ := ensureParentDir_leaves hensure
    split at h
    · obtain ⟨rfl, rfl⟩ := Prod.mk.inj h
      exact ⟨hkeep, hplace.trans hfree⟩
    · rename_i t₂ hcall
      obtain ⟨rfl, rfl⟩ := Prod.mk.inj h
      obtain ⟨-, hlink, hother⟩ := symlinkCall_ok hcall
      refine ⟨fun p node hp => ?_, hlink⟩
      have hne : p ≠ spec.place := by
        rintro rfl
        rw [hfree] at hp
        cases hp
      rw [hother p hne]
      exact hkeep p node hp

/-- After the removal: the link is there, or nothing is. -/
theorem relink_leaves {node : Node} (hnode : t.node spec.place = some node)
    (hroot : spec.place ≠ []) {t₁ : Tree} (hgone : Gone spec.place t t₁) :
    if LinkIsMade faults spec then
      ∃ r t', relink faults spec t₁ = (.ok r, t') ∧
        t'.node spec.place = some (.link spec.target) ∧
        ∀ p, ¬ spec.place <:+ p → t'.node p = t.node p
    else ∃ e, relink faults spec t₁ = (.error e, t₁) := by
  unfold relink
  split
  · rename_i hmade
    have hdir : t₁.node spec.place.tail = some .dir := by
      obtain ⟨name, parent, hplace⟩ := List.exists_cons_of_ne_nil hroot
      rw [hgone.2 _ fun hsuffix => ?_]
      · rw [hplace]
        exact t.parent_dir name parent (by rw [← hplace, hnode]; rfl)
      · have := hsuffix.length_le
        rw [hplace] at this
        exact absurd this (by simp)
    obtain ⟨t', hcall⟩ := exists_symlinkCall
      ("symlink " ++ spec.path ++ " -> " ++ spec.target ++ " after remove") hmade.1 hmade.2 hroot
      (hgone.1 _ (List.suffix_refl _)) hdir
    obtain ⟨-, hlink, hother⟩ := symlinkCall_ok hcall
    rw [hcall]
    refine ⟨_, t', rfl, hlink, fun p hp => ?_⟩
    rw [hother p fun heq => hp (heq ▸ List.suffix_refl _)]
    exact hgone.2 p hp
  · rename_i hnot
    obtain ⟨e, hcall⟩ := symlinkCall_fails (t := t₁)
      ("symlink " ++ spec.path ++ " -> " ++ spec.target ++ " after remove")
      (by simpa only [LinkIsMade, not_and_or, not_not, ne_eq] using hnot)
    rw [hcall]
    exact ⟨e, rfl⟩

/-- Nothing at or below the place has changed. -/
def SameAt (place : List String) (t t' : Tree) : Prop :=
  ∀ p, place <:+ p → t'.node p = t.node p

/-- The removal before the link succeeds. -/
def IsRemoved (faults : SymlinkFaults) (spec : FileSymlinkSpec) (t : Tree) : Prop :=
  match t.node spec.place with
  | some .dir => ¬ RemoveDirFails faults spec
  | _ => faults.fault .removeFile = none

/-- How a replacement ends. -/
inductive Replacement (faults : SymlinkFaults) (spec : FileSymlinkSpec) (t : Tree) :
    Except PrimitiveError ChangeReport × Tree → Prop
  | untouched (e : PrimitiveError) : Replacement faults spec t (.error e, t)
  | halfRemoved (e : PrimitiveError) (hnode : t.node spec.place = some .dir)
      (hforce : spec.force = true) (hfails : RemoveDirFails faults spec) :
      Replacement faults spec t (.error e,
        t.prune (goneBelow spec.place faults.survives) (goneBelow_root _ _))
  | lost (e : PrimitiveError) (t' : Tree) (hremoved : IsRemoved faults spec t)
      (hgone : Gone spec.place t t') (hlink : ¬ LinkIsMade faults spec) :
      Replacement faults spec t (.error e, t')
  | replaced (r : ChangeReport) (t' : Tree) (hnode : t'.node spec.place = some (.link spec.target))
      (hother : ∀ p, ¬ spec.place <:+ p → t'.node p = t.node p) :
      Replacement faults spec t (.ok r, t')

theorem replaceSymlink_cases {node : Node} (hnode : t.node spec.place = some node) :
    Replacement faults spec t (replaceSymlink faults spec t) := by
  have hrelink : ∀ t₁, IsRemoved faults spec t → spec.place ≠ [] → Gone spec.place t t₁ →
      Replacement faults spec t (relink faults spec t₁) := by
    intro t₁ hremoved hroot hgone
    have h : if LinkIsMade faults spec then _ else _ := relink_leaves hnode hroot hgone
    split at h
    · obtain ⟨r, t', hrun, hlink, hother⟩ := h
      rw [hrun]
      exact .replaced r t' hlink hother
    · obtain ⟨e, hrun⟩ := h
      rw [hrun]
      exact .lost e t₁ hremoved hgone ‹_›
  unfold replaceSymlink
  split
  · exact .untouched _
  · rename_i hlstat
    have hdir := lstat_ok hlstat
    split
    · exact .untouched _
    · rename_i hforce
      by_cases hfails : RemoveDirFails faults spec
      · obtain ⟨e, hrun⟩ := removeDirAll_fails (t := t)
          ("remove_dir_all " ++ spec.path ++ " for symlink replace") hfails
        rw [hrun]
        exact .halfRemoved e hdir (by simpa using hforce) hfails
      · obtain ⟨t₁, hrun⟩ := removeDirAll_succeeds (t := t)
          ("remove_dir_all " ++ spec.path ++ " for symlink replace") hfails
        rw [hrun]
        exact hrelink t₁ (by rwa [IsRemoved, hdir]) (removeDirAll_ok hrun).1
          (removeDirAll_ok hrun).2
  · split
    · exact .untouched _
    · rename_i t₁ hrun
      obtain ⟨hdir, hfault, hroot, hgone⟩ := removeFile_ok hrun
      refine hrelink t₁ ?_ hroot hgone
      unfold IsRemoved
      split
      · exact absurd ‹_› hdir
      · exact hfault

/-- Removed, and no link made. -/
theorem replaceSymlink_lost {node : Node} (hnode : t.node spec.place = some node)
    (hforce : (∃ target, node = .link target) ∨ spec.force = true)
    (hfault : faults.fault .symlinkMetadataForUpdate = none) (hremoved : IsRemoved faults spec t)
    (hlink : ¬ LinkIsMade faults spec) :
    ∃ e t', replaceSymlink faults spec t = (.error e, t') ∧ Gone spec.place t t' := by
  have hlstat : lstat faults spec t .symlinkMetadataForUpdate = .ok node := by
    simp [lstat, hfault, hnode]
  have hrelink : ∀ t₁, spec.place ≠ [] → Gone spec.place t t₁ →
      ∃ e t', relink faults spec t₁ = (.error e, t') ∧ Gone spec.place t t' := by
    intro t₁ hroot hgone
    have h : if LinkIsMade faults spec then _ else _ := relink_leaves hnode hroot hgone
    rw [if_neg hlink] at h
    obtain ⟨e, hrun⟩ := h
    exact ⟨e, t₁, hrun, hgone⟩
  unfold replaceSymlink
  rw [hlstat]
  unfold IsRemoved at hremoved
  by_cases hdir : node = .dir
  · subst hdir
    rw [hnode] at hremoved
    have hforced : spec.force = true := hforce.resolve_left (by rintro ⟨target, ⟨⟩⟩)
    obtain ⟨t₁, hrun⟩ := removeDirAll_succeeds (t := t)
      ("remove_dir_all " ++ spec.path ++ " for symlink replace") hremoved
    simp only [hforced, Bool.not_true, Bool.false_eq_true, if_false, hrun]
    exact hrelink t₁ (removeDirAll_ok hrun).1 (removeDirAll_ok hrun).2
  · have hremovable : faults.fault .removeFile = none := by
      rw [hnode] at hremoved
      cases node with
      | dir => exact absurd rfl hdir
      | file content => exact hremoved
      | link target => exact hremoved
    obtain ⟨t₁, hrun⟩ := removeFile_of_node hnode hdir hremovable
    obtain ⟨-, -, hroot, hgone⟩ := removeFile_ok hrun
    have hend := hrelink t₁ hroot hgone
    cases node with
    | dir => exact absurd rfl hdir
    | file content => simpa only [hrun] using hend
    | link target => simpa only [hrun] using hend

/-- Removed in part. -/
theorem replaceSymlink_halfRemoved (hnode : t.node spec.place = some .dir)
    (hforce : spec.force = true) (hfault : faults.fault .symlinkMetadataForUpdate = none)
    (hfails : RemoveDirFails faults spec) :
    ∃ e, replaceSymlink faults spec t = (.error e,
      t.prune (goneBelow spec.place faults.survives) (goneBelow_root _ _)) := by
  have hlstat : lstat faults spec t .symlinkMetadataForUpdate = .ok .dir := by
    simp [lstat, hfault, hnode]
  obtain ⟨e, hrun⟩ := removeDirAll_fails (t := t)
    ("remove_dir_all " ++ spec.path ++ " for symlink replace") hfails
  refine ⟨e, ?_⟩
  simp only [replaceSymlink, hlstat, hforce, Bool.not_true, Bool.false_eq_true, if_false, hrun]

theorem deleteSymlink_cases (faults : SymlinkFaults) {target : String}
    (hnode : t.node spec.place = some (.link target)) :
    (∃ e, deleteSymlink faults spec t = (.error e, t)) ∨
      spec.place ≠ [] ∧ ∃ r t', deleteSymlink faults spec t = (.ok r, t') ∧
        Gone spec.place t t' := by
  unfold deleteSymlink
  split
  · rename_i t₁ hrun
    obtain ⟨-, -, hroot, hgone⟩ := removeFile_ok hrun
    exact .inr ⟨hroot, _, t₁, rfl, hgone⟩
  · rename_i hrun
    have hnot : removeFile faults spec t ≠ .error .notFound := by
      unfold removeFile
      split
      · simp
      · simp only [hnode]
        split <;> simp
    exact absurd hrun hnot
  · exact .inl ⟨_, rfl⟩

/-! ## What `file.symlink` is to do -/

/-- An apply that fails has changed nothing at the path, one that succeeds leaves nothing to
do, and nothing but a link is removed unless it was asked for.  The diff is what the plan has
said about this tree. -/
structure SymlinkSafe (faults : SymlinkFaults) (spec : FileSymlinkSpec) (t : Tree) : Prop where
  atomic : ∀ diffIsNoChange e t', applySymlink faults spec t diffIsNoChange = (.error e, t') →
    SameAt spec.place t t'
  converges : ∀ diffIsNoChange r t',
    (diffIsNoChange = true → planSymlink .calm spec t = .ok .noChange) →
    applySymlink faults spec t diffIsNoChange = (.ok r, t') →
    planSymlink .calm spec t' = .ok .noChange
  removes : ∀ diffIsNoChange p node, t.node p = some node →
    (applySymlink faults spec t diffIsNoChange).2.node p = some node ∨
      spec.place <:+ p ∧ ((spec.force = true ∧ spec.state = .present) ∨
        (p = spec.place ∧ ∃ target, node = .link target))

/-- Something is at the path that is not what it should be, and may be replaced. -/
def Replaces (faults : SymlinkFaults) (spec : FileSymlinkSpec) (t : Tree) : Prop :=
  spec.validate = .ok () ∧ decideActionSymlink faults spec t = .ok .update ∧
    faults.fault .symlinkMetadataForUpdate = none

/-- Once what was there is removed the link can be made, and a `remove_dir_all` that fails has
removed nothing. -/
def ReplacesSafely (faults : SymlinkFaults) (spec : FileSymlinkSpec) (t : Tree) : Prop :=
  (IsRemoved faults spec t → LinkIsMade faults spec) ∧
    (t.node spec.place = some .dir → RemoveDirFails faults spec →
      ∀ p node, t.node p = some node → spec.place <:+ p → p ≠ spec.place →
        faults.survives p = true)

theorem sameAt_of_none (h : t.node spec.place = none) (h' : t'.node spec.place = none) :
    SameAt spec.place t t' := by
  rintro p ⟨names, rfl⟩
  rw [t.node_append_of_none h, t'.node_append_of_none h']

/-- Nothing has been removed. -/
theorem sameAt_prune
    (h : ∀ p node, t.node p = some node → spec.place <:+ p → p ≠ spec.place →
      faults.survives p = true) :
    SameAt spec.place t (t.prune (goneBelow spec.place faults.survives) (goneBelow_root _ _)) := by
  intro p hp
  cases hnode : t.node p with
  | none =>
    cases hpruned :
        (t.prune (goneBelow spec.place faults.survives) (goneBelow_root _ _)).node p with
    | none => rfl
    | some node =>
      rw [Tree.node_prune_eq_some hpruned] at hnode
      cases hnode
  | some node =>
    rw [Tree.node_prune_of_stays, hnode]
    intro above habove
    have hthere : ∃ n, t.node above = some n := by
      obtain ⟨names, rfl⟩ := habove
      by_cases hnames : names = []
      · exact ⟨node, by simpa [hnames] using hnode⟩
      · exact ⟨.dir, Tree.dir_of_suffix hnames (by rw [hnode]; rfl)⟩
    obtain ⟨n, hn⟩ := hthere
    rw [goneBelow, Bool.and_assoc, Bool.and_eq_false_imp]
    intro hunder
    rw [Bool.and_eq_false_imp]
    intro hne
    rw [h above n hn (by simpa using hunder) (by simpa using hne)]
    rfl

theorem atomic_of_replacesSafely (h : Replaces faults spec t → ReplacesSafely faults spec t)
    {diffIsNoChange : Bool} {e : PrimitiveError}
    (hrun : applySymlink faults spec t diffIsNoChange = (.error e, t')) :
    SameAt spec.place t t' := by
  unfold applySymlink at hrun
  split at hrun
  · cases hrun
  split at hrun
  · cases hrun
    exact fun _ _ => rfl
  rename_i hvalid
  split at hrun
  · cases hrun
    exact fun _ _ => rfl
  · cases hrun
  · rename_i hdecide
    have hfree := (decideActionSymlink_ok hdecide).2
    exact sameAt_of_none hfree (createSymlink_leaves hfree hrun).2
  · rename_i hdecide
    obtain ⟨-, node, hnode, hforce⟩ := decideActionSymlink_ok hdecide
    by_cases hfault : faults.fault .symlinkMetadataForUpdate = none
    · obtain ⟨hlink, hsurvives⟩ := h ⟨hvalid, hdecide, hfault⟩
      have hcases : Replacement faults spec t _ := replaceSymlink_cases hnode
      rw [hrun] at hcases
      cases hcases with
      | untouched => exact fun _ _ => rfl
      | halfRemoved _ hdir _ hfails => exact sameAt_prune (hsurvives hdir hfails)
      | lost _ _ hremoved _ hnot => exact absurd (hlink hremoved) hnot
    · have hlstat : ∃ e, lstat faults spec t .symlinkMetadataForUpdate = .error e := by
        unfold lstat
        split
        · exact ⟨_, rfl⟩
        · exact absurd ‹_› hfault
      obtain ⟨e', hlstat⟩ := hlstat
      rw [replaceSymlink, hlstat] at hrun
      cases hrun
      exact fun _ _ => rfl
  · rename_i hdecide
    obtain ⟨-, target, hnode⟩ := decideActionSymlink_ok hdecide
    rcases deleteSymlink_cases faults hnode with ⟨e', hend⟩ | ⟨-, r, t₁, hend, -⟩
    · rw [hrun] at hend
      cases hend
      exact fun _ _ => rfl
    · rw [hrun] at hend
      cases hend

/-- **Whatever fails, an apply that succeeds leaves nothing to do.** -/
theorem applySymlink_converges {diffIsNoChange : Bool} {r : ChangeReport}
    (hdiff : diffIsNoChange = true → planSymlink .calm spec t = .ok .noChange)
    (hrun : applySymlink faults spec t diffIsNoChange = (.ok r, t')) :
    planSymlink .calm spec t' = .ok .noChange := by
  unfold applySymlink at hrun
  split at hrun
  · cases hrun
    exact hdiff ‹_›
  split at hrun
  · cases hrun
  rename_i hvalid
  split at hrun
  · cases hrun
  · rename_i hdecide
    cases hrun
    simpa only [planSymlink, hvalid] using decideActionSymlink_ok hdecide
  · rename_i hdecide
    obtain ⟨hstate, hfree⟩ := decideActionSymlink_ok hdecide
    exact planSymlink_of_link hvalid hstate (createSymlink_leaves hfree hrun).2
  · rename_i hdecide
    obtain ⟨hstate, node, hnode, -⟩ := decideActionSymlink_ok hdecide
    have hcases : Replacement faults spec t _ := replaceSymlink_cases hnode
    rw [hrun] at hcases
    cases hcases with
    | replaced _ _ hlink _ => exact planSymlink_of_link hvalid hstate hlink
  · rename_i hdecide
    obtain ⟨hstate, target, hnode⟩ := decideActionSymlink_ok hdecide
    rcases deleteSymlink_cases faults hnode with ⟨e', hend⟩ | ⟨hroot, r', t₁, hend, hgone⟩
    · rw [hrun] at hend
      cases hend
    · rw [hrun] at hend
      cases hend
      exact planSymlink_of_none hvalid hstate (hgone.1 _ (List.suffix_refl _))
        (hasFileAbove_of_gone hnode hroot hgone)

/-- Outside the path a replacement leaves everything alone. -/
theorem Replacement.other {outcome : Except PrimitiveError ChangeReport × Tree}
    (h : Replacement faults spec t outcome) {p : List String} (hp : ¬ spec.place <:+ p) :
    outcome.2.node p = t.node p := by
  cases h with
  | untouched => rfl
  | halfRemoved =>
    show (t.prune (goneBelow spec.place faults.survives) (goneBelow_root _ _)).node p = _
    rw [Tree.node_prune_of_stays]
    intro above habove
    rw [goneBelow, Bool.and_assoc, Bool.and_eq_false_imp]
    intro hunder
    exact absurd ((of_decide_eq_true hunder).trans habove) hp
  | lost _ _ _ hgone => exact hgone.2 p hp
  | replaced _ _ _ hother => exact hother p hp

/-- **Whatever fails, only a link is removed, or what stands in its way with `force`.** -/
theorem applySymlink_removes (diffIsNoChange : Bool) {p : List String} {node : Node}
    (hp : t.node p = some node) :
    (applySymlink faults spec t diffIsNoChange).2.node p = some node ∨
      spec.place <:+ p ∧ ((spec.force = true ∧ spec.state = .present) ∨
        (p = spec.place ∧ ∃ target, node = .link target)) := by
  -- below a link there is nothing
  have honly : ∀ {target : String}, t.node spec.place = some (.link target) →
      spec.place <:+ p → p = spec.place ∧ ∃ target, node = .link target := by
    rintro target hlink ⟨names, rfl⟩
    by_cases hnames : names = []
    · subst hnames
      rw [List.nil_append, hlink] at hp
      exact ⟨rfl, target, (Option.some.inj hp).symm⟩
    · have hdir := Tree.dir_of_suffix hnames (by rw [hp]; rfl)
      rw [hlink] at hdir
      cases hdir
  unfold applySymlink
  split
  · exact .inl hp
  split
  · exact .inl hp
  split
  · exact .inl hp
  · exact .inl hp
  · rename_i hdecide
    have hfree := (decideActionSymlink_ok hdecide).2
    exact .inl ((createSymlink_leaves hfree rfl).1 p node hp)
  · rename_i hdecide
    obtain ⟨hstate, node', hnode, hforce⟩ := decideActionSymlink_ok hdecide
    by_cases hunder : spec.place <:+ p
    · refine .inr ⟨hunder, ?_⟩
      rcases hforce with ⟨target, rfl⟩ | hforce
      · exact .inr (honly hnode hunder)
      · exact .inl ⟨hforce, hstate⟩
    · left
      rw [Replacement.other (replaceSymlink_cases hnode) hunder]
      exact hp
  · rename_i hdecide
    obtain ⟨-, target, hnode⟩ := decideActionSymlink_ok hdecide
    rcases deleteSymlink_cases faults hnode with ⟨e, hend⟩ | ⟨-, r, t₁, hend, hgone⟩
    · rw [hend]
      exact .inl hp
    · rw [hend]
      by_cases hunder : spec.place <:+ p
      · exact .inr ⟨hunder, .inr (honly hnode hunder)⟩
      · exact .inl ((hgone.2 p hunder).trans hp)

/-- **A failing apply has changed nothing exactly when a replacement that has removed something
can go on.**  The other two promises hold whatever fails. -/
theorem symlinkSafe_iff (faults : SymlinkFaults) (spec : FileSymlinkSpec) (t : Tree) :
    SymlinkSafe faults spec t ↔ (Replaces faults spec t → ReplacesSafely faults spec t) := by
  constructor
  · rintro hsafe ⟨hvalid, hdecide, hfault⟩
    obtain ⟨-, node, hnode, hforce⟩ := decideActionSymlink_ok hdecide
    have hrun : applySymlink faults spec t false = replaceSymlink faults spec t := by
      simp only [applySymlink, hvalid, hdecide, Bool.false_eq_true, if_false]
    refine ⟨fun hremoved => ?_, fun hdir hfails p node' hp hunder hne => ?_⟩
    · by_contra hlink
      obtain ⟨e, t', hlost, hgone⟩ := replaceSymlink_lost hnode hforce hfault hremoved hlink
      have hsame := hsafe.atomic false e t' (hrun.trans hlost) spec.place (List.suffix_refl _)
      rw [hgone.1 _ (List.suffix_refl _), hnode] at hsame
      cases hsame
    · rw [hnode] at hdir
      obtain rfl := Option.some.inj hdir
      have hforced : spec.force = true := hforce.resolve_left (by rintro ⟨target, ⟨⟩⟩)
      obtain ⟨e, hhalf⟩ := replaceSymlink_halfRemoved hnode hforced hfault hfails
      have hsame := hsafe.atomic false e _ (hrun.trans hhalf) p hunder
      by_contra hgone
      rw [Bool.not_eq_true] at hgone
      have hnone : (t.prune (goneBelow spec.place faults.survives) (goneBelow_root _ _)).node p =
          none :=
        Tree.node_prune_of_gone (List.suffix_refl p) (by simp [goneBelow, hunder, hne, hgone])
      rw [hnone, hp] at hsame
      cases hsame
  · intro h
    exact ⟨fun _ _ _ => atomic_of_replacesSafely h, fun _ _ _ => applySymlink_converges,
      fun d _ _ => applySymlink_removes d⟩

/-! ## A link that is lost -/

/-- `/l` is a link to `/old`. -/
def oneLink : Tree where
  node place :=
    if place = [] then some .dir else if place = ["l"] then some (.link "/old") else none
  root_dir := rfl
  parent_dir name place h := by
    by_cases hplace : name :: place = ["l"]
    · obtain ⟨rfl, rfl⟩ := List.cons.inj hplace
      rfl
    · simp [hplace] at h
  named name place h := by
    by_cases hplace : name :: place = ["l"]
    · obtain ⟨rfl, -⟩ := List.cons.inj hplace
      exact ⟨by decide, by decide, by decide, by decide⟩
    · simp [hplace] at h

/-- An empty target passes validation, but no link can have it: the old one is gone. -/
theorem empty_target_loses_link :
    ¬ SymlinkSafe .calm ⟨"/l", "", .present, false⟩ oneLink := by
  intro h
  have hend : (match applySymlink .calm ⟨"/l", "", .present, false⟩ oneLink false with
      | (.error _, t') => (t'.node ["l"]).isNone
      | (.ok _, _) => false) = true := by decide +kernel
  rcases hrun : applySymlink .calm ⟨"/l", "", .present, false⟩ oneLink false with ⟨e | r, t'⟩
  · have hplace : FileSymlinkSpec.place ⟨"/l", "", .present, false⟩ <:+ ["l"] := by decide +kernel
    have hsame := h.atomic _ _ _ hrun ["l"] hplace
    have hlink : oneLink.node ["l"] = some (.link "/old") := rfl
    rw [hrun] at hend
    rw [hlink] at hsame
    simp [hsame] at hend
  · rw [hrun] at hend
    cases hend

end FileSymlink

end Bosun
