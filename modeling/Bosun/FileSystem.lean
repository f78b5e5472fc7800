import Mathlib.Data.List.AList
import Bosun.Bundle
import Bosun.Library.Hoare

/-!
# Files and the calls that replace them

Three primitives put a file in place in the same way: a temporary file beside the target,
`write_all`, `sync_all`, `chmod`, `chown`, and last a rename onto the target.  The temporary
file has a name nobody else knows, and it is removed when a step fails, so it is a value here
until it is persisted.

A place is a path without symbolic links among its parents, innermost name first.  Any call
may fail; `FileEnv.fault` says which calls do, by what is called and for which target.  No
function of a primitive makes one call twice for one target.
-/

namespace Bosun

open FileTree

/-! ## Files -/

structure RegularFile (B : Type) where
  bytes : B
  mode : Nat
  uid : Nat
  gid : Nat
deriving DecidableEq, Repr

inductive FileNode (B : Type)
  | file (f : RegularFile B)
  | symlink
  | dir
  | special
deriving DecidableEq, Repr

abbrev Nodes (B : Type) := AList fun _ : List String => FileNode B

inductive FileOp
  | exists
  | existsAgain
  | symlinkMetadata
  | read
  | createDirAll
  | tempfile
  | writeAll
  | syncAll
  | setPermissions
  | statUid
  | statGid
  | statChown
  | chown
  | persist
  | rename
  | copy
  | readDir
  | readDirEntry
  | removeFile
deriving DecidableEq, Repr

structure FileEnv where
  fault : FileOp → List String → Option String
  /-- the owner and the group of the files the process makes -/
  euid : Nat
  egid : Nat
  resolveOwner : String → Except PrimitiveError Nat
  resolveGroup : String → Except PrimitiveError Nat
  /-- the path of the temporary file for a target -/
  tempPath : List String → String

/-- No call fails. -/
def FileEnv.calm : FileEnv where
  fault _ _ := none
  euid := 0
  egid := 0
  resolveOwner _ := .ok 0
  resolveGroup _ := .ok 0
  tempPath := render

abbrev FileM (B : Type) := EStateM PrimitiveError (Nodes B)

def PathComponent.name : PathComponent → Option String
  | .normal name => some name
  | _ => none

/-- The place a path names.  A slash at the end of the path is dropped: where the system would
    follow a link because of it, or refuse a file, the call counts as one that fails. -/
def placeOf (path : String) : List String :=
  ((components path).filterMap PathComponent.name).reverse

section Files

variable {B : Type}

/-- What stands at a place.  The root is always there. -/
def nodeAt (nodes : Nodes B) (place : List String) : Option (FileNode B) :=
  if place = [] then some .dir else nodes.lookup place

def isDirectory : Option (FileNode B) → Bool
  | some .dir => true
  | _ => false

namespace FileM

variable {α : Type}

def ofExcept : Except PrimitiveError α → FileM B α
  | .ok a => pure a
  | .error e => throw e

@[simp] theorem bind_apply {β : Type} (x : FileM B α) (f : α → FileM B β) (nodes : Nodes B) :
    (x >>= f) nodes = match x nodes with
      | .ok a nodes' => f a nodes'
      | .error err nodes' => .error err nodes' := by
  show EStateM.bind x f nodes = _
  unfold EStateM.bind
  cases x nodes <;> rfl

@[simp] theorem map_apply {β : Type} (f : α → β) (x : FileM B α) (nodes : Nodes B) :
    (f <$> x) nodes = match x nodes with
      | .ok a nodes' => .ok (f a) nodes'
      | .error err nodes' => .error err nodes' := by
  show EStateM.map f x nodes = _
  unfold EStateM.map
  cases x nodes <;> rfl

@[simp] theorem pure_apply (a : α) (nodes : Nodes B) :
    (pure a : FileM B α) nodes = .ok a nodes := rfl

@[simp] theorem throw_apply (err : PrimitiveError) (nodes : Nodes B) :
    (throw err : FileM B α) nodes = .error err nodes := rfl

@[simp] theorem get_apply (nodes : Nodes B) : (get : FileM B (Nodes B)) nodes = .ok nodes nodes :=
  rfl

@[simp] theorem modify_apply (f : Nodes B → Nodes B) (nodes : Nodes B) :
    (modify f : FileM B Unit) nodes = .ok () (f nodes) := rfl

@[simp] theorem ofExcept_ok (a : α) (nodes : Nodes B) :
    (ofExcept (.ok a) : FileM B α) nodes = .ok a nodes := rfl

@[simp] theorem ofExcept_error (err : PrimitiveError) (nodes : Nodes B) :
    (ofExcept (.error err) : FileM B α) nodes = .error err nodes := rfl

/-- `x` ends with an error and leaves this. -/
def Fails (x : FileM B α) (nodes nodes' : Nodes B) : Prop := ∃ err, x nodes = .error err nodes'

theorem Fails.bind {β : Type} {x : FileM B α} {nodes nodes' : Nodes B} (h : x.Fails nodes nodes')
    (f : α → FileM B β) : Fails (x >>= f) nodes nodes' := by
  obtain ⟨err, herr⟩ := h
  exact ⟨err, by rw [bind_apply, herr]⟩

theorem bind_ok {β : Type} {x : FileM B α} {nodes nodes' : Nodes B} {a : α}
    (h : x nodes = .ok a nodes') (f : α → FileM B β) : (x >>= f) nodes = f a nodes' := by
  rw [bind_apply, h]

theorem Fails.after {β : Type} {x : FileM B α} {f : α → FileM B β} {nodes nodes' nodes'' : Nodes B}
    {a : α} (hx : x nodes = .ok a nodes') (h : (f a).Fails nodes' nodes'') :
    Fails (x >>= f) nodes nodes'' := by
  obtain ⟨err, herr⟩ := h
  exact ⟨err, by rw [bind_ok hx, herr]⟩

/-- What is left when `x` has ended, one way or the other. -/
def leaves (x : FileM B α) (nodes : Nodes B) : Nodes B :=
  match x nodes with
  | .ok _ nodes' => nodes'
  | .error _ nodes' => nodes'

/-- What `x` returns, if it ends without an error. -/
def value? (x : FileM B α) (nodes : Nodes B) : Option α :=
  match x nodes with
  | .ok a _ => some a
  | .error _ _ => none

theorem ok_of_value? {x : FileM B α} {nodes : Nodes B} {a : α} (h : x.value? nodes = some a) :
    x nodes = .ok a (x.leaves nodes) := by
  unfold value? at h
  unfold leaves
  cases hx : x nodes with
  | ok b nodes' =>
    rw [hx] at h
    cases h
    rfl
  | error e nodes' =>
    rw [hx] at h
    cases h

section Leaves

variable {β : Type} {x : FileM B α} {f : α → FileM B β} {nodes nodes' : Nodes B} {a : α}
  {err : PrimitiveError}

theorem leaves_ok (h : x nodes = .ok a nodes') : x.leaves nodes = nodes' := by
  rw [leaves, h]

theorem leaves_error (h : x nodes = .error err nodes') : x.leaves nodes = nodes' := by
  rw [leaves, h]

theorem leaves_bind_ok (h : x nodes = .ok a nodes') :
    leaves (x >>= f) nodes = (f a).leaves nodes' := by
  simp only [leaves, bind, EStateM.bind, h]

theorem leaves_bind_error (h : x nodes = .error err nodes') :
    leaves (x >>= f) nodes = nodes' := by
  simp only [leaves, bind, EStateM.bind, h]

theorem leaves_bind_pure (b : β) : leaves (x >>= fun _ => pure b) nodes = x.leaves nodes := by
  simp only [leaves, bind, EStateM.bind]
  cases x nodes <;> rfl

end Leaves

end FileM

/-- One call. -/
def FileEnv.call (env : FileEnv) (op : FileOp) (target : List String) (context : String) :
    Except PrimitiveError Unit :=
  match env.fault op target with
  | some e => .error (.io context e)
  | none => .ok ()

/-! ## Directories -/

/-- Something on the way down is no directory. -/
def blocked (nodes : Nodes B) : List String → Bool
  | [] => false
  | name :: place => blocked nodes place || match nodes.lookup (name :: place) with
    | none | some .dir => false
    | some _ => true

/-- The directories that are missing on the way down. -/
def mkdirs : List String → Nodes B → Nodes B
  | [], nodes => nodes
  | name :: place, nodes =>
    if ((mkdirs place nodes).lookup (name :: place)).isSome then mkdirs place nodes
    else (mkdirs place nodes).insert (name :: place) .dir

def createDirAll (env : FileEnv) (target place : List String) : FileM B Unit := do
  let context := "create_dir_all " ++ render place
  FileM.ofExcept (env.call .createDirAll target context)
  if blocked (← get) place then throw (.io context "Not a directory")
  modify (mkdirs place)

/-- The directory a target is in; `label` names the primitive in the error. -/
def ensureParent (env : FileEnv) (label : String) (target : List String) : FileM B Unit :=
  match target with
  | [] => throw (.invalidPayload (label ++ "target / has no parent directory"))
  | _ :: parent => do
    if (nodeAt (← get) parent).isNone then createDirAll env target parent

/-! ## The temporary file -/

/-- On Linux `chown` clears the setuid bit of every regular file, and the setgid bit of those that
    their group may execute. -/
def RegularFile.chown (f : RegularFile B) (uid gid : Nat) : RegularFile B :=
  { f with
    uid := uid
    gid := gid
    mode := if f.mode &&& 0o010 = 0 then f.mode &&& 0o3777 else f.mode &&& 0o1777 }

/-- `chown_if_needed` -/
def chownIfNeeded (env : FileEnv) (target : List String) (f : RegularFile B)
    (wantUid wantGid : Nat) : Except PrimitiveError (RegularFile B) := do
  env.call .statChown target ("stat " ++ env.tempPath target ++ " for chown")
  if f.uid = wantUid ∧ f.gid = wantGid then return f
  let ids (uid gid : Nat) : String := "uid=" ++ toString uid ++ " gid=" ++ toString gid
  if env.euid ≠ 0 then throw (.chownNotPermitted (ids wantUid wantGid) (ids f.uid f.gid))
  env.call .chown target ("chown " ++ env.tempPath target ++ " to " ++ ids wantUid wantGid)
  return f.chown wantUid wantGid

/-- What is to stand at `target`.  The owner and the group are resolved when they are needed;
    without one the file keeps what the temporary file has. -/
structure Install (B : Type) where
  target : List String
  body : B
  mode : Nat
  owner : Except PrimitiveError (Option Nat)
  group : Except PrimitiveError (Option Nat)
  /-- what the error about the temporary file says after the directory -/
  note : String

/-- The temporary file before it is persisted. -/
def stageTemp (env : FileEnv) (i : Install B) : Except PrimitiveError (RegularFile B) := do
  let parent := render i.target.tail
  let tmp := env.tempPath i.target
  env.call .tempfile i.target ("tempfile in " ++ parent ++ i.note)
  env.call .writeAll i.target ("write to tempfile in " ++ parent)
  env.call .syncAll i.target ("sync_all on tempfile in " ++ parent)
  env.call .setPermissions i.target ("chmod tempfile " ++ tmp)
  let f : RegularFile B := ⟨i.body, i.mode &&& 0o7777, env.euid, env.egid⟩
  match ← i.owner, ← i.group with
  | none, none => return f
  | some uid, some gid => chownIfNeeded env i.target f uid gid
  | some uid, none =>
    env.call .statGid i.target ("stat " ++ tmp ++ " for gid")
    chownIfNeeded env i.target f uid f.gid
  | none, some gid =>
    env.call .statUid i.target ("stat " ++ tmp ++ " for uid")
    chownIfNeeded env i.target f f.uid gid

/-- A rename onto a place takes the place of whatever is there, but not of a directory. -/
def persist (env : FileEnv) (f : RegularFile B) (target : List String) : FileM B Unit := do
  let context := "persist tempfile to " ++ render target
  FileM.ofExcept (env.call .persist target context)
  if isDirectory (nodeAt (← get) target) then throw (.io context "Is a directory")
  modify (AList.insert target (.file f))

/-- `write_atomic` -/
def installFile (env : FileEnv) (label : String) (i : Install B) : FileM B Unit := do
  ensureParent env label i.target
  let f ← FileM.ofExcept (stageTemp env i)
  persist env f i.target

/-! ## What the calls change -/

@[simp] theorem nodeAt_root (nodes : Nodes B) : nodeAt nodes [] = some .dir := rfl

@[simp] theorem nodeAt_cons (nodes : Nodes B) (name : String) (place : List String) :
    nodeAt nodes (name :: place) = nodes.lookup (name :: place) := rfl

theorem nodeAt_insert_self {place : List String} (hplace : place ≠ []) (node : FileNode B)
    (nodes : Nodes B) : nodeAt (nodes.insert place node) place = some node := by
  rw [nodeAt, if_neg hplace, AList.lookup_insert]

theorem nodeAt_insert_ne {place other : List String} (h : other ≠ place) (node : FileNode B)
    (nodes : Nodes B) : nodeAt (nodes.insert place node) other = nodeAt nodes other := by
  unfold nodeAt
  by_cases hroot : other = []
  · rw [if_pos hroot, if_pos hroot]
  · rw [if_neg hroot, if_neg hroot, AList.lookup_insert_ne h]

/-- Making directories changes nothing that is there. -/
theorem nodeAt_mkdirs_of_some {other : List String} {node : FileNode B} (place : List String) :
    ∀ {nodes : Nodes B}, nodeAt nodes other = some node →
      nodeAt (mkdirs place nodes) other = some node := by
  induction place with
  | nil =>
    intro nodes h
    exact h
  | cons name place ih =>
    intro nodes h
    have hbelow := ih h
    unfold mkdirs
    by_cases hthere : ((mkdirs place nodes).lookup (name :: place)).isSome = true
    · rw [if_pos hthere]
      exact hbelow
    · rw [if_neg hthere]
      by_cases hother : other = name :: place
      · subst hother
        rw [nodeAt_cons] at hbelow
        rw [hbelow] at hthere
        exact absurd rfl hthere
      · rw [nodeAt_insert_ne hother]
        exact hbelow

/-- What is missing is made a directory on the way down, and nowhere else. -/
theorem nodeAt_mkdirs_of_none {other : List String} (place : List String) :
    ∀ {nodes : Nodes B}, nodeAt nodes other = none →
      nodeAt (mkdirs place nodes) other = none ∨
        other <:+ place ∧ nodeAt (mkdirs place nodes) other = some .dir := by
  induction place with
  | nil =>
    intro nodes h
    exact .inl h
  | cons name place ih =>
    intro nodes h
    unfold mkdirs
    by_cases hthere : ((mkdirs place nodes).lookup (name :: place)).isSome = true
    · rw [if_pos hthere]
      rcases ih h with hnone | ⟨hsuffix, hdir⟩
      · exact .inl hnone
      · exact .inr ⟨hsuffix.trans (List.suffix_cons name place), hdir⟩
    · rw [if_neg hthere]
      by_cases hother : other = name :: place
      · subst hother
        exact .inr ⟨List.suffix_refl _, nodeAt_insert_self (List.cons_ne_nil _ _) _ _⟩
      · rw [nodeAt_insert_ne hother]
        rcases ih h with hnone | ⟨hsuffix, hdir⟩
        · exact .inl hnone
        · exact .inr ⟨hsuffix.trans (List.suffix_cons name place), hdir⟩

/-- Directories may have been made above `target`; that is all. -/
def OnlyParents (target : List String) (nodes nodes' : Nodes B) : Prop :=
  nodes' = nodes ∨ nodes' = mkdirs target.tail nodes

namespace OnlyParents

variable {target : List String} {nodes nodes' : Nodes B}

theorem of_some (h : OnlyParents target nodes nodes') {other : List String} {node : FileNode B}
    (hnode : nodeAt nodes other = some node) : nodeAt nodes' other = some node := by
  rcases h with rfl | rfl
  · exact hnode
  · exact nodeAt_mkdirs_of_some _ hnode

theorem of_none (h : OnlyParents target nodes nodes') {other : List String}
    (hnode : nodeAt nodes other = none) :
    nodeAt nodes' other = none ∨ nodeAt nodes' other = some .dir := by
  rcases h with rfl | rfl
  · exact .inl hnode
  · rcases nodeAt_mkdirs_of_none target.tail hnode with hnone | ⟨-, hdir⟩
    · exact .inl hnone
    · exact .inr hdir

/-- What is no less deep than the target is not above it. -/
theorem of_length (h : OnlyParents target nodes nodes') {other : List String}
    (hother : other ≠ []) (hlength : target.length ≤ other.length) :
    nodeAt nodes' other = nodeAt nodes other := by
  cases hnode : nodeAt nodes other with
  | some node => exact h.of_some hnode
  | none =>
    rcases h with rfl | rfl
    · exact hnode
    · rcases nodeAt_mkdirs_of_none target.tail hnode with hnone | ⟨hsuffix, -⟩
      · exact hnone
      · have hshort := hsuffix.length_le
        have hpos := List.length_pos_iff.mpr hother
        rw [List.length_tail] at hshort
        omega

theorem target_eq (h : OnlyParents target nodes nodes') :
    nodeAt nodes' target = nodeAt nodes target := by
  by_cases hroot : target = []
  · subst hroot
    rfl
  · exact h.of_length hroot le_rfl

end OnlyParents

/-! ## How the calls end -/

/-- The file with this owner and group, by a `chown` where it has others. -/
def RegularFile.owned (f : RegularFile B) (uid gid : Nat) : RegularFile B :=
  if f.uid = uid ∧ f.gid = gid then f else f.chown uid gid

theorem chownIfNeeded_ok {env : FileEnv} {target : List String} {f g : RegularFile B}
    {wantUid wantGid : Nat} (h : chownIfNeeded env target f wantUid wantGid = .ok g) :
    g = f.owned wantUid wantGid := by
  unfold chownIfNeeded at h
  cases hstat : env.call .statChown target ("stat " ++ env.tempPath target ++ " for chown") with
  | error e => simp [hstat, bind, Except.bind] at h
  | ok _ =>
    by_cases hsame : f.uid = wantUid ∧ f.gid = wantGid
    · simp only [hstat, bind, Except.bind, hsame, and_self, if_true, pure, Except.pure,
        Except.ok.injEq] at h
      rw [RegularFile.owned, if_pos hsame, h]
    · by_cases hroot : env.euid = 0
      · simp only [hstat, bind, Except.bind, hsame, if_false, hroot, ne_eq, not_true_eq_false] at h
        split at h
        · cases h
        · simp only [pure, Except.pure, Except.ok.injEq] at h
          rw [RegularFile.owned, if_neg hsame, h]
      · simp [hstat, bind, Except.bind, hsame, hroot, throw, throwThe, MonadExceptOf.throw] at h

/-- What is staged holds the body, and is as the owner, the group and the mode ask for, but for
    what `chown` clears. -/
theorem stageTemp_ok {env : FileEnv} {i : Install B} {f : RegularFile B}
    (h : stageTemp env i = .ok f) :
    ∃ uid gid, i.owner = .ok uid ∧ i.group = .ok gid ∧
      f = RegularFile.owned ⟨i.body, i.mode &&& 0o7777, env.euid, env.egid⟩
        (uid.getD env.euid) (gid.getD env.egid) := by
  unfold stageTemp at h
  simp only [bind, Except.bind] at h
  split at h
  · cases h
  split at h
  · cases h
  split at h
  · cases h
  split at h
  · cases h
  split at h
  · cases h
  rename_i uid howner
  split at h
  · cases h
  rename_i gid hgroup
  refine ⟨uid, gid, howner, hgroup, ?_⟩
  cases uid with
  | none =>
    cases gid with
    | none =>
      simp only [pure, Except.pure, Except.ok.injEq] at h
      simp [RegularFile.owned, h]
    | some gid =>
      dsimp only at h
      split at h
      · cases h
      · exact chownIfNeeded_ok h
  | some uid =>
    cases gid with
    | none =>
      dsimp only at h
      split at h
      · cases h
      · exact chownIfNeeded_ok h
    | some gid => exact chownIfNeeded_ok h

theorem stageTemp_bytes {env : FileEnv} {i : Install B} {f : RegularFile B}
    (h : stageTemp env i = .ok f) : f.bytes = i.body := by
  obtain ⟨uid, gid, -, -, hf⟩ := stageTemp_ok h
  rw [hf, RegularFile.owned]
  split <;> rfl

theorem ensureParent_cases (env : FileEnv) (label : String) (target : List String)
    (nodes : Nodes B) :
    (∃ err, ensureParent env label target nodes = .error err nodes) ∨
      target ≠ [] ∧ ∃ nodes', OnlyParents target nodes nodes' ∧
        ensureParent env label target nodes = .ok () nodes' := by
  cases target with
  | nil => exact .inl ⟨_, rfl⟩
  | cons name parent =>
    cases hthere : nodeAt nodes parent with
    | none =>
      cases hcall : env.call .createDirAll (name :: parent)
        ("create_dir_all " ++ render parent) with
      | error e =>
        left
        exact ⟨e, by simp [ensureParent, createDirAll, hthere, hcall]⟩
      | ok _ =>
        by_cases hblocked : blocked nodes parent = true
        · left
          exact ⟨.io ("create_dir_all " ++ render parent) "Not a directory",
            by simp [ensureParent, createDirAll, hthere, hcall, hblocked]⟩
        · right
          exact ⟨List.cons_ne_nil _ _, mkdirs parent nodes, .inr rfl,
            by simp [ensureParent, createDirAll, hthere, hcall, hblocked]⟩
    | some node =>
      right
      exact ⟨List.cons_ne_nil _ _, nodes, .inl rfl, by simp [ensureParent, hthere]⟩

/-- The rename happens or it does not. -/
theorem persist_cases (env : FileEnv) (f : RegularFile B) (target : List String)
    (nodes : Nodes B) :
    (∃ err, persist env f target nodes = .error err nodes) ∨
      isDirectory (nodeAt nodes target) = false ∧
        persist env f target nodes = .ok () (nodes.insert target (.file f)) := by
  cases hcall : env.call .persist target ("persist tempfile to " ++ render target) with
  | error e =>
    left
    exact ⟨e, by simp [persist, hcall]⟩
  | ok _ =>
    by_cases hdir : isDirectory (nodeAt nodes target) = true
    · left
      exact ⟨.io ("persist tempfile to " ++ render target) "Is a directory",
        by simp [persist, hcall, hdir]⟩
    · right
      exact ⟨by simpa using hdir, by simp [persist, hcall, hdir]⟩

/-- **All or nothing.**  Either the staged file stands at its target, or nothing has happened but
    for directories above it. -/
theorem installFile_cases (env : FileEnv) (label : String) (i : Install B) (nodes : Nodes B) :
    (∃ err nodes', OnlyParents i.target nodes nodes' ∧
      installFile env label i nodes = .error err nodes') ∨
    ∃ f nodes', i.target ≠ [] ∧ OnlyParents i.target nodes nodes' ∧ stageTemp env i = .ok f ∧
      installFile env label i nodes = .ok () (nodes'.insert i.target (.file f)) := by
  rcases ensureParent_cases env label i.target nodes with
    ⟨err, hparent⟩ | ⟨hroot, nodes', honly, hparent⟩
  · left
    exact ⟨err, nodes, .inl rfl, by simp only [installFile, FileM.bind_apply, hparent]⟩
  · cases hstage : stageTemp env i with
    | error e =>
      left
      exact ⟨e, nodes', honly, by simp [installFile, hparent, hstage]⟩
    | ok f =>
      rcases persist_cases env f i.target nodes' with ⟨err, hpersist⟩ | ⟨-, hpersist⟩
      · left
        exact ⟨err, nodes', honly, by simp [installFile, hparent, hstage, hpersist]⟩
      · right
        exact ⟨f, nodes', hroot, honly, rfl, by simp [installFile, hparent, hstage, hpersist]⟩

end Files

end Bosun
