import Bosun.AptKey
import Bosun.Backup
import Bosun.CertTls
import Bosun.Services

/-!
# `file.content`

The content of a file with its mode and, where the spec names them, its owner and group.  A file
that is as the spec says is left alone; any other is replaced, after a backup of what is there.
With `validate_with` the new file is put beside the target first, and the command decides
whether it takes the target's place.

A text that names a derived path names the place, in normal form.  The command is given the
files as they are when it is run and changes none of them.
-/

namespace Bosun

open FileTree

/-! ## The spec -/

structure FileContentSpec where
  path : String
  mode : Nat
  owner : Option String
  group : Option String
  contentSha256 : String
  contentSize : Nat
  validateWith : Option (List String)

def FileContentSpec.validate (spec : FileContentSpec) : Except PrimitiveError Unit :=
  validatePath "file.content.path" spec.path

def FileContentSpec.target (spec : FileContentSpec) : List String := placeOf spec.path

structure FileObservation where
  sha256Hex : String
  size : Nat
  mode : Nat
  uid : Nat
  gid : Nat

/-- What `file.content` uses that is no call on files.  A payload decodes to a spec; `observed`
    and `wanted` are the two sides of an update in a plan. -/
structure FileTools (P : Type) where
  fileSpec : P → Except String FileContentSpec
  observed : FileObservation → P
  wanted : FileContentSpec → P
  sha256Hex : Bytes → String
  validator : List String → Nodes Bytes → Except ValidateError Unit

/-! ## Plan -/

section Plan

variable {P : Type} (tools : FileTools P) (env : FileEnv) (spec : FileContentSpec)

/-- What is at the target, if it is a file; `note` says who asks. -/
def statTarget (note : String) (nodes : Nodes Bytes) :
    Except PrimitiveError (Option (RegularFile Bytes)) := do
  let context := "symlink_metadata " ++ spec.path ++ note
  env.call .symlinkMetadata spec.target context
  match nodeAt nodes spec.target with
  | some (.file f) => return some f
  | some .symlink => throw .invalidTarget
  | some _ => throw (.invalidPayload ("target " ++ spec.path ++
      " exists but is not a regular file"))
  | none =>
    if blocked nodes spec.target.tail then throw (.io context "Not a directory")
    return none

/-- What is compared. -/
def FileTools.observation (f : RegularFile Bytes) : FileObservation :=
  ⟨tools.sha256Hex f.bytes, f.bytes.length, f.mode &&& 0o7777, f.uid, f.gid⟩

def observeExisting (f : RegularFile Bytes) : Except PrimitiveError FileObservation := do
  env.call .read spec.target ("read " ++ spec.path ++ " for plan")
  return tools.observation f

/-- A name that is not given matches every id. -/
def matchesId (resolve : String → Except PrimitiveError Nat) (id : Nat) :
    Option String → Except PrimitiveError Bool
  | none => .ok true
  | some name => (resolve name).map (id = ·)

def matchesSpec (obs : FileObservation) : Except PrimitiveError Bool := do
  if obs.sha256Hex ≠ spec.contentSha256 ∨ obs.size ≠ spec.contentSize then return false
  if obs.mode &&& 0o7777 ≠ spec.mode &&& 0o7777 then return false
  if !(← matchesId env.resolveOwner obs.uid spec.owner) then return false
  matchesId env.resolveGroup obs.gid spec.group

/-- Whether what was found needs no write. -/
def upToDate : Option (RegularFile Bytes) → Except PrimitiveError Bool
  | none => .ok false
  | some f => do matchesSpec env spec (← observeExisting tools env spec f)

/-- `plan` -/
def filePlan (resource : Resource P) (nodes : Nodes Bytes) : Except PrimitiveError (Diff P) :=
  match tools.fileSpec resource.payload with
  | .error e => .error (.invalidPayload ("file.content payload: " ++ e))
  | .ok spec => do
    spec.validate
    match ← statTarget env spec "" nodes with
    | none => return .add ("create " ++ spec.path ++ " (" ++ toString spec.contentSize ++
        " bytes)") resource.payload
    | some f =>
      let obs ← observeExisting tools env spec f
      if ← matchesSpec env spec obs then return .noChange
      return .update (tools.observed obs) (tools.wanted spec) ("update " ++ spec.path ++ " (sha " ++
        obs.sha256Hex ++ " -> " ++ spec.contentSha256 ++ ")")

end Plan

/-! ## Apply -/

/-- Backups that are kept. -/
def keepBackups : Nat := 5

/-- The id of a name, or else that of the file that is there. -/
def wantId (resolve : String → Except PrimitiveError Nat) (existing : Option Nat) :
    Option String → Except PrimitiveError (Option Nat)
  | some name => (resolve name).map some
  | none => .ok existing

def fileInstall (env : FileEnv) (spec : FileContentSpec) (contents : Bytes)
    (existing : Option (RegularFile Bytes)) (place : List String) (note : String) :
    Install Bytes where
  target := place
  body := contents
  mode := spec.mode
  owner := wantId env.resolveOwner (existing.map (·.uid)) spec.owner
  group := wantId env.resolveGroup (existing.map (·.gid)) spec.group
  note := note

/-- `<path>.new` -/
def newPathFor : List String → List String
  | [] => [".new"]
  | name :: parent => (name ++ ".new") :: parent

/-- `str::replace`; the first `skip` characters belong to what was replaced last. -/
def replaceText (pat text : List Char) : Nat → List Char → List Char
  | _, [] => []
  | skip + 1, _ :: cs => replaceText pat text skip cs
  | 0, c :: cs =>
    if pat.isPrefixOf (c :: cs) then text ++ replaceText pat text (pat.length - 1) cs
    else c :: replaceText pat text 0 cs

def substituteNewPath (argv : List String) (newPath : String) : List String :=
  argv.map fun arg =>
    String.ofList (replaceText "{new_path}".toList newPath.toList 0 arg.toList)

/-- A rename of a file. -/
def renameFile (env : FileEnv) (source target : List String) : FileM Bytes Unit := do
  let context := "rename " ++ render source ++ " -> " ++ render target
  FileM.ofExcept (env.call .rename target context)
  match nodeAt (← get) source with
  | some (.file f) =>
    if isDirectory (nodeAt (← get) target) then throw (.io context "Is a directory")
    modify fun nodes => (nodes.erase source).insert target (.file f)
  | _ => throw (.io context "No such file or directory")

section Apply

variable {P : Type} (tools : FileTools P) (env : FileEnv) (backupRoot : List String)
  (now : UtcTime)

/-- The backup of a file that is replaced. -/
def backupExisting (spec : FileContentSpec) (existing : Option (RegularFile Bytes)) :
    FileM Bytes Unit :=
  match existing with
  | none => pure ()
  | some _ => do
    let _ ← backupWithRotation env spec.target backupRoot keepBackups now

/-- The new file at `<path>.new` -/
def putNewPath (spec : FileContentSpec) (contents : Bytes)
    (existing : Option (RegularFile Bytes)) : FileM Bytes Unit := do
  ensureParent env "" spec.target
  let newPath := newPathFor spec.target
  let f ← FileM.ofExcept
    (stageTemp env (fileInstall env spec contents existing newPath " (validate flow)"))
  persist env f newPath

/-- The command line the validator is given. -/
def validatorArgv (spec : FileContentSpec) (argv : List String) : List String :=
  substituteNewPath argv (render (newPathFor spec.target))

def runValidator (spec : FileContentSpec) (argv : List String) : FileM Bytes Unit := do
  let realArgv := validatorArgv spec argv
  match tools.validator realArgv (← get) with
  | .error err => throw (mapValidateError err (realArgv.headD "<empty>"))
  | .ok () => pure ()

/-- `write_with_validation` -/
def writeWithValidation (spec : FileContentSpec) (contents : Bytes)
    (existing : Option (RegularFile Bytes)) (argv : List String) : FileM Bytes Unit := do
  putNewPath env spec contents existing
  runValidator tools spec argv
  backupExisting env backupRoot now spec existing
  renameFile env (newPathFor spec.target) spec.target

/-- How the target is replaced goes by `validate_with`. -/
def replaceTarget (spec : FileContentSpec) (contents : Bytes)
    (existing : Option (RegularFile Bytes)) : FileM Bytes Unit :=
  match spec.validateWith with
  | none => do
    backupExisting env backupRoot now spec existing
    installFile env "" (fileInstall env spec contents existing spec.target "")
  | some [] => throw (.invalidPayload
      "file.content.validate_with is empty; remove the field or list a command")
  | some argv => writeWithValidation tools env backupRoot now spec contents existing argv

/-- The contents come from the store of sensitive values and must be those of the spec. -/
def checkContents (spec : FileContentSpec) : Option Bytes → Except PrimitiveError Bytes
  | none => .error (.invalidPayload "sensitive contents not in store for file.content")
  | some contents =>
    let actual := tools.sha256Hex contents
    if actual = spec.contentSha256 then .ok contents
    else .error (.invalidPayload ("sensitive contents sha256 mismatch: store has " ++ actual ++
      ", payload has " ++ spec.contentSha256))

/-- What is done for a spec, and whether something was. -/
def applySpec (spec : FileContentSpec) (sensitive : Option Bytes) : FileM Bytes Bool := do
  FileM.ofExcept spec.validate
  let contents ← FileM.ofExcept (checkContents tools spec sensitive)
  let existing ← FileM.ofExcept (statTarget env spec " in apply" (← get))
  if ← FileM.ofExcept (upToDate tools env spec existing) then return false
  replaceTarget tools env backupRoot now spec contents existing
  return true

/-- `apply` -/
def fileApply (resource : Resource P) (sensitive : Option Bytes) : FileM Bytes ChangeReport :=
  match tools.fileSpec resource.payload with
  | .error e => throw (.invalidPayload ("file.content payload: " ++ e))
  | .ok spec => do
    if ← applySpec tools env backupRoot now spec sensitive then
      return .ofChanged ("wrote " ++ spec.path ++ " (sha256=" ++ spec.contentSha256 ++ ")")
    return .noChange

end Apply

end Bosun
