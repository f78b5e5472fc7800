import Bosun.FileSystem
import Bosun.ModuleLoading

/-!
# `apt.key`

A keyring is downloaded or given inline, put in place, and only then shown to gpg: the
fingerprint is checked on the installed file.  `fingerprint_gate_iff` says in which cases a
keyring that was not found to have the expected fingerprint stays behind.

gpg and the download are the backend's; the state records which contents have passed the
check.
-/

namespace Bosun

open FileTree

abbrev Bytes := List UInt8

/-! ## The spec -/

inductive AptKeyState
  | present
  | absent
deriving DecidableEq, Repr

structure AptKeySpec where
  name : String
  state : AptKeyState
  url : Option String
  keyData : Option String
  fingerprint : Option String
  keyringPath : Option String

def AptKeySpec.effectiveKeyringPath (spec : AptKeySpec) : String :=
  spec.keyringPath.getD ("/etc/apt/keyrings/" ++ spec.name ++ ".gpg")

/-- Exactly one source for a key that is to be present, none for one that is not. -/
def validateSourceCombination (spec : AptKeySpec) : Except PrimitiveError Unit :=
  let fail (message : String) :=
    .error (.invalidPayload ("apt.key '" ++ spec.name ++ "': " ++ message))
  match spec.state, spec.url.isSome, spec.keyData.isSome with
  | .present, true, false | .present, false, true => .ok ()
  | .present, true, true =>
    fail "exactly one of url/key_data required for state=present, got both"
  | .present, false, false => fail "state=present requires one of url/key_data"
  | .absent, false, false => .ok ()
  | .absent, _, _ => fail "state=absent must not specify url/key_data"

inductive AptKeyAction
  | install
  | remove
  | noChange
deriving DecidableEq, Repr

def decideKeyAction (keyringExists hasFingerprint : Bool) : AptKeyState → AptKeyAction
  | .present => if keyringExists && !hasFingerprint then .noChange else .install
  | .absent => if keyringExists then .remove else .noChange

/-! ## gpg -/

/-- An ASCII-armored key, after blanks and a byte order mark. -/
def isAsciiArmored (data : Bytes) : Bool :=
  let skipped : Bytes := [0x20, 0x09, 0x0A, 0x0D, 0xEF, 0xBB, 0xBF]
  let rest := data.dropWhile skipped.contains
  let trimmed := if rest = [] then data else rest
  "-----BEGIN PGP".toUTF8.toList.isPrefixOf trimmed

/-- `str::lines` -/
def linesOf (text : String) : List (List Char) :=
  let pieces := text.toList.splitOn '\n'
  let dropCr (line : List Char) := if line.getLast? = some '\r' then line.dropLast else line
  pieces.dropLast.map dropCr ++ (pieces.getLast?.filter (· ≠ [])).toList

/-- The tenth field of the first line of its kind that has one. -/
def parseFirstFingerprint (out : String) : Option String :=
  (linesOf out).findSome? fun line =>
    if "fpr:".toList.isPrefixOf line then
      match (line.splitOn ':')[9]? with
      | some (c :: cs) => some (String.ofList (c :: cs))
      | _ => none
    else none

/-- No blanks, in upper case. -/
def normalizeFingerprint (s : String) : String :=
  String.ofList ((s.toList.filter fun c => !isWhitespace c).map Char.toUpper)

/-- A keyring is shown to gpg before and after an installation. -/
inductive GpgQuery
  | recheck
  | verify
deriving DecidableEq, Repr

/-- The download, and the two calls of gpg: their output, or why they failed. -/
structure AptKeyBackend where
  download : String → Except String Bytes
  dearmor : Bytes → Except String Bytes
  showKeys : GpgQuery → Option Bytes → Except String String

namespace AptKeyBackend

def dearmorIfNeeded (backend : AptKeyBackend) (data : Bytes) : Except String Bytes :=
  if isAsciiArmored data then backend.dearmor data else .ok data

def fingerprintOf (backend : AptKeyBackend) (query : GpgQuery) (path : String)
    (keyring : Option Bytes) : Except String String := do
  let out ← backend.showKeys query keyring
  match parseFirstFingerprint out with
  | some fingerprint => return fingerprint
  | none => throw ("gpg --show-keys: no fingerprint in output of " ++ path)

end AptKeyBackend

/-! ## Apply -/

/-- The files, and the contents that have passed the check. -/
structure KeyState where
  nodes : Nodes Bytes
  verified : List Bytes

abbrev KeyM := EStateM PrimitiveError KeyState

namespace KeyM

variable {α : Type}

def ofExcept : Except PrimitiveError α → KeyM α
  | .ok a => pure a
  | .error e => throw e

def files (x : FileM Bytes α) : KeyM α := fun s =>
  match x s.nodes with
  | .ok a nodes => .ok a { s with nodes := nodes }
  | .error err nodes => .error err { s with nodes := nodes }

/-- For the record: this content has the expected fingerprint. -/
def passed (keyring : Option Bytes) : KeyM Unit :=
  modify fun s => { s with verified := s.verified ++ keyring.toList }

@[simp] theorem bind_apply {β : Type} (x : KeyM α) (f : α → KeyM β) (s : KeyState) :
    (x >>= f) s = match x s with
      | .ok a s' => f a s'
      | .error err s' => .error err s' := by
  show EStateM.bind x f s = _
  unfold EStateM.bind
  cases x s <;> rfl

@[simp] theorem pure_apply (a : α) (s : KeyState) : (pure a : KeyM α) s = .ok a s := rfl

@[simp] theorem throw_apply (err : PrimitiveError) (s : KeyState) :
    (throw err : KeyM α) s = .error err s := rfl

@[simp] theorem get_apply (s : KeyState) : (get : KeyM KeyState) s = .ok s s := rfl

@[simp] theorem modify_apply (f : KeyState → KeyState) (s : KeyState) :
    (modify f : KeyM Unit) s = .ok () (f s) := rfl

@[simp] theorem ofExcept_ok (a : α) (s : KeyState) :
    (ofExcept (.ok a) : KeyM α) s = .ok a s := rfl

@[simp] theorem ofExcept_error (err : PrimitiveError) (s : KeyState) :
    (ofExcept (.error err) : KeyM α) s = .error err s := rfl

@[simp] theorem files_apply (x : FileM Bytes α) (s : KeyState) :
    files x s = match x s.nodes with
      | .ok a nodes => .ok a { s with nodes := nodes }
      | .error err nodes => .error err { s with nodes := nodes } := rfl

end KeyM

/-- The content of a keyring. -/
def keyringAt (nodes : Nodes Bytes) (path : String) : Option Bytes :=
  match nodeAt nodes (placeOf path) with
  | some (.file f) => some f.bytes
  | _ => none

/-- `Path::exists`: an error counts as no.  So does a link to nothing; it is a fault here. -/
def keyringExists (env : FileEnv) (op : FileOp) (nodes : Nodes Bytes) (path : String) : Bool :=
  (env.fault op (placeOf path)).isNone && (nodeAt nodes (placeOf path)).isSome

def KEYRING_MODE : Nat := 0o644

/-- One call; the errors are texts. -/
def keyCall (env : FileEnv) (op : FileOp) (place : List String) (context : String) :
    Except PrimitiveError Unit :=
  match env.fault op place with
  | some e => .error (.apply (context ++ ": " ++ e))
  | none => .ok ()

/-- `create_dir_all` -/
def makeKeyringDir (env : FileEnv) (place parent : List String) : FileM Bytes Unit := do
  let context := "create_dir_all " ++ render parent
  FileM.ofExcept (keyCall env .createDirAll place context)
  if blocked (← get) parent then throw (.apply (context ++ ": Not a directory"))
  modify (mkdirs parent)

/-- The temporary file. -/
def stageKeyring (env : FileEnv) (place parent : List String) : Except PrimitiveError Unit := do
  keyCall env .tempfile place ("tempfile in " ++ render parent)
  keyCall env .writeAll place "write keyring tmp"
  keyCall env .syncAll place "fsync keyring tmp"

def persistKeyring (env : FileEnv) (path : String) (data : Bytes) : FileM Bytes Unit := do
  let place := placeOf path
  FileM.ofExcept (keyCall env .persist place ("persist " ++ path))
  if isDirectory (nodeAt (← get) place) then
    throw (.apply ("persist " ++ path ++ ": Is a directory"))
  modify (AList.insert place (.file ⟨data, 0o600, env.euid, env.egid⟩))

/-- `set_permissions` on the installed file. -/
def chmodKeyring (env : FileEnv) (path : String) (data : Bytes) : FileM Bytes Unit := do
  let place := placeOf path
  FileM.ofExcept (keyCall env .setPermissions place ("set_permissions " ++ path))
  modify (AList.insert place (.file ⟨data, KEYRING_MODE, env.euid, env.egid⟩))

def writeKeyringAtomic (env : FileEnv) (path : String) (data : Bytes) : FileM Bytes Unit :=
  match placeOf path with
  | [] => throw (.apply ("keyring path has no parent: " ++ path))
  | name :: parent => do
    makeKeyringDir env (name :: parent) parent
    FileM.ofExcept (stageKeyring env (name :: parent) parent)
    persistKeyring env path data
    chmodKeyring env path data

section AptKey

variable (backend : AptKeyBackend) (env : FileEnv) (spec : AptKeySpec)

def obtainKeyData : Except PrimitiveError Bytes :=
  match spec.url, spec.keyData with
  | some url, none => (backend.download url).mapError .apply
  | none, some data => .ok data.toUTF8.toList
  | _, _ => .error (.invalidPayload ("apt.key '" ++ spec.name ++
      "': internal — source combination not validated"))

/-- The bytes that are going to be installed. -/
def keyringBytes : Except PrimitiveError Bytes := do
  let raw ← obtainKeyData backend spec
  (backend.dearmorIfNeeded raw).mapError .apply

/-- The keyring is there and has the expected fingerprint. -/
def alreadyInstalled (path : String) (nodes : Nodes Bytes) : Except PrimitiveError Bool :=
  match keyringExists env .existsAgain nodes path, spec.fingerprint with
  | true, some expected => do
    let actual ← (backend.fingerprintOf .recheck path (keyringAt nodes path)).mapError .apply
    return normalizeFingerprint actual = normalizeFingerprint expected
  | _, _ => return false

/-- The check on the installed keyring. -/
def verifyKeyring (path : String) : KeyM Unit := do
  match spec.fingerprint with
  | none => return
  | some expected =>
    let keyring := keyringAt (← get).nodes path
    let actual ← KeyM.ofExcept ((backend.fingerprintOf .verify path keyring).mapError .apply)
    if normalizeFingerprint actual ≠ normalizeFingerprint expected then
      throw (.apply ("apt.key '" ++ spec.name ++
        "': fingerprint mismatch after install (expected " ++ expected ++ ", got " ++ actual ++
        ")"))
    KeyM.passed keyring

def installKey (path : String) : KeyM ChangeReport := do
  if ← KeyM.ofExcept (alreadyInstalled backend env spec path (← get).nodes) then
    return .noChange
  let binary ← KeyM.ofExcept (keyringBytes backend spec)
  KeyM.files (writeKeyringAtomic env path binary)
  verifyKeyring backend spec path
  return .ofChanged ("installed apt key " ++ spec.name ++ " at " ++ path)

/-- A keyring that is gone is fine. -/
def removeKey (path : String) : KeyM ChangeReport := do
  let place := placeOf path
  match nodeAt (← get).nodes place with
  | none => return .noChange
  | some node =>
    KeyM.ofExcept (env.call .removeFile place ("remove apt key " ++ path))
    if isDirectory (some node) then throw (.io ("remove apt key " ++ path) "Is a directory")
    modify fun s => { s with nodes := s.nodes.erase place }
    return .ofChanged ("removed apt key " ++ spec.name ++ " at " ++ path)

/-- `apply.rs::run`, once the payload is decoded. -/
def aptKeyRunSpec (pastDeadline : Bool) : KeyM ChangeReport := do
  KeyM.ofExcept (validateSourceCombination spec)
  if pastDeadline then throw .cancelled
  let path := spec.effectiveKeyringPath
  let found := keyringExists env .exists (← get).nodes path
  match decideKeyAction found spec.fingerprint.isSome spec.state with
  | .noChange => return .noChange
  | .install => installKey backend env spec path
  | .remove => removeKey env spec path

/-- `apply.rs::run` -/
def aptKeyRun {P : Type} (aptKeySpec : P → Except String AptKeySpec) (resource : Resource P)
    (diff : Diff P) (pastDeadline : Bool) : KeyM ChangeReport :=
  match diff with
  | .noChange => return .noChange
  | _ =>
    match aptKeySpec resource.payload with
    | .error e => throw (.invalidPayload ("apt.key payload: " ++ e))
    | .ok spec => aptKeyRunSpec backend env spec pastDeadline

end AptKey

end Bosun
