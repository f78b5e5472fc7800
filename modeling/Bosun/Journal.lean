import Mathlib.Data.List.AList
import Mathlib.Data.List.Sort
import Mathlib.Data.String.Basic
import Bosun.DeferFormat

/-!
# The defer journal

`defers/journal.rs`: a directory with one file for each pending entry.  The
directory is a finite map from names to contents; names that are not valid UTF-8
are skipped by every reader and left out.  Paths are relative to the root of the
journal, and the root itself is `"."`.

Every call into the file system may fail, and `Fs` carries an oracle that says
which calls do (`fault`) and what the wall clock shows (`wallClock`); both are
indexed by the number of calls made so far.  An operation that fails half way
leaves the directory as it is at that point.
-/

namespace Bosun

inductive IoError
  | notFound
  | other (message : String)
deriving DecidableEq, Repr

inductive DeferError
  | io (path : String) (source : IoError)
  | serde (path : String)
  | clock
  | unsafeRoot (path reason : String)
deriving DecidableEq, Repr

/-- What a file of the journal holds. -/
inductive FileContent
  | entry (e : DeferEntry)
  | corrupt
deriving DecidableEq, Repr

abbrev Dir := AList (fun _ : String => FileContent)

structure Fs where
  dir : Dir
  /-- calls into the file system so far -/
  ops : Nat
  fault : Nat → Option IoError
  /-- nanoseconds since the epoch; `none` when the clock is before it -/
  wallClock : Nat → Option Nat

abbrev FsM := EStateM DeferError Fs

namespace FsM

variable {α : Type}

/-- The result of `x` as a value. -/
def attempt (x : FsM α) : FsM (Except DeferError α) := fun fs =>
  match x fs with
  | .ok a fs => .ok (.ok a) fs
  | .error e fs => .ok (.error e) fs

end FsM

namespace Journal

/-! ## Calls into the file system -/

/-- One call; `err` turns its failure into an error of the journal. -/
def syscall (err : IoError → DeferError) : FsM Unit := fun fs =>
  let fs' := { fs with ops := fs.ops + 1 }
  match fs.fault fs.ops with
  | some e => .error (err e) fs'
  | none => .ok () fs'

def setFile (name : String) (content : FileContent) : FsM Unit :=
  modify fun fs => { fs with dir := fs.dir.insert name content }

def removeFile (name : String) : FsM Unit := do
  syscall (.io name)
  match (← get).dir.lookup name with
  | some _ => modify fun fs => { fs with dir := fs.dir.erase name }
  | none => throw (.io name .notFound)

/-- `fs::rename`; `errPath` is the path its errors are reported for. -/
def renameFile (source target errPath : String) : FsM Unit := do
  syscall (.io errPath)
  match (← get).dir.lookup source with
  | some content =>
    modify fun fs => { fs with dir := (fs.dir.erase source).insert target content }
  | none => throw (.io errPath .notFound)

/-- Open the directory, then `sync_all`. -/
def fsyncDir : FsM Unit := do
  syscall (.io ".")
  syscall (.io ".")

/-- `SystemTime::now().duration_since(UNIX_EPOCH)`. -/
def nanosNow : FsM Nat := do
  let fs ← get
  match fs.wallClock fs.ops with
  | some nanos => pure nanos
  | none => throw .clock

/-! ## Operations -/

/-- The name an entry is written under before it is renamed into place. -/
def stagingName (e : DeferEntry) (nanos : Nat) : String :=
  e.filename ++ ".tmp." ++ toString nanos

/-- tmp → fsync(file) → close → rename → fsync(dir). -/
def atomicWrite (e : DeferEntry) : FsM Unit := do
  let nanos ← nanosNow
  let tmp := stagingName e nanos
  syscall (.io tmp)
  setFile tmp .corrupt
  syscall (fun _ => .serde tmp)
  syscall (.io tmp)
  -- the buffer is flushed: the file is complete
  syscall (.io tmp)
  setFile tmp (.entry e)
  syscall (.io tmp)
  match ← FsM.attempt (renameFile tmp e.filename e.filename) with
  | .ok () => fsyncDir
  | .error err =>
    let _ ← FsM.attempt (removeFile tmp)
    throw err

/-- A missing file is fine. -/
def remove (e : DeferEntry) : FsM Unit := do
  match ← FsM.attempt (removeFile e.filename) with
  | .ok () => fsyncDir
  | .error (.io _ .notFound) => pure ()
  | .error err => throw err

def bumpAttempt (e : DeferEntry) : FsM DeferEntry := do
  atomicWrite e.bumped
  pure e.bumped

def moveToManualClear (e : DeferEntry) : FsM Unit := do
  renameFile e.filename e.manualClearFilename e.filename
  fsyncDir

def readEntry (name : String) : FsM DeferEntry := do
  syscall (.io name)
  match (← get).dir.lookup name with
  | some (.entry e) => pure e
  | some .corrupt => throw (.serde name)
  | none => throw (.io name .notFound)

/-- A file that cannot be read is skipped with a warning. -/
def readAll : List String → FsM (List DeferEntry)
  | [] => pure []
  | name :: names => do
    match ← FsM.attempt (readEntry name) with
    | .ok e => return e :: (← readAll names)
    | .error _ => readAll names

def isDeferred (name : String) : Bool := extension name = some "deferred"

def listSorted : FsM (List DeferEntry) := do
  syscall (.io ".")
  let names := (← get).dir.keys.filter isDeferred
  readAll (names.insertionSort (· ≤ ·))

/-- `a` makes `b` superfluous for the same unit. -/
def subsumes (a b : DeferAction) : Bool :=
  match a, b with
  | .restart, .reload | .restart, .reloadOrRestart | .reloadOrRestart, .reload => true
  | _, _ => false

inductive EnqueueResult
  | created
  | alreadyExists
  | subsumed
  | replacedLowerPriority
deriving DecidableEq, Repr

/-- The entries that the new one makes superfluous go; says whether any did. -/
def removeSubsumed (entry : DeferEntry) : List DeferEntry → FsM Bool
  | [] => pure false
  | old :: olds => do
    if subsumes entry.action old.action then
      match ← FsM.attempt (removeFile old.filename) with
      | .ok () =>
        let _ ← removeSubsumed entry olds
        pure true
      | .error (.io _ .notFound) => removeSubsumed entry olds
      | .error err => throw err
    else removeSubsumed entry olds

/-- The entries for the unit of the new one. -/
def sameTarget (entry : DeferEntry) (existing : List DeferEntry) : List DeferEntry :=
  existing.filter (fun e => e.initSystem = entry.initSystem ∧ e.target = entry.target)

def enqueue (entry : DeferEntry) : FsM EnqueueResult := do
  let existing ← listSorted
  let olds := sameTarget entry existing
  -- the same id again: the file stays as it is
  if olds.any (fun e => e.id = entry.id) then return .alreadyExists
  if olds.any (fun e => subsumes e.action entry.action) then return .subsumed
  let replacedAny ← removeSubsumed entry olds
  if replacedAny then fsyncDir
  atomicWrite entry
  return if replacedAny then .replacedLowerPriority else .created

end Journal

end Bosun
