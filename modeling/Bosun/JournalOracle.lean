import Bosun.JournalSpec
import Bosun.Library.Hoare

/-!
# The disk under the journal

Which calls fail and what the clock shows is no business of the journal: its operations
leave the oracle of the file system as it is, whether they succeed or not.
-/

namespace Bosun

/-- The oracle of the disk is as it was. -/
def SameOracle (fs fs' : Fs) : Prop := fs'.fault = fs.fault ∧ fs'.wallClock = fs.wallClock

theorem SameOracle.healthy {fs fs' : Fs} (h : SameOracle fs fs') (hfs : fs.Healthy) :
    fs'.Healthy := ⟨by rw [h.1]; exact hfs.fault, by rw [h.2]; exact hfs.wallClock⟩

/-- However `x` ends, the disk is the same. -/
abbrev FsM.KeepsOracle {α : Type} (x : FsM α) : Prop := Leaves x SameOracle

namespace FsM.KeepsOracle

variable {α β : Type}

theorem ret (a : α) : KeepsOracle (pure a) := Leaves.ret (fun _ => ⟨rfl, rfl⟩) a

theorem raise (err : DeferError) : KeepsOracle (throw err : FsM α) :=
  Leaves.raise (fun _ => ⟨rfl, rfl⟩) err

theorem read : KeepsOracle (get : FsM Fs) := Leaves.read fun _ => ⟨rfl, rfl⟩

theorem write {f : Fs → Fs} (h : ∀ fs, SameOracle fs (f fs)) :
    KeepsOracle (modify f : FsM Unit) := Leaves.write h

theorem bind {x : FsM α} {f : α → FsM β} (hx : x.KeepsOracle) (hf : ∀ a, (f a).KeepsOracle) :
    (x >>= f).KeepsOracle :=
  Leaves.bind (fun _ _ _ h h' => ⟨h'.1.trans h.1, h'.2.trans h.2⟩) hx hf

theorem attempt {x : FsM α} (h : x.KeepsOracle) : (FsM.attempt x).KeepsOracle := by
  intro fs fs' hfs
  have hx := h fs fs' hfs
  unfold FsM.attempt
  cases hrun : x fs' <;> rw [hrun] at hx <;> exact hx

end FsM.KeepsOracle

namespace Journal

theorem syscall_keepsOracle (err : IoError → DeferError) : (syscall err).KeepsOracle := by
  intro fs fs' hfs
  unfold syscall
  cases fs'.fault fs'.ops <;> exact ⟨by rw [← hfs], by rw [← hfs]⟩

theorem fsyncDir_keepsOracle : fsyncDir.KeepsOracle :=
  (syscall_keepsOracle _).bind fun _ => syscall_keepsOracle _

theorem setFile_keepsOracle (name : String) (content : FileContent) :
    (setFile name content).KeepsOracle := .write fun _ => ⟨rfl, rfl⟩

theorem removeFile_keepsOracle (name : String) : (removeFile name).KeepsOracle := by
  refine (syscall_keepsOracle _).bind fun _ => FsM.KeepsOracle.read.bind fun fs => ?_
  cases fs.dir.lookup name with
  | none => exact .raise _
  | some content => exact .write fun _ => ⟨rfl, rfl⟩

theorem renameFile_keepsOracle (source target errPath : String) :
    (renameFile source target errPath).KeepsOracle := by
  refine (syscall_keepsOracle _).bind fun _ => FsM.KeepsOracle.read.bind fun fs => ?_
  cases fs.dir.lookup source with
  | none => exact .raise _
  | some content => exact .write fun _ => ⟨rfl, rfl⟩

theorem nanosNow_keepsOracle : nanosNow.KeepsOracle := by
  refine FsM.KeepsOracle.read.bind fun fs => ?_
  cases fs.wallClock fs.ops with
  | none => exact .raise _
  | some nanos => exact .ret nanos

theorem atomicWrite_keepsOracle (e : DeferEntry) : (atomicWrite e).KeepsOracle := by
  refine nanosNow_keepsOracle.bind fun nanos => (syscall_keepsOracle _).bind fun _ =>
    (setFile_keepsOracle _ _).bind fun _ => (syscall_keepsOracle _).bind fun _ =>
    (syscall_keepsOracle _).bind fun _ => (syscall_keepsOracle _).bind fun _ =>
    (setFile_keepsOracle _ _).bind fun _ => (syscall_keepsOracle _).bind fun _ =>
    (renameFile_keepsOracle _ _ _).attempt.bind fun result => ?_
  cases result with
  | ok _ => exact fsyncDir_keepsOracle
  | error err => exact (removeFile_keepsOracle _).attempt.bind fun _ => .raise err

theorem readAll_keepsOracle (names : List String) : (readAll names).KeepsOracle := by
  have hread : ∀ name, (readEntry name).KeepsOracle := by
    refine fun name => (syscall_keepsOracle _).bind fun _ => FsM.KeepsOracle.read.bind fun fs => ?_
    match fs.dir.lookup name with
    | some (.entry e) => exact .ret e
    | some .corrupt => exact .raise _
    | none => exact .raise _
  induction names with
  | nil => exact .ret []
  | cons name names ih =>
    refine (hread name).attempt.bind fun result => ?_
    cases result with
    | ok e => exact ih.bind fun es => .ret _
    | error err => exact ih

theorem removeSubsumed_keepsOracle (e : DeferEntry) (olds : List DeferEntry) :
    (removeSubsumed e olds).KeepsOracle := by
  induction olds with
  | nil => exact .ret false
  | cons old olds ih =>
    unfold removeSubsumed
    split
    · refine (removeFile_keepsOracle _).attempt.bind fun result => ?_
      match result with
      | .ok () => exact ih.bind fun _ => .ret true
      | .error (.io _ .notFound) => exact ih
      | .error (.io _ (.other _)) | .error (.serde _) | .error .clock
      | .error (.unsafeRoot _ _) => exact .raise _
    · exact ih

theorem listSorted_keepsOracle : listSorted.KeepsOracle :=
  (syscall_keepsOracle _).bind fun _ => FsM.KeepsOracle.read.bind fun _ => readAll_keepsOracle _

theorem enqueue_keepsOracle (e : DeferEntry) : (enqueue e).KeepsOracle := by
  refine listSorted_keepsOracle.bind fun existing => ?_
  dsimp only
  split
  · exact .ret _
  · split
    · exact .ret _
    · refine (removeSubsumed_keepsOracle e _).bind fun replaced => ?_
      cases replaced with
      | true => exact fsyncDir_keepsOracle.bind fun _ =>
          (atomicWrite_keepsOracle e).bind fun _ => .ret _
      | false => exact (atomicWrite_keepsOracle e).bind fun _ => .ret _

end Journal

end Bosun
