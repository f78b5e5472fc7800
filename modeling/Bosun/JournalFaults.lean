import Bosun.JournalSpec
import Bosun.Library.Hoare

/-!
# The journal on a disk that may fail

Any call into the file system may fail, and an operation that fails has done
part of its work.  `Touched` says how much that can be: which files may have
gone, which entries may have been written, and which names were only passed
through.  The relation is transitive, so it holds over any number of operations,
and it is all that is known when the operation has failed; `enqueue_triple` adds
what is known when it has not.
-/

namespace Bosun

/-- Between `d` and `d'` files in `gone` may have disappeared and entries in `new`
    may have been written under their own names; nothing is said about `scratch`. -/
def Touched (gone scratch : String → Prop) (new : DeferEntry → Prop) (d d' : Dir) : Prop :=
  ∀ name, ¬ scratch name → d'.lookup name = d.lookup name ∨
    (gone name ∧ d'.lookup name = none) ∨
    ∃ e, new e ∧ name = e.filename ∧ d'.lookup name = some (.entry e)

namespace Touched

variable {gone gone' scratch scratch' : String → Prop} {new new' : DeferEntry → Prop}

theorem refl (d : Dir) : Touched gone scratch new d d := fun _ _ => .inl rfl

theorem of_eq {d d' : Dir} (h : d' = d) : Touched gone scratch new d d' := h ▸ refl _

theorem trans {d d' d'' : Dir} (h : Touched gone scratch new d d')
    (h' : Touched gone scratch new d' d'') : Touched gone scratch new d d'' := by
  intro name hname
  rcases h' name hname with heq | hgone | hnew
  · rw [heq]
    exact h name hname
  · exact .inr (.inl hgone)
  · exact .inr (.inr hnew)

theorem mono {d d' : Dir} (h : Touched gone scratch new d d') (hgone : ∀ n, gone n → gone' n)
    (hscratch : ∀ n, scratch n → scratch' n) (hnew : ∀ e, new e → new' e) :
    Touched gone' scratch' new' d d' := by
  intro name hname
  rcases h name (fun hs => hname (hscratch name hs)) with heq | ⟨hg, hnone⟩ | ⟨e, he, hfile⟩
  · exact .inl heq
  · exact .inr (.inl ⟨hgone name hg, hnone⟩)
  · exact .inr (.inr ⟨e, hnew e he, hfile⟩)

end Touched

/-- No file, no entry. -/
abbrev nothing {α : Type} : α → Prop := fun _ => False

/-- However `x` ends, this is all it has touched. -/
def FsM.Touches {α : Type} (x : FsM α) (gone scratch : String → Prop) (new : DeferEntry → Prop) :
    Prop := Leaves x fun fs fs' => Touched gone scratch new fs.dir fs'.dir

namespace FsM.Touches

variable {α β : Type} {gone gone' scratch scratch' : String → Prop}
  {new new' : DeferEntry → Prop}

theorem ret (a : α) : Touches (pure a) gone scratch new :=
  Leaves.ret (fun fs => Touched.refl fs.dir) a

theorem raise (err : DeferError) : Touches (throw err : FsM α) gone scratch new :=
  Leaves.raise (fun fs => Touched.refl fs.dir) err

theorem read : Touches (get : FsM Fs) gone scratch new :=
  Leaves.read fun fs => Touched.refl fs.dir

theorem bind {x : FsM α} {f : α → FsM β} (hx : x.Touches gone scratch new)
    (hf : ∀ a, (f a).Touches gone scratch new) : (x >>= f).Touches gone scratch new :=
  Leaves.bind (fun _ _ _ h h' => h.trans h') hx hf

theorem mono {x : FsM α} (h : x.Touches gone scratch new) (hgone : ∀ n, gone n → gone' n)
    (hscratch : ∀ n, scratch n → scratch' n) (hnew : ∀ e, new e → new' e) :
    x.Touches gone' scratch' new' :=
  Leaves.mono h fun _ _ ht => ht.mono hgone hscratch hnew

theorem attempt {x : FsM α} (h : x.Touches gone scratch new) :
    (FsM.attempt x).Touches gone scratch new := by
  intro fs fs' hfs
  have hx := h fs fs' hfs
  unfold FsM.attempt
  cases hrun : x fs' <;> rw [hrun] at hx <;> exact hx

/-- Once begun, an account of what has been touched may be carried on. -/
theorem triple {x : FsM α} (h : x.Touches gone scratch new) (d : Dir) :
    Triple (fun fs => Touched gone scratch new d fs.dir) x
      (fun _ fs => Touched gone scratch new d fs.dir)
      (fun _ fs => Touched gone scratch new d fs.dir) := by
  refine Triple.of_state fun fs hfs => ?_
  exact (h fs).conseq (fun _ hs => hs) (fun _ _ ht => hfs.trans ht) (fun _ _ ht => hfs.trans ht)

end FsM.Touches

/-- What was thrown comes back as a value. -/
theorem triple_attempt {α : Type} {P : Fs → Prop} {x : FsM α} {Q : α → Fs → Prop}
    {E E' : DeferError → Fs → Prop} (h : Triple P x Q E) :
    Triple P (FsM.attempt x) (fun result fs => match result with
      | .ok a => Q a fs
      | .error err => E err fs) E' := by
  intro fs hfs
  have hx := h fs hfs
  unfold FsM.attempt
  cases hrun : x fs <;> rw [hrun] at hx <;> exact hx

namespace Journal

/-! ## Single calls -/

theorem syscall_touches {gone scratch : String → Prop} {new : DeferEntry → Prop}
    (err : IoError → DeferError) : (syscall err).Touches gone scratch new := by
  intro fs fs' hfs
  unfold syscall
  cases fs'.fault fs'.ops <;> exact Touched.of_eq (by rw [← hfs])

theorem fsyncDir_touches {gone scratch : String → Prop} {new : DeferEntry → Prop} :
    fsyncDir.Touches gone scratch new := (syscall_touches _).bind fun _ => syscall_touches _

theorem setFile_touches {gone scratch : String → Prop} {new : DeferEntry → Prop} {name : String}
    (hname : scratch name) (content : FileContent) :
    (setFile name content).Touches gone scratch new := by
  refine Leaves.write fun fs => fun other hother => .inl ?_
  exact AList.lookup_insert_ne fun h => hother (h ▸ hname)

theorem removeFile_touches {gone scratch : String → Prop} {new : DeferEntry → Prop} {name : String}
    (hname : gone name ∨ scratch name) : (removeFile name).Touches gone scratch new := by
  refine (syscall_touches _).bind fun _ => FsM.Touches.read.bind fun fs => ?_
  cases fs.dir.lookup name with
  | none => exact FsM.Touches.raise _
  | some content =>
    refine Leaves.write fun fs' => fun other hother => ?_
    by_cases heq : other = name
    · subst heq
      rcases hname with hgone | hscratch
      · exact .inr (.inl ⟨hgone, AList.lookup_erase _ _⟩)
      · exact absurd hscratch hother
    · exact .inl (AList.lookup_erase_ne heq)

/-- A call that only reads leaves every fact about the directory true. -/
theorem syscall_triple (P : Dir → Prop) (err : IoError → DeferError) :
    Triple (fun fs => P fs.dir) (syscall err) (fun _ fs => P fs.dir) (fun _ fs => P fs.dir) := by
  intro fs hfs
  unfold syscall
  cases fs.fault fs.ops <;> exact hfs

theorem fsyncDir_triple (P : Dir → Prop) :
    Triple (fun fs => P fs.dir) fsyncDir (fun _ fs => P fs.dir) (fun _ fs => P fs.dir) :=
  (syscall_triple P _).bind fun _ => syscall_triple P _

theorem renameFile_triple (P : Dir → Prop) {source target : String} (errPath : String)
    {content : FileContent} :
    Triple (fun fs => P fs.dir ∧ fs.dir.lookup source = some content)
      (renameFile source target errPath)
      (fun _ fs => ∃ d, P d ∧ fs.dir = (d.erase source).insert target content)
      (fun _ fs => P fs.dir) := by
  refine (syscall_triple (fun d => P d ∧ d.lookup source = some content) _).bind (fun _ => ?_)
    |>.conseq (fun _ h => h) (fun _ _ h => h) (fun _ _ h => h.1)
  refine Triple.bind (Triple.read (Q := fun fs fs' => fs' = fs ∧ P fs.dir ∧
    fs.dir.lookup source = some content) fun fs h => ⟨rfl, h⟩) fun fs => ?_
  intro fs' hfs
  obtain ⟨rfl, hP, hl⟩ := hfs
  simp only [hl]
  exact ⟨fs'.dir, hP, rfl⟩

/-! ## Operations -/

/-- The names an entry may be staged under. -/
def Staging (e : DeferEntry) (name : String) : Prop := ∃ nanos, name = stagingName e nanos

theorem nanosNow_touches {gone scratch : String → Prop} {new : DeferEntry → Prop} :
    nanosNow.Touches gone scratch new := by
  refine FsM.Touches.read.bind fun fs => ?_
  cases fs.wallClock fs.ops with
  | none => exact FsM.Touches.raise _
  | some nanos => exact FsM.Touches.ret nanos

theorem atomicWrite_triple (d : Dir) (e : DeferEntry) :
    Triple (fun fs => fs.dir = d) (atomicWrite e)
      (fun _ fs => Touched nothing (Staging e) (· = e) d fs.dir ∧
        fs.dir.lookup e.filename = some (.entry e))
      (fun _ fs => Touched nothing (Staging e) (· = e) d fs.dir) := by
  have hcall : ∀ err, (syscall err).Touches nothing (Staging e) (· = e) :=
    fun err => syscall_touches err
  refine Triple.conseq (P := fun fs => Touched nothing (Staging e) (· = e) d fs.dir) ?_
    (fun fs hfs => Touched.of_eq hfs) (fun _ _ h => h) (fun _ _ h => h)
  refine (nanosNow_touches.triple d).bind fun nanos => ?_
  refine ((hcall _).triple d).bind fun _ => ?_
  refine ((setFile_touches ⟨nanos, rfl⟩ .corrupt).triple d).bind fun _ => ?_
  refine ((hcall _).triple d).bind fun _ => ?_
  refine ((hcall _).triple d).bind fun _ => ?_
  refine ((hcall _).triple d).bind fun _ => ?_
  -- from here on the staging file is complete
  have hset : Triple (fun fs => Touched nothing (Staging e) (· = e) d fs.dir)
      (setFile (stagingName e nanos) (.entry e))
      (fun _ fs => Touched nothing (Staging e) (· = e) d fs.dir ∧
        fs.dir.lookup (stagingName e nanos) = some (.entry e))
      (fun _ fs => Touched nothing (Staging e) (· = e) d fs.dir) := by
    refine Triple.write fun fs hfs => ⟨?_, AList.lookup_insert _⟩
    refine hfs.trans fun other hother => .inl (AList.lookup_insert_ne fun h => hother ⟨nanos, h⟩)
  refine hset.bind fun _ => ?_
  refine Triple.bind ((syscall_triple (fun dir => Touched nothing (Staging e) (· = e) d dir ∧
    dir.lookup (stagingName e nanos) = some (.entry e)) _).conseq (fun _ h => h)
    (fun _ _ h => h) (fun _ _ h => h.1)) fun _ => ?_
  refine Triple.bind (triple_attempt (renameFile_triple _ e.filename)) fun result => ?_
  cases result with
  | error err => 
    refine Triple.bind (((removeFile_touches (.inr ⟨nanos, rfl⟩)).attempt.triple d)) fun _ => ?_
    exact Triple.raise fun _ h => h
  | ok _ =>
    refine ((fsyncDir_triple fun dir => Touched nothing (Staging e) (· = e) d dir ∧
      dir.lookup e.filename = some (.entry e)).conseq ?_ (fun _ _ h => h) (fun _ _ h => h.1))
    rintro fs ⟨mid, hmid, hdir⟩
    rw [hdir]
    refine ⟨hmid.trans fun other hother => ?_, AList.lookup_insert _⟩
    by_cases heq : other = e.filename
    · subst heq
      exact .inr (.inr ⟨e, rfl, rfl, AList.lookup_insert _⟩)
    · rw [AList.lookup_insert_ne heq]
      exact .inl (AList.lookup_erase_ne fun h => hother ⟨nanos, h⟩)

theorem remove_touches (e : DeferEntry) :
    (remove e).Touches (· = e.filename) nothing nothing := by
  have hfile : (removeFile e.filename).Touches (· = e.filename) nothing nothing :=
    removeFile_touches (.inl rfl)
  refine hfile.attempt.bind fun result => ?_
  match result with
  | .ok () => exact fsyncDir_touches
  | .error (.io _ .notFound) => exact FsM.Touches.ret ()
  | .error (.io _ (.other _)) | .error (.serde _) | .error .clock | .error (.unsafeRoot _ _) =>
    exact FsM.Touches.raise _

theorem bumpAttempt_triple (d : Dir) (e : DeferEntry) :
    Triple (fun fs => fs.dir = d) (bumpAttempt e)
      (fun e' fs => e' = e.bumped ∧ Touched nothing (Staging e) (· = e.bumped) d fs.dir ∧
        fs.dir.lookup e.filename = some (.entry e.bumped))
      (fun _ fs => Touched nothing (Staging e) (· = e.bumped) d fs.dir) :=
  (atomicWrite_triple d e.bumped).bind fun _ => Triple.ret fun _ h => ⟨rfl, h⟩

theorem moveToManualClear_touches (e : DeferEntry) :
    (moveToManualClear e).Touches (· = e.filename) (· = e.manualClearFilename) nothing := by
  refine FsM.Touches.bind (FsM.Touches.bind (syscall_touches _) fun _ =>
    FsM.Touches.read.bind fun fs => ?_) fun _ => fsyncDir_touches
  cases fs.dir.lookup e.filename with
  | none => exact FsM.Touches.raise _
  | some content =>
    refine Leaves.write fun fs' => fun other hother => ?_
    show (AList.insert _ _ _).lookup other = _ ∨ _
    rw [AList.lookup_insert_ne hother]
    by_cases heq : other = e.filename
    · subst heq
      exact .inr (.inl ⟨rfl, AList.lookup_erase _ _⟩)
    · exact .inl (AList.lookup_erase_ne heq)

/-! ## Reading -/

/-- Files that cannot be read are missing from the list; whatever is in it is
    pending. -/
theorem readAll_triple (d : Dir) (names : List String)
    (hnames : ∀ name ∈ names, isDeferred name = true) :
    Triple (fun fs => fs.dir = d) (readAll names)
      (fun es fs => fs.dir = d ∧ ∀ e ∈ es, e ∈ pending d) (fun _ fs => fs.dir = d) := by
  induction names with
  | nil => exact Triple.ret fun _ hfs => ⟨hfs, by simp⟩
  | cons name names ih =>
    obtain ⟨hname, hnames⟩ := List.forall_mem_cons.mp hnames
    have hread : Triple (fun fs => fs.dir = d) (readEntry name)
        (fun e fs => fs.dir = d ∧ e ∈ pending d) (fun _ fs => fs.dir = d) := by
      refine (syscall_triple (· = d) _).bind fun _ => ?_
      refine Triple.bind (Triple.read (Q := fun fs fs' => fs' = fs ∧ fs.dir = d)
        fun fs h => ⟨rfl, h⟩) fun fs => ?_
      rintro fs' ⟨rfl, hdir⟩
      match hl : fs'.dir.lookup name with
      | none => exact hdir
      | some .corrupt => exact hdir
      | some (.entry e) => exact ⟨hdir, mem_pending.mpr ⟨name, hname, hdir ▸ hl⟩⟩
    refine Triple.bind (triple_attempt hread) fun result => ?_
    cases result with
    | error err => exact ih hnames
    | ok e =>
      intro fs hfs
      obtain ⟨hdir, he⟩ := hfs
      refine Triple.bind (P := fun fs => fs.dir = d) (ih hnames) (fun es => ?_) fs hdir
      exact Triple.ret fun fs h => ⟨h.1, List.forall_mem_cons.mpr ⟨he, h.2⟩⟩

theorem listSorted_triple (d : Dir) :
    Triple (fun fs => fs.dir = d) listSorted
      (fun es fs => fs.dir = d ∧ ∀ e ∈ es, e ∈ pending d) (fun _ fs => fs.dir = d) := by
  refine (syscall_triple (· = d) _).bind fun _ => ?_
  refine Triple.bind (Triple.read (Q := fun fs fs' => fs' = fs ∧ fs.dir = d)
    fun fs h => ⟨rfl, h⟩) fun fs => ?_
  refine Triple.conseq (readAll_triple d _ ?_) (fun _ h => h.1 ▸ h.2) (fun _ _ h => h)
    (fun _ _ h => h)
  intro name hname
  rw [List.mem_insertionSort, List.mem_filter] at hname
  exact hname.2

/-- A staging file is none of the journal's entries. -/
theorem Staging.not_isDeferred {e : DeferEntry} {name : String} (h : Staging e name) :
    isDeferred name = false := by
  obtain ⟨nanos, rfl⟩ := h
  exact not_isDeferred_stagingName e nanos

theorem not_isDeferred_manualClearFilename (e : DeferEntry) :
    isDeferred e.manualClearFilename = false := by
  simp [isDeferred, e.extension_manualClearFilename]

/-- Whatever is pending afterwards was pending before, or is new. -/
theorem mem_pending_of_touched {gone scratch : String → Prop} {new : DeferEntry → Prop}
    {d d' : Dir} (h : Touched gone scratch new d d')
    (hscratch : ∀ name, scratch name → isDeferred name = false) {e : DeferEntry}
    (he : e ∈ pending d') : e ∈ pending d ∨ new e := by
  obtain ⟨name, hname, hl⟩ := mem_pending.mp he
  have hnot : ¬ scratch name := fun hs => by simp [hscratch name hs] at hname
  rcases h name hnot with heq | ⟨-, hnone⟩ | ⟨e', hnew, -, hl'⟩
  · exact .inl (mem_pending.mpr ⟨name, hname, heq ▸ hl⟩)
  · rw [hl] at hnone
    cases hnone
  · rw [hl] at hl'
    obtain rfl : e = e' := by simpa using hl'
    exact .inr hnew

/-! ## `enqueue` -/

/-- The file of an entry that `e` makes superfluous. -/
def Outdone (d : Dir) (e : DeferEntry) (name : String) : Prop :=
  ∃ q ∈ pending d, q.key = e.key ∧ subsumes e.action q.action = true ∧ name = q.filename

/-- With an id of its own such an entry is found, and its file is what goes. -/
def Superseded (d : Dir) (e : DeferEntry) (name : String) : Prop :=
  ∃ q ∈ pending d, q.key = e.key ∧ q.id ≠ e.id ∧ subsumes e.action q.action = true ∧
    name = q.filename

theorem Superseded.outdone {d : Dir} {e : DeferEntry} {name : String} (h : Superseded d e name) :
    Outdone d e name := by
  obtain ⟨q, hq, hkey, -, hsub, hname⟩ := h
  exact ⟨q, hq, hkey, hsub, hname⟩

theorem removeSubsumed_touches (d : Dir) (e : DeferEntry) (olds : List DeferEntry)
    (holds : ∀ q ∈ olds, q ∈ pending d ∧ q.key = e.key ∧ q.id ≠ e.id) :
    (removeSubsumed e olds).Touches (Superseded d e) nothing nothing := by
  induction olds with
  | nil => exact FsM.Touches.ret false
  | cons old olds ih =>
    obtain ⟨⟨hpending, hkey, hid⟩, holds⟩ := List.forall_mem_cons.mp holds
    unfold removeSubsumed
    by_cases hsub : subsumes e.action old.action = true
    · rw [if_pos hsub]
      have hfile : (removeFile old.filename).Touches (Superseded d e) nothing nothing :=
        removeFile_touches (.inl ⟨old, hpending, hkey, hid, hsub, rfl⟩)
      refine hfile.attempt.bind fun result => ?_
      match result with
      | .ok () => exact (ih holds).bind fun _ => FsM.Touches.ret true
      | .error (.io _ .notFound) => exact ih holds
      | .error (.io _ (.other _)) | .error (.serde _) | .error .clock
      | .error (.unsafeRoot _ _) => exact FsM.Touches.raise _
    · rw [if_neg hsub]
      exact ih holds

/-- **`enqueue` on any disk.**  Whatever fails, only files of entries that the new
    one supersedes may go, and only the new one is written; when nothing fails, the
    journal held something that covers it, or holds it now. -/
theorem enqueue_triple_superseded (d : Dir) (e : DeferEntry) :
    Triple (fun fs => fs.dir = d) (enqueue e)
      (fun _ fs => Touched (Superseded d e) (Staging e) (· = e) d fs.dir ∧
        ((fs.dir = d ∧ Covered d e) ∨ fs.dir.lookup e.filename = some (.entry e)))
      (fun _ fs => Touched (Superseded d e) (Staging e) (· = e) d fs.dir) := by
  refine Triple.bind ((listSorted_triple d).conseq (fun _ h => h) (fun _ _ h => h)
    (fun _ _ h => Touched.of_eq h)) fun existing => ?_
  refine Triple.of_fact fun hexisting => ?_
  have holds : ∀ q ∈ sameTarget e existing, q ∈ pending d ∧ q.key = e.key := by
    intro q hq
    obtain ⟨hmem, hkey⟩ := mem_sameTarget.mp hq
    exact ⟨hexisting q hmem, hkey⟩
  by_cases hexists : (sameTarget e existing).any (fun q => q.id = e.id)
  · obtain ⟨q, hq, hid⟩ := List.any_eq_true.mp hexists
    simp only [if_pos hexists]
    exact Triple.ret fun fs hfs => ⟨Touched.of_eq hfs,
      .inl ⟨hfs, q, (holds q hq).1, (holds q hq).2, .inl (by simpa using hid)⟩⟩
  by_cases hsub : (sameTarget e existing).any (fun q => subsumes q.action e.action)
  · obtain ⟨q, hq, hsubsumes⟩ := List.any_eq_true.mp hsub
    simp only [if_neg hexists, if_pos hsub]
    exact Triple.ret fun fs hfs => ⟨Touched.of_eq hfs,
      .inl ⟨hfs, q, (holds q hq).1, (holds q hq).2, .inr hsubsumes⟩⟩
  · simp only [if_neg hexists, if_neg hsub]
    have hfound : ∀ q ∈ sameTarget e existing, q ∈ pending d ∧ q.key = e.key ∧ q.id ≠ e.id := by
      refine fun q hq => ⟨(holds q hq).1, (holds q hq).2, fun hid => hexists ?_⟩
      exact List.any_eq_true.mpr ⟨q, hq, by simpa using hid⟩
    have hremove : (removeSubsumed e (sameTarget e existing)).Touches (Superseded d e) (Staging e)
        (· = e) := (removeSubsumed_touches d e _ hfound).mono (fun _ h => h)
          (fun _ h => h.elim) (fun _ h => h.elim)
    have hwrite : ∀ result, Triple (fun fs => Touched (Superseded d e) (Staging e) (· = e) d fs.dir)
        (do atomicWrite e; pure result : FsM EnqueueResult)
        (fun _ fs => Touched (Superseded d e) (Staging e) (· = e) d fs.dir ∧
          ((fs.dir = d ∧ Covered d e) ∨ fs.dir.lookup e.filename = some (.entry e)))
        (fun _ fs => Touched (Superseded d e) (Staging e) (· = e) d fs.dir) := by
      intro result
      have hmore : ∀ d' d'', Touched nothing (Staging e) (· = e) d' d'' →
          Touched (Superseded d e) (Staging e) (· = e) d' d'' := fun d' d'' h =>
        h.mono (fun _ h => h.elim) (fun _ h => h) (fun _ h => h)
      refine Triple.bind ?_ fun _ => Triple.ret fun fs hfs => hfs
      refine Triple.of_state fun fs hfs => ?_
      refine (atomicWrite_triple fs.dir e).conseq (fun _ hs => hs ▸ rfl) (fun _ fs' h => ?_)
        (fun _ fs' h => ?_)
      · exact ⟨hfs.trans (hmore _ _ h.1), .inr h.2⟩
      · exact hfs.trans (hmore _ _ h)
    refine Triple.conseq (P := fun fs => Touched (Superseded d e) (Staging e) (· = e) d fs.dir) ?_
      (fun fs hfs => Touched.of_eq hfs) (fun _ _ h => h) (fun _ _ h => h)
    refine (hremove.triple d).bind fun replaced => ?_
    cases replaced with
    | true =>
      refine (fsyncDir_touches.triple d).bind fun _ => ?_
      exact hwrite .replacedLowerPriority
    | false => exact hwrite .created

theorem enqueue_triple (d : Dir) (e : DeferEntry) :
    Triple (fun fs => fs.dir = d) (enqueue e)
      (fun _ fs => Touched (Outdone d e) (Staging e) (· = e) d fs.dir ∧
        ((fs.dir = d ∧ Covered d e) ∨ fs.dir.lookup e.filename = some (.entry e)))
      (fun _ fs => Touched (Outdone d e) (Staging e) (· = e) d fs.dir) := by
  have hmore : ∀ d', Touched (Superseded d e) (Staging e) (· = e) d d' →
      Touched (Outdone d e) (Staging e) (· = e) d d' := fun d' h =>
    h.mono (fun _ h => h.outdone) (fun _ h => h) (fun _ h => h)
  exact (enqueue_triple_superseded d e).conseq (fun _ h => h)
    (fun _ fs h => ⟨hmore _ h.1, h.2⟩) (fun _ fs h => hmore _ h)

end Journal

end Bosun
