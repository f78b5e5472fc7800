import Bosun.EnqueueFaults
import Bosun.FaultyEntries
import Bosun.JournalOracle

/-!
# Journal files that bosun has not written

The version of the format is stored in each file and the name of the file can be
computed from what it holds, but reading looks at neither.  `remove`, `bump_attempt`
and `move_to_manual_clear` go by the computed name, so an entry in a file of another
name is carried out again in every cycle.

`reading_strict_iff` says that there is no other protection: reading is strict, and
what has been carried out is not dispatched again, exactly when all files are of this
version and under their own names to begin with.
-/

namespace Bosun

/-- Every pending entry is of the current version and under its own name. -/
def CurrentFiles (d : Dir) : Prop :=
  ∀ name e, Journal.isDeferred name = true → d.lookup name = some (.entry e) →
    e.specVersion = CURRENT_SPEC_VERSION ∧ name = e.filename

theorem CurrentFiles.ownNames {d : Dir} (h : CurrentFiles d) : OwnNames d :=
  fun name e hname hl => (h name e hname hl).2

/-- What is read is of the current version, and each entry comes from the file of its
    own name. -/
def ReadsStrictly (d : Dir) : Prop :=
  ∀ fs es fs', fs.dir = d → Journal.listSorted fs = .ok es fs' →
    (es.map DeferEntry.filename).Sublist (Journal.deferredNames d) ∧
    ∀ e ∈ es, e.specVersion = CURRENT_SPEC_VERSION ∧ d.lookup e.filename = some (.entry e)

/-! ## Reading -/

namespace Journal

theorem mem_deferredNames_of_lookup {d : Dir} {name : String} {content : FileContent}
    (hname : isDeferred name = true) (hl : d.lookup name = some content) :
    name ∈ deferredNames d := by
  rw [deferredNames, List.mem_insertionSort, List.mem_filter]
  refine ⟨?_, hname⟩
  rw [← AList.mem_keys, ← AList.lookup_isSome, hl]
  rfl

theorem nodup_deferredNames (d : Dir) : (deferredNames d).Nodup :=
  (List.perm_insertionSort _ _).nodup_iff.mpr (d.nodupKeys.filter _)

theorem readAll_own (d : Dir) (hown : OwnNames d) (names : List String)
    (hnames : ∀ name ∈ names, isDeferred name = true) :
    Triple (fun fs => fs.dir = d) (readAll names)
      (fun es fs => fs.dir = d ∧ (es.map DeferEntry.filename).Sublist names)
      (fun _ fs => fs.dir = d) := by
  induction names with
  | nil => exact Triple.ret fun _ hfs => ⟨hfs, List.Sublist.slnil⟩
  | cons name names ih =>
    obtain ⟨hname, hnames⟩ := List.forall_mem_cons.mp hnames
    have hread : Triple (fun fs => fs.dir = d) (readEntry name)
        (fun e fs => fs.dir = d ∧ name = e.filename) (fun _ fs => fs.dir = d) := by
      refine (syscall_triple (· = d) _).bind fun _ => ?_
      refine Triple.bind (Triple.read (Q := fun fs fs' => fs' = fs ∧ fs.dir = d)
        fun fs h => ⟨rfl, h⟩) fun fs => ?_
      rintro fs' ⟨rfl, hdir⟩
      match hl : fs'.dir.lookup name with
      | none => exact hdir
      | some .corrupt => exact hdir
      | some (.entry e) => exact ⟨hdir, hown name e hname (hdir ▸ hl)⟩
    refine Triple.bind (triple_attempt hread) fun result => ?_
    cases result with
    | error err =>
      exact (ih hnames).conseq (fun _ h => h) (fun _ _ h => ⟨h.1, h.2.cons _⟩) (fun _ _ h => h)
    | ok e =>
      intro fs hfs
      refine Triple.bind (P := fun fs => fs.dir = d) (ih hnames) (fun es => ?_) fs hfs.1
      refine Triple.ret fun fs h => ⟨h.1, ?_⟩
      rw [List.map_cons, ← hfs.2]
      exact h.2.cons_cons _

end Journal

theorem CurrentFiles.readsStrictly {d : Dir} (h : CurrentFiles d) : ReadsStrictly d := by
  intro fs es fs' hfs hrun
  have hlisted : Triple (fun fs => fs.dir = d) Journal.listSorted
      (fun es fs => fs.dir = d ∧ (es.map DeferEntry.filename).Sublist (Journal.deferredNames d))
      (fun _ fs => fs.dir = d) := by
    refine (Journal.syscall_triple (· = d) _).bind fun _ => ?_
    refine Triple.bind (Triple.read (Q := fun fs fs' => fs' = fs ∧ fs.dir = d)
      fun fs h => ⟨rfl, h⟩) fun fs => ?_
    refine Triple.of_state fun fs' ⟨hfs, hdir⟩ => ?_
    subst hfs
    refine (Journal.readAll_own d h.ownNames _ ?_).conseq (fun s hs => by rw [hs]; exact hdir)
      (fun es fs h => ⟨h.1, by rw [Journal.deferredNames, ← hdir]; exact h.2⟩) (fun _ _ h => h)
    intro name hname
    rw [List.mem_insertionSort, List.mem_filter] at hname
    exact hname.2
  refine ⟨(hlisted.ok hfs hrun).2, fun e he => ?_⟩
  obtain ⟨name, hname, hl⟩ := Journal.mem_pending.mp
    (((Journal.listSorted_triple d).ok hfs hrun).2 e he)
  obtain ⟨hversion, rfl⟩ := h name e hname hl
  exact ⟨hversion, hl⟩

/-- On a disk without faults everything is read. -/
theorem ReadsStrictly.currentFiles {d : Dir} (h : ReadsStrictly d) : CurrentFiles d := by
  intro name e hname hl
  obtain ⟨ops, hops⟩ := Journal.listSorted_settles
    (show (⟨d, 0, fun _ => none, fun _ => some 0⟩ : Fs).Healthy from ⟨fun _ => rfl, fun _ => rfl⟩)
  obtain ⟨hsub, hall⟩ := h _ _ _ rfl hops
  have hmem : e ∈ Journal.pending d := Journal.mem_pending.mpr ⟨name, hname, hl⟩
  obtain ⟨hversion, hown⟩ := hall e hmem
  refine ⟨hversion, ?_⟩
  by_contra hne
  -- two files with the same entry would be read to the same name twice
  have hnodup := hsub.nodup (Journal.nodup_deferredNames d)
  unfold List.Nodup Journal.pending at hnodup
  rw [List.pairwise_map, List.pairwise_filterMap] at hnodup
  have hdiffer : (Journal.deferredNames d).Pairwise fun a b => ∀ p,
      d.lookup a = some (.entry p) → ∀ q, d.lookup b = some (.entry q) →
        p.filename ≠ q.filename :=
    hnodup.imp fun hab p hp q hq => hab p (by simp only [hp]) q (by simp only [hq])
  have : Std.Symm fun a b => ∀ p, d.lookup a = some (.entry p) →
      ∀ q, d.lookup b = some (.entry q) → p.filename ≠ q.filename :=
    ⟨fun a b hab p hp q hq => (hab q hq p hp).symm⟩
  exact hdiffer.forall (Journal.mem_deferredNames_of_lookup hname hl)
    (Journal.mem_deferredNames_of_lookup (Journal.isDeferred_filename e) hown) hne e hl e hown rfl

/-! ## Cycles -/

/-- Cycles, enqueues, and what else happens on the host. -/
inductive JournalStep (W : Type)
  | cycle (args : ReplayArgs W)
  | enqueue (e : DeferEntry)
  | outside (f : W → W)

namespace JournalStep

variable {W : Type}

def run : JournalStep W → Machine W → Machine W
  | cycle args, m => (args.replayWithHealthCheck m).2
  | enqueue e, m => (m.journal (Journal.enqueue e)).2
  | outside f, m => { m with world := f m.world }

def runAll (steps : List (JournalStep W)) (m : Machine W) : Machine W :=
  steps.foldl (fun m step => step.run m) m

end JournalStep

/-- What a cycle puts on record, started from `m`. -/
def ReplayArgs.events {W : Type} (args : ReplayArgs W) (m : Machine W) : List Event :=
  (args.replayWithHealthCheck m).2.trace.drop m.trace.length

/-- Action and health check of `e` have succeeded. -/
def Succeeded (e : DeferEntry) (events : List Event) : Prop :=
  .dispatched e (.ok ()) ∈ events ∧
    (e.healthCheck.isSome = true → .healthChecked e (.ok ()) ∈ events)

/-- On a disk without faults, an entry that has succeeded in one cycle is dispatched in
    a later one only if it has been enqueued again. -/
def NeverRepeats (d : Dir) : Prop :=
  ∀ (W : Type) (m : Machine W) (before between : List (JournalStep W))
    (first second : ReplayArgs W) (e e' : DeferEntry), m.fs.dir = d → m.fs.Healthy →
    Succeeded e (first.events (JournalStep.runAll before m)) →
    e' ∈ dispatchedEntries
      (second.events (JournalStep.runAll (before ++ .cycle first :: between) m)) →
    e'.filename = e.filename →
    ∃ again, .enqueue again ∈ between ∧ again.filename = e.filename

/-! ## What is carried out is gone -/

variable {W : Type}

/-- Without faults, and with every pending entry under its own name. -/
structure Tidy (fs : Fs) : Prop where
  healthy : fs.Healthy
  own : OwnNames fs.dir

/-- One cycle on such a disk. -/
structure TidyCycle (m m' : Machine W) (events : List Event) : Prop where
  tidy : Tidy m'.fs
  absent : ∀ name, Journal.isDeferred name = true → m.fs.dir.lookup name = none →
    m'.fs.dir.lookup name = none
  present : ∀ e ∈ dispatchedEntries events, m.fs.dir.lookup e.filename = some (.entry e)
  gone : ∀ e, Succeeded e events → m'.fs.dir.lookup e.filename = none

/-- Files of other names are as they were. -/
theorem Spared.lookup_other {fates : List (DeferEntry × Fate)} {dir dir' : Dir} {name : String}
    (h : Spared fates dir dir') (hname : Journal.isDeferred name = true)
    (hne : ∀ p ∈ fates, name ≠ p.1.filename) : dir'.lookup name = dir.lookup name := by
  have hother : ∀ p ∈ fates, name ≠ p.1.filename ∧
      ¬ (p.2.isFailure = true ∧ p.1.exhausted = true ∧ name = p.1.manualClearFilename) := by
    refine fun p hp => ⟨hne p hp, ?_⟩
    rintro ⟨-, -, rfl⟩
    simp [Journal.not_isDeferred_manualClearFilename] at hname
  rcases h name hother with heq | ⟨⟨p, -, -, nanos, rfl⟩, -⟩
  · exact heq
  · simp [Journal.not_isDeferred_stagingName] at hname

/-- The file of an entry that has met its fate holds that entry, if anything. -/
theorem Placed.filename_eq {e p : DeferEntry} {fate : Fate} {dir : Dir} (h : Placed e fate dir)
    (hl : dir.lookup e.filename = some (.entry p)) : e.filename = p.filename := by
  have hkept : dir.lookup e.filename = some (.entry e) → e.filename = p.filename := by
    intro h
    rw [hl] at h
    obtain rfl : p = e := by simpa using h
    rfl
  have hspent : (if e.exhausted = true then dir.lookup e.filename = none ∧
      dir.lookup e.manualClearFilename = some (.entry e.bumped)
      else dir.lookup e.filename = some (.entry e.bumped)) → e.filename = p.filename := by
    intro h
    split at h
    · rw [hl] at h
      cases h.1
    · rw [hl] at h
      obtain rfl : p = e.bumped := by simpa using h
      rfl
  cases fate with
  | executed =>
    rw [Placed, hl] at h
    cases h
  | unavailable => exact hkept h
  | healthCheckCancelled => exact hkept h
  | notReached => exact hkept h
  | actionFailed _ => exact hspent h
  | healthCheckFailed _ => exact hspent h

/-- Success on record means that the entry was executed. -/
theorem executed_of_succeeded {fates : List (DeferEntry × Fate)} {e : DeferEntry}
    (hpossible : ∀ p ∈ fates, p.2.Possible p.1)
    (h : Succeeded e (fates.flatMap fun p => p.2.events p.1)) : (e, .executed) ∈ fates := by
  cases hcheck : e.healthCheck.isSome with
  | true =>
    obtain ⟨⟨p, fate⟩, hp, hmem⟩ := List.mem_flatMap.mp (h.2 hcheck)
    have hexecuted : p = e ∧ fate = .executed := by
      cases fate with
      | executed =>
        simp only [Fate.events] at hmem
        split at hmem <;> simp at hmem
        exact ⟨hmem.symm, rfl⟩
      | _ => simp [Fate.events] at hmem
    rw [← hexecuted.1, ← hexecuted.2]
    exact hp
  | false =>
    obtain ⟨⟨p, fate⟩, hp, hmem⟩ := List.mem_flatMap.mp h.1
    have hentry : p = e := by
      cases fate <;> simp [Fate.events] at hmem <;> exact hmem.symm
    subst hentry
    have hfate := hpossible (p, fate) hp
    cases fate with
    | executed => exact hp
    | healthCheckCancelled => simp [Fate.Possible, hcheck] at hfate
    | healthCheckFailed err => simp [Fate.Possible, hcheck] at hfate
    | _ => simp [Fate.events] at hmem

theorem ReplayArgs.tidyCycle (args : ReplayArgs W) {m : Machine W} (hm : Tidy m.fs) :
    TidyCycle m (args.replayWithHealthCheck m).2 (args.events m) := by
  obtain ⟨ops, hops⟩ := Machine.journal_of_settles (Journal.listSorted_settles hm.healthy)
  obtain ⟨fates, m', hrun, -, hhealthy, htrace, hcourse, hplaced, hspared⟩ :=
    args.replayEntries_fates (Journal.pending m.fs.dir) .zero
      (m := { m with fs := m.fs.withDir m.fs.dir ops }) (hm.healthy.withDir _ ops)
      (hm.own.pairwise_pending.imp fun hlt => ne_of_lt hlt) (fun e he => hm.own.lookup he)
  have hend : args.replayWithHealthCheck m = (.ok (ReplayReport.zero.countAll fates), m') := by
    rw [replayWithHealthCheck, hops]
    exact hrun
  have hevents : args.events m = fates.flatMap fun p => p.2.events p.1 := by
    rw [events, hend, htrace, List.drop_left]
  have hpending : ∀ p ∈ fates, p.1 ∈ Journal.pending m.fs.dir := by
    intro p hp
    rw [← hcourse.entries]
    exact List.mem_map_of_mem hp
  rw [hend, hevents]
  refine ⟨⟨hhealthy, fun name e hname hl => ?_⟩, fun name hname hnone => ?_, fun e he => ?_,
    fun e he => ?_⟩
  · by_cases hfate : ∃ p ∈ fates, name = p.1.filename
    · obtain ⟨p, hp, rfl⟩ := hfate
      exact (hplaced p hp).filename_eq hl
    · push Not at hfate
      rw [hspared.lookup_other hname hfate] at hl
      exact hm.own name e hname hl
  · refine (hspared.lookup_other hname fun p hp heq => ?_).trans hnone
    have hl := hm.own.lookup (hpending p hp)
    rw [← heq, hnone] at hl
    cases hl
  · have hmem := (dispatchedEntries_flatMap fates).subset he
    rw [hcourse.entries] at hmem
    exact hm.own.lookup hmem
  · exact hplaced _ (executed_of_succeeded hcourse.possible he)

/-- What a step leaves behind. -/
theorem JournalStep.tidy_run (step : JournalStep W) {m : Machine W} (hm : Tidy m.fs) :
    Tidy (step.run m).fs ∧ ∀ name, Journal.isDeferred name = true → m.fs.dir.lookup name = none →
      (∀ e, step = .enqueue e → e.filename ≠ name) → (step.run m).fs.dir.lookup name = none := by
  cases step with
  | cycle args =>
    have hcycle := args.tidyCycle hm
    exact ⟨hcycle.tidy, fun name hname hnone _ => hcycle.absent name hname hnone⟩
  | outside f => exact ⟨hm, fun name _ hnone _ => hnone⟩
  | enqueue e =>
    have htouched : Touched (Journal.Outdone m.fs.dir e) (Journal.Staging e) (· = e) m.fs.dir
        (m.journal (Journal.enqueue e)).2.fs.dir := by
      have htriple := Journal.enqueue_triple m.fs.dir e m.fs rfl
      unfold Machine.journal
      cases hrun : Journal.enqueue e m.fs with
      | ok result fs =>
        rw [hrun] at htriple
        exact htriple.1
      | error err fs =>
        rw [hrun] at htriple
        exact htriple
    have hhealthy : (m.journal (Journal.enqueue e)).2.fs.Healthy := by
      have hkeeps := Journal.enqueue_keepsOracle e m.fs m.fs rfl
      unfold Machine.journal
      cases hrun : Journal.enqueue e m.fs with
      | ok result fs =>
        rw [hrun] at hkeeps
        exact hkeeps.healthy hm.healthy
      | error err fs =>
        rw [hrun] at hkeeps
        exact hkeeps.healthy hm.healthy
    have hfile : ∀ name, Journal.isDeferred name = true →
        (m.journal (Journal.enqueue e)).2.fs.dir.lookup name = m.fs.dir.lookup name ∨
        (m.journal (Journal.enqueue e)).2.fs.dir.lookup name = none ∨ name = e.filename ∧
        (m.journal (Journal.enqueue e)).2.fs.dir.lookup name = some (.entry e) := by
      intro name hname
      rcases htouched name (fun hs => by simp [hs.not_isDeferred] at hname) with
        heq | ⟨-, hnone⟩ | ⟨_, rfl, hfinal, hl⟩
      · exact .inl heq
      · exact .inr (.inl hnone)
      · exact .inr (.inr ⟨hfinal, hl⟩)
    refine ⟨⟨hhealthy, fun name p hname hl => ?_⟩, fun name hname hnone hne => ?_⟩
    · rcases hfile name hname with heq | hgone | ⟨hfinal, hnew⟩
      · exact hm.own name p hname (heq.symm.trans hl)
      · exact absurd (hgone.symm.trans hl) (by simp)
      · obtain rfl : e = p := by simpa using hnew.symm.trans hl
        exact hfinal
    · rcases hfile name hname with heq | hgone | ⟨hfinal, -⟩
      · exact heq.trans hnone
      · exact hgone
      · exact absurd hfinal.symm (hne e rfl)

theorem JournalStep.tidy_runAll (steps : List (JournalStep W)) {m : Machine W} (hm : Tidy m.fs) :
    Tidy (runAll steps m).fs ∧ ∀ name, Journal.isDeferred name = true →
      m.fs.dir.lookup name = none → (∀ e, .enqueue e ∈ steps → e.filename ≠ name) →
      (runAll steps m).fs.dir.lookup name = none := by
  induction steps generalizing m with
  | nil => exact ⟨hm, fun _ _ hnone _ => hnone⟩
  | cons step steps ih =>
    obtain ⟨htidy, habsent⟩ := step.tidy_run hm
    obtain ⟨htidy', habsent'⟩ := ih htidy
    refine ⟨htidy', fun name hname hnone hne => habsent' name hname ?_ fun e he =>
      hne e (List.mem_cons_of_mem _ he)⟩
    exact habsent name hname hnone fun e he => hne e (he ▸ List.mem_cons_self)

theorem CurrentFiles.neverRepeats {d : Dir} (h : CurrentFiles d) : NeverRepeats d := by
  intro W m before between first second e e' hd hfs hsucceeded hagain hname
  have hm : Tidy m.fs := ⟨hfs, hd ▸ h.ownNames⟩
  have hbefore := (JournalStep.tidy_runAll before hm).1
  have hfirst := first.tidyCycle hbefore
  have hbetween := JournalStep.tidy_runAll between hfirst.tidy
  have hrun : JournalStep.runAll (before ++ .cycle first :: between) m =
      JournalStep.runAll between
        (first.replayWithHealthCheck (JournalStep.runAll before m)).2 := by
    simp only [JournalStep.runAll, List.foldl_append, List.foldl_cons, JournalStep.run]
  rw [hrun] at hagain
  have hpresent := (second.tidyCycle hbetween.1).present e' hagain
  by_contra hnone
  push Not at hnone
  rw [hname, hbetween.2 e.filename (Journal.isDeferred_filename e) (hfirst.gone e hsucceeded)
    hnone] at hpresent
  cases hpresent

/-- **Reading is strict, and nothing that was carried out comes back, exactly when all
    files of the journal are of this version and under their own names.** -/
theorem reading_strict_iff (d : Dir) : ReadsStrictly d ∧ NeverRepeats d ↔ CurrentFiles d :=
  ⟨fun h => h.1.currentFiles, fun h => ⟨h.readsStrictly, h.neverRepeats⟩⟩

/-! ### A renamed file -/

/-- A restart that was copied to another name. -/
def renamedDir : Dir :=
  (∅ : Dir).insert "0r-copy.deferred" (.entry (Journal.plainEntry "runr" .restart "nginx"))

/-- The unit is restarted in every cycle. -/
theorem renamed_repeats : ¬ ReadsStrictly renamedDir ∧ ¬ NeverRepeats renamedDir := by
  refine ⟨fun hstrict => ?_, fun hnever => ?_⟩
  · have hown := (hstrict ⟨renamedDir, 0, fun _ => none, fun _ => some 0⟩
      [Journal.plainEntry "runr" .restart "nginx"] _ rfl rfl).2 _ List.mem_cons_self
    exact absurd hown.2 (by decide)
  · obtain ⟨again, hmem, -⟩ := hnever Nat
      ⟨⟨renamedDir, 0, fun _ => none, fun _ => some 0⟩, 0, []⟩ [] [] .obedient .obedient
      (Journal.plainEntry "runr" .restart "nginx") (Journal.plainEntry "runr" .restart "nginx") rfl
      ⟨fun _ => rfl, fun _ => rfl⟩ ⟨List.mem_cons_self, fun h => by cases h⟩ (by decide) rfl
    cases hmem

end Bosun
