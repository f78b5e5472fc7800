import Mathlib.Algebra.Order.Ring.WithTop
import Mathlib.Data.Nat.Cast.Order.Ring
import Mathlib.Order.Lattice.Nat
import Bosun.JournalSpec
import Bosun.Library.Board

/-!
# The restart family in the journal

`restart`, `reload_or_restart` and `reload` of one unit are three strengths of
one wish, and the journal keeps the strongest.  What it keeps for a unit is a
`Board`: `enqueue` is an offer (`shows_enqueue`), so what remains after a list
of enqueues is the maximum, in whatever order they come.

Two things are asked of the entries.  The tags of the init systems have no dot;
otherwise two units can share a file name.  And `bump_attempt` is called with an
entry the journal holds, as the replay does; on any other entry it would bring
back a file that had gone.
-/

namespace Bosun

/-- Strength within the restart family; `⊥` outside it. -/
def DeferAction.strength : DeferAction → WithBot ℕ
  | restart => (2 : ℕ)
  | reloadOrRestart => (1 : ℕ)
  | reload => (0 : ℕ)
  | _ => ⊥

theorem DeferAction.strength_inj {a b : DeferAction} (ha : a.strength ≠ ⊥)
    (h : a.strength = b.strength) : a = b := by
  cases a <;> cases b <;> simp_all [strength]

theorem DeferAction.onUnit_of_strength {a : DeferAction} (ha : a.strength ≠ ⊥) :
    a.onUnit = true := by
  cases a <;> simp [strength] at ha <;> rfl

namespace Journal

theorem subsumes_iff {a b : DeferAction} :
    subsumes a b = true ↔ b.strength ≠ ⊥ ∧ b.strength < a.strength := by
  cases a <;> cases b <;> simp [subsumes, DeferAction.strength]

/-! ## Directories the program itself has written -/

/-- Every pending entry is stored under its own name and is well named. -/
structure Orderly (dir : Dir) : Prop where
  own : ∀ name e, isDeferred name = true → dir.lookup name = some (.entry e) →
    name = e.filename
  wellNamed : ∀ e ∈ pending dir, e.WellNamed

theorem isDeferred_filename (e : DeferEntry) : isDeferred e.filename = true := by
  simp [isDeferred, e.extension_filename]

theorem Orderly.mem_iff {dir : Dir} (h : Orderly dir) {e : DeferEntry} :
    e ∈ pending dir ↔ dir.lookup e.filename = some (.entry e) := by
  rw [mem_pending]
  constructor
  · rintro ⟨name, hname, hl⟩
    rwa [← h.own name e hname hl]
  · intro hl
    exact ⟨e.filename, isDeferred_filename e, hl⟩

theorem Orderly.eq_of_filename {dir : Dir} (h : Orderly dir) {p q : DeferEntry}
    (hp : p ∈ pending dir) (hq : q ∈ pending dir) (hname : p.filename = q.filename) : p = q := by
  rw [h.mem_iff] at hp hq
  rw [hname, hq] at hp
  simpa using hp.symm

/-- It is enough that each deferred file is an old one or well placed. -/
theorem Orderly.of_lookup {dir dir' : Dir} (h : Orderly dir)
    (hnew : ∀ name e, isDeferred name = true → dir'.lookup name = some (.entry e) →
      dir.lookup name = some (.entry e) ∨ (name = e.filename ∧ e.WellNamed)) : Orderly dir' := by
  refine ⟨fun name e hname hl => ?_, fun e he => ?_⟩
  · rcases hnew name e hname hl with hold | ⟨hown, -⟩
    · exact h.own name e hname hold
    · exact hown
  · obtain ⟨name, hname, hl⟩ := mem_pending.mp he
    rcases hnew name e hname hl with hold | ⟨-, hwell⟩
    · exact h.wellNamed e (mem_pending.mpr ⟨name, hname, hold⟩)
    · exact hwell

theorem orderly_of_empty {dir : Dir} (h : ∀ name, dir.lookup name = none) : Orderly dir := by
  refine ⟨fun name e _ hl => by simp [h name] at hl, fun e he => ?_⟩
  obtain ⟨name, -, hl⟩ := mem_pending.mp he
  simp [h name] at hl

/-! ## What `enqueue` does -/

/-- What is pending after `e` has been written over what it makes superfluous. -/
structure Replaced (dir dir' : Dir) (e : DeferEntry) : Prop where
  orderly : Orderly dir'
  mem_iff : ∀ p, p ∈ pending dir' ↔ p = e ∨ (p ∈ pending dir ∧ p.filename ≠ e.filename ∧
    ¬ (p.key = e.key ∧ subsumes e.action p.action = true))

theorem removeSubsumed_settles (e : DeferEntry) (olds : List DeferEntry) {fs : Fs}
    (hfs : fs.Healthy) :
    ∃ replaced dir, Settles (removeSubsumed e olds) fs replaced dir ∧
      ∀ name, dir.lookup name =
        if ∃ q ∈ olds, subsumes e.action q.action = true ∧ q.filename = name then none
        else fs.dir.lookup name := by
  induction olds generalizing fs with
  | nil => exact ⟨false, fs.dir, Settles.pure _, by simp⟩
  | cons old olds ih =>
    by_cases hsub : subsumes e.action old.action = true
    · simp only [removeSubsumed, if_pos hsub]
      cases hl : fs.dir.lookup old.filename with
      | some content =>
        obtain ⟨ops, hops⟩ := (removeFile_settles hfs hl).attempt
        obtain ⟨replaced, dir, hrest, hdir⟩ :=
          ih (hfs.withDir (fs.dir.erase old.filename) ops)
        refine ⟨true, dir, Settles.bind_ok hops (hrest.bind fun ops' => Settles.pure _),
          fun name => ?_⟩
        rw [hdir, Fs.withDir_dir]
        by_cases hname : old.filename = name
        · subst hname
          simp [hsub, AList.lookup_erase]
        · rw [AList.lookup_erase_ne (Ne.symm hname)]
          simp [hname]
      | none =>
        obtain ⟨ops, hops⟩ := (removeFile_missing hfs hl).attempt
        obtain ⟨replaced, dir, hrest, hdir⟩ := ih (hfs.withDir fs.dir ops)
        refine ⟨replaced, dir, Settles.bind_ok hops hrest, fun name => ?_⟩
        rw [hdir, Fs.withDir_dir]
        by_cases hname : old.filename = name
        · subst hname
          simp [hl]
        · simp [hname]
    · obtain ⟨replaced, dir, hrest, hdir⟩ := ih hfs
      refine ⟨replaced, dir, by simpa only [removeSubsumed, if_neg hsub] using hrest, ?_⟩
      intro name
      rw [hdir]
      simp [hsub]

/-- The directory between the two writes of `enqueue`, and after them. -/
theorem replaced_of_written {dir mid dir' : Dir} {e : DeferEntry} {nanos : Nat}
    (hdir : Orderly dir) (he : e.WellNamed)
    (hmid : ∀ name, mid.lookup name =
      if ∃ q ∈ sameTarget e (pending dir), subsumes e.action q.action = true ∧
        q.filename = name then none
      else dir.lookup name)
    (hwritten : Written mid dir' e nanos) : Replaced dir dir' e := by
  have horderly : Orderly dir' := by
    refine hdir.of_lookup fun name p hname hl => ?_
    by_cases hfinal : name = e.filename
    · subst hfinal
      rw [hwritten.final] at hl
      obtain rfl : e = p := by simpa using hl
      exact .inr ⟨rfl, he⟩
    · left
      have hstaging : name ≠ stagingName e nanos := by
        rintro rfl
        simp [not_isDeferred_stagingName] at hname
      rw [hwritten.others name hfinal hstaging, hmid] at hl
      split at hl
      · cases hl
      · exact hl
  refine ⟨horderly, fun p => ?_⟩
  have hstaging : p.filename ≠ stagingName e nanos := by
    intro h
    have := isDeferred_filename p
    rw [h, not_isDeferred_stagingName] at this
    cases this
  rw [horderly.mem_iff]
  by_cases hfinal : p.filename = e.filename
  · rw [hfinal, hwritten.final, Option.some.injEq, FileContent.entry.injEq]
    constructor
    · exact fun h => .inl h.symm
    · rintro (h | ⟨-, hne, -⟩)
      · exact h.symm
      · exact absurd rfl hne
  · have hne : p ≠ e := fun h => hfinal (h ▸ rfl)
    rw [hwritten.others _ hfinal hstaging, hmid, hdir.mem_iff]
    constructor
    · intro hl
      split at hl
      · cases hl
      · rename_i hkept
        refine .inr ⟨hl, hfinal, fun ⟨hkey, hsub⟩ => hkept ?_⟩
        exact ⟨p, mem_sameTarget.mpr ⟨hdir.mem_iff.mpr hl, hkey⟩, hsub, rfl⟩
    · rintro (h | ⟨hl, -, hkept⟩)
      · exact absurd h hne
      · rw [if_neg, hl]
        rintro ⟨q, hq, hsub, hname⟩
        obtain ⟨hq, hkey⟩ := mem_sameTarget.mp hq
        obtain rfl := hdir.eq_of_filename hq (hdir.mem_iff.mpr hl) hname
        exact hkept ⟨hkey, hsub⟩

/-- **`enqueue`.**  Either the journal covers the new entry already and stays as
    it is, or the entry takes the place of what it makes superfluous. -/
theorem enqueue_settles {fs : Fs} (hfs : fs.Healthy) (hdir : Orderly fs.dir) {e : DeferEntry}
    (he : e.WellNamed) :
    ∃ result dir, Settles (enqueue e) fs result dir ∧
      ((Covered fs.dir e ∧ dir = fs.dir) ∨ (¬ Covered fs.dir e ∧ Replaced fs.dir dir e)) := by
  obtain ⟨ops, hops⟩ := listSorted_settles hfs
  by_cases hexists : (sameTarget e (pending fs.dir)).any (fun q => q.id = e.id)
  · refine ⟨.alreadyExists, fs.dir, Settles.bind_ok hops ?_, .inl ⟨?_, rfl⟩⟩
    · simp only [if_pos hexists]
      exact Settles.pure _
    · obtain ⟨q, hq, hid⟩ := List.any_eq_true.mp hexists
      exact ⟨q, (mem_sameTarget.mp hq).1, (mem_sameTarget.mp hq).2, .inl (by simpa using hid)⟩
  by_cases hsub : (sameTarget e (pending fs.dir)).any (fun q => subsumes q.action e.action)
  · refine ⟨.subsumed, fs.dir, Settles.bind_ok hops ?_, .inl ⟨?_, rfl⟩⟩
    · simp only [if_neg hexists, if_pos hsub]
      exact Settles.pure _
    · obtain ⟨q, hq, hsub⟩ := List.any_eq_true.mp hsub
      exact ⟨q, (mem_sameTarget.mp hq).1, (mem_sameTarget.mp hq).2, .inr hsub⟩
  · have hcovered : ¬ Covered fs.dir e := by
      rintro ⟨q, hq, hkey, hid | hq'⟩
      · exact hexists (List.any_eq_true.mpr ⟨q, mem_sameTarget.mpr ⟨hq, hkey⟩, by simpa using hid⟩)
      · exact hsub (List.any_eq_true.mpr ⟨q, mem_sameTarget.mpr ⟨hq, hkey⟩, hq'⟩)
    obtain ⟨replaced, mid, ⟨ops', hops'⟩, hmid⟩ := removeSubsumed_settles e
      (sameTarget e (pending fs.dir)) (hfs.withDir fs.dir ops)
    -- the directory is synced only if something was removed
    cases replaced with
    | true =>
      obtain ⟨ops'', hops''⟩ := fsyncDir_settles ((hfs.withDir fs.dir ops).withDir mid ops')
      obtain ⟨nanos, dir, hwrite, hwritten⟩ := atomicWrite_settles (hfs.withDir mid ops'') e
      refine ⟨.replacedLowerPriority, dir, Settles.bind_ok hops ?_,
        .inr ⟨hcovered, replaced_of_written hdir he hmid hwritten⟩⟩
      simp only [if_neg hexists, if_neg hsub]
      exact Settles.bind_ok hops' (Settles.bind_ok hops''
        (hwrite.bind fun ops => Settles.pure _))
    | false =>
      obtain ⟨nanos, dir, hwrite, hwritten⟩ := atomicWrite_settles (hfs.withDir mid ops') e
      refine ⟨.created, dir, Settles.bind_ok hops ?_,
        .inr ⟨hcovered, replaced_of_written hdir he hmid hwritten⟩⟩
      simp only [if_neg hexists, if_neg hsub]
      exact Settles.bind_ok hops' (hwrite.bind fun ops => Settles.pure _)

/-! ## The board -/

/-- At most one of the restart family for a unit. -/
def AtMostOne (dir : Dir) : Prop :=
  ∀ p ∈ pending dir, ∀ q ∈ pending dir, p.key = q.key →
    p.action.strength ≠ ⊥ → q.action.strength ≠ ⊥ → p = q

/-- For every unit the board shows the strength that is pending for it. -/
def Shows (dir : Dir) (board : String × String → WithBot ℕ) : Prop :=
  ∀ key, IsLUB {s | ∃ p ∈ pending dir, p.key = key ∧ p.action.strength = s} (board key)

/-- What the board shows is what remains. -/
theorem Shows.remains_iff {dir : Dir} {board : String × String → WithBot ℕ}
    (h : Shows dir board) (hone : AtMostOne dir) {key : String × String} {action : DeferAction}
    (hfamily : action.strength ≠ ⊥) :
    (∃ p ∈ pending dir, p.key = key ∧ p.action = action) ↔ board key = action.strength := by
  have hlub := h key
  constructor
  · rintro ⟨p, hp, rfl, rfl⟩
    refine hlub.unique ⟨?_, fun u hu => hu ⟨p, hp, rfl, rfl⟩⟩
    rintro s ⟨q, hq, hkey, rfl⟩
    by_cases hq' : q.action.strength = ⊥
    · rw [hq']
      exact bot_le
    · rw [hone q hq p hp hkey hq' hfamily]
  · intro heq
    by_contra hnone
    -- nothing in the family is pending for this unit, or only something else
    have hall : ∀ p ∈ pending dir, p.key = key → p.action.strength ≠ ⊥ → False := by
      intro p hp hkey hp'
      have hp_lub : IsLUB {s | ∃ q ∈ pending dir, q.key = key ∧ q.action.strength = s}
          p.action.strength := by
        refine ⟨?_, fun u hu => hu ⟨p, hp, hkey, rfl⟩⟩
        rintro s ⟨q, hq, hkey', rfl⟩
        by_cases hq' : q.action.strength = ⊥
        · rw [hq']
          exact bot_le
        · rw [hone q hq p hp (hkey'.trans hkey.symm) hq' hp']
      have hsame : action = p.action :=
        DeferAction.strength_inj hfamily (heq.symm.trans (hlub.unique hp_lub))
      exact hnone ⟨p, hp, hkey, hsame.symm⟩
    have hbot : board key = ⊥ := by
      refine hlub.unique ⟨?_, fun u _ => bot_le⟩
      rintro s ⟨q, hq, hkey, rfl⟩
      by_contra hq'
      exact hall q hq hkey fun h => hq' (le_of_eq h)
    exact hfamily (heq.symm.trans hbot)

section Enqueue

variable {dir dir' : Dir} {e : DeferEntry} (hdir : Orderly dir) (he : e.WellNamed)
include hdir he

/-- Of the family, something pending for the unit of `e` that does not cover `e`
    is weaker than `e`. -/
theorem subsumed_of_not_covered (hcovered : ¬ Covered dir e) (hfamily : e.action.strength ≠ ⊥)
    {q : DeferEntry} (hq : q ∈ pending dir) (hkey : q.key = e.key)
    (hq' : q.action.strength ≠ ⊥) : subsumes e.action q.action = true := by
  rcases lt_trichotomy q.action.strength e.action.strength with hlt | heq | hlt
  · exact subsumes_iff.mpr ⟨hq', hlt⟩
  · have haction := DeferAction.strength_inj hq' heq
    have hid : q.id = e.id := by
      obtain ⟨hinit, htarget⟩ := Prod.mk.inj hkey
      rw [(hdir.wellNamed q hq).canonical.id, he.canonical.id, hinit, haction, htarget]
    exact absurd ⟨q, hq, hkey, .inl hid⟩ hcovered
  · exact absurd ⟨q, hq, hkey, .inr (subsumes_iff.mpr ⟨hfamily, hlt⟩)⟩ hcovered

theorem AtMostOne.replaced (hone : AtMostOne dir) (hcovered : ¬ Covered dir e)
    (hrep : Replaced dir dir' e) : AtMostOne dir' := by
  intro p hp q hq hkey hp' hq'
  rcases (hrep.mem_iff p).mp hp with rfl | ⟨hp, -, hpkept⟩ <;>
    rcases (hrep.mem_iff q).mp hq with rfl | ⟨hq, -, hqkept⟩
  · rfl
  · exact absurd ⟨hkey.symm, subsumed_of_not_covered hdir he hcovered hp' hq hkey.symm hq'⟩ hqkept
  · exact absurd ⟨hkey, subsumed_of_not_covered hdir he hcovered hq' hp hkey hp'⟩ hpkept
  · exact hone p hp q hq hkey hp' hq'

theorem le_of_covered {board : String × String → WithBot ℕ} (hshows : Shows dir board)
    (hcovered : Covered dir e) : e.action.strength ≤ board e.key := by
  obtain ⟨q, hq, hkey, hcover⟩ := hcovered
  by_cases hfamily : e.action.strength = ⊥
  · rw [hfamily]
    exact bot_le
  · have hqle : q.action.strength ≤ board e.key := (hshows e.key).1 ⟨q, hq, hkey, rfl⟩
    rcases hcover with hid | hsub
    · have hunit := DeferAction.onUnit_of_strength hfamily
      have haction := he.action_of_id (hdir.wellNamed q hq) hunit hid.symm
      rwa [haction]
    · exact (subsumes_iff.mp hsub).2.le.trans hqle

/-- An `enqueue` that writes is an offer. -/
theorem Shows.replaced {board : String × String → WithBot ℕ} (hshows : Shows dir board)
    (hrep : Replaced dir dir' e) : Shows dir' (Board.offer board e.key e.action.strength) := by
  intro key
  by_cases hkey : key = e.key
  · subst hkey
    rw [Board.offer_self]
    refine ⟨?_, fun u hu => sup_le ?_ (hu ⟨e, (hrep.mem_iff e).mpr (.inl rfl), rfl, rfl⟩)⟩
    · rintro s ⟨p, hp, hkey, rfl⟩
      rcases (hrep.mem_iff p).mp hp with rfl | ⟨hp, -, -⟩
      · exact le_sup_right
      · exact ((hshows e.key).1 ⟨p, hp, hkey, rfl⟩).trans le_sup_left
    · have hnew : e.action.strength ≤ u := hu ⟨e, (hrep.mem_iff e).mpr (.inl rfl), rfl, rfl⟩
      refine (hshows e.key).2 ?_
      rintro s ⟨p, hp, hkey, rfl⟩
      by_cases hsub : subsumes e.action p.action = true
      · exact (subsumes_iff.mp hsub).2.le.trans hnew
      · by_cases hname : p.filename = e.filename
        · by_cases hp' : p.action.strength = ⊥
          · rw [hp']
            exact bot_le
          · have hunit := DeferAction.onUnit_of_strength hp'
            rwa [((hdir.wellNamed p hp).eq_of_filename he hunit hname).2]
        · exact hu ⟨p, (hrep.mem_iff p).mpr (.inr ⟨hp, hname, fun h => hsub h.2⟩), hkey, rfl⟩
  · rw [Board.offer_of_ne _ hkey]
    refine ⟨?_, fun u hu => (hshows key).2 ?_⟩
    · rintro s ⟨p, hp, rfl, rfl⟩
      rcases (hrep.mem_iff p).mp hp with rfl | ⟨hp, -, -⟩
      · exact absurd rfl hkey
      · exact (hshows p.key).1 ⟨p, hp, rfl, rfl⟩
    · rintro s ⟨p, hp, rfl, rfl⟩
      by_cases hp' : p.action.strength = ⊥
      · rw [hp']
        exact bot_le
      · have hunit := DeferAction.onUnit_of_strength hp'
        have hname : p.filename ≠ e.filename := fun hname =>
          hkey ((hdir.wellNamed p hp).eq_of_filename he hunit hname).1
        exact hu ⟨p, (hrep.mem_iff p).mpr (.inr ⟨hp, hname, fun h => hkey h.1⟩), rfl, rfl⟩

end Enqueue

/-! ## The other operations -/

/-- Removing a file, or moving it out of the pending ones. -/
theorem AtMostOne.subset {dir dir' : Dir} (h : AtMostOne dir)
    (hsub : ∀ p ∈ pending dir', p ∈ pending dir) : AtMostOne dir' :=
  fun p hp q hq => h p (hsub p hp) q (hsub q hq)

/-- Writing a pending entry back with another count of attempts. -/
theorem AtMostOne.bumped {dir dir' : Dir} {e : DeferEntry} {nanos : Nat} (hdir : Orderly dir)
    (hone : AtMostOne dir) (he : e ∈ pending dir) (hwritten : Written dir dir' e.bumped nanos) :
    Orderly dir' ∧ AtMostOne dir' := by
  have hnew : ∀ name p, isDeferred name = true → dir'.lookup name = some (.entry p) →
      (name = e.filename ∧ p = e.bumped) ∨
        (name ≠ e.filename ∧ dir.lookup name = some (.entry p)) := by
    intro name p hname hl
    by_cases hfinal : name = e.filename
    · subst hfinal
      have hfinal := hwritten.final
      rw [DeferEntry.filename_bumped, hl] at hfinal
      exact .inl ⟨rfl, by simpa using hfinal⟩
    · refine .inr ⟨hfinal, ?_⟩
      rw [← hwritten.others name hfinal ?_, hl]
      rintro rfl
      simp [not_isDeferred_stagingName] at hname
  have horderly : Orderly dir' := by
    refine hdir.of_lookup fun name p hname hl => ?_
    rcases hnew name p hname hl with ⟨rfl, rfl⟩ | ⟨-, hold⟩
    · exact .inr ⟨rfl, (hdir.wellNamed e he).bumped⟩
    · exact .inl hold
  -- every pending entry stands for an old one with the same unit and action
  have hold : ∀ p ∈ pending dir', ∃ q ∈ pending dir, q.key = p.key ∧ q.action = p.action ∧
      q.filename = p.filename := by
    intro p hp
    rcases hnew p.filename p (isDeferred_filename p) (horderly.mem_iff.mp hp) with
      ⟨-, rfl⟩ | ⟨-, hl⟩
    · exact ⟨e, he, rfl, rfl, rfl⟩
    · exact ⟨p, hdir.mem_iff.mpr hl, rfl, rfl, rfl⟩
  refine ⟨horderly, fun p hp q hq hkey hp' hq' => ?_⟩
  obtain ⟨p₀, hp₀, hpkey, hpact, hpname⟩ := hold p hp
  obtain ⟨q₀, hq₀, hqkey, hqact, hqname⟩ := hold q hq
  have heq : p₀ = q₀ := hone p₀ hp₀ q₀ hq₀ (by rw [hpkey, hqkey, hkey]) (by rwa [hpact])
    (by rwa [hqact])
  exact horderly.eq_of_filename hp hq (by rw [← hpname, ← hqname, heq])

theorem orderly_of_sublookup {dir dir' : Dir} (hdir : Orderly dir)
    (hsub : ∀ name e, isDeferred name = true → dir'.lookup name = some (.entry e) →
      dir.lookup name = some (.entry e)) :
    Orderly dir' ∧ ∀ p ∈ pending dir', p ∈ pending dir := by
  refine ⟨hdir.of_lookup fun name e hname hl => .inl (hsub name e hname hl), fun p hp => ?_⟩
  obtain ⟨name, hname, hl⟩ := mem_pending.mp hp
  exact mem_pending.mpr ⟨name, hname, hsub name p hname hl⟩

/-! ## Runs -/

/-- The file system after an operation, whether it succeeded or not. -/
def after {α : Type} (x : FsM α) (fs : Fs) : Fs :=
  match x fs with
  | .ok _ fs => fs
  | .error _ fs => fs

theorem after_of_settles {α : Type} {x : FsM α} {fs : Fs} {a : α} {dir : Dir}
    (h : Settles x fs a dir) : ∃ ops, after x fs = fs.withDir dir ops := by
  obtain ⟨ops, hops⟩ := h
  exact ⟨ops, by rw [after, hops]⟩

theorem after_of_fails {α : Type} {x : FsM α} {fs : Fs} {err : DeferError} {dir : Dir}
    (h : Fails x fs err dir) : ∃ ops, after x fs = fs.withDir dir ops := by
  obtain ⟨ops, hops⟩ := h
  exact ⟨ops, by rw [after, hops]⟩

inductive Op
  | enqueue (e : DeferEntry)
  | remove (e : DeferEntry)
  | bumpAttempt (e : DeferEntry)
  | moveToManualClear (e : DeferEntry)

namespace Op

def entry : Op → DeferEntry
  | enqueue e | remove e | bumpAttempt e | moveToManualClear e => e

def run : Op → Fs → Fs
  | enqueue e, fs => after (Journal.enqueue e) fs
  | remove e, fs => after (Journal.remove e) fs
  | bumpAttempt e, fs => after (Journal.bumpAttempt e) fs
  | moveToManualClear e, fs => after (Journal.moveToManualClear e) fs

/-- `bump_attempt` is called with a pending entry. -/
def Permitted (fs : Fs) : Op → Prop
  | bumpAttempt e => e ∈ pending fs.dir
  | _ => True

end Op

def runOps (ops : List Op) (fs : Fs) : Fs := ops.foldl (fun fs op => op.run fs) fs

/-- Every operation is about a well named entry and permitted when it is made. -/
def Allowed : List Op → Fs → Prop
  | [], _ => True
  | op :: ops, fs => op.entry.WellNamed ∧ op.Permitted fs ∧ Allowed ops (op.run fs)

/-- What all operations keep. -/
structure Kept (fs : Fs) : Prop where
  healthy : fs.Healthy
  orderly : Orderly fs.dir
  one : AtMostOne fs.dir

theorem Kept.enqueue {fs : Fs} (h : Kept fs) {e : DeferEntry} (he : e.WellNamed) :
    Kept ((Op.enqueue e).run fs) ∧
      (((Op.enqueue e).run fs).dir = fs.dir ∧ Covered fs.dir e ∨
        ¬ Covered fs.dir e ∧ Replaced fs.dir ((Op.enqueue e).run fs).dir e) := by
  obtain ⟨result, dir, hsettles, hcase⟩ := enqueue_settles h.healthy h.orderly he
  obtain ⟨ops, hops⟩ := after_of_settles hsettles
  have hrun : (Op.enqueue e).run fs = fs.withDir dir ops := hops
  rw [hrun]
  rcases hcase with ⟨hcovered, rfl⟩ | ⟨hcovered, hrep⟩
  · exact ⟨⟨h.healthy.withDir _ _, h.orderly, h.one⟩, .inl ⟨rfl, hcovered⟩⟩
  · exact ⟨⟨h.healthy.withDir _ _, hrep.orderly, h.one.replaced h.orderly he hcovered hrep⟩,
      .inr ⟨hcovered, hrep⟩⟩

theorem Kept.run {fs : Fs} (h : Kept fs) {op : Op} (he : op.entry.WellNamed)
    (hop : op.Permitted fs) : Kept (op.run fs) := by
  cases op with
  | enqueue e => exact (h.enqueue he).1
  | remove e =>
    obtain ⟨dir, hsettles, hgone, hothers⟩ := remove_settles h.healthy e
    obtain ⟨ops, hops⟩ := after_of_settles hsettles
    have hold : ∀ name p, isDeferred name = true → dir.lookup name = some (.entry p) →
        fs.dir.lookup name = some (.entry p) := by
      intro name p _ hl
      by_cases hname : name = e.filename
      · rw [hname, hgone] at hl
        cases hl
      · rwa [← hothers name hname]
    obtain ⟨horderly, hsub⟩ := orderly_of_sublookup h.orderly hold
    rw [Op.run, hops]
    exact ⟨h.healthy.withDir _ _, horderly, h.one.subset hsub⟩
  | bumpAttempt e =>
    obtain ⟨nanos, dir, hsettles, hwritten⟩ := bumpAttempt_settles h.healthy e
    obtain ⟨ops, hops⟩ := after_of_settles hsettles
    obtain ⟨horderly, hone⟩ := AtMostOne.bumped h.orderly h.one hop hwritten
    rw [Op.run, hops]
    exact ⟨h.healthy.withDir _ _, horderly, hone⟩
  | moveToManualClear e =>
    cases hl : fs.dir.lookup e.filename with
    | some content =>
      obtain ⟨dir, hsettles, hgone, -, hothers⟩ := moveToManualClear_settles h.healthy hl
      obtain ⟨ops, hops⟩ := after_of_settles hsettles
      have hold : ∀ name p, isDeferred name = true → dir.lookup name = some (.entry p) →
          fs.dir.lookup name = some (.entry p) := by
        intro name p hname hl
        by_cases hfinal : name = e.filename
        · rw [hfinal, hgone] at hl
          cases hl
        · rwa [← hothers name hfinal]
          rintro rfl
          simp [isDeferred, e.extension_manualClearFilename] at hname
      obtain ⟨horderly, hsub⟩ := orderly_of_sublookup h.orderly hold
      rw [Op.run, hops]
      exact ⟨h.healthy.withDir _ _, horderly, h.one.subset hsub⟩
    | none =>
      -- nothing to rename: the call fails and the directory is as before
      obtain ⟨ops, hops⟩ := after_of_fails ((renameFile_missing h.healthy hl).bind
        (fun _ => fsyncDir))
      have hrun : (Op.moveToManualClear e).run fs = fs.withDir fs.dir ops := hops
      rw [hrun]
      exact ⟨h.healthy.withDir _ _, h.orderly, h.one⟩

theorem Kept.runOps {ops : List Op} {fs : Fs} (h : Kept fs) (hops : Allowed ops fs) :
    Kept (runOps ops fs) := by
  induction ops generalizing fs with
  | nil => exact h
  | cons op ops ih =>
    obtain ⟨he, hop, hrest⟩ := hops
    exact ih (h.run he hop) hrest

theorem kept_of_empty {fs : Fs} (hfs : fs.Healthy) (hempty : fs.dir = ∅) : Kept fs := by
  have hnone : ∀ name, fs.dir.lookup name = none := fun name => by
    rw [hempty, AList.lookup_empty]
  refine ⟨hfs, orderly_of_empty hnone, fun p hp => ?_⟩
  obtain ⟨name, -, hl⟩ := mem_pending.mp hp
  simp [hnone name] at hl

/-! ## A list of enqueues -/

/-- The offers that a list of entries amounts to. -/
def offersOf (es : List DeferEntry) : List ((String × String) × WithBot ℕ) :=
  es.map (fun e => (e.key, e.action.strength))

theorem mem_offersOf {es : List DeferEntry} {key : String × String} {s : WithBot ℕ} :
    (key, s) ∈ offersOf es ↔ ∃ e ∈ es, e.key = key ∧ e.action.strength = s := by
  simp [offersOf]

theorem shows_pending (dir : Dir) :
    Shows dir (Board.offers (fun _ => ⊥) (offersOf (pending dir))) := by
  intro key
  have hlub := Board.isLUB_offers (fun _ => ⊥) (offersOf (pending dir)) key
  refine ⟨?_, fun u hu => hlub.2 ?_⟩
  · rintro s ⟨p, hp, rfl, rfl⟩
    exact hlub.1 (.inr (mem_offersOf.mpr ⟨p, hp, rfl, rfl⟩))
  · rintro s (rfl | hs)
    · exact bot_le
    · exact hu (mem_offersOf.mp hs)

theorem enqueues_show {es : List DeferEntry} {fs : Fs} (h : Kept fs)
    (hes : ∀ e ∈ es, e.WellNamed) {board : String × String → WithBot ℕ}
    (hshows : Shows fs.dir board) :
    Kept (runOps (es.map .enqueue) fs) ∧
      Shows (runOps (es.map .enqueue) fs).dir (Board.offers board (offersOf es)) := by
  induction es generalizing fs board with
  | nil => exact ⟨h, hshows⟩
  | cons e es ih =>
    rw [List.forall_mem_cons] at hes
    obtain ⟨hkept, hcase⟩ := h.enqueue hes.1
    refine ih hkept hes.2 ?_
    rcases hcase with ⟨hdir, hcovered⟩ | ⟨hcovered, hrep⟩
    · show Shows _ (Board.offer board e.key e.action.strength)
      rw [hdir, Board.offer_of_le (le_of_covered h.orderly hes.1 hshows hcovered)]
      exact hshows
    · exact hshows.replaced h.orderly hes.1 hrep

/-- What remains for a unit is the strongest of what was pending and what was
    enqueued. -/
theorem remains_iff {es : List DeferEntry} {fs : Fs} (h : Kept fs)
    (hes : ∀ e ∈ es, e.WellNamed) {key : String × String} {action : DeferAction}
    (hfamily : action.strength ≠ ⊥) :
    (∃ p ∈ pending (runOps (es.map .enqueue) fs).dir, p.key = key ∧ p.action = action) ↔
      (∃ e ∈ pending fs.dir ++ es, e.key = key ∧ e.action = action) ∧
        ∀ e ∈ pending fs.dir ++ es, e.key = key → e.action.strength ≤ action.strength := by
  obtain ⟨hkept, hshows⟩ := enqueues_show h hes (shows_pending fs.dir)
  rw [hshows.remains_iff hkept.one hfamily, ← Board.offers_append]
  have hoffers : offersOf (pending fs.dir) ++ offersOf es = offersOf (pending fs.dir ++ es) :=
    List.map_append.symm
  rw [hoffers]
  have hgreatest := Board.isGreatest_offers (fun _ => ⊥) (offersOf (pending fs.dir ++ es)) key
  constructor
  · intro heq
    rw [heq] at hgreatest
    refine ⟨?_, fun e he hkey => hgreatest.2 (.inr (mem_offersOf.mpr ⟨e, he, hkey, rfl⟩))⟩
    rcases hgreatest.1 with hbot | hmem
    · exact absurd hbot hfamily
    · obtain ⟨e, he, hkey, hstrength⟩ := mem_offersOf.mp hmem
      exact ⟨e, he, hkey, (DeferAction.strength_inj hfamily hstrength.symm).symm⟩
  · rintro ⟨⟨e, he, hkey, rfl⟩, hmax⟩
    refine hgreatest.unique ⟨.inr (mem_offersOf.mpr ⟨e, he, hkey, rfl⟩), ?_⟩
    rintro s (rfl | hs)
    · exact bot_le
    · obtain ⟨e', he', hkey', rfl⟩ := mem_offersOf.mp hs
      exact hmax e' he' hkey'

/-- An enqueue of the family leaves every other entry alone. -/
theorem unaffected {fs : Fs} (h : Kept fs) {e : DeferEntry} (he : e.WellNamed)
    (hfamily : e.action.strength ≠ ⊥) {p : DeferEntry}
    (hp : p.key ≠ e.key ∨ p.action.strength = ⊥) :
    p ∈ pending ((Op.enqueue e).run fs).dir ↔ p ∈ pending fs.dir := by
  rcases (h.enqueue he).2 with ⟨hdir, -⟩ | ⟨-, hrep⟩
  · rw [hdir]
  · rw [hrep.mem_iff]
    constructor
    · rintro (rfl | ⟨hmem, -, -⟩)
      · exact absurd hfamily (hp.elim (fun h => absurd rfl h) not_not.mpr)
      · exact hmem
    · intro hmem
      refine .inr ⟨hmem, fun hname => ?_, fun ⟨hkey, hsub⟩ => ?_⟩
      · have hunit := DeferAction.onUnit_of_strength hfamily
        obtain ⟨hkey, haction⟩ := he.eq_of_filename (h.orderly.wellNamed p hmem) hunit hname.symm
        rcases hp with hne | hbot
        · exact hne hkey.symm
        · exact hfamily (haction ▸ hbot)
      · rcases hp with hne | hbot
        · exact hne hkey
        · exact (subsumes_iff.mp hsub).1 hbot

/-- **The restart family.**  In every journal that can be reached from an empty
    one, a unit has at most one entry of the family; after any list of enqueues,
    in any order, the strongest remains; and an enqueue of the family leaves
    entries with another action or for another unit alone. -/
theorem restart_family {fs : Fs} (hfs : fs.Healthy) (hempty : fs.dir = ∅) {ops : List Op}
    (hops : Allowed ops fs) :
    AtMostOne (runOps ops fs).dir ∧
    (∀ es order : List DeferEntry, (∀ e ∈ es, e.WellNamed) → order.Perm es →
      AtMostOne (runOps (order.map .enqueue) (runOps ops fs)).dir ∧
      ∀ key action, action.strength ≠ ⊥ →
        ((∃ p ∈ pending (runOps (order.map .enqueue) (runOps ops fs)).dir,
            p.key = key ∧ p.action = action) ↔
          (∃ e ∈ pending (runOps ops fs).dir ++ es, e.key = key ∧ e.action = action) ∧
          ∀ e ∈ pending (runOps ops fs).dir ++ es, e.key = key →
            e.action.strength ≤ action.strength)) ∧
    ∀ e : DeferEntry, e.WellNamed → e.action.strength ≠ ⊥ → ∀ p : DeferEntry,
      p.key ≠ e.key ∨ p.action.strength = ⊥ →
        (p ∈ pending ((Op.enqueue e).run (runOps ops fs)).dir ↔
          p ∈ pending (runOps ops fs).dir) := by
  have hkept := (kept_of_empty hfs hempty).runOps hops
  refine ⟨hkept.one, fun es order hes hperm => ?_, fun e he hfamily p hp =>
    unaffected hkept he hfamily hp⟩
  have horder : ∀ e ∈ order, e.WellNamed := fun e he => hes e (hperm.mem_iff.mp he)
  refine ⟨(enqueues_show hkept horder (shows_pending _)).1.one, fun key action hfamily => ?_⟩
  rw [remains_iff hkept horder hfamily]
  have hmem : ∀ e, e ∈ pending (runOps ops fs).dir ++ order ↔
      e ∈ pending (runOps ops fs).dir ++ es := fun e => by
    rw [List.mem_append, List.mem_append, hperm.mem_iff]
  simp only [hmem]

/-- An entry with nothing but what makes it canonical. -/
def plainEntry (initSystem : String) (action : DeferAction) (target : String) : DeferEntry where
  specVersion := CURRENT_SPEC_VERSION
  id := makeId initSystem action target
  action := action
  initSystem := initSystem
  target := target
  validateCmd := none
  healthCheck := none
  priority := action.defaultPriority
  enqueuedAt := 0
  enqueuedBy := []
  attemptCount := 0
  maxAttempts := 3

theorem canonical_plainEntry (initSystem : String) (action : DeferAction) (target : String) :
    (plainEntry initSystem action target).Canonical := ⟨rfl, rfl⟩

/-- An empty journal on a disk without faults. -/
def emptyFs : Fs := ⟨∅, 0, fun _ => none, fun _ => some 0⟩

theorem healthy_emptyFs : emptyFs.Healthy := ⟨fun _ => rfl, fun _ => rfl⟩

theorem restart_family_nginx :
    AtMostOne (runOps [.enqueue (plainEntry "runr" .reload "nginx"),
      .bumpAttempt (plainEntry "runr" .reload "nginx"),
      .enqueue (plainEntry "runr" .restart "nginx")] emptyFs).dir :=
  (restart_family healthy_emptyFs rfl (by
    refine ⟨⟨canonical_plainEntry _ _ _, by decide⟩, trivial,
      ⟨canonical_plainEntry _ _ _, by decide⟩, ?_, ⟨canonical_plainEntry _ _ _, by decide⟩,
      trivial, trivial⟩
    show plainEntry "runr" .reload "nginx" ∈ pending _
    decide)).1

/-- What goes wrong with any canonical entries and any operations: a bump of an
    entry that has gone puts it back beside the stronger one, and with dots in the
    tags the second of two units takes over the file of the first. -/
theorem restart_family_fails :
    ¬ AtMostOne (runOps [.enqueue (plainEntry "runr" .restart "nginx"),
      .bumpAttempt (plainEntry "runr" .reload "nginx")] emptyFs).dir ∧
    ∀ p ∈ pending (runOps [.enqueue (plainEntry "a" .restart "b.restart:c"),
      .enqueue (plainEntry "a.restart:b" .restart "c")] emptyFs).dir,
      p.key ≠ ("a", "b.restart:c") := by
  refine ⟨fun hone => ?_, by decide⟩
  have h := hone (plainEntry "runr" .restart "nginx") (by decide)
    (plainEntry "runr" .reload "nginx").bumped (by decide) rfl
    (by simp [plainEntry, DeferAction.strength])
    (by simp [plainEntry, DeferEntry.bumped, DeferAction.strength])
  exact absurd h (by decide)

end Journal

end Bosun
