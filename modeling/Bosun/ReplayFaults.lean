import Bosun.JournalFaults
import Bosun.ReplaySpec

/-!
# A replay cycle on a disk that may fail

Whatever fails on the way, an entry that a cycle reaches meets its fate as far
as client, health check and record are concerned; only what happens to its file
is less certain (`Reached`).  `replay_induction` carries an invariant of the
machine through a whole cycle, one entry at a time.
-/

namespace Bosun

/-- What the client answered an entry with this fate. -/
def Fate.answer : Fate → Option (Except DispatchError Unit)
  | executed | healthCheckCancelled | healthCheckFailed _ => some (.ok ())
  | unavailable => some (.error .clientUnavailable)
  | actionFailed message => some (.error (.action message))
  | notReached => none

/-- What may have happened to the files when `e` met its fate. -/
structure FateTouched (e : DeferEntry) (fate : Fate) (d d' : Dir) : Prop where
  executed : fate.isFailure = false → Touched (· = e.filename) nothing nothing d d'
  kept : fate.isFailure = false → fate ≠ .executed → d' = d
  failed : Touched (· = e.filename)
    (fun name => Journal.Staging e name ∨ name = e.manualClearFilename) (· = e.bumped) d d'
  retried : e.exhausted = false →
    fate = .executed ∨ Touched nothing (Journal.Staging e) (· = e.bumped) d d'

/-- What is known of a machine `m'` after the cycle has been through with `e`. -/
structure Reached {W : Type} (args : ReplayArgs W) (e : DeferEntry) (fate : Fate)
    (m m' : Machine W) : Prop where
  answer : fate.answer = some (args.client e m.world).1
  possible : fate.Possible e
  trace : m'.trace = m.trace ++ fate.events e
  world : m'.world = (args.client e m.world).2 ∨
    ∃ check, m'.world = (args.healthCheckRunner check (args.client e m.world).2).2
  touched : FateTouched e fate m.fs.dir m'.fs.dir

namespace FateTouched

variable {e : DeferEntry} {d d' : Dir}

theorem of_remove (h : Touched (· = e.filename) nothing nothing d d') :
    FateTouched e .executed d d' where
  executed _ := h
  kept _ hne := absurd rfl hne
  failed := h.mono (fun _ h => h) (fun _ h => h.elim) (fun _ h => h.elim)
  retried _ := .inl rfl

theorem of_kept {fate : Fate} (h : d' = d) : FateTouched e fate d d' where
  executed _ := Touched.of_eq h
  kept _ _ := h
  failed := Touched.of_eq h
  retried _ := .inr (Touched.of_eq h)

theorem of_failed {fate : Fate} (hfate : fate.isFailure = true)
    (hfailed : Touched (· = e.filename)
      (fun name => Journal.Staging e name ∨ name = e.manualClearFilename) (· = e.bumped) d d')
    (hretried : e.exhausted = false → Touched nothing (Journal.Staging e) (· = e.bumped) d d') :
    FateTouched e fate d d' where
  executed hf := absurd (hfate.symm.trans hf) (by simp)
  kept hf := absurd (hfate.symm.trans hf) (by simp)
  failed := hfailed
  retried hx := .inr (hretried hx)

/-- Nothing but the bumped entry was written. -/
theorem of_bumped {fate : Fate} (hfate : fate.isFailure = true)
    (h : Touched nothing (Journal.Staging e) (· = e.bumped) d d') : FateTouched e fate d d' :=
  of_failed hfate (h.mono (fun _ h => h.elim) (fun _ h => .inl h) (fun _ h => h)) fun _ => h

end FateTouched

/-- The directory after an operation of the journal. -/
theorem Machine.touched_journal {W α : Type} {x : FsM α} {gone scratch : String → Prop}
    {new : DeferEntry → Prop} (h : x.Touches gone scratch new) (m : Machine W) :
    Touched gone scratch new m.fs.dir (m.journal x).2.fs.dir := by
  unfold Machine.journal
  cases hrun : x m.fs with
  | ok a fs => exact h.ok hrun
  | error err fs => exact h.error hrun

@[simp] theorem Machine.trace_journal {W α : Type} (x : FsM α) (m : Machine W) :
    (m.journal x).2.trace = m.trace := by
  unfold Machine.journal
  cases x m.fs <;> rfl

@[simp] theorem Machine.world_journal {W α : Type} (x : FsM α) (m : Machine W) :
    (m.journal x).2.world = m.world := by
  unfold Machine.journal
  cases x m.fs <;> rfl

namespace ReplayArgs

variable {W : Type} (args : ReplayArgs W)

/-! ## One entry -/

theorem removeExecuted_snd (e : DeferEntry) (report : ReplayReport) (m : Machine W) :
    (removeExecuted e report m).2 = (m.journal (Journal.remove e)).2 := by
  unfold removeExecuted
  rcases m.journal (Journal.remove e) with ⟨_ | _, m'⟩ <;> rfl

theorem spendAttempt_touched (count : ReplayReport → ReplayReport) (e : DeferEntry)
    (report : ReplayReport) (m : Machine W) :
    (spendAttempt count e report m).2.trace = m.trace ∧
    (spendAttempt count e report m).2.world = m.world ∧
    (∀ fate : Fate, fate.isFailure = true →
      FateTouched e fate m.fs.dir (spendAttempt count e report m).2.fs.dir) := by
  have hbump := Journal.bumpAttempt_triple m.fs.dir e m.fs rfl
  unfold spendAttempt Machine.journal
  cases hrun : Journal.bumpAttempt e m.fs with
  | error err fs =>
    rw [hrun] at hbump
    exact ⟨rfl, rfl, fun fate hfate => .of_bumped hfate hbump⟩
  | ok e' fs =>
    rw [hrun] at hbump
    obtain ⟨rfl, htouched, -⟩ := hbump
    dsimp only
    split
    · rename_i hmax
      have hexhausted : e.exhausted = true := by simpa [DeferEntry.exhausted] using hmax
      have hquarantined : ∀ fs' : Fs, Touched (· = e.filename) (· = e.manualClearFilename)
          nothing fs.dir fs'.dir → ∀ fate : Fate, fate.isFailure = true →
          FateTouched e fate m.fs.dir fs'.dir := by
        intro fs' h fate hfate
        refine .of_failed hfate ?_ fun hx => absurd (hexhausted.symm.trans hx) (by simp)
        exact (htouched.mono (fun _ h => h.elim) (fun _ h => .inl h) (fun _ h => h)).trans
          (h.mono (fun _ h => h) (fun _ h => .inr h) (fun _ h => h.elim))
      have hmove := Journal.moveToManualClear_touches e.bumped
      cases hrun' : Journal.moveToManualClear e.bumped fs with
      | ok _ fs' => exact ⟨rfl, rfl, hquarantined fs' (hmove.ok hrun')⟩
      | error err fs' => exact ⟨rfl, rfl, hquarantined fs' (hmove.error hrun')⟩
    · exact ⟨rfl, rfl, fun fate hfate => .of_bumped hfate htouched⟩

theorem removeExecuted_touched (e : DeferEntry) (report : ReplayReport) (m : Machine W) :
    (removeExecuted e report m).2.trace = m.trace ∧
    (removeExecuted e report m).2.world = m.world ∧
    FateTouched e .executed m.fs.dir (removeExecuted e report m).2.fs.dir := by
  rw [removeExecuted_snd]
  exact ⟨m.trace_journal _, m.world_journal _,
    .of_remove (Machine.touched_journal (Journal.remove_touches e) m)⟩

theorem checkHealth_reached (e : DeferEntry) (report : ReplayReport) (m : Machine W) :
    ∃ fate tail, fate.answer = some (.ok ()) ∧ fate.Possible e ∧
      fate.events e = .dispatched e (.ok ()) :: tail ∧
      (args.checkHealth e report m).2.trace = m.trace ++ tail ∧
      ((args.checkHealth e report m).2.world = m.world ∨
        ∃ check, (args.checkHealth e report m).2.world = (args.healthCheckRunner check m.world).2) ∧
      FateTouched e fate m.fs.dir (args.checkHealth e report m).2.fs.dir := by
  unfold checkHealth
  cases hcheck : e.healthCheck with
  | none =>
    obtain ⟨htrace, hworld, htouched⟩ := removeExecuted_touched e report m
    exact ⟨.executed, [], rfl, trivial, by rw [Fate.events, hcheck]; rfl, by simpa using htrace,
      .inl hworld, htouched⟩
  | some check =>
    rcases hrunner : args.healthCheckRunner check m.world with ⟨verdict, world⟩
    have hworld : world = (args.healthCheckRunner check m.world).2 := by rw [hrunner]
    have hsome : e.healthCheck.isSome = true := by rw [hcheck]; rfl
    simp only [hrunner]
    cases verdict with
    | ok _ =>
      obtain ⟨htrace, hw, htouched⟩ := removeExecuted_touched e report
        ({ m with world := world }.log [.healthChecked e (.ok ())])
      exact ⟨.executed, [.healthChecked e (.ok ())], rfl, trivial, by rw [Fate.events, hcheck]; rfl,
        htrace, .inr ⟨check, hw.trans hworld⟩, htouched⟩
    | error err =>
      by_cases hcancelled : err = .cancelled
      · subst hcancelled
        exact ⟨.healthCheckCancelled, [.healthChecked e (.error .cancelled)], rfl, hsome, rfl,
          rfl, .inr ⟨check, hworld⟩, .of_kept rfl⟩
      · obtain ⟨htrace, hw, htouched⟩ := spendAttempt_touched countHealthCheckFailed e report
          ({ m with world := world }.log [.healthChecked e (.error err)])
        refine ⟨.healthCheckFailed err, [.healthChecked e (.error err)], rfl, ⟨hsome, hcancelled⟩,
          rfl, ?_⟩
        cases err with
        | cancelled => exact absurd rfl hcancelled
        | _ => exact ⟨htrace, .inr ⟨check, hw.trans hworld⟩, htouched _ rfl⟩

/-- **An entry that is reached meets a fate**, whatever the disk does. -/
theorem replayEntry_reached (e : DeferEntry) (report : ReplayReport) (m : Machine W) :
    ∃ fate, Reached args e fate m (args.replayEntry e report m).2 := by
  rcases hclient : args.client e m.world with ⟨answer, world⟩
  have hanswer : (args.client e m.world).1 = answer := by rw [hclient]
  have hworld : (args.client e m.world).2 = world := by rw [hclient]
  unfold replayEntry
  simp only [hclient]
  match answer with
  | .error .clientUnavailable =>
    exact ⟨.unavailable, by rw [hanswer]; rfl, trivial, rfl, .inl hworld.symm, .of_kept rfl⟩
  | .error (.action message) =>
    obtain ⟨htrace, hw, htouched⟩ := spendAttempt_touched countFailed e report
      ({ m with world := world }.log [.dispatched e (.error (.action message))])
    exact ⟨.actionFailed message, by rw [hanswer]; rfl, trivial, htrace,
      .inl (hw.trans hworld.symm), htouched _ rfl⟩
  | .ok () =>
    obtain ⟨fate, tail, hfate, hpossible, hevents, htrace, hw, htouched⟩ :=
      args.checkHealth_reached e report ({ m with world := world }.log [.dispatched e (.ok ())])
    refine ⟨fate, by rw [hanswer, hfate], hpossible, ?_, ?_, htouched⟩
    · rw [htrace, hevents]
      simp [Machine.log]
    · rw [hworld]
      exact hw

/-! ## A whole cycle -/

/-- What every pass of the loop preserves, the loop preserves. -/
theorem replayEntries_induction (Inv : Machine W → Prop) (entries : List DeferEntry)
    (htick : ∀ m world, world = args.platform.tick m.world → Inv m →
      Inv { m with world := world })
    (hentry : ∀ e ∈ entries, ∀ report m, Inv m → Inv (args.replayEntry e report m).2)
    (report : ReplayReport) {m : Machine W} (hm : Inv m) :
    Inv (args.replayEntries entries report m).2 := by
  induction entries generalizing report m with
  | nil => exact hm
  | cons e entries ih =>
    have hpolled := htick m _ rfl hm
    cases hcancelled : args.platform.cancelled (args.platform.tick m.world) with
    | true =>
      simp only [replayEntries, Platform.isCancelled, hcancelled, if_true]
      exact hpolled
    | false =>
      simp only [replayEntries, Platform.isCancelled, hcancelled, Bool.false_eq_true, if_false]
      have hnext := hentry e List.mem_cons_self report _ hpolled
      rcases hrun : args.replayEntry e report
        { m with world := args.platform.tick m.world } with ⟨_ | report', m'⟩
      · rw [hrun] at hnext
        exact hnext
      · rw [hrun] at hnext
        exact ih (fun e he => hentry e (List.mem_cons_of_mem _ he)) report' hnext

/-- An invariant that does not look at the disk's calls, and that every entry
    pending at the beginning preserves, holds after the cycle. -/
theorem replay_induction (Inv : Machine W → Prop)
    (hlist : ∀ m fs, fs.dir = m.fs.dir → Inv m → Inv { m with fs := fs })
    (htick : ∀ m world, world = args.platform.tick m.world → Inv m →
      Inv { m with world := world })
    {m : Machine W}
    (hentry : ∀ e ∈ Journal.pending m.fs.dir, ∀ report m', Inv m' →
      Inv (args.replayEntry e report m').2)
    (hm : Inv m) : Inv (args.replayWithHealthCheck m).2 := by
  have hsorted := Journal.listSorted_triple m.fs.dir m.fs rfl
  unfold replayWithHealthCheck Machine.journal
  cases hrun : Journal.listSorted m.fs with
  | error err fs =>
    rw [hrun] at hsorted
    exact hlist m fs hsorted hm
  | ok entries fs =>
    rw [hrun] at hsorted
    exact args.replayEntries_induction Inv entries htick
      (fun e he => hentry e (hsorted.2 e he)) .zero (hlist m fs hsorted.1 hm)

end ReplayArgs

end Bosun
