import Bosun.Run
import Bosun.ServiceRuns

/-!
# The file of a restart

All primitives and replays of bosun write entries under their own names and with
ids of one of two forms, so the journal keeps every entry where its name says
(`Filed`) and a pending restart of a unit has one place, its `restartFile`.  The
lemmas say what may happen to the entry there: other entries never touch it, the
next `enqueue` for the unit leaves it or renews it, and a replay either carries
it out, or leaves it, or takes its last attempt.
-/

namespace Bosun

/-! ## A journal that bosun has written -/

/-- An entry as the primitives make them. -/
def DeferEntry.Issued (e : DeferEntry) : Prop :=
  e.WellNamed ∨ e.priority = .command ∧ e.initSystem = ""

theorem DeferEntry.Issued.bumped {e : DeferEntry} (h : e.Issued) : e.bumped.Issued :=
  h.imp WellNamed.bumped fun h => h

/-- Every pending entry was made by bosun and is where its name says. -/
structure Filed (dir : Dir) : Prop where
  own : ∀ name e, Journal.isDeferred name = true → dir.lookup name = some (.entry e) →
    name = e.filename
  issued : ∀ e ∈ Journal.pending dir, e.Issued

namespace Filed

variable {dir dir' : Dir}

theorem lookup (h : Filed dir) {e : DeferEntry} (he : e ∈ Journal.pending dir) :
    dir.lookup e.filename = some (.entry e) := by
  obtain ⟨name, hname, hl⟩ := Journal.mem_pending.mp he
  rwa [← h.own name e hname hl]

theorem mem_of_lookup {name : String} {e : DeferEntry} (hname : Journal.isDeferred name = true)
    (hl : dir.lookup name = some (.entry e)) : e ∈ Journal.pending dir :=
  Journal.mem_pending.mpr ⟨name, hname, hl⟩

theorem touched {gone scratch : String → Prop} {new : DeferEntry → Prop} (h : Filed dir)
    (htouched : Touched gone scratch new dir dir')
    (hscratch : ∀ name, scratch name → Journal.isDeferred name = false)
    (hnew : ∀ e, new e → e.Issued) : Filed dir' where
  own name e hname hl := by
    have hnot : ¬ scratch name := fun hs => by simp [hscratch name hs] at hname
    rcases htouched name hnot with heq | ⟨-, hnone⟩ | ⟨e', -, hfile, hl'⟩
    · exact h.own name e hname (heq ▸ hl)
    · rw [hl] at hnone
      cases hnone
    · rw [hl] at hl'
      obtain rfl : e = e' := by simpa using hl'
      exact hfile
  issued e he :=
    (Journal.mem_pending_of_touched htouched hscratch he).elim (h.issued e) (hnew e)

end Filed

theorem filed_of_empty {dir : Dir} (h : ∀ name, dir.lookup name = none) : Filed dir := by
  refine ⟨fun name e _ hl => by simp [h name] at hl, fun e he => ?_⟩
  obtain ⟨name, -, hl⟩ := Journal.mem_pending.mp he
  simp [h name] at hl

theorem dotless_tag (init : InitSystem) : '.' ∉ init.tag.toList := by
  cases init <;> decide

namespace DeferEntry.MadeFor

variable {e : DeferEntry} {init : InitSystem} {spec : ServiceSpec} (h : e.MadeFor init spec)
include h

theorem wellNamed : e.WellNamed := by
  obtain ⟨action, priority, sources, now, rfl, hkind⟩ := h
  refine ⟨⟨rfl, ?_⟩, dotless_tag init⟩
  rcases hkind with ⟨rfl, rfl⟩ | ⟨rfl, rfl⟩ <;> rfl

theorem issued : e.Issued := .inl h.wellNamed

theorem key_eq : e.key = (init.tag, spec.name) := by
  obtain ⟨action, priority, sources, now, rfl, -⟩ := h
  rfl

end DeferEntry.MadeFor

/-! ## The file -/

/-- A bare restart of the unit. -/
def restartOf (init : InitSystem) (name : String) : DeferEntry where
  specVersion := CURRENT_SPEC_VERSION
  id := makeId init.tag .restart name
  action := .restart
  initSystem := init.tag
  target := name
  validateCmd := none
  healthCheck := none
  priority := .restart
  enqueuedAt := 0
  enqueuedBy := []
  attemptCount := 0
  maxAttempts := 0

/-- Where a restart of the unit is pending. -/
def restartFile (init : InitSystem) (name : String) : String := (restartOf init name).filename

theorem isDeferred_restartFile (init : InitSystem) (name : String) :
    Journal.isDeferred (restartFile init name) = true := by
  simp [Journal.isDeferred, restartFile, (restartOf init name).extension_filename]

/-- It is a restart of the unit. -/
def DeferEntry.Restarts (e : DeferEntry) (init : InitSystem) (name : String) : Prop :=
  e.key = (init.tag, name) ∧ e.action = .restart

theorem DeferEntry.Issued.filename_of_restarts {e : DeferEntry} {init : InitSystem}
    {name : String} (h : e.Issued) (hrestarts : e.Restarts init name) :
    e.filename = restartFile init name := by
  obtain ⟨hkey, haction⟩ := hrestarts
  obtain ⟨htag, htarget⟩ := Prod.mk.inj hkey
  rcases h with hnamed | ⟨-, hempty⟩
  · refine filename_eq_of_id ?_ ?_
    · rw [hnamed.canonical.priority, haction]
      rfl
    · rw [hnamed.canonical.id, haction, htag, htarget]
      rfl
  · rw [htag] at hempty
    cases init <;> simp [InitSystem.tag] at hempty

theorem DeferEntry.Issued.restarts_of_filename {e : DeferEntry} {init : InitSystem}
    {name : String} (h : e.Issued) (hfile : e.filename = restartFile init name) :
    e.Restarts init name := by
  have hbare : (restartOf init name).WellNamed := ⟨⟨rfl, rfl⟩, dotless_tag init⟩
  rcases h with hnamed | ⟨hpriority, -⟩
  · obtain ⟨hkey, haction⟩ := hbare.eq_of_filename hnamed rfl hfile.symm
    exact ⟨hkey.symm, haction.symm⟩
  · have hsame := (filename_inj hfile).1
    rw [hpriority] at hsame
    cases hsame

/-- The journal holds a restart of the unit. -/
def HoldsRestart (dir : Dir) (init : InitSystem) (name : String) : Prop :=
  ∃ q ∈ Journal.pending dir, q.Restarts init name

theorem Filed.holdsRestart_iff {dir : Dir} (h : Filed dir) {init : InitSystem} {name : String} :
    HoldsRestart dir init name ↔ ∃ q, dir.lookup (restartFile init name) = some (.entry q) := by
  constructor
  · rintro ⟨q, hq, hrestarts⟩
    exact ⟨q, (h.issued q hq).filename_of_restarts hrestarts ▸ h.lookup hq⟩
  · rintro ⟨q, hl⟩
    have hq := Filed.mem_of_lookup (isDeferred_restartFile init name) hl
    have hfile := h.own _ q (isDeferred_restartFile init name) hl
    exact ⟨q, hq, (h.issued q hq).restarts_of_filename hfile.symm⟩

/-! ## What the apply does to it -/

variable {V : Type}

theorem Offered.filed {s s' : RunState V} {e : DeferEntry} (hoffered : Offered e s s')
    (h : Filed s.machine.fs.dir) (he : e.Issued) : Filed s'.machine.fs.dir := by
  refine h.touched hoffered.touched (fun name hname => hname.not_isDeferred) ?_
  rintro _ rfl
  exact he

/-- Nothing makes a restart superfluous; at most it is written again. -/
theorem Offered.holdsRestart {s s' : RunState V} {e : DeferEntry} (hoffered : Offered e s s')
    (h : Filed s.machine.fs.dir) (he : e.Issued) {init : InitSystem} {name : String}
    (hholds : HoldsRestart s.machine.fs.dir init name) :
    HoldsRestart s'.machine.fs.dir init name := by
  rw [(hoffered.filed h he).holdsRestart_iff]
  obtain ⟨q, hl⟩ := h.holdsRestart_iff.mp hholds
  have hnot : ¬ Journal.Staging e (restartFile init name) := fun hs => by
    simpa [isDeferred_restartFile] using hs.not_isDeferred
  rcases hoffered.touched (restartFile init name) hnot with heq |
    ⟨⟨q', hq', -, hsubsumes, hfile⟩, -⟩ | ⟨e', -, -, hl'⟩
  · exact ⟨q, heq ▸ hl⟩
  · have hrestarts := (h.issued q' hq').restarts_of_filename hfile.symm
    rw [hrestarts.2] at hsubsumes
    cases hact : e.action <;> simp [hact, Journal.subsumes] at hsubsumes
  · exact ⟨e', hl'⟩

section Turns

variable {s s' : RunState V} {id : ResourceId} {init init' : InitSystem} {spec : ServiceSpec}
  {name : String}

theorem Turn.filed (hturn : Turn id init' spec (s.want id init' spec) s')
    (h : Filed s.machine.fs.dir) : Filed s'.machine.fs.dir := by
  cases hturn with
  | consulted hconsulted =>
    rw [hconsulted.fs]
    exact h
  | stopped _ hconsulted hfs _ =>
    rw [hfs, hconsulted.fs]
    exact h
  | @enqueued acts t e _ hconsulted he hoffered =>
    have ht : Filed t.machine.fs.dir := by
      rw [hconsulted.fs]
      exact h
    exact hoffered.filed ht he.issued

theorem Turn.holdsRestart (hturn : Turn id init' spec (s.want id init' spec) s')
    (h : Filed s.machine.fs.dir) (hholds : HoldsRestart s.machine.fs.dir init name) :
    HoldsRestart s'.machine.fs.dir init name := by
  cases hturn with
  | consulted hconsulted =>
    rw [hconsulted.fs]
    exact hholds
  | stopped _ hconsulted hfs _ =>
    rw [hfs, hconsulted.fs]
    exact hholds
  | @enqueued acts t e _ hconsulted he hoffered =>
    have ht : Filed t.machine.fs.dir := by
      rw [hconsulted.fs]
      exact h
    refine hoffered.holdsRestart ht he.issued ?_
    rw [hconsulted.fs]
    exact hholds

theorem SignalEnv.Signalled.filed (hsignalled : Signalled id s s')
    (h : Filed s.machine.fs.dir) : Filed s'.machine.fs.dir := by
  rcases hsignalled with hconsulted | ⟨spec, argv, now, hoffered⟩
  · rw [hconsulted.fs]
    exact h
  · exact hoffered.filed h (.inr ⟨rfl, rfl⟩)

theorem SignalEnv.Signalled.holdsRestart (hsignalled : Signalled id s s')
    (h : Filed s.machine.fs.dir) (hholds : HoldsRestart s.machine.fs.dir init name) :
    HoldsRestart s'.machine.fs.dir init name := by
  rcases hsignalled with hconsulted | ⟨spec, argv, now, hoffered⟩
  · rw [hconsulted.fs]
    exact hholds
  · exact hoffered.holdsRestart h (.inr ⟨rfl, rfl⟩) hholds

end Turns

/-- A journal that has accepted a restart of the unit holds one. -/
theorem Accepted.holdsRestart {t s' : RunState V} {e : DeferEntry} {init : InitSystem}
    {spec : ServiceSpec} (h : Filed t.machine.fs.dir) (hoffered : Offered e t s')
    (haccepted : Accepted e t s') (he : e.MadeFor init spec) (haction : e.action = .restart) :
    HoldsRestart s'.machine.fs.dir init spec.name := by
  rcases haccepted with ⟨hdir, q, hq, hkeys, hcovers⟩ | hl
  · refine ⟨q, hdir ▸ hq, hkeys.trans he.key_eq, ?_⟩
    rcases hcovers with hid | hsubsumes
    · rcases h.issued q hq with hnamed | ⟨-, hempty⟩
      · rw [← he.wellNamed.action_of_id hnamed (by rw [haction]; rfl) hid.symm, haction]
      · -- a signal belongs to no init system
        have htag : q.initSystem = init.tag := (Prod.mk.inj (hkeys.trans he.key_eq)).1
        rw [hempty] at htag
        cases init <;> simp [InitSystem.tag] at htag
    · rw [haction] at hsubsumes
      cases hact : q.action <;> simp [hact, Journal.subsumes] at hsubsumes
  · refine (hoffered.filed h he.issued).holdsRestart_iff.mpr ⟨e, ?_⟩
    rwa [← he.issued.filename_of_restarts ⟨he.key_eq, haction⟩]

/-! ## What a replay does to it -/

/-- A restart that was carried out is on record. -/
theorem restarted_of_executed {client : RealDispatchClient V} {q : DeferEntry}
    {init : InitSystem} {name : String} (hrestarts : q.Restarts init name) {w : World V}
    (hok : (client.dispatch q w).1 = .ok ()) :
    (client.dispatch q w).2.record = w.record ++ [.unit (.replay q) init .restart name none] := by
  obtain ⟨hkey, haction⟩ := hrestarts
  obtain ⟨htag, htarget⟩ := Prod.mk.inj hkey
  have hroute : q.route = some init := by
    cases init <;> simp [DeferEntry.route, DeferEntry.isCommand, haction, htag, InitSystem.tag]
  rcases client.dispatch_cases q w with ⟨hnone, -⟩ | ⟨init', -, -, hrun⟩ |
    ⟨init', hsome, -, error, hanswer, hrecord⟩
  · rw [hroute] at hnone
    cases hnone
  · rw [hrun] at hok
    cases hok
  · rw [hroute] at hsome
    obtain rfl := Option.some.inj hsome
    rw [hok] at hanswer
    cases error with
    | some err =>
      have hdispatch : ∀ answer, dispatchAnswer (some err) = answer → answer ≠ .ok () := by
        rcases err with err | err <;> cases err <;>
          simp [dispatchAnswer, mapRunrResult, mapSystemdResult]
      exact absurd hanswer.symm (fun h => hdispatch _ rfl h)
    | none =>
      rw [hrecord]
      simp [DeferEntry.actOf, haction, DeferAction.unitOp, htarget]

/-- The names a cycle may leave anything under are no entries of the journal. -/
theorem not_isDeferred_of_scratch {e : DeferEntry} {name : String}
    (h : Journal.Staging e name ∨ name = e.manualClearFilename) :
    Journal.isDeferred name = false := by
  rcases h with hstaging | rfl
  · exact hstaging.not_isDeferred
  · exact Journal.not_isDeferred_manualClearFilename e

theorem Filed.replay {P : Type} (run : RunArgs P V) {m : Machine (World V)}
    (h : Filed m.fs.dir) : Filed (run.replay m).fs.dir := by
  refine run.backends.replayArgs.replay_induction (fun m' => Filed m'.fs.dir) ?_ ?_ ?_ h
  · exact fun m' fs hdir hm' => hdir ▸ hm'
  · exact fun m' world _ hm' => hm'
  · intro e he report m' hm'
    obtain ⟨fate, hreached⟩ := run.backends.replayArgs.replayEntry_reached e report m'
    refine hm'.touched hreached.touched.failed (fun name => not_isDeferred_of_scratch) ?_
    rintro _ rfl
    exact (h.issued e he).bumped

/-- A replay only adds to the record. -/
theorem replay_record {P : Type} (run : RunArgs P V) (m : Machine (World V)) :
    m.world.record <+: (run.replay m).world.record := by
  refine run.backends.replayArgs.replay_induction
    (fun m' => m.world.record <+: m'.world.record) ?_ ?_ ?_ (List.prefix_refl _)
  · exact fun m' fs _ hm' => hm'
  · rintro m' world rfl hm'
    exact hm'
  · intro e _ report m' hm'
    obtain ⟨fate, hreached⟩ := run.backends.replayArgs.replayEntry_reached e report m'
    rw [hreached.record, (run.backends.client.record_dispatch e m'.world).1]
    exact hm'.trans (List.prefix_append _ _)

/-- An entry under another name leaves the file of a restart alone. -/
theorem Reached.lookup_restartFile {args : ReplayArgs (World V)} {e : DeferEntry} {fate : Fate}
    {m m' : Machine (World V)} (h : Reached args e fate m m') {init : InitSystem} {name : String}
    (hfile : e.filename ≠ restartFile init name) :
    m'.fs.dir.lookup (restartFile init name) = m.fs.dir.lookup (restartFile init name) := by
  have hnot : ¬ (Journal.Staging e (restartFile init name) ∨
      restartFile init name = e.manualClearFilename) := fun hs => by
    simpa [isDeferred_restartFile] using not_isDeferred_of_scratch hs
  rcases h.touched.failed (restartFile init name) hnot with heq | ⟨hgone, -⟩ | ⟨e', rfl, heq, -⟩
  · exact heq
  · exact absurd hgone.symm hfile
  · exact absurd heq.symm hfile

/-- **A pending restart survives a replay**, unless it is carried out, or fails on
    its last attempt. -/
theorem replay_restart {P : Type} (run : RunArgs P V) {m : Machine (World V)}
    (h : Filed m.fs.dir) {init : InitSystem} {name : String} {q : DeferEntry}
    (hl : m.fs.dir.lookup (restartFile init name) = some (.entry q)) :
    (∃ acts, (run.replay m).world.record = m.world.record ++ acts ∧
      .unit (.replay q) init .restart name none ∈ acts) ∨
    (∃ q', (run.replay m).fs.dir.lookup (restartFile init name) = some (.entry q')) ∨
    (q.exhausted = true ∧ ∃ events, (run.replay m).trace = m.trace ++ events ∧
      ∃ message, .dispatched q (.error (.action message)) ∈ events) := by
  have hrestarts : q.Restarts init name :=
    (h.issued q (Filed.mem_of_lookup (isDeferred_restartFile init name) hl)).restarts_of_filename
      (h.own _ q (isDeferred_restartFile init name) hl).symm
  have hinv := run.backends.replayArgs.replay_induction (fun m' => ∃ acts events,
    m'.world.record = m.world.record ++ acts ∧ m'.trace = m.trace ++ events ∧
    (.unit (.replay q) init .restart name none ∈ acts ∨
      (∃ q', m'.fs.dir.lookup (restartFile init name) = some (.entry q')) ∨
      (q.exhausted = true ∧ ∃ message, .dispatched q (.error (.action message)) ∈ events)))
    ?_ ?_ (m := m) ?_ ⟨[], [], by simp, by simp, .inr (.inl ⟨q, hl⟩)⟩
  · obtain ⟨acts, events, hrecord, htrace, hacted | hkept | hfailed⟩ := hinv
    · exact .inl ⟨acts, hrecord, hacted⟩
    · exact .inr (.inl hkept)
    · exact .inr (.inr ⟨hfailed.1, events, htrace, hfailed.2⟩)
  · rintro m' fs hdir ⟨acts, events, hrecord, htrace, hcases⟩
    exact ⟨acts, events, hrecord, htrace, by simpa only [hdir] using hcases⟩
  · rintro m' world rfl ⟨acts, events, hrecord, htrace, hcases⟩
    exact ⟨acts, events, hrecord, htrace, hcases⟩
  · rintro e he report m' ⟨acts, events, hrecord, htrace, hcases⟩
    obtain ⟨fate, hreached⟩ := run.backends.replayArgs.replayEntry_reached e report m'
    have hdispatch := (run.backends.client.record_dispatch e m'.world).1
    refine ⟨acts ++ run.backends.client.actsOf e m'.world, events ++ fate.events e,
      by rw [hreached.record, hdispatch, hrecord, List.append_assoc],
      by rw [hreached.trace, htrace, List.append_assoc], ?_⟩
    rcases hcases with hacted | ⟨q', hl'⟩ | ⟨hexhausted, message, hmem⟩
    · exact .inl (List.mem_append_left _ hacted)
    · by_cases hfile : e.filename = restartFile init name
      · -- both were in that file at the beginning
        obtain rfl : e = q := by
          have hle := h.lookup he
          rw [hfile, hl] at hle
          simpa using hle.symm
        have hcarried : fate.answer = some (.ok ()) →
            .unit (.replay e) init .restart name none ∈ run.backends.client.actsOf e m'.world := by
          intro hanswer
          have hok := Option.some.inj (hreached.answer.symm.trans hanswer)
          have hact := restarted_of_executed hrestarts hok
          rw [hdispatch, List.append_cancel_left_eq] at hact
          simp [hact]
        cases fate with
        | executed | healthCheckCancelled | healthCheckFailed err =>
          exact .inl (List.mem_append_right _ (hcarried rfl))
        | unavailable =>
          exact .inr (.inl ⟨q', by rw [hreached.touched.kept rfl (by simp), hl']⟩)
        | notReached => exact absurd hreached.answer (by simp [Fate.answer])
        | actionFailed message =>
          cases hexhausted : e.exhausted with
          | true => exact .inr (.inr ⟨rfl, message, List.mem_append_right _ List.mem_cons_self⟩)
          | false =>
            have htouched := (hreached.touched.retried hexhausted).resolve_left (by simp)
            have hnot : ¬ Journal.Staging e (restartFile init name) := fun hs => by
              simpa [isDeferred_restartFile] using hs.not_isDeferred
            rcases htouched (restartFile init name) hnot with heq | ⟨hgone, -⟩ | ⟨e', -, -, hl''⟩
            · exact .inr (.inl ⟨q', by rw [heq, hl']⟩)
            · exact hgone.elim
            · exact .inr (.inl ⟨e', hl''⟩)
      · exact .inr (.inl ⟨q', by rw [hreached.lookup_restartFile hfile, hl']⟩)
    · exact .inr (.inr ⟨hexhausted, message, List.mem_append_left _ hmem⟩)

end Bosun
