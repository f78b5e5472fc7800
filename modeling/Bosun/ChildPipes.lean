import Mathlib.Data.Nat.Find
import Mathlib.Logic.Function.Iterate
import Mathlib.Order.Nat
import Bosun.Process

/-!
# A child and its pipes

What a runner of commands depends on beside the exit status: how much the child writes and
where it goes, when it exits, and which of the processes it has started have its streams still
open.  A write to a pipe that nobody reads ends when the pipe is full, and does not return
before somebody reads; reading to the end of a pipe does not return before the last write end
is closed.

A `Host` is a machine that runs one such child; it gives the `Processes` of the polling loop.
`wait_eq` says what the loop sees, and `waitEof_now_iff` when reading to the end takes no time.
-/

namespace Bosun

inductive Stream
  | stdout
  | stderr
deriving DecidableEq, Repr

/-- `Stdio::null()`; `Stdio::piped()` that is not read while the child runs; or that a thread
    reads from the start. -/
inductive Sink
  | null
  | piped
  | drained
deriving DecidableEq, Repr

/-- A process that the child has started.  `endsAt` counts from the start of the child; without
    it the process never ends by itself. -/
structure Descendant where
  holds : Stream → Bool
  endsAt : Option Nat
  /-- it has left the process group of the child -/
  left : Bool

/-- `output` is what the child itself writes to a stream, and a full pipe keeps the child.  A
    descendant holds a stream and writes nothing to it: descendants that write, and may be kept
    while the child is not, are left out.  The child exits at `exitsAt` if no write keeps it;
    without `exitsAt` it never does. -/
structure Child where
  output : Stream → List UInt8
  status : ExitStatus
  exitsAt : Option Nat
  descendants : List Descendant

structure Host where
  child : Child
  /-- so many bytes fit into a pipe -/
  capacity : Nat
  /-- by how much a sleep that begins then takes longer than asked -/
  oversleep : Nat → Nat
  cancelledAt : Option Nat
  /-- `String::from_utf8_lossy` -/
  lossy : List UInt8 → String
  /-- `{:?}` of a duration -/
  debugDuration : Nat → String

structure ChildState where
  now : Nat
  started : Nat
  groupKilled : Bool

namespace Host

variable (host : Host)

def platform : Platform ChildState where
  clock s := s.now
  cancelled s := host.cancelledAt.any (· ≤ s.now)
  tick s := s
  sleep d s := { s with now := s.now + d + host.oversleep s.now }
  clock_le_tick _ := le_rfl
  clock_add_le_sleep _ _ := Nat.le_add_right _ _
  cancelled_tick _ h := h
  cancelled_sleep d s h := by
    cases hat : host.cancelledAt with
    | none => simp [hat] at h
    | some t =>
      simp only [hat, Option.any_some, decide_eq_true_eq] at h ⊢
      omega

/-- A pipe that nobody reads is full before the child has written everything. -/
def stuck (sinks : Stream → Sink) : Bool :=
  [Stream.stdout, .stderr].any fun stream =>
    sinks stream = .piped && host.capacity < (host.child.output stream).length

/-- When the child exits with its streams connected so. -/
def exitTime (sinks : Stream → Sink) : Option Nat :=
  if host.stuck sinks then none else host.child.exitsAt

/-- The time of the exit has come. -/
def exited (exit : Option Nat) (s : ChildState) (t : Nat) : Bool :=
  exit.any fun e => s.started + e ≤ t

/-- `Child::kill`, or both signals to the process group. -/
inductive Kill
  | child
  | group

/-- 500 ms. -/
def SIGTERM_GRACE : Nat := 500000000

/-- After the second signal only what has left the group is there. -/
def kill : Kill → ChildState → ChildState
  | .child, s => s
  | .group, s => { host.platform.sleep SIGTERM_GRACE s with groupKilled := true }

/-- The child with its streams connected so; whatever the command is, it is this child. -/
def processes (sinks : Stream → Sink) (kill : Kill) : Processes host.platform where
  spawn _ _ s := (.ok (), { s with started := s.now, groupKilled := false })
  tryWait s :=
    (.ok (if exited (host.exitTime sinks) s s.now then some host.child.status else none), s)
  kill := host.kill kill
  stdout _ := host.lossy (host.child.output .stdout)
  stderr _ := host.lossy (host.child.output .stderr)
  stderrExcerpt limit _ := host.lossy ((host.child.output .stderr).take limit)
  clock_le_spawn _ _ _ := le_rfl
  clock_le_tryWait _ := le_rfl
  clock_le_kill s := by
    cases kill with
    | child => exact le_rfl
    | group => exact (Nat.le_add_right _ _).trans (host.platform.clock_add_le_sleep _ s)
  cancelled_spawn _ _ _ h := h
  cancelled_tryWait _ h := h
  cancelled_kill s h := by
    cases kill with
    | child => exact h
    | group => exact host.platform.cancelled_sleep _ s h

/-! ## Reading -/

/-- The processes that have a write end of the stream. -/
def holders (stream : Stream) (s : ChildState) : List Descendant :=
  host.child.descendants.filter fun d => d.holds stream && !(s.groupKilled && !d.left)

/-- Wait until the last of them has ended; `none` when one never does. -/
def waitFor : List Descendant → ChildState → Option ChildState
  | [], s => some s
  | d :: ds, s => d.endsAt.bind fun e => waitFor ds { s with now := max s.now (s.started + e) }

/-- Read to the end of the stream, after the child has ended. -/
def waitEof (stream : Stream) (s : ChildState) : Option ChildState :=
  waitFor (host.holders stream s) s

/-- `take(limit).read_to_end` on stderr -/
def readExcerpt (limit : Nat) (s : ChildState) : Option (String × ChildState) :=
  if limit ≤ (host.child.output .stderr).length then
    some (host.lossy ((host.child.output .stderr).take limit), s)
  else (host.waitEof .stderr s).map fun s => (host.lossy (host.child.output .stderr), s)

/-- Both reading threads are joined. -/
def joinDrains (s : ChildState) : Option (String × String × ChildState) :=
  (host.waitEof .stdout s).bind fun s => (host.waitEof .stderr s).map fun s =>
    (host.lossy (host.child.output .stdout), host.lossy (host.child.output .stderr), s)

/-- By then all that have a write end of the stream have ended. -/
def ClosedBy (stream : Stream) (s : ChildState) (t : Nat) : Prop :=
  ∀ d ∈ host.holders stream s, ∃ e, d.endsAt = some e ∧ s.started + e ≤ t

theorem waitFor_of_ended {ds : List Descendant} {s : ChildState}
    (h : ∀ d ∈ ds, ∃ e, d.endsAt = some e ∧ s.started + e ≤ s.now) : waitFor ds s = some s := by
  induction ds with
  | nil => rfl
  | cons d ds ih =>
    obtain ⟨⟨e, hends, hle⟩, hds⟩ := List.forall_mem_cons.mp h
    rw [waitFor, hends, Option.bind_some, Nat.max_eq_left hle]
    exact ih hds

theorem ended_of_waitFor {ds : List Descendant} {s s' : ChildState} (h : waitFor ds s = some s') :
    s.now ≤ s'.now ∧ s'.started = s.started ∧ s'.groupKilled = s.groupKilled ∧
      ∀ d ∈ ds, ∃ e, d.endsAt = some e ∧ s.started + e ≤ s'.now := by
  induction ds generalizing s with
  | nil =>
    obtain rfl : s = s' := by simpa [waitFor] using h
    exact ⟨le_rfl, rfl, rfl, by simp⟩
  | cons d ds ih =>
    obtain ⟨e, hends, hrest⟩ := Option.bind_eq_some_iff.mp h
    obtain ⟨hnow, hstarted, hgroup, hended⟩ := ih hrest
    exact ⟨(le_max_left _ _).trans hnow, hstarted, hgroup,
      List.forall_mem_cons.mpr ⟨⟨e, hends, (le_max_right _ _).trans hnow⟩, hended⟩⟩

/-- Reading to the end takes no time exactly if the stream is closed. -/
theorem waitEof_now_iff (stream : Stream) (s : ChildState) :
    (∃ s', host.waitEof stream s = some s' ∧ s'.now = s.now) ↔
      host.ClosedBy stream s s.now := by
  constructor
  · rintro ⟨s', heof, hnow⟩ d hd
    obtain ⟨e, hends, hle⟩ := (ended_of_waitFor heof).2.2.2 d hd
    exact ⟨e, hends, hnow ▸ hle⟩
  · exact fun h => ⟨s, waitFor_of_ended h, rfl⟩

/-- So does joining both threads. -/
theorem joinDrains_now_iff (s : ChildState) :
    (∃ stdout stderr s', host.joinDrains s = some (stdout, stderr, s') ∧ s'.now = s.now) ↔
      ∀ stream, host.ClosedBy stream s s.now := by
  constructor
  · rintro ⟨stdout, stderr, s', hjoin, hnow⟩
    obtain ⟨s₁, hfirst, hmap⟩ := Option.bind_eq_some_iff.mp hjoin
    obtain ⟨s₂, hsecond, heq⟩ := Option.map_eq_some_iff.mp hmap
    obtain rfl : s₂ = s' := congrArg (·.2.2) heq
    obtain ⟨hle, hstarted, hgroup, hended⟩ := ended_of_waitFor hfirst
    obtain ⟨hle', -, -, hended'⟩ := ended_of_waitFor hsecond
    have hholders : host.holders .stderr s₁ = host.holders .stderr s := by
      rw [holders, hgroup, holders]
    rw [hholders, hstarted] at hended'
    rintro (_ | _) d hd
    · obtain ⟨e, hends, hby⟩ := hended d hd
      exact ⟨e, hends, by omega⟩
    · obtain ⟨e, hends, hby⟩ := hended' d hd
      exact ⟨e, hends, by omega⟩
  · intro h
    have hfirst : host.waitEof .stdout s = some s := waitFor_of_ended (h .stdout)
    have hsecond : host.waitEof .stderr s = some s := waitFor_of_ended (h .stderr)
    exact ⟨_, _, s, by rw [joinDrains, hfirst, Option.bind_some, hsecond, Option.map_some], rfl⟩

/-! ## What the polling loop sees -/

/-- The loop looks at this time and then at the next. -/
def next (t : Nat) : Nat := t + Platform.POLL + host.oversleep t

/-- The time of its `k`th look. -/
def look (s : ChildState) (k : Nat) : Nat := host.next^[k] s.now

/-- At its `k`th look and at none before, the loop finds that the child has exited or has had its
    time. -/
structure EndsAtLook (exit : Option Nat) (had : Nat → Bool) (s : ChildState) (k : Nat) :
    Prop where
  before : ∀ j < k, exited exit s (host.look s j) = false ∧ had (host.look s j) = false
  ends : exited exit s (host.look s k) = true ∨ had (host.look s k) = true

section Looks

variable {host} {exit : Option Nat} {had : Nat → Bool} {s : ChildState}

theorem EndsAtLook.unique {j k : Nat} (hj : host.EndsAtLook exit had s j)
    (hk : host.EndsAtLook exit had s k) : j = k := by
  rcases Nat.lt_trichotomy j k with hlt | heq | hlt
  · obtain ⟨hexit, hhad⟩ := hk.before j hlt
    rcases hj.ends with h | h <;> simp_all
  · exact heq
  · obtain ⟨hexit, hhad⟩ := hj.before k hlt
    rcases hk.ends with h | h <;> simp_all

theorem add_le_look (s : ChildState) (k : Nat) : s.now + k * Platform.POLL ≤ host.look s k := by
  induction k with
  | zero => simp [look]
  | succ k ih =>
    rw [look, Function.iterate_succ_apply', ← look, next, Nat.add_mul, Nat.one_mul]
    omega

/-- Who has had his time at a deadline looks no more after it. -/
theorem exists_endsAtLook {deadline : Nat} (hdeadline : ∀ t, deadline ≤ t → had t = true)
    (exit : Option Nat) (s : ChildState) : ∃ k, host.EndsAtLook exit had s k := by
  have hsome : ∃ k, exited exit s (host.look s k) = true ∨ had (host.look s k) = true := by
    refine ⟨deadline, .inr (hdeadline _ ((?_ : deadline ≤ _).trans (add_le_look s deadline)))⟩
    exact (Nat.le_mul_of_pos_right deadline (by decide)).trans (Nat.le_add_left _ _)
  classical
  refine ⟨Nat.find hsome, fun j hj => ?_, Nat.find_spec hsome⟩
  simpa using Nat.find_min hsome hj

end Looks

/-- What the loop finds at its `k`th look, and what it leaves. -/
def ending (exit : Option Nat) (kill : Kill) (s : ChildState) (k : Nat) :
    WaitOutcome × ChildState :=
  let seen := { s with now := host.look s k }
  if exited exit s (host.look s k) then (.exited host.child.status, seen)
  else (.givenUp, host.kill kill seen)

/-- **The polling loop.**  It ends at that look. -/
theorem wait_eq {sinks : Stream → Sink} {kill : Kill} {had : Nat → Bool} {deadline k : Nat}
    {giveUp : ChildState → Bool × ChildState} {s : ChildState}
    (hgiveUp : ∀ s, giveUp s = (had s.now, s)) (hdeadline : ∀ t, deadline ≤ t → had t = true)
    (hk : host.EndsAtLook (host.exitTime sinks) had s k) :
    (host.processes sinks kill).wait deadline giveUp s =
      host.ending (host.exitTime sinks) kill s k := by
  have hloop : ∀ (k fuel : Nat) (s : ChildState), k ≤ fuel →
      host.EndsAtLook (host.exitTime sinks) had s k →
      (host.processes sinks kill).waitLoop giveUp (fuel + 1) s =
        host.ending (host.exitTime sinks) kill s k := by
    intro k
    induction k with
    | zero =>
      intro fuel s _ hends
      have hend := hends.ends
      rw [Processes.waitLoop, Processes.turn]
      simp only [processes, ending, look, Function.iterate_zero, id_eq] at hend ⊢
      by_cases hexit : exited (host.exitTime sinks) s s.now = true
      · simp [hexit]
      · have hhad : had s.now = true := hend.resolve_left hexit
        simp [hexit, hgiveUp, hhad]
    | succ k ih =>
      intro fuel s hfuel hends
      obtain ⟨fuel, rfl⟩ : ∃ f, fuel = f + 1 := ⟨fuel - 1, by omega⟩
      obtain ⟨hexit, hhad⟩ := hends.before 0 (Nat.succ_pos k)
      simp only [look, Function.iterate_zero, id_eq] at hexit hhad
      -- the next look is the first one after the pause
      have hshift : ∀ j, host.look (host.platform.sleep Platform.POLL s) j = host.look s (j + 1) :=
        fun j => (Function.iterate_succ_apply host.next j s.now).symm
      have hrest : host.EndsAtLook (host.exitTime sinks) had
          (host.platform.sleep Platform.POLL s) k := by
        refine ⟨fun j hj => ?_, ?_⟩
        · rw [hshift]
          exact hends.before (j + 1) (Nat.succ_lt_succ hj)
        · rw [hshift]
          exact hends.ends
      have hrun := ih fuel (host.platform.sleep Platform.POLL s) (by omega) hrest
      rw [ending, hshift] at hrun
      rw [Processes.waitLoop, Processes.turn]
      simp only [processes, hexit, hgiveUp, hhad, Bool.false_eq_true, if_false] at hrun ⊢
      exact hrun
  refine hloop k _ s ?_ hk
  -- the looks before it are before the deadline
  cases k with
  | zero => exact Nat.zero_le _
  | succ k =>
    have hlt : host.look s k < deadline := by
      by_contra hle
      have hhad := (hk.before k (Nat.lt_succ_self k)).2
      rw [hdeadline _ (by omega)] at hhad
      cases hhad
    have hlook : s.now + k * Platform.POLL ≤ host.look s k := add_le_look s k
    have hdiv : k ≤ (deadline - s.now) / Platform.POLL := by
      rw [Nat.le_div_iff_mul_le (by decide)]
      omega
    have hclock : host.platform.clock s = s.now := rfl
    rw [hclock]
    omega

end Host

end Bosun
