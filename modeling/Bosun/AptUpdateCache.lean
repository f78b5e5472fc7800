import Bosun.AptDeadlines
import Bosun.ErrorExcerpts

/-!
# `apt.update_cache`

Refreshes apt's lists when `pkgcache.bin` is too old.  Its one command is given the deadline of
the run, so the runner gives it up only when the run is to stop.
-/

namespace Bosun

structure AptUpdateCacheSpec where
  name : String
  maxAgeSec : Nat
  cleanupOldDebsDays : Nat
  force : Bool
  skipCleanup : Bool

inductive RefreshReason
  | missing
  | stale (ageSec maxAgeSec : Nat)
  | forced
  | unreadableMtime (context : String)
deriving DecidableEq, Repr

/-- `Action` of `plan.rs`. -/
inductive AptCacheAction
  | fresh (ageSec : Nat)
  | refresh (reason : RefreshReason)
deriving DecidableEq, Repr

namespace AptUpdateCacheSpec

variable (spec : AptUpdateCacheSpec)

def decideAction (ageSec : Option Nat) : AptCacheAction :=
  if spec.force then .refresh .forced
  else
    match ageSec with
    | none => .refresh .missing
    | some age =>
      if spec.maxAgeSec ≤ age then .refresh (.stale age spec.maxAgeSec) else .fresh age

end AptUpdateCacheSpec

/-- What the primitive does besides running its command. -/
structure AptCacheBackend (S : Type) where
  /-- in seconds; no age when the file is missing -/
  readPkgcacheAge : S → Except String (Option Nat) × S
  cleanupOldDebs : Nat → S → Except String Nat × S
  sliceError : String → Nat → String

def DPKG_LOCK_PATH : String := "/var/lib/dpkg/lock-frontend"

def CACHE_UPDATE_ARGS : List String :=
  ["update", "-qy", "-oDPkg::Lock::Timeout=30", "-oAPT::Acquire::Retries=3"]

namespace AptEnv

variable {S : Type} {plat : Platform S} (env : AptEnv plat) (ctx : AptCtx)
  (backend : AptCacheBackend S)

/-- `RealAptCacheBackend::update`, with a panic as a value. -/
def cacheUpdate : AptM S (Call Unit) := do
  let result ← env.run "apt-get" CACHE_UPDATE_ARGS ctx.deadline
  return aptCacheCall (aptCacheUpdate backend.sliceError (fun _ _ _ => .ok result) ctx.deadline)

def runCacheSpec (spec : AptUpdateCacheSpec) : AptM S (Call ChangeReport) := do
  env.checkCancelOrDeadline ctx
  -- an age that cannot be read counts as none
  let age := match ← AptM.outside backend.readPkgcacheAge with
    | .ok age => age
    | .error _ => none
  match spec.decideAction age with
  | .fresh _ => return .returned (.ok .noChange)
  | .refresh _ =>
    env.probeDpkgLock { ctx with dpkgLockPath := DPKG_LOCK_PATH }
    match ← env.cacheUpdate ctx backend with
    | .returned (.error e) => throw e
    | .panicked payload => return .panicked payload
    | .returned (.ok ()) =>
      if !spec.skipCleanup then
        -- what comes of it is logged
        let _ ← AptM.outside (backend.cleanupOldDebs spec.cleanupOldDebsDays)
      return .returned (.ok (.ofChanged
        ("apt-get update succeeded (resource " ++ spec.name ++ ")")))

/-- `apt_update_cache/apply.rs`, `run`. -/
def runCacheApply {P : Type} (decode : P → Except String AptUpdateCacheSpec)
    (resource : Resource P) (diff : Diff P) : AptM S (Call ChangeReport) :=
  match diff with
  | .noChange => return .returned (.ok .noChange)
  | _ =>
    match decode resource.payload with
    | .error e => throw (.invalidPayload ("apt.update_cache payload: " ++ e))
    | .ok spec => env.runCacheSpec ctx backend spec

/-! ## `Cancelled` -/

/-- The runner gives up at this deadline only when the run is to stop then. -/
def GivesUpAt (deadline : Nat) : Prop :=
  ∀ cmd args s, (env.runCommand cmd args deadline s).1 = .error .cancelled →
    plat.Interrupted deadline (env.runCommand cmd args deadline s).2

variable {env ctx}

/-- What is promised of an answer `Cancelled`. -/
def CancelledRightly (plat : Platform S) (deadline : Nat) (e : PrimitiveError) (s : AptState S) :
    Prop := e = .cancelled → plat.Interrupted deadline s.world

theorem triple_cacheUpdate (h : env.GivesUpAt ctx.deadline) :
    Triple (fun _ => True) (env.cacheUpdate ctx backend)
      (fun call _ => call ≠ .returned (.error .cancelled))
      (CancelledRightly plat ctx.deadline) := by
  refine Triple.bind (Q := fun _ _ => True) ?_ fun result => Triple.ret fun _ _ => ?_
  · intro s _
    have hgives := h "apt-get" CACHE_UPDATE_ARGS s.world
    unfold run
    generalize env.runCommand "apt-get" CACHE_UPDATE_ARGS ctx.deadline s.world = ran at hgives ⊢
    obtain ⟨_ | _, world⟩ := ran
    · exact fun he => hgives (congrArg Except.error he)
    · trivial
  · unfold aptCacheUpdate
    dsimp only
    split
    · nofun
    · split <;> nofun

variable (env ctx) in
theorem raises_checkCancelOrDeadline :
    Raises (env.checkCancelOrDeadline ctx) (CancelledRightly plat ctx.deadline) := by
  refine Triple.bind (Q := fun stop (s : AptState S) =>
    stop = true → plat.Interrupted ctx.deadline s.world)
    (fun s _ => plat.interrupted_of_cancelledOrPastDeadline) fun stop => ?_
  cases stop with
  | true => exact Triple.raise fun s hs _ => hs rfl
  | false => exact Triple.ret fun _ _ => trivial

variable (env ctx) in
theorem raises_probeDpkgLock {deadline : Nat} :
    Raises (env.probeDpkgLock ctx) (CancelledRightly plat deadline) := by
  refine Raises.bind (fun _ _ => trivial) fun opened => ?_
  cases opened with
  | error e => exact .raise fun _ => nofun
  | ok _ =>
    refine Raises.bind (fun _ _ => trivial) fun lock => ?_
    match lock with
    | .error e => exact .raise fun _ => nofun
    | .ok .unlocked => exact .ret ()
    | .ok (.locked pid) => exact .raise fun _ => nofun

theorem triple_runCacheSpec (h : env.GivesUpAt ctx.deadline) (spec : AptUpdateCacheSpec) :
    Triple (fun _ => True) (env.runCacheSpec ctx backend spec)
      (fun call _ => call ≠ .returned (.error .cancelled))
      (CancelledRightly plat ctx.deadline) := by
  refine Triple.bind (env.raises_checkCancelOrDeadline ctx) fun _ => ?_
  refine Triple.bind (Q := fun _ _ => True) (fun _ _ => trivial) fun age => ?_
  dsimp only
  split
  · exact Triple.ret fun _ _ => nofun
  · refine Triple.bind (env.raises_probeDpkgLock _) fun _ => ?_
    refine (triple_cacheUpdate backend h).bind fun call => ?_
    match call with
    | .returned (.error e) =>
      exact Triple.raise fun s hs he => absurd (congrArg (Call.returned ∘ .error) he) hs
    | .panicked payload => exact Triple.ret fun _ _ => nofun
    | .returned (.ok ()) =>
      dsimp only
      split
      · exact Triple.bind (Q := fun _ _ => True) (fun _ _ => trivial) fun _ =>
          Triple.ret fun _ _ => nofun
      · exact Triple.ret fun _ _ => nofun

variable (env ctx) in
/-- **`apt.update_cache` answers `Cancelled` only when the run is to stop.** -/
theorem triple_runCacheApply (h : env.GivesUpAt ctx.deadline) {P : Type}
    (decode : P → Except String AptUpdateCacheSpec) (resource : Resource P) (diff : Diff P) :
    Triple (fun _ => True) (env.runCacheApply ctx backend decode resource diff)
      (fun call _ => call ≠ .returned (.error .cancelled))
      (CancelledRightly plat ctx.deadline) := by
  have hdecoded : Triple (fun _ => True)
      (match decode resource.payload with
        | .error e => throw (.invalidPayload ("apt.update_cache payload: " ++ e))
        | .ok spec => env.runCacheSpec ctx backend spec)
      (fun call _ => call ≠ .returned (.error .cancelled))
      (CancelledRightly plat ctx.deadline) := by
    cases decode resource.payload with
    | error e => exact Triple.raise fun _ _ => nofun
    | ok spec => exact triple_runCacheSpec backend h spec
  cases diff with
  | noChange => exact Triple.ret fun _ _ => nofun
  | add _ _ => exact hdecoded
  | update _ _ _ => exact hdecoded

end AptEnv

end Bosun
