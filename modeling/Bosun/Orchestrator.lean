import Mathlib.Data.Finset.Insert
import Bosun.Platform
import Bosun.Registry

/-!
# The orchestrator

`Orchestrator::apply` walks the topological order once and, for every resource,
plans, marks the facts of its kind dirty and applies.  One pass of the loop
leaves through one of a dozen exits; each exit pushes one outcome and updates
the counters, the set of failed ids, the abort flag and the set of changed ids
on its own, so the model keeps one definition for each group of exits, with
every update written out.

The primitives are arbitrary: they may change anything behind the context, and
they may answer whatever they like.  `calls` is a record of what the loop asked
of them; nothing in the loop reads it.
-/

namespace Bosun

/-- The part of the apply context the orchestrator looks into is the set of
    changed ids; clock, token, daemons and journal are all in `state`. -/
structure ApplyCtx (S : Type) where
  changedResources : Finset ResourceId
  state : S

namespace ApplyCtx

variable {S : Type}

def recordChanged (ctx : ApplyCtx S) (id : ResourceId) : ApplyCtx S :=
  { ctx with changedResources := insert id ctx.changedResources }

def isChanged (ctx : ApplyCtx S) (id : ResourceId) : Bool := id ∈ ctx.changedResources

end ApplyCtx

/-- A primitive.  `plan` also reads the facts, which are behind `S` like
    everything else outside. -/
structure Primitive (P S : Type) where
  plan : Resource P → S → Call (Diff P) × S
  apply : Resource P → Diff P → ApplyCtx S → Call ChangeReport × ApplyCtx S

/-! ## Outcomes -/

inductive Outcome
  | noChange
  | changed
  | failed (error : String)
  | skipped
  | deferred (reason : String)
  | interrupted (reason : String)
deriving DecidableEq, Repr

namespace Outcome

/-- The resource is where the run wanted it, or will be brought there by a
    replay or by the next cycle. -/
def isSettled : Outcome → Bool
  | noChange | changed | deferred _ => true
  | failed _ | skipped | interrupted _ => false

end Outcome

structure ResourceApplyOutcome where
  id : ResourceId
  kind : ResourceKind
  outcome : Outcome
  message : String
deriving DecidableEq, Repr

structure ApplySummary where
  changed : Nat
  noChange : Nat
  failed : Nat
  skipped : Nat
  deferred : Nat
  interrupted : Nat
deriving DecidableEq, Repr

def ApplySummary.zero : ApplySummary := ⟨0, 0, 0, 0, 0, 0⟩

structure ApplyReport where
  resources : List ResourceApplyOutcome
  summary : ApplySummary

def ApplyReport.hasFailures (report : ApplyReport) : Bool := 0 < report.summary.failed

def ApplyReport.hasInterruptions (report : ApplyReport) : Bool :=
  0 < report.summary.interrupted

structure ApplyOpts where
  continueOnError : Bool
  pacer : PacerConfig

/-- The arguments of `Orchestrator::apply`, with the orchestrator's own table of
    primitives. -/
structure ApplyArgs (P S : Type) where
  primitives : ResourceKind → Option (Primitive P S)
  registry : Registry P
  markDirty : ResourceKind → S → S
  opts : ApplyOpts
  platform : Platform S

/-! ## The loop -/

/-- What the loop asked for, with what it showed to the primitive. -/
inductive PrimitiveCall
  /-- `plan` was called; the flag says whether it answered `NoChange`. -/
  | plan (id : ResourceId) (noChange : Bool)
  | markDirty (id : ResourceId) (kind : ResourceKind)
  /-- `apply` was called with these ids changed and these outcomes known. -/
  | apply (id : ResourceId) (changed : Finset ResourceId) (seen : List ResourceApplyOutcome)
deriving DecidableEq

def PrimitiveCall.id : PrimitiveCall → ResourceId
  | plan id _ | markDirty id _ | apply id _ _ => id

/-- The local variables of the loop. -/
structure ApplyLoop (S : Type) where
  ctx : ApplyCtx S
  resources : List ResourceApplyOutcome
  summary : ApplySummary
  aborted : Bool
  failedOrInterrupted : Finset ResourceId
  calls : List PrimitiveCall

namespace ApplyLoop

variable {P S : Type}

def start (ctx : ApplyCtx S) : ApplyLoop S := ⟨ctx, [], .zero, false, ∅, []⟩

def report (s : ApplyLoop S) : ApplyReport := ⟨s.resources, s.summary⟩

def push (id : ResourceId) (kind : ResourceKind) (outcome : Outcome) (message : String)
    (s : ApplyLoop S) : ApplyLoop S :=
  { s with resources := s.resources ++ [⟨id, kind, outcome, message⟩] }

def call (c : PrimitiveCall) (s : ApplyLoop S) : ApplyLoop S :=
  { s with calls := s.calls ++ [c] }

/-! The exits. -/

/-- Every `Failed` exit; the text of the error differs. -/
def fail (opts : ApplyOpts) (id : ResourceId) (kind : ResourceKind) (error message : String)
    (s : ApplyLoop S) : ApplyLoop S :=
  { s.push id kind (.failed error) message with
    summary := { s.summary with failed := s.summary.failed + 1 }
    failedOrInterrupted := insert id s.failedOrInterrupted
    aborted := s.aborted || !opts.continueOnError }

/-- The three `Interrupted` exits: pacer, plan, apply. -/
def interrupt (id : ResourceId) (kind : ResourceKind) (reason : String) (s : ApplyLoop S) :
    ApplyLoop S :=
  { s.push id kind (.interrupted reason) reason with
    summary := { s.summary with interrupted := s.summary.interrupted + 1 }
    failedOrInterrupted := insert id s.failedOrInterrupted
    aborted := true }

/-- The run is over; the id does not join the failed ones. -/
def skipAborted (id : ResourceId) (kind : ResourceKind) (s : ApplyLoop S) : ApplyLoop S :=
  { s.push id kind .skipped "skipped: aborted after earlier failure" with
    summary := { s.summary with skipped := s.summary.skipped + 1 } }

/-- A dependency has failed; the id joins the failed ones, so that the skip
    reaches whatever depends on it. -/
def skipDependent (id : ResourceId) (kind : ResourceKind) (failedDep : ResourceId)
    (s : ApplyLoop S) : ApplyLoop S :=
  { s.push id kind .skipped
      ("skipped: transitive failure of dependency '" ++ failedDep.asStr ++ "'") with
    summary := { s.summary with skipped := s.summary.skipped + 1 }
    failedOrInterrupted := insert id s.failedOrInterrupted }

def unchanged (id : ResourceId) (kind : ResourceKind) (message : String) (s : ApplyLoop S) :
    ApplyLoop S :=
  { s.push id kind .noChange message with
    summary := { s.summary with noChange := s.summary.noChange + 1 } }

def change (id : ResourceId) (kind : ResourceKind) (message : String) (s : ApplyLoop S) :
    ApplyLoop S :=
  { s.push id kind .changed message with
    ctx := s.ctx.recordChanged id
    summary := { s.summary with changed := s.summary.changed + 1 } }

def defer (id : ResourceId) (kind : ResourceKind) (reason : String) (s : ApplyLoop S) :
    ApplyLoop S :=
  { s.push id kind (.deferred reason) reason with
    summary := { s.summary with deferred := s.summary.deferred + 1 } }

end ApplyLoop

namespace ApplyArgs

variable {P S : Type} (args : ApplyArgs P S)

def unknownKind : ResourceKind := ⟨"unknown"⟩

def kindOf (id : ResourceId) : ResourceKind :=
  match args.registry.get id with
  | some r => r.kind
  | none => unknownKind

/-- The `match apply_result` at the end of the loop body. -/
def recordApply (id : ResourceId) (kind : ResourceKind)
    (result : Except PrimitiveError ChangeReport) (s : ApplyLoop S) : ApplyLoop S :=
  match result with
  | .ok report =>
    if report.deferred then s.defer id kind report.message
    else if report.changed then s.change id kind report.message
    else s.unchanged id kind report.message
  | .error .cancelled => s.interrupt id kind "apply cancelled by deadline or signal"
  | .error err =>
    if err.isDeferrable then s.defer id kind err.display
    else s.fail args.opts id kind err.describe.2 err.describe.1

/-- Steps 3 and 4: `mark_dirty` comes before `apply`, so that a failed apply
    leaves no stale fact behind. -/
def applyDiff (primitive : Primitive P S) (r : Resource P) (diff : Diff P)
    (s : ApplyLoop S) : ApplyLoop S :=
  let s := { s with ctx := { s.ctx with state := args.markDirty r.kind s.ctx.state } }
  let s := s.call (.markDirty r.id r.kind)
  let s := s.call (.apply r.id s.ctx.changedResources s.resources)
  let (answer, ctx) := primitive.apply r diff s.ctx
  args.recordApply r.id r.kind (callPrimitive ("apply " ++ r.id.asStr) answer) { s with ctx := ctx }

/-- Did `plan` answer `NoChange`? -/
def isNoChange : Except PrimitiveError (Diff P) → Bool
  | .ok .noChange => true
  | _ => false

/-- Steps 1 and 2. -/
def planResource (primitive : Primitive P S) (r : Resource P) (s : ApplyLoop S) :
    ApplyLoop S :=
  let (answer, state) := primitive.plan r s.ctx.state
  let result := callPrimitive ("plan " ++ r.id.asStr) answer
  let s := { s with ctx := { s.ctx with state := state } }
  let s := s.call (.plan r.id (isNoChange result))
  match result with
  | .ok .noChange => s.unchanged r.id r.kind ""
  | .ok diff => args.applyDiff primitive r diff s
  | .error .cancelled => s.interrupt r.id r.kind "plan cancelled by deadline or signal"
  | .error err =>
    s.fail args.opts r.id r.kind ("plan failed: " ++ err.display)
      ("plan failed: " ++ err.display)

/-- The resource's turn, when the run has not been aborted. -/
def processResource (id : ResourceId) (s : ApplyLoop S) : ApplyLoop S :=
  match args.registry.get id with
  | none =>
    s.fail args.opts id unknownKind "resource missing from registry during topo iteration" ""
  | some r =>
    -- `reload_on` and `restart_on` are notify channels, not hard dependencies
    match r.dependsOn.find? (fun dep => dep ∈ s.failedOrInterrupted) with
    | some failedDep => s.skipDependent id r.kind failedDep
    | none =>
      match args.primitives r.kind with
      | none =>
        s.fail args.opts id r.kind
          ("no primitive registered for kind '" ++ r.kind.asStr ++ "'")
          ("no primitive registered for kind '" ++ r.kind.asStr ++ "'")
      | some primitive => args.planResource primitive r s

/-- One pass of the loop.  The pacer's pause comes first, except before the
    first resource and after an abort. -/
def iteration (interval : Nat) (idx : Nat) (id : ResourceId) (s : ApplyLoop S) :
    ApplyLoop S :=
  if 0 < idx ∧ interval ≠ 0 ∧ s.aborted = false then
    let (slept, state) := args.platform.cancellableSleep interval s.ctx.state
    let s := { s with ctx := { s.ctx with state := state } }
    if slept then args.processResource id s
    else s.interrupt id (args.kindOf id) "apply cancelled during pacer sleep"
  else if s.aborted then s.skipAborted id (args.kindOf id)
  else args.processResource id s

/-- `for (idx, id) in order.into_iter().enumerate()`. -/
def loop (interval : Nat) : Nat → List ResourceId → ApplyLoop S → ApplyLoop S
  | _, [], s => s
  | idx, id :: order, s => loop interval (idx + 1) order (args.iteration interval idx id s)

/-- The whole loop over one order. -/
def run (order : List ResourceId) (ctx : ApplyCtx S) : ApplyLoop S :=
  args.loop (args.opts.pacer.intervalFor order.length) 0 order (.start ctx)

/-- `Orchestrator::apply`, together with the context it leaves behind. -/
def apply (it : Registry.HashIter) (ctx : ApplyCtx S) :
    Except RegistryError (ApplyReport × ApplyCtx S) := do
  let order ← args.registry.topologicalOrder it
  let s := args.run order ctx
  .ok (s.report, s.ctx)

end ApplyArgs

end Bosun
