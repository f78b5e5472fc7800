import Mathlib.Data.List.Basic

/-!
# Resources and the contract of a primitive

`bosun-core` knows a resource by its id, its kind and three lists of handles;
the payload is opaque to it (`serde_json::Value` in the source, the type
parameter `P` here), and only the primitive of that kind decodes it.

A primitive answers `plan` with a `Diff` and `apply` with a `ChangeReport`; both
may fail with a `PrimitiveError`, and both may panic, which `callPrimitive`
turns into one more error (`orchestrator.rs`, `call_primitive`).
-/

namespace Bosun

/-- Kind of a resource, such as `apt.package`. -/
structure ResourceKind where
  asStr : String
deriving DecidableEq, Repr

/-- Globally unique id of a resource: `<kind>:<identity>`. -/
structure ResourceId where
  asStr : String
deriving DecidableEq, Repr

def ResourceId.new (kind : ResourceKind) (identity : String) : ResourceId :=
  ⟨kind.asStr ++ ":" ++ identity⟩

/-- A registered resource.  `reloadOn` and `restartOn` are the notify edges,
    `dependsOn` the ordering edges. -/
structure Resource (P : Type) where
  id : ResourceId
  kind : ResourceKind
  specVersion : Nat
  payload : P
  reloadOn : List ResourceId
  restartOn : List ResourceId
  dependsOn : List ResourceId

/-- `depends_on.iter().chain(reload_on.iter()).chain(restart_on.iter())`. -/
def Resource.edges {P : Type} (r : Resource P) : List ResourceId :=
  r.dependsOn ++ r.reloadOn ++ r.restartOn

/-! ## What a primitive answers -/

/-- Result of the plan phase. -/
inductive Diff (P : Type)
  | noChange
  | add (description : String) (payload : P)
  | update (source target : P) (description : String)

/-- Result of a successful apply. -/
structure ChangeReport where
  changed : Bool
  message : String
  deferred : Bool
deriving DecidableEq, Repr

namespace ChangeReport

def noChange : ChangeReport := ⟨false, "", false⟩

def ofChanged (message : String) : ChangeReport := ⟨true, message, false⟩

/-- The action went into the defer journal and runs in a replay. -/
def ofDeferred (message : String) : ChangeReport := ⟨false, message, true⟩

end ChangeReport

inductive PrimitiveError
  | io (context source : String)
  | invalidPayload (message : String)
  | exec (reason : String) (exit : Option Int) (stderrExcerpt : String)
  | dpkgLocked (holderPid : Option Int)
  | chownNotPermitted (requested actual : String)
  | invalidTarget
  | cancelled
  | panic (context message : String)
  | apply (reason : String)
  | runrUnavailable (baseUrl reason : String)
  | systemdUnavailable (reason : String)
  | validation (validator stderrExcerpt : String)
  | healthCheckFailed (target reason : String)
  | deferIo (path reason : String)
deriving DecidableEq, Repr

namespace PrimitiveError

/-- The `{:?}` of an `Option<i32>`. -/
def debugPid : Option Int → String
  | none => "None"
  | some pid => "Some(" ++ toString pid ++ ")"

/-- The `Display` text of the error. -/
def display : PrimitiveError → String
  | io context _ => "io error in " ++ context
  | invalidPayload message => "invalid resource payload: " ++ message
  | exec reason _ _ => "external command failed: " ++ reason
  | dpkgLocked holderPid => "dpkg locked, holder pid=" ++ debugPid holderPid
  | chownNotPermitted requested actual =>
      "chown not permitted: requested " ++ requested ++ ", current " ++ actual
  | invalidTarget => "target is a symlink, refusing to write through it"
  | cancelled => "operation cancelled by deadline or signal"
  | panic context message => "panicked in " ++ context ++ ": " ++ message
  | apply reason => "apply failed: " ++ reason
  | runrUnavailable baseUrl reason => "runr unavailable at " ++ baseUrl ++ ": " ++ reason
  | systemdUnavailable reason => "systemd unavailable: " ++ reason
  | validation validator stderrExcerpt =>
      "validation by " ++ validator ++ " failed: " ++ stderrExcerpt
  | healthCheckFailed target reason => "health check on " ++ target ++ " failed: " ++ reason
  | deferIo path reason => "defer journal i/o error at " ++ path ++ ": " ++ reason

/-- «Try again in the next cycle, this is not a real failure.» -/
def isDeferrable : PrimitiveError → Bool
  | dpkgLocked _ | runrUnavailable _ _ | systemdUnavailable _ => true
  | _ => false

/-- The pair (message, structured error); both are the same text. -/
def describe (err : PrimitiveError) : String × String := (err.display, err.display)

end PrimitiveError

/-! ## Panics -/

/-- What a panic carries. -/
inductive PanicPayload
  | staticStr (s : String)
  | string (s : String)
  | other

def PanicPayload.message : PanicPayload → String
  | staticStr s | string s => s
  | other => "<non-string panic payload>"

/-- A call of user-supplied code either comes back or panics. -/
inductive Call (α : Type)
  | returned (result : Except PrimitiveError α)
  | panicked (payload : PanicPayload)

/-- `catch_unwind` at the border between the orchestrator and a primitive. -/
def callPrimitive {α : Type} (context : String) : Call α → Except PrimitiveError α
  | .returned result => result
  | .panicked payload => .error (.panic context payload.message)

/-- A panic is never taken for a cancellation or for a transient error, so a
    panicking primitive always counts as failed. -/
theorem callPrimitive_panicked {α : Type} (context : String) (payload : PanicPayload) :
    ∃ err, callPrimitive (α := α) context (.panicked payload) = .error err ∧
      err ≠ .cancelled ∧ err.isDeferrable = false :=
  ⟨_, rfl, by simp, rfl⟩

theorem callPrimitive_eq_cancelled {α : Type} {context : String} {call : Call α} :
    callPrimitive context call = .error .cancelled ↔ call = .returned (.error .cancelled) := by
  cases call <;> simp [callPrimitive]

end Bosun
