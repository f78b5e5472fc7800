import Bosun.DeferFormat
import Bosun.Resource

/-!
# The clients of the init systems

bosun talks to two init systems, runr over HTTP and systemd over dbus, and sees
each of them through a handle: a fixed set of calls, each of which comes back
with an answer or with an error of the client.  What the calls do to the outside
world `V` is not modelled; a handle may do and answer anything.

A `World` is the outside world with a record of what bosun asked of it.  The
record grows with every call and nothing in the program reads it; the statements
about dispatched actions, stops and notifications are statements about it.
-/

namespace Bosun

/-! ## Errors -/

/-- `bosun-runr-client/src/error.rs`; a wrapped error is the text it displays. -/
inductive RunrError
  | unavailable (baseUrl source : String)
  | apiError (status : Nat) (body : String)
  | badResponse (message : String)
  | notFound (kind name : String)
  | restartNotObserved (unit : String)
  | startNotObserved (unit lastState : String)
  | serviceStartFailed (unit : String)
  | io (source : String)
deriving DecidableEq, Repr

def RunrError.display : RunrError → String
  | unavailable baseUrl source => "runr unavailable at " ++ baseUrl ++ ": " ++ source
  | apiError status body => "runr API error: status=" ++ toString status ++ ", body=" ++ body
  | badResponse message => "runr returned invalid JSON: " ++ message
  | notFound kind name => "runr " ++ kind ++ " not found: " ++ name
  | restartNotObserved unit =>
      "restart of " ++ unit ++ " did not produce observed restart increment"
  | startNotObserved unit lastState =>
      "start of " ++ unit ++ " did not reach Running state in time (last=" ++ lastState ++ ")"
  | serviceStartFailed unit => "start of " ++ unit ++ " resulted in Failed state"
  | io source => "i/o error: " ++ source

/-- `bosun-systemd-client/src/error.rs`; the duration of a timeout is its text. -/
inductive SystemdError
  | busUnavailable (reason : String)
  | dbus (source : String)
  | noSuchUnit (unit : String)
  | authorizationDenied (action unit : String)
  | jobFailed (job result activeState : String)
  | restartNotObserved (unit : String)
  | timeout (duration : String)
  | io (source : String)
deriving DecidableEq, Repr

def SystemdError.display : SystemdError → String
  | busUnavailable reason => "system bus unavailable: " ++ reason
  | dbus source => "dbus error: " ++ source
  | noSuchUnit unit => "no such unit: " ++ unit
  | authorizationDenied action unit => "authorization denied for " ++ action ++ " on " ++ unit
  | jobFailed job result activeState =>
      "job " ++ job ++ " failed: result=" ++ result ++ ", active_state=" ++ activeState
  | restartNotObserved unit => "restart of " ++ unit ++ " did not change InvocationID"
  | timeout duration => "timed out after " ++ duration ++ " waiting for systemd job"
  | io source => "i/o error: " ++ source

/-! ## Handles -/

/-- Of a snapshot of runr, what bosun reads. -/
structure ServiceStatus where
  name : String
  state : String
deriving DecidableEq, Repr

/-- Of the properties of a systemd unit, what bosun reads. -/
structure UnitInfo where
  activeState : String
  invocationId : String
deriving DecidableEq, Repr

/-- A call: it acts on the world and comes back. -/
abbrev ClientCall (V ε α : Type) := V → Except ε α × V

structure RunrHandle (V : Type) where
  baseUrl : String
  daemonReload : ClientCall V RunrError Unit
  serviceStart : String → ClientCall V RunrError Unit
  serviceStop : String → ClientCall V RunrError Unit
  serviceRestart : String → ClientCall V RunrError Unit
  serviceReload : String → ClientCall V RunrError Unit
  serviceStatuses : ClientCall V RunrError (List ServiceStatus)
  verifyStart : String → ClientCall V RunrError ServiceStatus

structure SystemdHandle (V : Type) where
  daemonReload : ClientCall V SystemdError Unit
  needsDaemonReload : String → ClientCall V SystemdError Bool
  startUnit : String → ClientCall V SystemdError Unit
  stopUnit : String → ClientCall V SystemdError Unit
  restartUnit : String → ClientCall V SystemdError Unit
  reloadUnit : String → ClientCall V SystemdError Unit
  enableUnit : String → ClientCall V SystemdError Unit
  isUnitEnabled : String → ClientCall V SystemdError Bool
  unitInfo : String → ClientCall V SystemdError UnitInfo

/-- A client that answers every call with the same error. -/
def SystemdHandle.failing {V : Type} (err : SystemdError) : SystemdHandle V where
  daemonReload v := (.error err, v)
  needsDaemonReload _ v := (.error err, v)
  startUnit _ v := (.error err, v)
  stopUnit _ v := (.error err, v)
  restartUnit _ v := (.error err, v)
  reloadUnit _ v := (.error err, v)
  enableUnit _ v := (.error err, v)
  isUnitEnabled _ v := (.error err, v)
  unitInfo _ v := (.error err, v)

/-- A client that carries out every call; its units are active. -/
def SystemdHandle.obedient {V : Type} : SystemdHandle V where
  daemonReload v := (.ok (), v)
  needsDaemonReload _ v := (.ok false, v)
  startUnit _ v := (.ok (), v)
  stopUnit _ v := (.ok (), v)
  restartUnit _ v := (.ok (), v)
  reloadUnit _ v := (.ok (), v)
  enableUnit _ v := (.ok (), v)
  isUnitEnabled _ v := (.ok true, v)
  unitInfo _ v := (.ok ⟨"active", "1"⟩, v)

/-! ## The record -/

inductive InitSystem
  | runr
  | systemd
deriving DecidableEq, Repr

/-- The tag in `DeferEntry::init_system`. -/
def InitSystem.tag : InitSystem → String
  | runr => "runr"
  | systemd => "systemd"

inductive UnitOp
  | start
  | stop
  | restart
  | reload
deriving DecidableEq, Repr

/-- The calls that start, stop, restart or reload no unit. -/
inductive Query
  | daemonReload
  | needsDaemonReload
  | isUnitEnabled
  | enableUnit
  | unitInfo
  | serviceStatuses
  | verifyStart
deriving DecidableEq, Repr

inductive ClientError
  | runr (err : RunrError)
  | systemd (err : SystemdError)
deriving DecidableEq, Repr

/-- Who makes a call: the replay of an entry, or the apply of a resource. -/
inductive Caller
  | replay (entry : DeferEntry)
  | apply (id : ResourceId)
deriving DecidableEq

/-- The state a service resource asks for. -/
inductive ServiceState
  | running
  | stopped
  | absent
deriving DecidableEq, Repr

inductive Act
  /-- One of the four operations on a unit, with the error it came back with. -/
  | unit (caller : Caller) (init : InitSystem) (op : UnitOp) (name : String)
      (error : Option ClientError)
  /-- Any other call of an init system. -/
  | query (caller : Caller) (init : InitSystem) (what : Query) (error : Option ClientError)
  /-- A validator was run. -/
  | validated (argv : List String) (passed : Bool)
  /-- A service resource got its turn and asked for this state of its unit. -/
  | wanted (id : ResourceId) (init : InitSystem) (name : String) (state : ServiceState)
  /-- A service resource has stopped its unit, or found it stopped; these entries
      were pending then. -/
  | stopped (id : ResourceId) (init : InitSystem) (name : String) (pending : List DeferEntry)
deriving DecidableEq

/-- The error a call came back with, if any. -/
def errorOf {ε α : Type} : Except ε α → Option ε
  | .ok _ => none
  | .error err => some err

structure World (V : Type) where
  outside : V
  record : List Act

namespace World

variable {V : Type}

def note (acts : List Act) (w : World V) : World V := { w with record := w.record ++ acts }

/-- Make a call and put it on record. -/
def ask {ε α : Type} (act : Option ε → Act) (call : ClientCall V ε α) (w : World V) :
    Except ε α × World V :=
  let (answer, outside) := call w.outside
  (answer, { w with outside := outside }.note [act (errorOf answer)])

@[simp] theorem record_note (acts : List Act) (w : World V) :
    (w.note acts).record = w.record ++ acts := rfl

@[simp] theorem outside_note (acts : List Act) (w : World V) :
    (w.note acts).outside = w.outside := rfl

/-- The record of a call says how it came back. -/
@[simp] theorem record_ask {ε α : Type} (act : Option ε → Act) (call : ClientCall V ε α)
    (w : World V) :
    (w.ask act call).2.record = w.record ++ [act (errorOf (w.ask act call).1)] := rfl

end World

/-! ## Recorded calls -/

namespace RunrHandle

variable {V : Type} (handle : RunrHandle V) (caller : Caller)

def call (op : UnitOp) (name : String) : World V → Except RunrError Unit × World V :=
  World.ask (fun error => .unit caller .runr op name (error.map .runr)) <|
    match op with
    | .start => handle.serviceStart name
    | .stop => handle.serviceStop name
    | .restart => handle.serviceRestart name
    | .reload => handle.serviceReload name

/-- A call that touches no unit. -/
def query {α : Type} (what : Query) (call : ClientCall V RunrError α) :
    World V → Except RunrError α × World V :=
  World.ask (fun error => .query caller .runr what (error.map .runr)) call

theorem record_call (op : UnitOp) (name : String) (w : World V) :
    (handle.call caller op name w).2.record = w.record ++
      [.unit caller .runr op name ((errorOf (handle.call caller op name w).1).map .runr)] := rfl

theorem record_query {α : Type} (what : Query) (call : ClientCall V RunrError α) (w : World V) :
    (query caller what call w).2.record = w.record ++
      [.query caller .runr what ((errorOf (query caller what call w).1).map .runr)] := rfl

end RunrHandle

namespace SystemdHandle

variable {V : Type} (handle : SystemdHandle V) (caller : Caller)

def call (op : UnitOp) (name : String) : World V → Except SystemdError Unit × World V :=
  World.ask (fun error => .unit caller .systemd op name (error.map .systemd)) <|
    match op with
    | .start => handle.startUnit name
    | .stop => handle.stopUnit name
    | .restart => handle.restartUnit name
    | .reload => handle.reloadUnit name

/-- A call that touches no unit. -/
def query {α : Type} (what : Query) (call : ClientCall V SystemdError α) :
    World V → Except SystemdError α × World V :=
  World.ask (fun error => .query caller .systemd what (error.map .systemd)) call

theorem record_call (op : UnitOp) (name : String) (w : World V) :
    (handle.call caller op name w).2.record = w.record ++
      [.unit caller .systemd op name ((errorOf (handle.call caller op name w).1).map .systemd)] :=
  rfl

theorem record_query {α : Type} (what : Query) (call : ClientCall V SystemdError α)
    (w : World V) : (query caller what call w).2.record = w.record ++
      [.query caller .systemd what ((errorOf (query caller what call w).1).map .systemd)] := rfl

end SystemdHandle

end Bosun
