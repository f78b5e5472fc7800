import Bosun.InitSystem
import Bosun.Process
import Bosun.Replay

/-!
# The dispatcher

`dispatch.rs`: the client the replay is given in production.  It takes the
action of an entry to the handle of its init system, or runs it as a command,
and sorts the errors into those that are only a matter of time and those that
cost an attempt.

A handle is missing when the node does not have the init system, or when it
could not be reached when the run began; that counts as a matter of time.
-/

namespace Bosun

/-- Anything but an unreachable daemon is a failure of the action. -/
def mapRunrResult : Except RunrError Unit → Except DispatchError Unit
  | .ok () => .ok ()
  | .error (.unavailable _ _) => .error .clientUnavailable
  | .error other => .error (.action other.display)

def mapSystemdResult : Except SystemdError Unit → Except DispatchError Unit
  | .ok () => .ok ()
  | .error (.busUnavailable _) => .error .clientUnavailable
  | .error other => .error (.action other.display)

/-- 60 s. -/
def COMMAND_DISPATCH_TIMEOUT : Nat := 60 * 1000000000

def STDERR_EXCERPT_LIMIT : Nat := 256

structure RealDispatchClient (V : Type) where
  runr : Option (RunrHandle V)
  systemd : Option (SystemdHandle V)
  platform : Platform V
  processes : Processes platform

namespace RealDispatchClient

variable {V : Type} (client : RealDispatchClient V)

def dispatchSystemd (entry : DeferEntry) (w : World V) : Except DispatchError Unit × World V :=
  match client.systemd with
  | none => (.error .clientUnavailable, w)
  | some handle =>
    let unit (op : UnitOp) :=
      let (result, w) := handle.call (.replay entry) op entry.target w
      (mapSystemdResult result, w)
    match entry.action with
    | .start => unit .start
    | .stop => unit .stop
    | .restart => unit .restart
    | .reload => unit .reload
    -- the handle has no operation of this name; a restart covers both
    | .reloadOrRestart => unit .restart
    | .daemonReload =>
      let (result, w) := SystemdHandle.query (.replay entry) .daemonReload handle.daemonReload w
      (mapSystemdResult result, w)
    | .command _ =>
      (.error (.action ("command action with init_system=systemd is invalid for entry " ++
        entry.id)), w)

def dispatchRunr (entry : DeferEntry) (w : World V) : Except DispatchError Unit × World V :=
  match client.runr with
  | none => (.error .clientUnavailable, w)
  | some handle =>
    let unit (op : UnitOp) :=
      let (result, w) := handle.call (.replay entry) op entry.target w
      (mapRunrResult result, w)
    match entry.action with
    | .start => unit .start
    | .stop => unit .stop
    | .restart => unit .restart
    | .reload => unit .reload
    | .reloadOrRestart => unit .restart
    | .daemonReload =>
      let (result, w) := RunrHandle.query (.replay entry) .daemonReload handle.daemonReload w
      (mapRunrResult result, w)
    | .command _ =>
      (.error (.action ("command action with init_system=runr is invalid for entry " ++
        entry.id)), w)

/-- Run the program and wait for it, but not for longer than `timeout`. -/
def runWithTimeout (program : String) (args : List String) (timeout : Nat) (s : V) :
    Except DispatchError Unit × V :=
  match client.processes.spawn program args s with
  | (.error e, s) =>
    (.error (.action ("failed to spawn command " ++ program ++ ": " ++ e)), s)
  | (.ok (), s) =>
    let started := client.platform.clock s
    let elapsed (s : V) := (decide (timeout ≤ client.platform.clock s - started), s)
    match client.processes.wait (started + timeout) elapsed s with
    | (.exited status, s) =>
      if status.success then (.ok (), s)
      else
        let excerpt := client.processes.stderrExcerpt STDERR_EXCERPT_LIMIT s
        let code := match status.code with
          | some code => toString code
          | none => "signal"
        (.error (.action ("command " ++ program ++ " exited with " ++ code ++ ": " ++ excerpt)), s)
    | (.givenUp, s) =>
      (.error (.action ("command " ++ program ++ " timed out after " ++
        toString (timeout / 1000000000) ++ "s")), s)
    | (.tryWaitFailed e, s) =>
      (.error (.action ("try_wait error for command " ++ program ++ ": " ++ e)), s)

def dispatchCommand (entry : DeferEntry) (s : V) : Except DispatchError Unit × V :=
  match entry.action with
  | .command (program :: args) => client.runWithTimeout program args COMMAND_DISPATCH_TIMEOUT s
  | .command [] => (.error (.action ("command argv is empty for entry " ++ entry.id)), s)
  | action => (.error (.action ("expected Command action for entry " ++ entry.id ++ ", got " ++
      action.filenameSlug.quote)), s)

/-- A command is run here, whatever its init system says. -/
def dispatch (entry : DeferEntry) (w : World V) : Except DispatchError Unit × World V :=
  match entry.action with
  | .command _ =>
    let (result, outside) := client.dispatchCommand entry w.outside
    (result, { w with outside := outside })
  | _ =>
    if entry.initSystem = InitSystem.systemd.tag then client.dispatchSystemd entry w
    else if entry.initSystem = InitSystem.runr.tag then client.dispatchRunr entry w
    else (.error (.action ("unsupported init_system " ++ entry.initSystem.quote ++
      " for entry " ++ entry.id)), w)

end RealDispatchClient

end Bosun
