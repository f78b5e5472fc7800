import Bosun.DeferFormat

/-!
# The time limit of `pg_sql` statements

Every call of the backend opens a connection, sends `SET LOCAL statement_timeout` in one message
and the SQL in the next.  The server runs a message outside a transaction block as a transaction
of its own, and what `SET LOCAL` sets is gone when that is over.

A session is followed as far as `statement_timeout` goes; what else statements do, and which of
them fail, is arbitrary.  `timed_iff` says when the statements of a spec start under the limit it
asks for: when the sessions have that limit anyway.
-/

namespace Bosun

/-! ## The server -/

/-- Limits are in milliseconds. -/
structure PgSession where
  /-- before the transaction -/
  committed : Nat
  setting : Nat
  /-- until the end of the transaction -/
  localSetting : Option Nat
  inBlock : Bool

inductive PgStatement
  | begin
  | commit
  | rollback
  | set (limit : Nat)
  | setLocal (limit : Nat)
  | other
deriving DecidableEq, Repr

def PgStatement.SetsLimit : PgStatement → Prop
  | set _ | setLocal _ => True
  | begin | commit | rollback | other => False

/-- The statements of a text, and which of them succeed when they are run. -/
abbrev PgText := List (PgStatement × Bool)

namespace PgSession

/-- A session with nothing set yet. -/
def fresh (limit : Nat) : PgSession := ⟨limit, limit, none, false⟩

def inForce (s : PgSession) : Nat := s.localSetting.getD s.setting

def endTransaction (s : PgSession) : PgSession :=
  { s with committed := s.setting, localSetting := none }

def undoTransaction (s : PgSession) : PgSession :=
  { s with setting := s.committed, localSetting := none }

def run (s : PgSession) : PgStatement → PgSession
  | .begin => { s with inBlock := true }
  | .commit => { s.endTransaction with inBlock := false }
  | .rollback => { s.undoTransaction with inBlock := false }
  | .set limit => { s with setting := limit, localSetting := none }
  | .setLocal limit => { s with localSetting := some limit }
  | .other => s

end PgSession

/-- What comes of a message: the limits under which its statements started, whether all of them
    succeeded, and the session afterwards. -/
structure PgReply where
  starts : List Nat
  succeeded : Bool
  after : PgSession

/-- A simple query; the first statement that fails is the last. -/
def simpleQuery : PgText → PgSession → PgReply
  | [], s => ⟨[], true, if s.inBlock then s else s.endTransaction⟩
  | (stmt, succeeds) :: rest, s =>
    if succeeds then
      let reply := simpleQuery rest (s.run stmt)
      { reply with starts := s.inForce :: reply.starts }
    else ⟨[s.inForce], false, s.undoTransaction⟩

/-- A prepared query; there are no several statements in one. -/
def preparedQuery (text : PgText) (s : PgSession) : PgReply :=
  if text.length ≤ 1 then simpleQuery text s else ⟨[], false, s.undoTransaction⟩

/-! ## The backend -/

/-- The greatest value of `statement_timeout`. -/
def MAX_LIMIT : Nat := 2147483647

def applyStatementTimeout (ms : Nat) (s : PgSession) : PgReply :=
  simpleQuery [(.setLocal ms, ms ≤ MAX_LIMIT)] s

inductive PgProtocol
  | simple
  | prepared

/-- A call of the backend; the session has its limit from the server, the role or the DSN, and
    there is none when connecting fails. -/
structure BackendCall where
  protocol : PgProtocol
  text : PgText
  ms : Nat
  session : Option Nat

namespace BackendCall

/-- `RealPgSqlBackend::execute` and `RealPgSqlBackend::query`: the limits under which the
    statements of the text started, and whether the call succeeded. -/
def run (call : BackendCall) : List Nat × Bool :=
  match call.session with
  | none => ([], false)
  | some limit =>
    let set := applyStatementTimeout call.ms (.fresh limit)
    if set.succeeded then
      let reply := match call.protocol with
        | .simple => simpleQuery call.text set.after
        | .prepared => preparedQuery call.text set.after
      (reply.starts, reply.succeeded)
    else ([], false)

/-- **The limit.**  Every statement starts under the limit that was asked for, unless an earlier
    one of the text has set another. -/
def Timed (call : BackendCall) : Prop :=
  ∀ (k : Nat) limit, call.run.1[k]? = some limit → limit = call.ms ∨
    ∃ j < k, ∃ stmt succeeds, call.text[j]? = some (stmt, succeeds) ∧ stmt.SetsLimit

/-- The text has a statement that the server can start. -/
def Startable (call : BackendCall) : Prop :=
  match call.protocol with
  | .simple => call.text ≠ []
  | .prepared => call.text.length = 1

end BackendCall

/-! ## The primitives -/

structure PgSqlExecSpec where
  sql : PgText
  ifNotExistsCheck : Option PgText
  timeoutSec : Option U32

structure PgSqlQuerySpec where
  sql : PgText
  timeoutSec : Option U32

def DEFAULT_PG_TIMEOUT_SEC : Nat := 30

/-- `effective_timeout_sec`, in milliseconds -/
def effectiveTimeoutMs (timeoutSec : Option U32) : Nat :=
  (timeoutSec.map Fin.val).getD DEFAULT_PG_TIMEOUT_SEC * 1000

/-- One connection after the other: the limit its session has, and whether a query on it finds a
    row. -/
structure Connection where
  session : Option Nat
  found : Bool

namespace PgSqlExecSpec

variable (spec : PgSqlExecSpec)

def execute (c : Connection) : BackendCall :=
  ⟨.simple, spec.sql, effectiveTimeoutMs spec.timeoutSec, c.session⟩

def query (check : PgText) (c : Connection) : BackendCall :=
  ⟨.prepared, check, effectiveTimeoutMs spec.timeoutSec, c.session⟩

/-- `compute_diff`: the calls, and whether there is something to do. -/
def plan (c : Connection) : List BackendCall × Bool :=
  match spec.ifNotExistsCheck with
  | none => ([], true)
  | some check => ([spec.query check c], (spec.query check c).run.2 && !c.found)

/-- `apply::run`: the check once more, and then the command. -/
def apply (checking executing : Connection) : List BackendCall :=
  match spec.ifNotExistsCheck with
  | none => [spec.execute executing]
  | some check =>
    if (spec.query check checking).run.2 && !checking.found then
      [spec.query check checking, spec.execute executing]
    else [spec.query check checking]

end PgSqlExecSpec

inductive PgSqlSpec
  | exec (spec : PgSqlExecSpec)
  | query (spec : PgSqlQuerySpec)

/-- The calls a resource makes in its plan and its apply. -/
def PgSqlSpec.calls (planning checking executing : Connection) : PgSqlSpec → List BackendCall
  | exec spec =>
    let (planned, due) := spec.plan planning
    if due then planned ++ spec.apply checking executing else planned
  | query spec => [⟨.prepared, spec.sql, effectiveTimeoutMs spec.timeoutSec, executing.session⟩]

/-! ## When the limit is there -/

namespace PgSession

/-- Nothing has set another limit than this. -/
structure Keeps (s : PgSession) (limit : Nat) : Prop where
  committed : s.committed = limit
  setting : s.setting = limit
  localSetting : s.localSetting = none

theorem Keeps.inForce {s : PgSession} {limit : Nat} (h : s.Keeps limit) : s.inForce = limit := by
  rw [PgSession.inForce, h.localSetting, Option.getD_none, h.setting]

theorem Keeps.run {s : PgSession} {limit : Nat} (h : s.Keeps limit) {stmt : PgStatement}
    (hstmt : ¬ stmt.SetsLimit) : (s.run stmt).Keeps limit := by
  cases stmt with
  | begin => exact ⟨h.committed, h.setting, h.localSetting⟩
  | commit => exact ⟨h.setting, h.setting, rfl⟩
  | rollback => exact ⟨h.committed, h.committed, rfl⟩
  | set limit' => exact absurd trivial hstmt
  | setLocal limit' => exact absurd trivial hstmt
  | other => exact h

end PgSession

/-- Until a statement sets a limit, all start under the one of the session. -/
theorem simpleQuery_starts {text : PgText} {limit : Nat} : ∀ {s : PgSession}, s.Keeps limit →
    ∀ (k : Nat) started, (simpleQuery text s).starts[k]? = some started → started = limit ∨
      ∃ j < k, ∃ stmt succeeds, text[j]? = some (stmt, succeeds) ∧ stmt.SetsLimit := by
  induction text with
  | nil =>
    intro s _ k started h
    simp [simpleQuery] at h
  | cons e rest ih =>
    intro s hs k started h
    obtain ⟨stmt, succeeds⟩ := e
    cases k with
    | zero =>
      left
      have hhead : (simpleQuery ((stmt, succeeds) :: rest) s).starts[0]? = some s.inForce := by
        cases succeeds <;> simp [simpleQuery]
      rw [hhead] at h
      rw [← Option.some.inj h, hs.inForce]
    | succ k =>
      cases succeeds with
      | false => simp [simpleQuery] at h
      | true =>
        simp only [simpleQuery, if_true, List.getElem?_cons_succ] at h
        by_cases hstmt : stmt.SetsLimit
        · exact .inr ⟨0, Nat.succ_pos k, stmt, true, rfl, hstmt⟩
        · rcases ih (hs.run hstmt) k started h with hlimit | ⟨j, hj, found, hfound⟩
          · exact .inl hlimit
          · exact .inr ⟨j + 1, Nat.succ_lt_succ hj, found, hfound⟩

/-- What the message before the text leaves: nothing. -/
theorem applyStatementTimeout_after (ms limit : Nat) (h : ms ≤ MAX_LIMIT) :
    (applyStatementTimeout ms (.fresh limit)).succeeded = true ∧
      (applyStatementTimeout ms (.fresh limit)).after = .fresh limit := by
  simp [applyStatementTimeout, simpleQuery, h, PgSession.run, PgSession.fresh,
    PgSession.endTransaction]

namespace BackendCall

/-- The limit of the session is the one that was asked for, if it matters. -/
def Limited (call : BackendCall) : Prop :=
  ∀ limit, call.session = some limit → call.ms ≤ MAX_LIMIT → call.Startable → limit = call.ms

/-- The text is run in the session as it was when it was opened. -/
theorem run_starts {call : BackendCall} {limit : Nat} (hsession : call.session = some limit)
    (hfits : call.ms ≤ MAX_LIMIT) : call.run.1 = match call.protocol with
      | .simple => (simpleQuery call.text (.fresh limit)).starts
      | .prepared => (preparedQuery call.text (.fresh limit)).starts := by
  obtain ⟨hset, hafter⟩ := applyStatementTimeout_after call.ms limit hfits
  simp only [run, hsession, hset, hafter, if_true]
  cases call.protocol <;> rfl

theorem run_eq_nil {call : BackendCall}
    (h : call.session = none ∨ ¬ call.ms ≤ MAX_LIMIT ∨ ¬ call.Startable) : call.run.1 = [] := by
  cases hsession : call.session with
  | none => simp [run, hsession]
  | some limit =>
    by_cases hfits : call.ms ≤ MAX_LIMIT
    · have hnot : ¬ call.Startable := by simpa [hsession, hfits] using h
      rw [run_starts hsession hfits]
      cases hprotocol : call.protocol with
      | simple =>
        have hnil : call.text = [] := by simpa [Startable, hprotocol] using hnot
        simp [hnil, simpleQuery]
      | prepared =>
        have hlength : call.text.length ≠ 1 := by simpa [Startable, hprotocol] using hnot
        by_cases hle : call.text.length ≤ 1
        · have hnil : call.text = [] := List.eq_nil_of_length_eq_zero (by omega)
          simp [hnil, preparedQuery, simpleQuery]
        · simp [preparedQuery, hle]
    · simp [run, hsession, applyStatementTimeout, simpleQuery, hfits]

/-- What can be started is run as it would be in a message without others before it. -/
theorem run_startable {call : BackendCall} {limit : Nat} (hsession : call.session = some limit)
    (hfits : call.ms ≤ MAX_LIMIT) (hstart : call.Startable) :
    call.text ≠ [] ∧ call.run.1 = (simpleQuery call.text (.fresh limit)).starts := by
  rw [run_starts hsession hfits]
  cases hprotocol : call.protocol with
  | simple => exact ⟨by simpa [Startable, hprotocol] using hstart, rfl⟩
  | prepared =>
    have hlength : call.text.length = 1 := by simpa [Startable, hprotocol] using hstart
    refine ⟨List.ne_nil_of_length_eq_add_one hlength, ?_⟩
    simp [preparedQuery, hlength.le]

theorem timed_iff_limited (call : BackendCall) : call.Timed ↔ call.Limited := by
  constructor
  · intro htimed limit hsession hfits hstart
    obtain ⟨htext, hrun⟩ := run_startable hsession hfits hstart
    have hfirst : call.run.1[0]? = some limit := by
      rw [hrun]
      obtain ⟨⟨stmt, succeeds⟩, rest, hcons⟩ := List.exists_cons_of_ne_nil htext
      rw [hcons]
      cases succeeds <;> simp [simpleQuery, PgSession.inForce, PgSession.fresh]
    rcases htimed 0 limit hfirst with hlimit | ⟨j, hj, -⟩
    · exact hlimit
    · exact absurd hj (Nat.not_lt_zero j)
  · intro hlimited k started hstarted
    by_cases hnone : call.session = none ∨ ¬ call.ms ≤ MAX_LIMIT ∨ ¬ call.Startable
    · simp [run_eq_nil hnone] at hstarted
    · simp only [not_or, not_not] at hnone
      obtain ⟨hsome, hfits, hstart⟩ := hnone
      obtain ⟨limit, hsession⟩ := Option.ne_none_iff_exists'.mp hsome
      obtain rfl := hlimited limit hsession hfits hstart
      rw [(run_startable hsession hfits hstart).2] at hstarted
      exact simpleQuery_starts ⟨rfl, rfl, rfl⟩ k started hstarted

end BackendCall

/-- **The exact condition.**  The statements of a spec start under its limit exactly if every
    session in which one is started has that limit of its own. -/
theorem timed_iff (spec : PgSqlSpec) (planning checking executing : Connection) :
    (∀ call ∈ spec.calls planning checking executing, call.Timed) ↔
      ∀ call ∈ spec.calls planning checking executing, call.Limited :=
  forall₂_congr fun call _ => call.timed_iff_limited

/-! ## The default -/

/-- `ALTER TABLE …` with the default of 30 seconds. -/
def ALTER_TABLE : PgSqlSpec := .exec ⟨[(.other, true)], none, none⟩

/-- A server that leaves statements all the time they want. -/
def unlimited : Connection := ⟨some 0, false⟩

/-- It starts without a limit. -/
theorem alter_table_not_timed :
    (ALTER_TABLE.calls unlimited unlimited unlimited).map (·.run.1) = [[0]] ∧
    ¬ ∀ call ∈ ALTER_TABLE.calls unlimited unlimited unlimited, call.Timed := by
  refine ⟨by decide, fun h => ?_⟩
  rcases h _ List.mem_cons_self 0 0 (by decide) with hlimit | ⟨j, hj, -⟩
  · exact absurd hlimit (by decide)
  · exact absurd hj (Nat.not_lt_zero j)

end Bosun
