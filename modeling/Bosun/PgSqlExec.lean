import Bosun.Library.Sessions
import Bosun.PgSqlFacts
import Bosun.PgSqlTimeout
import Bosun.Redact
import Bosun.Resource
import Bosun.UnitName

/-!
# `pg_sql.exec` beside other sessions

A resource has a statement and, if its author gave one, a check: a query that finds a row when
there is nothing left to do.  The plan makes the check, the apply makes it again, and the
statement is run if neither found anything.  Every call has a connection of its own, and two
nodes that set up one cluster make their calls in any order.

`exec_interleaved` says what the second check is worth: a statement is run only while nobody
had the object made before that check, so what can be run in vain is what was checked too early.
-/

namespace Bosun.PgSqlExec

open Sessions

/-! ## The backend -/

/-- The duration of a timeout is its text. -/
inductive PgSqlError
  | connect (dsn reason : String)
  | sql (sqlstate : Option String) (message : String)
  | timeout (duration : String)
  | invalidDsn (message : String)
deriving DecidableEq, Repr

/-- The `Display` text of the error. -/
def PgSqlError.display : PgSqlError → String
  | connect dsn reason => "postgres connect failed for " ++ dsn ++ ": " ++ reason
  | sql sqlstate message =>
    "postgres sql error" ++ (sqlstate.map (" sqlstate=" ++ ·)).getD "" ++ ": " ++ message
  | timeout duration => "postgres operation timed out after " ++ duration
  | invalidDsn message => "invalid DSN: " ++ message

abbrev Row := SortedMap String String

/-- A call of the backend, with its timeout in milliseconds. -/
inductive PgCall
  | execute (dsn sql : String) (timeout : Nat)
  | query (dsn sql : String) (timeout : Nat)
deriving DecidableEq, Repr

abbrev PgCall.Answer : PgCall → Type
  | execute .. => Except PgSqlError Nat
  | query .. => Except PgSqlError (List Row)

/-! ## The primitive -/

structure PgSqlExecSpec where
  name : UnitName
  dsn : String
  sql : String
  ifNotExistsCheck : Option String
  timeoutSec : Option U32

namespace PgSqlExecSpec

variable {O : Type} (lib : UrlCrate O) (spec : PgSqlExecSpec)

def title : String := "pg_sql.exec[" ++ spec.name.asStr ++ "]"

def statement : PgCall := .execute spec.dsn spec.sql (effectiveTimeoutMs spec.timeoutSec)

def checkCall (check : String) : PgCall :=
  .query spec.dsn check (effectiveTimeoutMs spec.timeoutSec)

def mapCheckError : PgSqlError → PrimitiveError
  | .invalidDsn message => .invalidPayload (spec.title ++ ": invalid dsn: " ++ message)
  | other => .apply (spec.title ++ ": if_not_exists_check failed: " ++ other.display)

/-- What is there, for the dry run to show. -/
def present (b : Bool) : Value Unit := .object [("present", .bool b)]

def checkNone : Value Unit := .object [("check", .string "none")]

/-- What the plan makes of its check. -/
def planned : Except PgSqlError (List Row) → Except PrimitiveError (Diff (Value Unit))
  | .ok rows =>
    if !rows.isEmpty then .ok .noChange
    else .ok (.update (present false) (present true) (spec.title ++ ": check empty → run"))
  | .error err => .error (spec.mapCheckError err)

def computeDiff : Program PgCall PgCall.Answer (Except PrimitiveError (Diff (Value Unit))) :=
  match spec.ifNotExistsCheck with
  | some check => .call (spec.checkCall check) fun answer => .done (spec.planned answer)
  | none => .done (.ok (.update checkNone checkNone
      (spec.title ++ ": no if_not_exists_check, always run")))

def mapBackendError (stage : String) : PgSqlError → PrimitiveError
  | .invalidDsn message =>
    .invalidPayload (spec.title ++ " (" ++ stage ++ "): invalid dsn: " ++ message)
  | .connect _ reason =>
    .apply (spec.title ++ " (" ++ stage ++ "): connect failed for " ++ redactDsn lib spec.dsn ++
      ": " ++ reason)
  | .timeout duration =>
    .apply (spec.title ++ " (" ++ stage ++ "): operation timed out after " ++ duration)
  | .sql sqlstate message =>
    .apply (spec.title ++ " (" ++ stage ++ "): sqlstate=" ++ sqlstate.getD "?" ++ " message=" ++
      message)

/-- What the apply makes of its statement. -/
def executed : Except PgSqlError Nat → Except PrimitiveError ChangeReport
  | .ok _affected => .ok (.ofChanged (spec.title ++ ": executed"))
  | .error err => .error (spec.mapBackendError lib "execute" err)

def execute : Program PgCall PgCall.Answer (Except PrimitiveError ChangeReport) :=
  .call spec.statement fun answer => .done (spec.executed lib answer)

/-- What the apply makes of its check. -/
def rechecked : Except PgSqlError (List Row) →
    Program PgCall PgCall.Answer (Except PrimitiveError ChangeReport)
  | .ok rows => if !rows.isEmpty then .done (.ok .noChange) else spec.execute lib
  | .error err => .done (.error (spec.mapBackendError lib "re-check" err))

/-- `apply::run` -/
def run : Diff (Value Unit) → Program PgCall PgCall.Answer (Except PrimitiveError ChangeReport)
  | .noChange => .done (.ok .noChange)
  | .add .. | .update .. =>
    match spec.ifNotExistsCheck with
    | some check => .call (spec.checkCall check) (spec.rechecked lib)
    | none => spec.execute lib

/-- What becomes of a plan. -/
def applied : Except PrimitiveError (Diff (Value Unit)) →
    Program PgCall PgCall.Answer (Except PrimitiveError ChangeReport)
  | .ok diff => spec.run lib diff
  | .error err => .done (.error err)

/-- The resource in a run, when it is its turn. -/
def planAndApply : Program PgCall PgCall.Answer (Except PrimitiveError ChangeReport) :=
  spec.computeDiff.bind (spec.applied lib)

/-! ## The calls of one session -/

/-- The calls so far, and what is left: only checks, and no word of success but for a check that
    has found something; or checks of which the last found nothing, and the statement. -/
inductive Course (check : String) : List (Sigma PgCall.Answer) →
    Program PgCall PgCall.Answer (Except PrimitiveError ChangeReport) → Prop
  | checked {made : List (Sigma PgCall.Answer)}
      {p : Program PgCall PgCall.Answer (Except PrimitiveError ChangeReport)}
      (checks : ∀ c ∈ made, c.1 = spec.checkCall check)
      (found : ∀ report, p = .done (.ok report) → report = .noChange ∧
        ∃ rows, rows ≠ [] ∧ ⟨spec.checkCall check, .ok rows⟩ ∈ made) : Course check made p
  | ran {made : List (Sigma PgCall.Answer)} (answer : Except PgSqlError Nat)
      (checks : ∀ c ∈ made, c.1 = spec.checkCall check) :
      Course check (made ++ [⟨spec.checkCall check, .ok []⟩] ++ [⟨spec.statement, answer⟩])
        (.done (spec.executed lib answer))

variable {lib spec} {check : String} {made : List (Sigma PgCall.Answer)}
  {p : Program PgCall PgCall.Answer (Except PrimitiveError ChangeReport)}

/-- A session that goes on, or has failed, has no word of success. -/
theorem Course.other (checks : ∀ c ∈ made, c.1 = spec.checkCall check)
    (hp : ∀ report, p ≠ .done (.ok report)) : spec.Course lib check made p :=
  .checked checks fun report h => absurd h (hp report)

theorem Course.skipped {rows : List Row} (checks : ∀ c ∈ made, c.1 = spec.checkCall check)
    (hrows : rows ≠ []) (hmade : ⟨spec.checkCall check, .ok rows⟩ ∈ made) :
    spec.Course lib check made (.done (.ok .noChange)) := by
  refine .checked checks fun report hreport => ⟨?_, rows, hrows, hmade⟩
  simpa using hreport.symm

/-- The check of the apply and what follows on it. -/
theorem course_rechecked (before : List (Sigma PgCall.Answer))
    (checks : ∀ c ∈ before, c.1 = spec.checkCall check)
    {answer : Except PgSqlError (List Row)} (h : (spec.rechecked lib answer).Does made p) :
    spec.Course lib check (before ++ ⟨spec.checkCall check, answer⟩ :: made) p := by
  have hchecks : ∀ c ∈ before ++ [⟨spec.checkCall check, answer⟩], c.1 = spec.checkCall check :=
    List.forall_mem_append.mpr ⟨checks, by simp⟩
  rcases answer with err | rows
  · obtain ⟨rfl, rfl⟩ := Program.Does.done_iff.mp h
    exact .other hchecks (by simp)
  · cases rows with
    | cons row rows =>
      obtain ⟨rfl, rfl⟩ := Program.Does.done_iff.mp h
      exact .skipped hchecks (List.cons_ne_nil row rows) (by simp)
    | nil =>
      obtain ⟨rfl, rfl⟩ | ⟨answer, rest, rfl, hrest⟩ := Program.Does.call_iff.mp h
      · exact .other hchecks (by simp)
      · obtain ⟨rfl, rfl⟩ := Program.Does.done_iff.mp hrest
        simpa using Course.ran answer checks

theorem course_planAndApply (hcheck : spec.ifNotExistsCheck = some check)
    (h : (spec.planAndApply lib).Does made p) : spec.Course lib check made p := by
  have hplan : spec.planAndApply lib =
      .call (spec.checkCall check) fun answer => spec.applied lib (spec.planned answer) := by
    simp only [planAndApply, computeDiff, hcheck, Program.call_bind, Program.done_bind]
  rw [hplan] at h
  obtain ⟨rfl, rfl⟩ | ⟨answer, rest, rfl, hrest⟩ := Program.Does.call_iff.mp h
  · exact .other (by simp) (by simp)
  · rcases answer with err | rows
    · obtain ⟨rfl, rfl⟩ := Program.Does.done_iff.mp hrest
      exact .other (by simp) (by simp)
    · cases rows with
      | cons row rows =>
        obtain ⟨rfl, rfl⟩ := Program.Does.done_iff.mp hrest
        exact .skipped (by simp) (List.cons_ne_nil row rows) (by simp)
      | nil =>
        have hrun : spec.applied lib (spec.planned (.ok [])) =
            .call (spec.checkCall check) (spec.rechecked lib) := by
          simp only [planned, applied, run, hcheck, List.isEmpty_nil, Bool.not_true,
            Bool.false_eq_true, if_false]
        rw [hrun] at hrest
        obtain ⟨rfl, rfl⟩ | ⟨again, rest', rfl, hlater⟩ := Program.Does.call_iff.mp hrest
        · exact .other (by simp) (by simp)
        · exact course_rechecked [⟨spec.checkCall check, .ok []⟩] (by simp) hlater

end PgSqlExecSpec

/-! ## Many sessions -/

section Interleaved

variable {O ι σ : Type} [DecidableEq ι] {lib : UrlCrate O} {shared : Shared ι PgCall.Answer σ}
  {spec : PgSqlExecSpec} {check : String} {Present : σ → Prop}

/-- What the author of a check has to see to: it finds a row just when the object is there, a
    statement that succeeds has made it, and nobody takes it away. -/
structure Guards (shared : Shared ι PgCall.Answer σ) (spec : PgSqlExecSpec) (check : String)
    (Present : σ → Prop) : Prop where
  finds : ∀ i s rows s', shared.serves i (spec.checkCall check) s (.ok rows) s' →
    (rows ≠ [] ↔ Present s)
  makes : ∀ i s affected s', shared.serves i spec.statement s (.ok affected) s' → Present s'
  stays : shared.Stable Present

/-- The statement went through. -/
def Executed (spec : PgSqlExecSpec) (calls : List (Sigma PgCall.Answer)) : Prop :=
  ∃ affected, ⟨spec.statement, .ok affected⟩ ∈ calls

/-- What has changed something says so. -/
def ReportsChange (result : Except PrimitiveError ChangeReport) : Prop :=
  ∃ report, result = .ok report ∧ report.changed = true

theorem statement_ne_check : spec.statement ≠ spec.checkCall check := nofun

theorem not_executed {calls : List (Sigma PgCall.Answer)}
    (checks : ∀ c ∈ calls, c.1 = spec.checkCall check) : ¬ Executed spec calls := by
  rintro ⟨affected, hmem⟩
  exact statement_ne_check (checks _ hmem)

theorem reportsChange_executed (answer : Except PgSqlError Nat) :
    ReportsChange (spec.executed lib answer) ↔ ∃ affected, answer = .ok affected := by
  cases answer <;> simp [ReportsChange, PgSqlExecSpec.executed, ChangeReport.ofChanged]

theorem executed_iff_reportsChange {calls : List (Sigma PgCall.Answer)}
    {result : Except PrimitiveError ChangeReport}
    (hcourse : spec.Course lib check calls (.done result)) :
    Executed spec calls ↔ ReportsChange result := by
  generalize hleft : Program.done result = left at hcourse
  cases hcourse with
  | checked checks found =>
    refine iff_of_false (not_executed checks) ?_
    rintro ⟨report, rfl, hchanged⟩
    rw [(found report hleft.symm).1] at hchanged
    cases hchanged
  | @ran made answer checks =>
    obtain rfl : result = spec.executed lib answer := Program.done.inj hleft
    rw [reportsChange_executed]
    have hchecks : ∀ c ∈ made ++ [⟨spec.checkCall check, .ok []⟩], c.1 = spec.checkCall check :=
      List.forall_mem_append.mpr ⟨checks, by simp⟩
    constructor
    · rintro ⟨affected, hmem⟩
      rcases List.mem_append.mp hmem with h | h
      · exact absurd ⟨affected, h⟩ (not_executed hchecks)
      · obtain ⟨-, h⟩ := Sigma.mk.inj (List.mem_singleton.mp h)
        exact ⟨affected, (eq_of_heq h).symm⟩
    · rintro ⟨affected, rfl⟩
      exact ⟨affected, by simp⟩

variable {w w' : Joint ι PgCall.Answer (Except PrimitiveError ChangeReport) σ}
  {log : List (LoggedCall ι PgCall.Answer σ)} {i : ι}

theorem present_of_executed (hguards : Guards shared spec check Present)
    (hrun : shared.Run w log w') (h : Executed spec (Shared.callsOf i log)) :
    Present w'.store := by
  obtain ⟨affected, hmem⟩ := h
  obtain ⟨⟨session, made, before, after⟩, he, -, rfl⟩ := Shared.mem_callsOf.mp hmem
  exact hrun.marked_after hguards.stays he (hguards.makes _ _ _ _ (hrun.served _ he))

theorem present_of_found (hguards : Guards shared spec check Present)
    (hrun : shared.Run w log w') {rows : List Row} (hrows : rows ≠ [])
    (hmem : ⟨spec.checkCall check, .ok rows⟩ ∈ Shared.callsOf i log) : Present w'.store := by
  obtain ⟨⟨session, made, before, after⟩, he, -, rfl⟩ := Shared.mem_callsOf.mp hmem
  have hserved := hrun.served _ he
  have hbefore : Present before := (hguards.finds _ _ _ _ hserved).mp hrows
  exact hrun.marked_after hguards.stays he (hguards.stays.serves _ _ _ _ _ hserved hbefore)

/-- Every word of success is true. -/
theorem present_of_ok (hguards : Guards shared spec check Present) (hrun : shared.Run w log w')
    {report : ChangeReport} (hcourse : spec.Course lib check (Shared.callsOf i log)
      (.done (.ok report))) : Present w'.store := by
  by_cases hexecuted : Executed spec (Shared.callsOf i log)
  · exact present_of_executed hguards hrun hexecuted
  · generalize hcalls : Shared.callsOf i log = calls at hcourse hexecuted
    generalize hleft : Program.done (Except.ok report) = left at hcourse
    cases hcourse with
    | checked checks found =>
      obtain ⟨-, rows, hrows, hmem⟩ := found report hleft.symm
      exact present_of_found hguards hrun hrows (hcalls ▸ hmem)
    | @ran made answer checks =>
      rcases answer with err | affected
      · simp [PgSqlExecSpec.executed] at hleft
      · exact absurd ⟨affected, by simp⟩ hexecuted

/-- A list of checks and a statement can be cut at the statement in one way. -/
theorem cut_at_statement {checks front back : List (Sigma PgCall.Answer)}
    {c c' : Sigma PgCall.Answer} (hchecks : ∀ c ∈ checks, c.1 = spec.checkCall check)
    (hc : c.1 = spec.statement) (h : checks ++ [c'] = front ++ c :: back) :
    front = checks ∧ back = [] := by
  rcases List.eq_nil_or_concat back with rfl | ⟨back, last, rfl⟩
  · exact ⟨(List.append_inj' h rfl).1.symm, rfl⟩
  · rw [List.concat_eq_append, ← List.cons_append, ← List.append_assoc] at h
    have hmem : c ∈ checks := by simp [(List.append_inj' h rfl).1]
    exact absurd (hc.symm.trans (hchecks c hmem)) statement_ne_check

/-- **The second check.**  A statement of a session with a check is its last call, and the call
    of that session before it was a check that found nothing; up to then nobody had made the
    object. -/
structure Covered (spec : PgSqlExecSpec) (check : String) (Present : σ → Prop) (i : ι) (start : σ)
    (front back : List (LoggedCall ι PgCall.Answer σ)) : Prop where
  last : ∀ m ∈ back, m.session ≠ i
  checked : ∃ earlier q later, front = earlier ++ q :: later ∧ q.session = i ∧
    q.made = ⟨spec.checkCall check, .ok []⟩ ∧ (∀ m ∈ later, m.session ≠ i) ∧
    ¬ Present start ∧ ∀ m ∈ earlier, ¬ Present m.after

theorem covered_of_course (hguards : Guards shared spec check Present)
    {front back : List (LoggedCall ι PgCall.Answer σ)} {c : Sigma PgCall.Answer} {s s' : σ}
    (hrun : shared.Run w (front ++ ⟨i, c, s, s'⟩ :: back) w') (hc : c.1 = spec.statement)
    (hcourse : spec.Course lib check (Shared.callsOf i (front ++ ⟨i, c, s, s'⟩ :: back))
      (w'.session i)) : Covered spec check Present i w.store front back := by
  rw [Shared.callsOf_append, Shared.callsOf_cons_self] at hcourse
  generalize hcalls : Shared.callsOf i front ++ c :: Shared.callsOf i back = calls at hcourse
  generalize w'.session i = left at hcourse
  cases hcourse with
  | checked checks found =>
    exact absurd (hc.symm.trans (checks c (by simp [← hcalls]))) statement_ne_check
  | @ran made answer checks =>
    have hchecks : ∀ c ∈ made ++ [⟨spec.checkCall check, .ok []⟩], c.1 = spec.checkCall check :=
      List.forall_mem_append.mpr ⟨checks, by simp⟩
    obtain ⟨hfront, hback⟩ := cut_at_statement hchecks hc hcalls.symm
    obtain ⟨earlier, q, later, rfl, -, hq, hmade, hlater⟩ := Shared.split_last hfront
    refine ⟨Shared.callsOf_eq_nil.mp hback, earlier, q, later, rfl, hq, hmade, hlater, ?_⟩
    obtain ⟨session, c', before, after⟩ := q
    obtain rfl := hmade
    rw [List.append_assoc, List.cons_append] at hrun
    have hserved := hrun.served ⟨session, _, before, after⟩
      (List.mem_append_right earlier List.mem_cons_self)
    have hnot : ¬ Present before := fun h => (hguards.finds _ _ _ _ hserved).mpr h rfl
    exact hrun.marked_before hguards.stays hnot

/-- **Many at once.**  In any interleaving, and whatever the other sessions do: a statement of a
    session with a check is covered by that check; the session reports a change just when its
    statement went through; and when it reports success the object is there to stay. -/
theorem exec_interleaved (hguards : Guards shared spec check Present)
    (hcheck : spec.ifNotExistsCheck = some check) (hstart : w.session i = spec.planAndApply lib)
    (hrun : shared.Run w log w') :
    (∀ front c s s' back, log = front ++ ⟨i, c, s, s'⟩ :: back → c.1 = spec.statement →
      Covered spec check Present i w.store front back) ∧
    (∀ result, w'.session i = .done result →
      (Executed spec (Shared.callsOf i log) ↔ ReportsChange result)) ∧
    ∀ report, w'.session i = .done (.ok report) → Present w'.store := by
  have hcourse := PgSqlExecSpec.course_planAndApply hcheck (hstart ▸ hrun.does i)
  refine ⟨?_, ?_, ?_⟩
  · rintro front c s s' back rfl hc
    exact covered_of_course hguards hrun hc hcourse
  · intro result hresult
    exact executed_iff_reportsChange (hresult ▸ hcourse)
  · intro report hreport
    exact present_of_ok hguards hrun (hreport ▸ hcourse)

end Interleaved

/-! ### Two nodes and one role -/

/-- The URL crate where no DSN is a URL. -/
def noUrls : UrlCrate Unit := ⟨fun _ => none, fun _ => ""⟩

/-- `CREATE ROLE monitor` with its check, on the local socket. -/
def createMonitor : PgSqlExecSpec where
  name := ⟨"create-role-monitor", by decide⟩
  dsn := "host=/var/run/postgresql user=postgres"
  sql := "CREATE ROLE monitor"
  ifNotExistsCheck := some "SELECT 1 FROM pg_roles WHERE rolname='monitor'"
  timeoutSec := none

def monitorRow : Row := .insertAll [("?column?", "1")]

def duplicateRole : PgSqlError := .sql (some "42710") "role \"monitor\" already exists"

/-- How a server with that role, or without it, answers these two calls. -/
def serveRole : (op : PgCall) → Bool → op.Answer × Bool
  | .query .., exists_ => (.ok (if exists_ then [monitorRow] else []), exists_)
  | .execute .., exists_ => (if exists_ then .error duplicateRole else .ok 0, true)

theorem guards_serveRole : Guards (.ofServer fun _ : Bool => serveRole) createMonitor
    "SELECT 1 FROM pg_roles WHERE rolname='monitor'" (· = true) where
  finds _ s rows s' h := by
    obtain rfl := Except.ok.inj (Prod.mk.inj h).1
    cases s <;> simp
  makes _ _ _ _ h := (Prod.mk.inj h).2.symm
  stays.serves _ op s ans s' h hs := by
    cases op with
    | query => exact (Prod.mk.inj h).2.symm.trans hs
    | execute => exact (Prod.mk.inj h).2.symm
  stays.others _ _ h := h.elim

/-- Both check twice before either runs its statement. -/
def race : List (LoggedCall Bool PgCall.Answer Bool) ×
    Joint Bool PgCall.Answer (Except PrimitiveError ChangeReport) Bool :=
  Shared.turns (fun _ => serveRole) [false, true, false, true, false, true]
    ⟨fun _ => createMonitor.planAndApply noUrls, false⟩

/-- One makes the role, and the other hears that it is there. -/
theorem exec_interleaved_race :
    race.2.session false = .done (createMonitor.executed noUrls (.ok 0)) ∧
    race.2.session true = .done (createMonitor.executed noUrls (.error duplicateRole)) ∧
    (∀ front c s s' back, race.1 = front ++ ⟨true, c, s, s'⟩ :: back →
      c.1 = createMonitor.statement → Covered createMonitor
        "SELECT 1 FROM pg_roles WHERE rolname='monitor'" (· = true) true false front back) ∧
    (∀ result, race.2.session true = .done result →
      (Executed createMonitor (Shared.callsOf true race.1) ↔ ReportsChange result)) ∧
    ∀ report, race.2.session true = .done (.ok report) → race.2.store = true :=
  ⟨rfl, rfl, exec_interleaved guards_serveRole rfl rfl (Shared.run_turns ..)⟩

end Bosun.PgSqlExec
