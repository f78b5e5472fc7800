import Mathlib.Logic.Function.Basic

/-!
# Sessions on a shared store

A program makes calls and goes on as their answers say.  Several programs run at once, each in a
session of its own, on one store: between two calls of a session the others make theirs, and the
store may change with no call of any session.  `Run` is any such interleaving, with the log of
its calls.

What a session did in a run is read off its program (`Run.does`).  What a session found is read
off the store: once a mark that nobody takes away is there, all later calls find it
(`Run.marked_after`, `Run.marked_before`).
-/

namespace Sessions

/-- A program that makes calls and goes on as their answers say. -/
inductive Program (Op : Type) (Ans : Op → Type) (α : Type)
  | done (a : α)
  | call (op : Op) (k : Ans op → Program Op Ans α)

variable {Op : Type} {Ans : Op → Type} {α β ι σ : Type}

namespace Program

def bind : Program Op Ans α → (α → Program Op Ans β) → Program Op Ans β
  | done a, f => f a
  | call op k, f => call op fun ans => (k ans).bind f

@[simp] theorem done_bind (a : α) (f : α → Program Op Ans β) : (done a).bind f = f a := rfl

@[simp] theorem call_bind (op : Op) (k : Ans op → Program Op Ans α) (f : α → Program Op Ans β) :
    (call op k).bind f = call op fun ans => (k ans).bind f := rfl

/-- The calls of a program with their answers, and what is left of it then. -/
inductive Does : Program Op Ans α → List (Sigma Ans) → Program Op Ans α → Prop
  | nil (p : Program Op Ans α) : Does p [] p
  | cons {op : Op} {k : Ans op → Program Op Ans α} {ans : Ans op} {made : List (Sigma Ans)}
      {p : Program Op Ans α} (rest : Does (k ans) made p) : Does (call op k) (⟨op, ans⟩ :: made) p

namespace Does

variable {p : Program Op Ans α} {made : List (Sigma Ans)}

@[simp] theorem done_iff {a : α} : Does (done a) made p ↔ made = [] ∧ p = done a := by
  constructor
  · rintro ⟨⟩
    exact ⟨rfl, rfl⟩
  · rintro ⟨rfl, rfl⟩
    exact nil _

theorem call_iff {op : Op} {k : Ans op → Program Op Ans α} : Does (call op k) made p ↔
    made = [] ∧ p = call op k ∨ ∃ ans rest, made = ⟨op, ans⟩ :: rest ∧ Does (k ans) rest p := by
  constructor
  · intro h
    cases h with
    | nil => exact .inl ⟨rfl, rfl⟩
    | cons rest => exact .inr ⟨_, _, rfl, rest⟩
  · rintro (⟨rfl, rfl⟩ | ⟨ans, rest, rfl, h⟩)
    · exact nil _
    · exact cons h

end Does

end Program

/-! ## Runs -/

/-- What becomes of the store in a call of a session, and otherwise. -/
structure Shared (ι : Type) (Ans : Op → Type) (σ : Type) where
  serves : ι → (op : Op) → σ → Ans op → σ → Prop
  others : σ → σ → Prop

structure Joint (ι : Type) (Ans : Op → Type) (α σ : Type) where
  session : ι → Program Op Ans α
  store : σ

/-- A call of a session. -/
structure LoggedCall (ι : Type) (Ans : Op → Type) (σ : Type) where
  session : ι
  made : Sigma Ans
  before : σ
  after : σ

namespace Shared

variable [DecidableEq ι] (shared : Shared ι Ans σ)

/-- Sessions and others take turns in any order. -/
inductive Run : Joint ι Ans α σ → List (LoggedCall ι Ans σ) → Joint ι Ans α σ → Prop
  | nil (w : Joint ι Ans α σ) : Run w [] w
  | call {w w' : Joint ι Ans α σ} {log : List (LoggedCall ι Ans σ)} {i : ι} {op : Op}
      {k : Ans op → Program Op Ans α} {ans : Ans op} {store : σ}
      (turn : w.session i = .call op k) (served : shared.serves i op w.store ans store)
      (rest : Run ⟨Function.update w.session i (k ans), store⟩ log w') :
      Run w (⟨i, ⟨op, ans⟩, w.store, store⟩ :: log) w'
  | others {w w' : Joint ι Ans α σ} {log : List (LoggedCall ι Ans σ)} {store : σ}
      (changed : shared.others w.store store) (rest : Run ⟨w.session, store⟩ log w') :
      Run w log w'

/-- The calls of one session. -/
def callsOf (i : ι) (log : List (LoggedCall ι Ans σ)) : List (Sigma Ans) :=
  (log.filter fun e => e.session = i).map LoggedCall.made

/-- A mark that stays. -/
structure Stable (Mark : σ → Prop) : Prop where
  serves : ∀ i op s ans s', shared.serves i op s ans s' → Mark s → Mark s'
  others : ∀ s s', shared.others s s' → Mark s → Mark s'

variable {shared}

section Calls

variable {i : ι} {log log' : List (LoggedCall ι Ans σ)}

@[simp] theorem callsOf_nil : callsOf i ([] : List (LoggedCall ι Ans σ)) = [] := rfl

theorem callsOf_cons_self (c : Sigma Ans) (s s' : σ) :
    callsOf i (⟨i, c, s, s'⟩ :: log) = c :: callsOf i log := by
  simp [callsOf]

theorem callsOf_cons_of_ne {e : LoggedCall ι Ans σ} (h : e.session ≠ i) :
    callsOf i (e :: log) = callsOf i log := by
  simp [callsOf, h]

theorem callsOf_append : callsOf i (log ++ log') = callsOf i log ++ callsOf i log' := by
  simp [callsOf]

theorem mem_callsOf {c : Sigma Ans} :
    c ∈ callsOf i log ↔ ∃ e ∈ log, e.session = i ∧ e.made = c := by
  simp [callsOf, and_assoc]

theorem callsOf_eq_nil : callsOf i log = [] ↔ ∀ e ∈ log, e.session ≠ i := by
  simp [callsOf]

/-- Before the last call of a session there are all others of it. -/
theorem split_last {pre : List (Sigma Ans)} {c : Sigma Ans} (h : callsOf i log = pre ++ [c]) :
    ∃ front e back, log = front ++ e :: back ∧ callsOf i front = pre ∧ e.session = i ∧
      e.made = c ∧ ∀ m ∈ back, m.session ≠ i := by
  obtain ⟨own, last, hown, hpre, hlast⟩ := List.map_eq_append_iff.mp h
  obtain ⟨front, rest, rfl, rfl, hrest⟩ := List.filter_eq_append_iff.mp hown
  obtain ⟨e, tail, rfl, he, htail⟩ := List.map_eq_cons_iff.mp hlast
  obtain ⟨skipped, back, rfl, hskipped, hi, hback⟩ := List.filter_eq_cons_iff.mp hrest
  obtain rfl := List.map_eq_nil_iff.mp htail
  refine ⟨front ++ skipped, e, back, by simp, ?_, by simpa using hi, he, ?_⟩
  · have hnone : skipped.filter (fun e => decide (e.session = i)) = [] :=
      List.filter_eq_nil_iff.mpr hskipped
    rw [callsOf, List.filter_append, hnone, List.append_nil]
    exact hpre
  · intro m hm
    simpa using List.filter_eq_nil_iff.mp hback m hm

end Calls

namespace Run

variable {w w' : Joint ι Ans α σ} {log : List (LoggedCall ι Ans σ)}

/-- What a session does is what its program does. -/
theorem does (h : shared.Run w log w') (i : ι) :
    (w.session i).Does (callsOf i log) (w'.session i) := by
  induction h with
  | nil w => exact .nil _
  | @call w w' log j op k ans store turn served rest ih =>
    by_cases hij : j = i
    · subst hij
      simp only [Function.update_self] at ih
      rw [callsOf_cons_self, turn]
      exact .cons ih
    · simp only [Function.update_of_ne (Ne.symm hij)] at ih
      rwa [callsOf_cons_of_ne hij]
  | others changed rest ih => exact ih

theorem served (h : shared.Run w log w') :
    ∀ e ∈ log, shared.serves e.session e.made.1 e.before e.made.2 e.after := by
  induction h with
  | nil w => exact List.forall_mem_nil _
  | call turn served rest ih => exact List.forall_mem_cons.mpr ⟨served, ih⟩
  | others changed rest ih => exact ih

/-- A run can be cut at each of its calls. -/
theorem cut {front back : List (LoggedCall ι Ans σ)} {e : LoggedCall ι Ans σ}
    (h : shared.Run w (front ++ e :: back) w') : ∃ v v', shared.Run w front v ∧
      v.store = e.before ∧ v'.store = e.after ∧ shared.Run v' back w' := by
  generalize hlog : front ++ e :: back = log at h
  induction h generalizing front with
  | nil w => simp at hlog
  | @call w w' log i op k ans store turn served rest ih =>
    cases front with
    | nil =>
      obtain ⟨rfl, rfl⟩ := List.cons.inj hlog
      exact ⟨w, _, .nil w, rfl, rfl, rest⟩
    | cons e' front =>
      rw [List.cons_append, List.cons.injEq] at hlog
      obtain ⟨rfl, hlog⟩ := hlog
      obtain ⟨v, v', hfront, hbefore, hafter, hback⟩ := ih hlog
      exact ⟨v, v', .call turn served hfront, hbefore, hafter, hback⟩
  | others changed rest ih =>
    obtain ⟨v, v', hfront, hbefore, hafter, hback⟩ := ih hlog
    exact ⟨v, v', .others changed hfront, hbefore, hafter, hback⟩

section Marks

variable {Mark : σ → Prop} (hstable : shared.Stable Mark)
include hstable

theorem marked (h : shared.Run w log w') : Mark w.store → Mark w'.store := by
  induction h with
  | nil w => exact id
  | call turn served rest ih => exact fun hm => ih (hstable.serves _ _ _ _ _ served hm)
  | others changed rest ih => exact fun hm => ih (hstable.others _ _ changed hm)

/-- A call that leaves the mark leaves it for good. -/
theorem marked_after (h : shared.Run w log w') {e : LoggedCall ι Ans σ} (he : e ∈ log)
    (hmark : Mark e.after) : Mark w'.store := by
  obtain ⟨front, back, rfl⟩ := List.append_of_mem he
  obtain ⟨v, v', -, -, hafter, hback⟩ := h.cut
  exact hback.marked hstable (hafter ▸ hmark)

/-- Where the mark is not, it never was before. -/
theorem marked_before {front back : List (LoggedCall ι Ans σ)} {e : LoggedCall ι Ans σ}
    (h : shared.Run w (front ++ e :: back) w') (hnot : ¬ Mark e.before) :
    ¬ Mark w.store ∧ ∀ m ∈ front, ¬ Mark m.after := by
  obtain ⟨v, v', hfront, hbefore, -, -⟩ := h.cut
  rw [← hbefore] at hnot
  exact ⟨fun hm => hnot (hfront.marked hstable hm),
    fun m hm hmark => hnot (hfront.marked_after hstable hm hmark)⟩

end Marks

end Run

/-! ### A server that is a function -/

/-- Only the sessions touch the store. -/
def ofServer (serve : ι → (op : Op) → σ → Ans op × σ) : Shared ι Ans σ where
  serves i op s ans s' := serve i op s = (ans, s')
  others _ _ := False

/-- The run in which the sessions call in the order of a list. -/
def turns (serve : ι → (op : Op) → σ → Ans op × σ) :
    List ι → Joint ι Ans α σ → List (LoggedCall ι Ans σ) × Joint ι Ans α σ
  | [], w => ([], w)
  | i :: order, w =>
    match w.session i with
    | .done _ => turns serve order w
    | .call op k =>
      let (ans, store) := serve i op w.store
      let (log, w') := turns serve order ⟨Function.update w.session i (k ans), store⟩
      (⟨i, ⟨op, ans⟩, w.store, store⟩ :: log, w')

theorem run_turns (serve : ι → (op : Op) → σ → Ans op × σ) (order : List ι) (w : Joint ι Ans α σ) :
    (ofServer serve).Run w (turns serve order w).1 (turns serve order w).2 := by
  induction order generalizing w with
  | nil => exact .nil w
  | cons i order ih =>
    unfold turns
    split
    · exact ih w
    · rename_i op k turn
      exact .call turn rfl (ih _)

end Shared

end Sessions
