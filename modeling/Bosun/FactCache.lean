import Mathlib.Algebra.Group.Nat.Defs
import Mathlib.Data.List.AList
import Mathlib.Data.List.Induction
import Bosun.Resource

/-!
# The cache of facts

`bosun-facts/collector.rs`: facts about the host are collected when a run starts,
are marked dirty when a resource of a kind they depend on has been applied, and
are collected again when a dirty one is asked for.  A collection that fails after
one that did not leaves the old value in the cache, with its age.

The collectors and the clock act on a state `H` nobody looks into.  `log` records
the collections and the marks; nothing reads it.  `fact_cache_law` says what a
read does and answers in terms of that log alone.
-/

namespace Bosun

/-- `J` are the JSON values. -/
inductive FactValue (J : Type)
  | known (value : J)
  | unknown (reason : String)
  | stale (value : J) (ageMs : Nat)
deriving DecidableEq, Repr

namespace FactValue

variable {J : Type}

def isKnown : FactValue J → Bool
  | known _ => true
  | _ => false

def isStale : FactValue J → Bool
  | stale _ _ => true
  | _ => false

end FactValue

inductive RefreshPolicy
  | atStart
  | afterApply (triggers : List ResourceKind)
  | atStartAndAfterApply (triggers : List ResourceKind)
deriving DecidableEq, Repr

namespace RefreshPolicy

def collectNow : RefreshPolicy → Bool
  | atStart | atStartAndAfterApply _ => true
  | afterApply _ => false

/-- Does the apply of a resource of this kind make the fact dirty? -/
def triggeredBy (kind : ResourceKind) : RefreshPolicy → Bool
  | afterApply triggers | atStartAndAfterApply triggers => triggers.contains kind
  | atStart => false

end RefreshPolicy

structure Fact where
  name : String
  refreshPolicy : RefreshPolicy
deriving DecidableEq, Repr

/-- The `collect` of each fact, and the clock, in nanoseconds.  A collector returns
    a value or a reason why there is none, or it panics; `Stale` is made by the
    cache only. -/
structure Collectors (J H : Type) where
  collect : String → H → Except PanicPayload (FactValue J) × H
  now : H → Nat × H
  fresh : ∀ name h value, (collect name h).1 = .ok value → value.isStale = false

structure CachedFact (J : Type) where
  value : FactValue J
  /-- When `value` became what it is; for a stale one, when it was known. -/
  collectedAt : Nat
  dirty : Bool
deriving DecidableEq, Repr

inductive FactEvent (J : Type)
  /-- The collector of the fact ran, with this answer; the clock showed `moment`
      then. -/
  | ran (name : String) (answer : FactValue J) (moment : Nat)
  | dirtied (kind : ResourceKind)
deriving DecidableEq

structure FactsCollector (J H : Type) where
  facts : List Fact
  collectors : Collectors J H

/-- What the collector owns, and the host it looks at. -/
structure FactsState (J H : Type) where
  cache : AList fun _ : String => CachedFact J
  host : H
  log : List (FactEvent J)

variable {J H : Type}

/-- `elapsed().as_millis() as u64` -/
def ageMs (since now : Nat) : Nat := (now - since) / 1000000 % 2 ^ 64

/-- The new value, from the one in the cache and the one just collected. -/
def upgradeOrReplace (prev fresh : FactValue J) (prevCollectedAt now : Nat) : FactValue J :=
  match prev, fresh with
  | _, .known v => .known v
  | .known prevV, .unknown _ => .stale prevV (ageMs prevCollectedAt now)
  | .stale value _, .unknown _ => .stale value (ageMs prevCollectedAt now)
  | .unknown _, .unknown reason => .unknown reason
  | _, fresh => fresh

namespace Collectors

variable (collectors : Collectors J H)

/-- `catch_unwind` around the collector. -/
def collectWithPanicGuard (name : String) (h : H) : FactValue J × H :=
  match collectors.collect name h with
  | (.ok v, h) => (v, h)
  | (.error payload, h) => (.unknown ("panic: " ++ payload.message), h)

theorem collectWithPanicGuard_fresh (name : String) (h : H) :
    (collectors.collectWithPanicGuard name h).1.isStale = false := by
  have hfresh := collectors.fresh name h
  unfold collectWithPanicGuard
  rcases hcollect : collectors.collect name h with ⟨_ | value, h'⟩
  · rfl
  · exact hfresh value (by rw [hcollect])

end Collectors

namespace FactsCollector

variable (collector : FactsCollector J H)

def new (h : H) : FactsState J H := ⟨∅, h, []⟩

/-- Run the collector of a fact and look at the clock. -/
def collectOne (name : String) (s : FactsState J H) : FactValue J × Nat × FactsState J H :=
  let (value, h) := collector.collectors.collectWithPanicGuard name s.host
  let (now, h) := collector.collectors.now h
  (value, now, { s with host := h, log := s.log ++ [.ran name value now] })

/-- The loop of `collect_at_start`. -/
def collectAll : List Fact → FactsState J H → FactsState J H
  | [], s => s
  | fact :: facts, s =>
    if fact.refreshPolicy.collectNow then
      let (value, now, s) := collector.collectOne fact.name s
      collectAll facts { s with cache := s.cache.insert fact.name ⟨value, now, false⟩ }
    else collectAll facts s

def collectAtStart (s : FactsState J H) : FactsState J H := collector.collectAll collector.facts s

/-- A fact that has not been collected yet gets an entry to be dirty. -/
def markOne (name : String) (s : FactsState J H) : FactsState J H :=
  match s.cache.lookup name with
  | some entry => { s with cache := s.cache.insert name { entry with dirty := true } }
  | none =>
    let (now, h) := collector.collectors.now s.host
    { s with
      cache := s.cache.insert name ⟨.unknown "pending after-apply refresh", now, true⟩
      host := h }

def markAll : List String → FactsState J H → FactsState J H
  | [], s => s
  | name :: names, s => markAll names (collector.markOne name s)

/-- The names are collected first, then the cache is borrowed. -/
def markDirtyAfterApply (kind : ResourceKind) (s : FactsState J H) : FactsState J H :=
  let toDirty := (collector.facts.filter fun fact => fact.refreshPolicy.triggeredBy kind).map
    Fact.name
  collector.markAll toDirty { s with log := s.log ++ [.dirtied kind] }

def factByName (name : String) : Option Fact :=
  collector.facts.find? fun fact => fact.name = name

/-- `FactsView::get`.  A value that stays known or becomes stale is dated from the
    collection it comes from.  Nothing else touches the cache between the two looks
    at it. -/
def get (name : String) (s : FactsState J H) : FactValue J × FactsState J H :=
  match s.cache.lookup name with
  | none => (.unknown ("unknown fact '" ++ name ++ "'"), s)
  | some cached =>
    if !cached.dirty then (cached.value, s)
    else
      match collector.factByName name with
      | none => (.unknown ("fact '" ++ name ++ "' has cache entry but no collector"), s)
      | some fact =>
        let (fresh, now, s) := collector.collectOne fact.name s
        let newValue := upgradeOrReplace cached.value fresh cached.collectedAt now
        let collectedAt := if newValue.isStale then cached.collectedAt else now
        (newValue, { s with cache := s.cache.insert name ⟨newValue, collectedAt, false⟩ })

/-! ## What is done with it -/

inductive Op
  | markDirty (kind : ResourceKind)
  | get (name : String)

def step (s : FactsState J H) : Op → FactsState J H
  | .markDirty kind => collector.markDirtyAfterApply kind s
  | .get name => (collector.get name s).2

/-- One collection at the start, and what comes after it. -/
def runOps (ops : List Op) (h : H) : FactsState J H :=
  ops.foldl collector.step (collector.collectAtStart (new h))

end FactsCollector

/-! ## What the log says -/

namespace FactEvent

/-- A run of the collector of this fact. -/
def isRunOf (name : String) : FactEvent J → Bool
  | ran name' _ _ => name' = name
  | dirtied _ => false

/-- A mark that is meant for this fact. -/
def concerns (fact : Fact) : FactEvent J → Bool
  | ran _ _ _ => false
  | dirtied kind => fact.refreshPolicy.triggeredBy kind

end FactEvent

/-- The fact has been marked dirty since the last run of its collector. -/
def Outdated (fact : Fact) (log : List (FactEvent J)) : Prop :=
  ∃ before mark after, log = before ++ mark :: after ∧ mark.concerns fact = true ∧
    ∀ event ∈ after, event.isRunOf fact.name = false

/-- The runs of one collector: what it answered, and when. -/
def runsOf (name : String) (log : List (FactEvent J)) : List (FactValue J × Nat) :=
  log.filterMap fun event =>
    match event with
    | .ran name' answer moment => if name' = name then some (answer, moment) else none
    | .dirtied _ => none

/-- Of these runs, the last that succeeded gave `v`, at `moment`. -/
def LastSuccess (runs : List (FactValue J × Nat)) (v : J) (moment : Nat) : Prop :=
  ∃ earlier failed, runs = earlier ++ (.known v, moment) :: failed ∧
    ∀ run ∈ failed, run.1.isKnown = false

/-- The log was written from `start` to `h` as the collectors answered: each run has the answer of
    its collector on the host as it was, and the moment that the clock showed then.  The clock is
    looked at between two runs as well. -/
inductive Written (collectors : Collectors J H) (start : H) : List (FactEvent J) → H → Prop
  | nil : Written collectors start [] start
  | ran {log : List (FactEvent J)} {h : H} (name : String) (hlog : Written collectors start log h) :
      Written collectors start
        (log ++ [.ran name (collectors.collectWithPanicGuard name h).1
          (collectors.now (collectors.collectWithPanicGuard name h).2).1])
        (collectors.now (collectors.collectWithPanicGuard name h).2).2
  | dirtied {log : List (FactEvent J)} {h : H} (kind : ResourceKind)
      (hlog : Written collectors start log h) :
      Written collectors start (log ++ [.dirtied kind]) h
  | clock {log : List (FactEvent J)} {h : H} (hlog : Written collectors start log h) :
      Written collectors start log (collectors.now h).2

/-- The value of a fact with these runs. -/
structure Reflects (runs : List (FactValue J × Nat)) (value : FactValue J) : Prop where
  known : ∀ earlier v moment, runs = earlier ++ [(.known v, moment)] → value = .known v
  stale : ∀ earlier answer now, runs = earlier ++ [(answer, now)] → answer.isKnown = false →
    ∀ v moment, LastSuccess runs v moment → value = .stale v (ageMs moment now)
  unknown : (∃ reason, value = .unknown reason) ↔ ∀ run ∈ runs, run.1.isKnown = false

/-! ## One run more -/

theorem outdated_snoc {fact : Fact} {log : List (FactEvent J)} {event : FactEvent J} :
    Outdated fact (log ++ [event]) ↔
      event.concerns fact = true ∨ (Outdated fact log ∧ event.isRunOf fact.name = false) := by
  constructor
  · rintro ⟨before, mark, after, hlog, hmark, hafter⟩
    rcases List.eq_nil_or_concat after with rfl | ⟨after, last, rfl⟩
    · obtain ⟨-, hlast⟩ := List.append_inj' hlog rfl
      obtain rfl : event = mark := by simpa using hlast
      exact .inl hmark
    · rw [List.concat_eq_append, ← List.cons_append, ← List.append_assoc] at hlog
      obtain ⟨rfl, hlast⟩ := List.append_inj' hlog rfl
      obtain rfl : event = last := by simpa using hlast
      rw [List.concat_eq_append] at hafter
      exact .inr ⟨⟨before, mark, after, rfl, hmark,
        fun e he => hafter e (List.mem_append_left _ he)⟩, hafter event (by simp)⟩
  · rintro (hmark | ⟨⟨before, mark, after, rfl, hmark, hafter⟩, hevent⟩)
    · exact ⟨log, event, [], rfl, hmark, by simp⟩
    · refine ⟨before, mark, after ++ [event], by simp, hmark, ?_⟩
      intro e he
      rcases List.mem_append.mp he with he | he
      · exact hafter e he
      · rwa [List.mem_singleton.mp he]

theorem lastSuccess_snoc {runs : List (FactValue J × Nat)} {answer : FactValue J}
    {now moment : Nat} {v : J} : LastSuccess (runs ++ [(answer, now)]) v moment ↔
      (answer = .known v ∧ now = moment) ∨
        (answer.isKnown = false ∧ LastSuccess runs v moment) := by
  constructor
  · rintro ⟨earlier, failed, hruns, hfailed⟩
    rcases List.eq_nil_or_concat failed with rfl | ⟨failed, last, rfl⟩
    · obtain ⟨-, hlast⟩ := List.append_inj' hruns rfl
      exact .inl (by simpa using hlast)
    · rw [List.concat_eq_append, ← List.cons_append, ← List.append_assoc] at hruns
      obtain ⟨rfl, hlast⟩ := List.append_inj' hruns rfl
      obtain rfl : (answer, now) = last := by simpa using hlast
      rw [List.concat_eq_append] at hfailed
      exact .inr ⟨hfailed (answer, now) (by simp), earlier, failed, rfl,
        fun run hrun => hfailed run (List.mem_append_left _ hrun)⟩
  · rintro (⟨rfl, rfl⟩ | ⟨hanswer, earlier, failed, rfl, hfailed⟩)
    · exact ⟨runs, [], rfl, by simp⟩
    · refine ⟨earlier, failed ++ [(answer, now)], by simp, ?_⟩
      intro run hrun
      rcases List.mem_append.mp hrun with hrun | hrun
      · exact hfailed run hrun
      · rwa [List.mem_singleton.mp hrun]

namespace Reflects

variable {runs : List (FactValue J × Nat)} {value : FactValue J}

/-- Before the first run. -/
theorem of_nil (hruns : runs = []) (reason : String) : Reflects runs (.unknown reason) := by
  subst hruns
  exact ⟨by simp, by simp, ⟨by simp, fun _ => ⟨reason, rfl⟩⟩⟩

/-- After a success the value is there, fresh or stale. -/
theorem of_lastSuccess (h : Reflects runs value) {v : J} {moment : Nat}
    (hlast : LastSuccess runs v moment) : value = .known v ∨ ∃ age, value = .stale v age := by
  have hlast' := hlast
  obtain ⟨earlier, failed, hruns, hfailed⟩ := hlast
  rcases List.eq_nil_or_concat failed with rfl | ⟨failed, ⟨answer, now⟩, rfl⟩
  · exact .inl (h.known earlier v moment hruns)
  · rw [List.concat_eq_append, ← List.cons_append, ← List.append_assoc] at hruns
    rw [List.concat_eq_append] at hfailed
    exact .inr ⟨_, h.stale _ answer now hruns (hfailed (answer, now) (by simp)) v moment hlast'⟩

/-- The rule for the next value is right. -/
theorem upgradeOrReplace (h : Reflects runs value) {collectedAt : Nat}
    (hdated : ∀ v moment, LastSuccess runs v moment → collectedAt = moment) {fresh : FactValue J}
    (hfresh : fresh.isStale = false) (now : Nat) :
    Reflects (runs ++ [(fresh, now)]) (Bosun.upgradeOrReplace value fresh collectedAt now) := by
  have hlast : ∀ earlier (answer : FactValue J) moment,
      runs ++ [(fresh, now)] = earlier ++ [(answer, moment)] → fresh = answer ∧ now = moment := by
    intro earlier answer moment heq
    obtain ⟨-, hlast⟩ := List.append_inj' heq rfl
    simpa using hlast
  cases fresh with
  | stale v age => simp [FactValue.isStale] at hfresh
  | known v =>
    have hvalue : Bosun.upgradeOrReplace value (.known v) collectedAt now = .known v := by
      cases value <;> rfl
    rw [hvalue]
    refine ⟨?_, ?_, ?_⟩
    · intro earlier v' moment heq
      rw [(hlast _ _ _ heq).1]
    · intro earlier answer moment heq hanswer
      rw [← (hlast _ _ _ heq).1] at hanswer
      simp [FactValue.isKnown] at hanswer
    · refine ⟨fun ⟨reason, h⟩ => by simp at h, fun hnone => ?_⟩
      have := hnone (.known v, now) (by simp)
      simp [FactValue.isKnown] at this
  | unknown reason =>
    refine ⟨?_, ?_, ?_⟩
    · intro earlier v moment heq
      simpa using (hlast _ _ _ heq).1
    · intro earlier answer moment heq _ v since hsuccess
      obtain ⟨-, rfl⟩ := hlast _ _ _ heq
      rcases lastSuccess_snoc.mp hsuccess with ⟨hknown, -⟩ | ⟨-, hsuccess⟩
      · simp at hknown
      · rw [← hdated v since hsuccess]
        rcases h.of_lastSuccess hsuccess with rfl | ⟨age, rfl⟩ <;> rfl
    · constructor
      · rintro ⟨reason', hvalue⟩
        have hunknown : ∃ reason, value = .unknown reason := by
          cases value with
          | unknown reason => exact ⟨reason, rfl⟩
          | _ => simp [Bosun.upgradeOrReplace] at hvalue
        intro run hrun
        rcases List.mem_append.mp hrun with hrun | hrun
        · exact h.unknown.mp hunknown run hrun
        · rw [List.mem_singleton.mp hrun]
          rfl
      · intro hnone
        obtain ⟨reason', rfl⟩ := h.unknown.mpr fun run hrun =>
          hnone run (List.mem_append_left _ hrun)
        exact ⟨reason, rfl⟩

end Reflects

/-! ## An entry of the cache -/

/-- What the cache holds of a fact agrees with the log. -/
structure CachedFact.Tracks (fact : Fact) (log : List (FactEvent J)) (cached : CachedFact J) :
    Prop where
  dirty : cached.dirty = true ↔ Outdated fact log
  value : Reflects (runsOf fact.name log) cached.value
  dated : ∀ v moment, LastSuccess (runsOf fact.name log) v moment → cached.collectedAt = moment

theorem runsOf_snoc_of_not_run {name : String} {log : List (FactEvent J)} {event : FactEvent J}
    (h : event.isRunOf name = false) : runsOf name (log ++ [event]) = runsOf name log := by
  cases event with
  | dirtied kind => simp [runsOf]
  | ran name' answer moment =>
    have hne : ¬ name' = name := by simpa [FactEvent.isRunOf] using h
    simp [runsOf, hne]

theorem runsOf_snoc_ran (name : String) (log : List (FactEvent J)) (answer : FactValue J)
    (moment : Nat) :
    runsOf name (log ++ [.ran name answer moment]) = runsOf name log ++ [(answer, moment)] := by
  simp [runsOf]

namespace CachedFact.Tracks

variable {fact : Fact} {log : List (FactEvent J)} {cached : CachedFact J}

/-- Events that are about other facts change nothing. -/
theorem snoc (h : cached.Tracks fact log) {event : FactEvent J}
    (hrun : event.isRunOf fact.name = false) (hmark : event.concerns fact = false) :
    cached.Tracks fact (log ++ [event]) where
  dirty := by rw [outdated_snoc, hmark, hrun, h.dirty]; simp
  value := by rw [runsOf_snoc_of_not_run hrun]; exact h.value
  dated := by rw [runsOf_snoc_of_not_run hrun]; exact h.dated

/-- A mark. -/
theorem mark (h : cached.Tracks fact log) {kind : ResourceKind}
    (hmark : fact.refreshPolicy.triggeredBy kind = true) :
    ({ cached with dirty := true } : CachedFact J).Tracks fact (log ++ [.dirtied kind]) where
  dirty := by simp [outdated_snoc, FactEvent.concerns, hmark]
  value := by rw [runsOf_snoc_of_not_run rfl]; exact h.value
  dated := by rw [runsOf_snoc_of_not_run rfl]; exact h.dated

theorem not_outdated_ran (fact : Fact) (log : List (FactEvent J)) (answer : FactValue J)
    (moment : Nat) : ¬ Outdated fact (log ++ [.ran fact.name answer moment]) := by
  simp [outdated_snoc, FactEvent.concerns, FactEvent.isRunOf]

/-- A collection. -/
theorem refresh (h : cached.Tracks fact log) {fresh : FactValue J} (hfresh : fresh.isStale = false)
    (now : Nat) :
    (⟨upgradeOrReplace cached.value fresh cached.collectedAt now,
      if (upgradeOrReplace cached.value fresh cached.collectedAt now).isStale then
        cached.collectedAt else now, false⟩ : CachedFact J).Tracks fact
      (log ++ [.ran fact.name fresh now]) where
  dirty := by simp [not_outdated_ran]
  value := by
    rw [runsOf_snoc_ran]
    exact h.value.upgradeOrReplace h.dated hfresh now
  dated v moment hlast := by
    rw [runsOf_snoc_ran] at hlast
    rcases lastSuccess_snoc.mp hlast with ⟨rfl, rfl⟩ | ⟨hfailed, hlast⟩
    · have hvalue : upgradeOrReplace cached.value (.known v) cached.collectedAt now = .known v := by
        cases cached.value <;> rfl
      simp [hvalue, FactValue.isStale]
    · have hstale := (h.value.upgradeOrReplace h.dated hfresh now).stale _ fresh now rfl hfailed
        v moment (lastSuccess_snoc.mpr (.inr ⟨hfailed, hlast⟩))
      rw [hstale]
      exact h.dated v moment hlast

/-- The first collection. -/
theorem first (hruns : runsOf fact.name log = []) {fresh : FactValue J}
    (hfresh : fresh.isStale = false) (now : Nat) :
    (⟨fresh, now, false⟩ : CachedFact J).Tracks fact (log ++ [.ran fact.name fresh now]) := by
  have hunknown : ∀ reason, Reflects (runsOf fact.name log) (.unknown reason : FactValue J) := by
    intro reason
    exact .of_nil hruns reason
  have hnone : ∀ v moment, LastSuccess (runsOf fact.name log) v moment → now = moment := by
    rintro v moment ⟨earlier, failed, heq, -⟩
    simp [hruns] at heq
  have hvalue := (hunknown "").upgradeOrReplace hnone hfresh now
  have hfirst : upgradeOrReplace (.unknown "") fresh now now = fresh := by cases fresh <;> rfl
  rw [hfirst] at hvalue
  refine ⟨by simp [not_outdated_ran], by rwa [runsOf_snoc_ran], ?_⟩
  intro v moment hlast
  rw [runsOf_snoc_ran] at hlast
  rcases lastSuccess_snoc.mp hlast with ⟨-, rfl⟩ | ⟨-, hlast⟩
  · rfl
  · exact hnone v moment hlast

/-- A mark before the first collection. -/
theorem pending (hruns : runsOf fact.name log = []) {kind : ResourceKind}
    (hmark : fact.refreshPolicy.triggeredBy kind = true) (reason : String) (now : Nat) :
    (⟨.unknown reason, now, true⟩ : CachedFact J).Tracks fact (log ++ [.dirtied kind]) where
  dirty := by simp [outdated_snoc, FactEvent.concerns, hmark]
  value := by
    rw [runsOf_snoc_of_not_run rfl]
    exact .of_nil hruns reason
  dated := by
    rw [runsOf_snoc_of_not_run rfl, hruns]
    rintro v moment ⟨earlier, failed, heq, -⟩
    simp at heq

end CachedFact.Tracks

/-! ## The whole cache -/

namespace FactsCollector

variable (collector : FactsCollector J H)

/-- The log was written by this collector, and the cache agrees with it. -/
structure Sound (s : FactsState J H) : Prop where
  tracked : ∀ fact ∈ collector.facts, ∀ cached, s.cache.lookup fact.name = some cached →
    cached.Tracks fact s.log
  absent : ∀ fact ∈ collector.facts, s.cache.lookup fact.name = none →
    runsOf fact.name s.log = [] ∧ ¬ Outdated fact s.log
  own : ∀ name, s.cache.lookup name ≠ none → ∃ fact ∈ collector.facts, fact.name = name
  foreign : ∀ name, (∀ fact ∈ collector.facts, fact.name ≠ name) → runsOf name s.log = []

variable {collector}

theorem sound_new (h : H) : collector.Sound (new h) where
  tracked _ _ cached hlookup := by simp [new] at hlookup
  absent _ _ _ := ⟨rfl, by rintro ⟨before, mark, after, hlog, -⟩; simp [new] at hlog⟩
  own name hlookup := by simp [new] at hlookup
  foreign _ _ := rfl

/-- Facts of one name are one. -/
theorem eq_of_name (hdistinct : (collector.facts.map Fact.name).Nodup) {fact fact' : Fact}
    (hfact : fact ∈ collector.facts) (hfact' : fact' ∈ collector.facts)
    (hname : fact.name = fact'.name) : fact = fact' :=
  List.inj_on_of_nodup_map hdistinct hfact hfact' hname

/-- The collector of `fact` runs, and the entry of `fact` is replaced. -/
theorem Sound.collectOne (hdistinct : (collector.facts.map Fact.name).Nodup) {s : FactsState J H}
    (hs : collector.Sound s) {fact : Fact} (hfact : fact ∈ collector.facts) {h : H}
    {answer : FactValue J} {now : Nat} {cached : CachedFact J}
    (hcached : cached.Tracks fact (s.log ++ [.ran fact.name answer now])) :
    collector.Sound ⟨s.cache.insert fact.name cached, h, s.log ++ [.ran fact.name answer now]⟩ where
  tracked other hother cached' hlookup := by
    by_cases hname : other.name = fact.name
    · obtain rfl := eq_of_name hdistinct hother hfact hname
      rw [AList.lookup_insert] at hlookup
      rwa [← Option.some.inj hlookup]
    · rw [AList.lookup_insert_ne hname] at hlookup
      refine (hs.tracked other hother cached' hlookup).snoc ?_ rfl
      simpa [FactEvent.isRunOf] using fun h => hname h.symm
  absent other hother hlookup := by
    by_cases hname : other.name = fact.name
    · rw [hname, AList.lookup_insert] at hlookup
      cases hlookup
    · rw [AList.lookup_insert_ne hname] at hlookup
      obtain ⟨hruns, houtdated⟩ := hs.absent other hother hlookup
      have hrun : (FactEvent.ran fact.name answer now).isRunOf other.name = false := by
        simpa [FactEvent.isRunOf] using fun h => hname h.symm
      refine ⟨by rw [runsOf_snoc_of_not_run hrun]; exact hruns, ?_⟩
      rw [outdated_snoc]
      simp [FactEvent.concerns, houtdated]
  own name hlookup := by
    by_cases hname : name = fact.name
    · exact ⟨fact, hfact, hname.symm⟩
    · rw [AList.lookup_insert_ne hname] at hlookup
      exact hs.own name hlookup
  foreign name hname := by
    rw [runsOf_snoc_of_not_run (by simpa [FactEvent.isRunOf] using hname fact hfact)]
    exact hs.foreign name hname

/-- The loop at the start comes to every fact once. -/
theorem Sound.collectAll (hdistinct : (collector.facts.map Fact.name).Nodup) (facts : List Fact)
    (hfacts : ∀ fact ∈ facts, fact ∈ collector.facts) (hnodup : (facts.map Fact.name).Nodup)
    {s : FactsState J H} (hs : collector.Sound s)
    (hruns : ∀ fact ∈ facts, runsOf fact.name s.log = []) :
    collector.Sound (collector.collectAll facts s) := by
  induction facts generalizing s with
  | nil => exact hs
  | cons fact facts ih =>
    obtain ⟨hfact, hfacts⟩ := List.forall_mem_cons.mp hfacts
    obtain ⟨hrun, hruns⟩ := List.forall_mem_cons.mp hruns
    rw [List.map_cons, List.nodup_cons] at hnodup
    unfold FactsCollector.collectAll
    split
    · have hfresh := collector.collectors.collectWithPanicGuard_fresh fact.name s.host
      refine ih hfacts hnodup.2 ?_ ?_
      · exact hs.collectOne hdistinct hfact (.first hrun hfresh _)
      · intro other hother
        have hname : fact.name ≠ other.name := fun heq =>
          hnodup.1 (heq ▸ List.mem_map_of_mem hother)
        exact (runsOf_snoc_of_not_run (by simpa [FactEvent.isRunOf] using hname)).trans
          (hruns other hother)
    · exact ih hfacts hnodup.2 hs hruns

/-- What marking does to the cache. -/
theorem lookup_markAll (collector : FactsCollector J H) (names : List String) (s : FactsState J H) :
    (collector.markAll names s).log = s.log ∧
    (∀ name ∉ names, (collector.markAll names s).cache.lookup name = s.cache.lookup name) ∧
    ∀ name ∈ names, ∃ cached, (collector.markAll names s).cache.lookup name = some cached ∧
      cached.dirty = true ∧
      ((∃ old, s.cache.lookup name = some old ∧ cached = { old with dirty := true }) ∨
        (s.cache.lookup name = none ∧ ∃ reason now, cached = ⟨.unknown reason, now, true⟩)) := by
  induction names generalizing s with
  | nil => exact ⟨rfl, fun _ _ => rfl, by simp⟩
  | cons name names ih =>
    have hone : (collector.markOne name s).log = s.log ∧
        (∀ other, other ≠ name →
          (collector.markOne name s).cache.lookup other = s.cache.lookup other) ∧
        ∃ cached, (collector.markOne name s).cache.lookup name = some cached ∧
          cached.dirty = true ∧
          ((∃ old, s.cache.lookup name = some old ∧ cached = { old with dirty := true }) ∨
            (s.cache.lookup name = none ∧
              ∃ reason now, cached = ⟨.unknown reason, now, true⟩)) := by
      unfold markOne
      cases hlookup : s.cache.lookup name with
      | some old =>
        exact ⟨rfl, fun other hne => AList.lookup_insert_ne hne, _, AList.lookup_insert _, rfl,
          .inl ⟨old, rfl, rfl⟩⟩
      | none =>
        exact ⟨rfl, fun other hne => AList.lookup_insert_ne hne, _, AList.lookup_insert _, rfl,
          .inr ⟨rfl, _, _, rfl⟩⟩
    obtain ⟨hlog, hothers, cached, hcached, hdirty, hfrom⟩ := hone
    obtain ⟨hlog', hothers', hmarked⟩ := ih (collector.markOne name s)
    refine ⟨hlog'.trans hlog, ?_, ?_⟩
    · intro other hother
      rw [List.mem_cons, not_or] at hother
      exact (hothers' other hother.2).trans (hothers other hother.1)
    · intro other hother
      by_cases hmem : other ∈ names
      · obtain ⟨cached', hcached', hdirty', hfrom'⟩ := hmarked other hmem
        refine ⟨cached', hcached', hdirty', ?_⟩
        by_cases heq : other = name
        · -- marked twice
          subst heq
          rw [hcached] at hfrom'
          rcases hfrom' with ⟨once, honce, rfl⟩ | ⟨hnone, -⟩
          · obtain rfl := Option.some.inj honce
            rcases hfrom with ⟨old, hold, rfl⟩ | ⟨hnone, reason, now, rfl⟩
            · exact .inl ⟨old, hold, rfl⟩
            · exact .inr ⟨hnone, reason, now, rfl⟩
          · cases hnone
        · rwa [hothers other heq] at hfrom'
      · obtain rfl : other = name := by simpa [hmem] using hother
        exact ⟨cached, (hothers' other hmem).trans hcached, hdirty, hfrom⟩

theorem Sound.markDirtyAfterApply (hdistinct : (collector.facts.map Fact.name).Nodup)
    {s : FactsState J H} (hs : collector.Sound s) (kind : ResourceKind) :
    collector.Sound (collector.markDirtyAfterApply kind s) := by
  obtain ⟨hlog, hothers, hmarked⟩ := collector.lookup_markAll
    ((collector.facts.filter fun fact => fact.refreshPolicy.triggeredBy kind).map Fact.name)
    { s with log := s.log ++ [.dirtied kind] }
  have hmem : ∀ fact ∈ collector.facts, fact.refreshPolicy.triggeredBy kind = true ↔
      fact.name ∈ (collector.facts.filter fun fact =>
        fact.refreshPolicy.triggeredBy kind).map Fact.name := by
    intro fact hfact
    rw [List.mem_map]
    constructor
    · exact fun h => ⟨fact, List.mem_filter.mpr ⟨hfact, h⟩, rfl⟩
    · rintro ⟨other, hother, hname⟩
      obtain ⟨hother, htriggered⟩ := List.mem_filter.mp hother
      rwa [← eq_of_name hdistinct hother hfact hname]
  unfold FactsCollector.markDirtyAfterApply
  refine ⟨?_, ?_, ?_, ?_⟩
  · intro fact hfact cached hcached
    rw [hlog]
    by_cases htriggered : fact.refreshPolicy.triggeredBy kind = true
    · obtain ⟨cached', hcached', -, hfrom⟩ := hmarked _ ((hmem fact hfact).mp htriggered)
      obtain rfl : cached' = cached := Option.some.inj (hcached'.symm.trans hcached)
      rcases hfrom with ⟨old, hold, rfl⟩ | ⟨hnone, reason, now, rfl⟩
      · exact (hs.tracked fact hfact old hold).mark htriggered
      · exact .pending (hs.absent fact hfact hnone).1 htriggered reason now
    · rw [hothers _ (fun h => htriggered ((hmem fact hfact).mpr h))] at hcached
      exact (hs.tracked fact hfact cached hcached).snoc rfl (Bool.not_eq_true _ ▸ htriggered)
  · intro fact hfact hnone
    rw [hlog]
    by_cases htriggered : fact.refreshPolicy.triggeredBy kind = true
    · obtain ⟨cached, hcached, -⟩ := hmarked _ ((hmem fact hfact).mp htriggered)
      exact absurd (hcached.symm.trans hnone) (by simp)
    · rw [hothers _ (fun h => htriggered ((hmem fact hfact).mpr h))] at hnone
      obtain ⟨hruns, houtdated⟩ := hs.absent fact hfact hnone
      refine ⟨by rw [runsOf_snoc_of_not_run rfl]; exact hruns, ?_⟩
      simp [outdated_snoc, FactEvent.concerns, houtdated, htriggered]
  · intro name hsome
    by_cases hname : name ∈ (collector.facts.filter fun fact =>
        fact.refreshPolicy.triggeredBy kind).map Fact.name
    · obtain ⟨fact, hfact, rfl⟩ := List.mem_map.mp hname
      exact ⟨fact, (List.mem_filter.mp hfact).1, rfl⟩
    · rw [hothers name hname] at hsome
      exact hs.own name hsome
  · intro name hname
    rw [hlog, runsOf_snoc_of_not_run rfl]
    exact hs.foreign name hname

theorem factByName_of_mem {fact : Fact} (hfact : fact ∈ collector.facts) :
    ∃ found, collector.factByName fact.name = some found ∧ found.name = fact.name := by
  cases hfind : collector.factByName fact.name with
  | none =>
    simpa using List.find?_eq_none.mp hfind fact hfact
  | some found => exact ⟨found, rfl, by simpa using List.find?_some hfind⟩

/-- **A read of one fact**: what it runs, what it answers, and what the cache is
    like afterwards. -/
theorem Sound.get (hdistinct : (collector.facts.map Fact.name).Nodup) {s : FactsState J H}
    (hs : collector.Sound s) {fact : Fact} (hfact : fact ∈ collector.facts) :
    collector.Sound (collector.get fact.name s).2 ∧
    (¬ Outdated fact s.log → (collector.get fact.name s).2.log = s.log) ∧
    (Outdated fact s.log → ∃ answer now,
      (collector.get fact.name s).2.log = s.log ++ [.ran fact.name answer now]) ∧
    Reflects (runsOf fact.name (collector.get fact.name s).2.log)
      (collector.get fact.name s).1 := by
  unfold FactsCollector.get
  cases hlookup : s.cache.lookup fact.name with
  | none =>
    obtain ⟨hruns, houtdated⟩ := hs.absent fact hfact hlookup
    refine ⟨hs, fun _ => rfl, fun h => absurd h houtdated, ?_⟩
    exact .of_nil hruns _
  | some cached =>
    have htracks := hs.tracked fact hfact cached hlookup
    by_cases hdirty : cached.dirty = true
    · obtain ⟨found, hfound, hname⟩ := factByName_of_mem hfact
      have hfresh := collector.collectors.collectWithPanicGuard_fresh fact.name s.host
      simp only [hdirty, Bool.not_true, Bool.false_eq_true, if_false, hfound, hname]
      have hrefreshed := htracks.refresh hfresh (collector.collectors.now
        (collector.collectors.collectWithPanicGuard fact.name s.host).2).1
      exact ⟨hs.collectOne hdistinct hfact hrefreshed,
        fun h => absurd (htracks.dirty.mp hdirty) h, fun _ => ⟨_, _, rfl⟩, hrefreshed.value⟩
    · rw [Bool.not_eq_true] at hdirty
      have houtdated : ¬ Outdated fact s.log := fun h => by
        simp [htracks.dirty.mpr h] at hdirty
      simp only [hdirty, Bool.not_false, if_true]
      exact ⟨hs, fun _ => trivial, fun h => absurd h houtdated, htracks.value⟩

/-- A name no fact has is answered without running anything. -/
theorem Sound.get_of_not_mem {s : FactsState J H} (hs : collector.Sound s) {name : String}
    (hname : ∀ fact ∈ collector.facts, fact.name ≠ name) :
    collector.get name s = (.unknown ("unknown fact '" ++ name ++ "'"), s) := by
  have hlookup : s.cache.lookup name = none := by
    by_contra hsome
    obtain ⟨fact, hfact, heq⟩ := hs.own name hsome
    exact hname fact hfact heq
  simp only [FactsCollector.get, hlookup]

theorem Sound.step (hdistinct : (collector.facts.map Fact.name).Nodup) {s : FactsState J H}
    (hs : collector.Sound s) (op : Op) : collector.Sound (collector.step s op) := by
  cases op with
  | markDirty kind => exact hs.markDirtyAfterApply hdistinct kind
  | get name =>
    by_cases hname : ∀ fact ∈ collector.facts, fact.name ≠ name
    · simp only [FactsCollector.step, hs.get_of_not_mem hname]
      exact hs
    · push Not at hname
      obtain ⟨fact, hfact, rfl⟩ := hname
      exact (hs.get hdistinct hfact).1

theorem sound_runOps (hdistinct : (collector.facts.map Fact.name).Nodup) (ops : List Op)
    (h : H) : collector.Sound (collector.runOps ops h) := by
  induction ops using List.reverseRecOn with
  | nil =>
    exact (sound_new h).collectAll hdistinct collector.facts (fun _ h => h) hdistinct
      fun _ _ => rfl
  | append_singleton ops op ih =>
    unfold runOps
    rw [List.foldl_append]
    exact ih.step hdistinct op

end FactsCollector

/-! ## Who wrote the log -/

namespace FactsState

/-- Nothing but the collectors and the clock has written the log and moved the host. -/
def Honest (collectors : Collectors J H) (start : H) (s : FactsState J H) : Prop :=
  Written collectors start s.log s.host

end FactsState

namespace FactsCollector

variable (collector : FactsCollector J H) {start : H}

theorem honest_collectAll (facts : List Fact) : ∀ s : FactsState J H,
    s.Honest collector.collectors start →
    (collector.collectAll facts s).Honest collector.collectors start := by
  induction facts with
  | nil => exact fun _ h => h
  | cons fact facts ih =>
    intro s h
    unfold collectAll
    split
    · exact ih _ (.ran fact.name h)
    · exact ih _ h

theorem honest_markAll (names : List String) : ∀ s : FactsState J H,
    s.Honest collector.collectors start →
    (collector.markAll names s).Honest collector.collectors start := by
  induction names with
  | nil => exact fun _ h => h
  | cons name names ih =>
    intro s h
    refine ih _ ?_
    unfold markOne
    split
    · exact h
    · exact .clock h

theorem honest_get (name : String) {s : FactsState J H}
    (h : s.Honest collector.collectors start) :
    (collector.get name s).2.Honest collector.collectors start := by
  unfold get
  split
  · exact h
  · split
    · exact h
    · split
      · exact h
      · exact .ran _ h

theorem honest_runOps (ops : List Op) (h : H) :
    (collector.runOps ops h).Honest collector.collectors h := by
  induction ops using List.reverseRecOn with
  | nil => exact collector.honest_collectAll _ _ .nil
  | append_singleton ops op ih =>
    unfold runOps
    rw [List.foldl_append]
    cases op with
    | markDirty kind => exact collector.honest_markAll _ _ (.dirtied kind ih)
    | get name => exact collector.honest_get name ih

end FactsCollector

/-- What a read of `name` is to do after the runs and marks in the log of `s`, which goes back to
    the host `start`. -/
structure FactLaw (collector : FactsCollector J H) (start : H) (s : FactsState J H)
    (name : String) : Prop where
  written : (collector.get name s).2.Honest collector.collectors start
  kept : ∀ fact ∈ collector.facts, fact.name = name → ¬ Outdated fact s.log →
    (collector.get name s).2.log = s.log
  refreshed : ∀ fact ∈ collector.facts, fact.name = name → Outdated fact s.log →
    ∃ answer now, (collector.get name s).2.log = s.log ++ [.ran name answer now]
  reflects : Reflects (runsOf name (collector.get name s).2.log) (collector.get name s).1

/-- **The law of the cache.**  After one collection at the start and any marks and
    reads, a read of a fact runs its collector, once, if the fact has been marked
    dirty since its last run, and runs nothing otherwise; and what it answers
    reflects the runs of that collector, of which the log has the answers. -/
theorem fact_cache_law (collector : FactsCollector J H)
    (hdistinct : (collector.facts.map Fact.name).Nodup) (ops : List FactsCollector.Op) (h : H)
    (name : String) : FactLaw collector h (collector.runOps ops h) name := by
  have hsound := FactsCollector.sound_runOps hdistinct ops h
  have hwritten := collector.honest_get name (collector.honest_runOps ops h)
  by_cases hname : ∀ fact ∈ collector.facts, fact.name ≠ name
  · refine ⟨hwritten, fun fact hfact heq => absurd heq (hname fact hfact),
      fun fact hfact heq => absurd heq (hname fact hfact), ?_⟩
    rw [hsound.get_of_not_mem hname]
    exact .of_nil (hsound.foreign name hname) _
  · push Not at hname
    obtain ⟨fact, hfact, rfl⟩ := hname
    obtain ⟨-, hkept, hrefreshed, hreflects⟩ := hsound.get hdistinct hfact
    refine ⟨hwritten, ?_, ?_, hreflects⟩
    · intro other hother hname
      rwa [FactsCollector.eq_of_name hdistinct hother hfact hname]
    · intro other hother hname
      rwa [FactsCollector.eq_of_name hdistinct hother hfact hname]

/-- The packages of a host whose package manager answers once and then breaks; every
    look at the clock takes 5 ms. -/
def packagesFact : FactsCollector Nat Nat where
  facts := [⟨"installed_packages", .atStartAndAfterApply [⟨"apt.package"⟩]⟩]
  collectors :=
    { collect := fun _ h => (if h = 0 then .ok (.known 7) else .error (.staticStr "no dpkg"), h)
      now := fun h => (h, h + 5000000)
      fresh := by
        intro name h value hvalue
        by_cases hzero : h = 0
        · simp only [hzero, if_true, Except.ok.injEq] at hvalue
          subst hvalue
          rfl
        · simp [hzero] at hvalue }

theorem fact_cache_law_packages :
    FactLaw packagesFact 0 (packagesFact.runOps [.markDirty ⟨"apt.package"⟩] 0)
      "installed_packages" :=
  fact_cache_law packagesFact (by decide) _ _ _

example : (packagesFact.get "installed_packages"
    (packagesFact.runOps [.markDirty ⟨"apt.package"⟩] 0)).1 = .stale 7 5 := by decide

end Bosun
