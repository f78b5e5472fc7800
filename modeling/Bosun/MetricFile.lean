import Bosun.FactCache
import Bosun.Library.Exposition
import Bosun.Library.FixedWidth
import Bosun.PgSqlFacts
import Bosun.RunMetric
import Mathlib.Algebra.Order.Field.Rat
import Mathlib.Algebra.Order.Ring.Abs
import Mathlib.Tactic.FinCases
import Mathlib.Tactic.Linarith
import Mathlib.Tactic.Positivity

/-!
# The metric files

`metric.rs` and `tags_metric.rs`: the texts that a run leaves for the collector, one with what it
has done and one with the tags it was given.

`families` and `tagsFamily` are what a reader is to find there; `metricFiles_told` says that it
does, whatever the version, the facts and the tags are called.  The duration alone is rounded, to
thousandths of a second.
-/

namespace Bosun

open Exposition

/-! ## The snapshot -/

structure FactStateEntry where
  name : String
  stateCode : Nat
deriving DecidableEq

/-- What `as_secs_f64` gives: a finite `f64` that is not negative. -/
structure SecondsF64 where
  value : Rat
  double : ∃ mantissa : Nat, ∃ exponent : Int, mantissa < 2 ^ 53 ∧ -1074 ≤ exponent ∧
    exponent ≤ 971 ∧ value = mantissa * 2 ^ exponent

namespace SecondsF64

variable (d : SecondsF64)

/-- The nearest thousandth. -/
def thousandths : Nat := FixedWidth.roundRatio (1000 * d.value.num.toNat) d.value.den

/-- `{:.3}` -/
def text : String := FixedWidth.decimal 3 d.thousandths

theorem nonneg : 0 ≤ d.value := by
  obtain ⟨mantissa, exponent, -, -, -, hvalue⟩ := d.double
  rw [hvalue]
  exact mul_nonneg (Nat.cast_nonneg mantissa) (zpow_nonneg zero_le_two exponent)

theorem abs_thousandths_sub : |(d.thousandths : Rat) / 1000 - d.value| ≤ 1 / 2000 := by
  have hden : (0 : Rat) < d.value.den := by exact_mod_cast d.value.den_pos
  have hnum : ((d.value.num.toNat : Int) : Rat) = d.value * d.value.den := by
    rw [Int.toNat_of_nonneg (Rat.num_nonneg.mpr d.nonneg), Rat.mul_den_eq_num]
  have hround := FixedWidth.two_mul_abs_roundRatio_sub (1000 * d.value.num.toNat)
    d.value.den_pos
  have hround' : 2 * |(d.thousandths : Rat) * d.value.den - 1000 * (d.value * d.value.den)| ≤
      d.value.den := by
    rw [← hnum]
    exact_mod_cast hround
  have hscale : (d.thousandths : Rat) * d.value.den - 1000 * (d.value * d.value.den) =
      (d.thousandths / 1000 - d.value) * (1000 * d.value.den) := by ring
  rw [hscale, abs_mul, abs_of_pos (by positivity : (0 : Rat) < 1000 * d.value.den)] at hround'
  nlinarith

end SecondsF64

structure PromSnapshot extends MetricSnapshot where
  version : String
  durationSec : SecondsF64
  startedAtUtc : Int
  attemptedAtUtc : Int
  factStates : List FactStateEntry

def TRACKED_FACTS : List String :=
  ["hostname", "cpu_count", "memory_mb", "init_system", "is_pod", "installed_packages"]

/-- `build_fact_states` -/
def buildFactStates {J : Type} (get : String → FactValue J) : List FactStateEntry :=
  TRACKED_FACTS.map fun name => ⟨name, match get name with
    | .known _ => 0
    | .unknown _ => 1
    | .stale .. => 2⟩

/-! ## The texts -/

/-- `escape_label` -/
def escapeLabel (s : String) : String :=
  String.join (s.toList.map fun ch =>
    if ch = '\\' then "\\\\" else if ch = '"' then "\\\"" else if ch = '\n' then "\\n"
    else ch.toString)

/-- What is pushed about one metric: help text and type, then the samples, each as the text of
    its labels and its value. -/
structure MetricBlock where
  metric : String
  help : String
  kind : String
  samples : List (String × String)

def MetricBlock.pushes (b : MetricBlock) : List String :=
  ["# HELP " ++ b.metric ++ " " ++ b.help ++ "\n",
    "# TYPE " ++ b.metric ++ " " ++ b.kind ++ "\n"] ++
    b.samples.map fun s => b.metric ++ s.1 ++ " " ++ s.2 ++ "\n"

/-- `{label="text"}` -/
def labelText (label text : String) : String := "\x7b" ++ label ++ "=\"" ++ text ++ "\"\x7d"

/-- `u8::from` -/
def boolText (b : Bool) : String := if b then "1" else "0"

namespace PromSnapshot

variable (snapshot : PromSnapshot)

/-- The metrics that every snapshot has. -/
def blocks : List MetricBlock :=
  [⟨"bosun_last_attempt_timestamp_seconds",
      "UTC timestamp of last bosun invocation; alert on staleness here, " ++
        "not on bosun_last_run_timestamp_seconds", "gauge",
      [(labelText "version" (escapeLabel snapshot.version), toString snapshot.attemptedAtUtc)]⟩,
    ⟨"bosun_last_run_timestamp_seconds", "UTC timestamp of last completed run", "gauge",
      [(labelText "version" (escapeLabel snapshot.version), toString snapshot.startedAtUtc)]⟩,
    ⟨"bosun_last_run_exit_code", "Exit code of last run", "gauge",
      [("", toString snapshot.exitCode)]⟩,
    ⟨"bosun_last_run_duration_seconds", "Duration of last run", "gauge",
      [("", snapshot.durationSec.text)]⟩,
    ⟨"bosun_resources_total", "Total resources in last run by outcome", "gauge",
      [(labelText "outcome" "changed", toString snapshot.resourcesChanged),
        (labelText "outcome" "unchanged", toString snapshot.resourcesUnchanged),
        (labelText "outcome" "failed", toString snapshot.resourcesFailed),
        (labelText "outcome" "deferred", toString snapshot.resourcesDeferred),
        (labelText "outcome" "interrupted", toString snapshot.resourcesInterrupted)]⟩,
    ⟨"bosun_fact_state", "Last collected state of each fact (0=Known, 1=Unknown, 2=Stale)",
      "gauge", snapshot.factStates.map fun entry =>
        (labelText "fact" (escapeLabel entry.name), toString entry.stateCode)⟩,
    ⟨"bosun_defers_pending", "Number of deferred-action files in the journal", "gauge",
      [("", toString snapshot.defersPending.val)]⟩,
    ⟨"bosun_defers_executed_total", "Total deferred actions handled during replay", "counter",
      [(labelText "result" "ok", toString snapshot.defersReplayStats.executedOk.val),
        (labelText "result" "failed", toString snapshot.defersReplayStats.executedFailed.val),
        (labelText "result" "client_unavailable",
          toString snapshot.defersReplayStats.clientUnavailable.val),
        (labelText "result" "manual_clear",
          toString snapshot.defersReplayStats.promotedManualClear.val)]⟩,
    ⟨"bosun_defers_replay_total", "Number of replay invocations this run", "counter",
      [("", toString snapshot.defersReplayRuns)]⟩]

def runrBlock (reachable : Bool) : MetricBlock :=
  ⟨"bosun_runr_reachable", "1 if a runr handle was constructed this run, 0 otherwise", "gauge",
    [("", boolText reachable)]⟩

def systemdBlock (reachable : Bool) : MetricBlock :=
  ⟨"bosun_systemd_reachable", "1 if a systemd handle was constructed this run, 0 otherwise",
    "gauge", [("", boolText reachable)]⟩

/-- `format`: an empty line behind each metric but the last. -/
def format : String :=
  String.join ((snapshot.blocks ++ (snapshot.runrReachable.map runrBlock).toList).flatMap
      (fun b => b.pushes ++ ["\n"]) ++
    (snapshot.systemdReachable.map systemdBlock).toList.flatMap MetricBlock.pushes)

end PromSnapshot

/-- `tags_metric::format` -/
def formatTags (tags : SortedMap String Unit) : String :=
  String.join (MetricBlock.pushes ⟨"bosun_active_tags", "1 per active tag passed on the CLI",
    "gauge", if tags.entries = [] then [(labelText "tag" "", "0")]
      else tags.entries.map fun tag => (labelText "tag" (escapeLabel tag.1), "1")⟩)

/-! ## What the texts say -/

/-- The text of a family. -/
def MetricBlock.ofFamily (f : Family) : MetricBlock :=
  ⟨f.metric, f.help, f.kind, f.samples.map fun s => (Sample.labelsText s.1, s.2)⟩

namespace PromSnapshot

variable (snapshot : PromSnapshot)

def baseFamilies : List Family :=
  [⟨"bosun_last_attempt_timestamp_seconds",
      "UTC timestamp of last bosun invocation; alert on staleness here, " ++
        "not on bosun_last_run_timestamp_seconds", "gauge",
      [([("version", snapshot.version)], toString snapshot.attemptedAtUtc)]⟩,
    ⟨"bosun_last_run_timestamp_seconds", "UTC timestamp of last completed run", "gauge",
      [([("version", snapshot.version)], toString snapshot.startedAtUtc)]⟩,
    ⟨"bosun_last_run_exit_code", "Exit code of last run", "gauge",
      [([], toString snapshot.exitCode)]⟩,
    ⟨"bosun_last_run_duration_seconds", "Duration of last run", "gauge",
      [([], snapshot.durationSec.text)]⟩,
    ⟨"bosun_resources_total", "Total resources in last run by outcome", "gauge",
      [([("outcome", "changed")], toString snapshot.resourcesChanged),
        ([("outcome", "unchanged")], toString snapshot.resourcesUnchanged),
        ([("outcome", "failed")], toString snapshot.resourcesFailed),
        ([("outcome", "deferred")], toString snapshot.resourcesDeferred),
        ([("outcome", "interrupted")], toString snapshot.resourcesInterrupted)]⟩,
    ⟨"bosun_fact_state", "Last collected state of each fact (0=Known, 1=Unknown, 2=Stale)",
      "gauge", snapshot.factStates.map fun entry =>
        ([("fact", entry.name)], toString entry.stateCode)⟩,
    ⟨"bosun_defers_pending", "Number of deferred-action files in the journal", "gauge",
      [([], toString snapshot.defersPending.val)]⟩,
    ⟨"bosun_defers_executed_total", "Total deferred actions handled during replay", "counter",
      [([("result", "ok")], toString snapshot.defersReplayStats.executedOk.val),
        ([("result", "failed")], toString snapshot.defersReplayStats.executedFailed.val),
        ([("result", "client_unavailable")],
          toString snapshot.defersReplayStats.clientUnavailable.val),
        ([("result", "manual_clear")],
          toString snapshot.defersReplayStats.promotedManualClear.val)]⟩,
    ⟨"bosun_defers_replay_total", "Number of replay invocations this run", "counter",
      [([], toString snapshot.defersReplayRuns)]⟩]

def runrFamily (reachable : Bool) : Family :=
  ⟨"bosun_runr_reachable", "1 if a runr handle was constructed this run, 0 otherwise", "gauge",
    [([], boolText reachable)]⟩

def systemdFamily (reachable : Bool) : Family :=
  ⟨"bosun_systemd_reachable", "1 if a systemd handle was constructed this run, 0 otherwise",
    "gauge", [([], boolText reachable)]⟩

def families : List Family :=
  snapshot.baseFamilies ++ (snapshot.runrReachable.map runrFamily).toList ++
    (snapshot.systemdReachable.map systemdFamily).toList

def lines : List Line :=
  (snapshot.baseFamilies ++ (snapshot.runrReachable.map runrFamily).toList).flatMap
      (fun f => f.lines ++ [.blank]) ++
    (snapshot.systemdReachable.map systemdFamily).toList.flatMap Family.lines

end PromSnapshot

theorem escapeLabel_eq (s : String) : escapeLabel s = escape s := by
  rw [← String.toList_inj, escapeLabel, escape, String.toList_join, String.toList_ofList,
    List.flatMap_map]
  congr 1
  funext c
  unfold escapeChar
  split
  · rfl
  · split
    · rfl
    · split
      · rfl
      · exact String.toList_singleton c

theorem labelText_eq (label text : String) :
    labelText label (escape text) = Sample.labelsText [(label, text)] := by
  simp [labelText, Sample.labelsText, Sample.renderLabels, String.append_assoc]

/-- The constant labels need no escapes. -/
theorem labelText_plain (label : String) {text : String} (h : escape text = text) :
    labelText label text = Sample.labelsText [(label, text)] := by
  rw [← labelText_eq, h]

theorem pushes_ofFamily (f : Family) :
    (MetricBlock.ofFamily f).pushes = f.lines.map fun line => line.render ++ "\n" := by
  simp [MetricBlock.pushes, MetricBlock.ofFamily, Family.lines, Line.render, Family.sample,
    Sample.render]

namespace PromSnapshot

variable (snapshot : PromSnapshot)

theorem blocks_eq : snapshot.blocks = snapshot.baseFamilies.map MetricBlock.ofFamily := by
  have hplain : ∀ text ∈ ["changed", "unchanged", "failed", "deferred", "interrupted", "ok",
      "client_unavailable", "manual_clear"], escape text = text := by decide +kernel
  simp only [List.forall_mem_cons] at hplain
  obtain ⟨hchanged, hunchanged, hfailed, hdeferred, hinterrupted, hok, hclient, hmanual, -⟩ :=
    hplain
  simp [blocks, baseFamilies, MetricBlock.ofFamily, escapeLabel_eq, labelText_eq,
    labelText_plain _ hchanged, labelText_plain _ hunchanged, labelText_plain _ hfailed,
    labelText_plain _ hdeferred, labelText_plain _ hinterrupted, labelText_plain _ hok,
    labelText_plain _ hclient, labelText_plain _ hmanual, Sample.labelsText, Function.comp_def]

theorem format_eq : snapshot.format = render snapshot.lines := by
  have hrunr : (snapshot.runrReachable.map runrBlock).toList =
      (snapshot.runrReachable.map runrFamily).toList.map MetricBlock.ofFamily := by
    cases snapshot.runrReachable <;> rfl
  have hsystemd : (snapshot.systemdReachable.map systemdBlock).toList =
      (snapshot.systemdReachable.map systemdFamily).toList.map MetricBlock.ofFamily := by
    cases snapshot.systemdReachable <;> rfl
  rw [format, blocks_eq, hrunr, hsystemd, render, lines]
  have hblank : Line.blank.render ++ "\n" = "\n" := by simp [Line.render]
  simp only [List.flatMap_append, List.flatMap_map, pushes_ofFamily, List.map_append,
    List.map_flatMap, List.map_cons, List.map_nil, hblank]

end PromSnapshot

/-! ### Words -/

theorem isWordChar_of_isDigit {c : Char} (h : c.isDigit = true) : isWordChar c = true := by
  have halphanum : c.isAlphanum = true := Bool.or_eq_true_iff.mpr (.inr h)
  rw [isWordChar, isLabelChar, halphanum]
  rfl

theorem isWord_natRepr (n : Nat) : isWord (toString n) = true := by
  refine isWord_iff.mpr ⟨?_, fun c hc => isWordChar_of_isDigit ?_⟩
  · exact fun hnil => Nat.repr_ne_empty (String.toList_eq_nil_iff.mp hnil)
  · have hrepr : c ∈ (Nat.repr n).toList := hc
    rw [Nat.toList_repr] at hrepr
    exact Nat.isDigit_of_mem_toDigits (by decide) (by decide) hrepr

theorem isWord_intRepr (i : Int) : isWord (toString i) = true := by
  rw [show toString i = Int.repr i from rfl, Int.repr_eq_if]
  split
  · exact isWord_natRepr i.toNat
  · obtain ⟨-, hdigits⟩ := isWord_iff.mp (isWord_natRepr (-i).toNat)
    refine isWord_iff.mpr ⟨by simp, fun c hc => ?_⟩
    rw [String.toList_append, List.mem_append] at hc
    rcases hc with hc | hc
    · obtain rfl : c = '-' := by simpa using hc
      decide
    · exact hdigits c hc

theorem SecondsF64.isWord_text (d : SecondsF64) : isWord d.text = true := by
  obtain ⟨hnonempty, hdigits⟩ := isWord_iff.mp (isWord_natRepr (d.thousandths / 10 ^ 3))
  refine isWord_iff.mpr ⟨?_, fun c hc => ?_⟩
  · rw [text, FixedWidth.toList_decimal]
    exact List.append_ne_nil_of_left_ne_nil hnonempty _
  · rw [text, FixedWidth.toList_decimal, List.mem_append, List.mem_cons] at hc
    rcases hc with hc | rfl | hc
    · exact hdigits c hc
    · decide
    · exact isWordChar_of_isDigit (FixedWidth.isDigit_of_mem hc)

/-! ### The file of a run -/

theorem DeferReplayStats.ext_repr {stats stats' : DeferReplayStats}
    (h : stats.executedOk.val.repr = stats'.executedOk.val.repr ∧
      stats.executedFailed.val.repr = stats'.executedFailed.val.repr ∧
      stats.clientUnavailable.val.repr = stats'.clientUnavailable.val.repr ∧
      stats.promotedManualClear.val.repr = stats'.promotedManualClear.val.repr) :
    stats = stats' := by
  obtain ⟨ok, failed, unavailable, clear⟩ := stats
  obtain ⟨ok', failed', unavailable', clear'⟩ := stats'
  obtain ⟨hok, hfailed, hunavailable, hclear⟩ := h
  obtain rfl := Fin.ext (PgType.natRepr_injective hok)
  obtain rfl := Fin.ext (PgType.natRepr_injective hfailed)
  obtain rfl := Fin.ext (PgType.natRepr_injective hunavailable)
  obtain rfl := Fin.ext (PgType.natRepr_injective hclear)
  rfl

/-- What holds of a metric that says whether a daemon was reached. -/
theorem forall_mem_reachable {p : Family → Prop} {family : Bool → Family}
    (h : ∀ b, p (family b)) (reachable : Option Bool) :
    ∀ f ∈ (reachable.map family).toList, p f := by
  intro f hf
  obtain ⟨b, -, rfl⟩ := Option.map_eq_some_iff.mp (Option.mem_toList.mp hf)
  exact h b

namespace PromSnapshot

variable (snapshot : PromSnapshot)

theorem plain_baseFamilies : ∀ f ∈ snapshot.baseFamilies, Family.Plain f := by
  have htexts : ∀ f ∈ snapshot.baseFamilies, isName isNameChar f.metric = true ∧
      isHelpText f.help = true ∧ isWord f.kind = true := by
    simp only [baseFamilies, List.forall_mem_cons]
    decide +kernel
  have hsamples : ∀ f ∈ snapshot.baseFamilies, ∀ s ∈ f.samples,
      s.1.all (fun l => isName isLabelChar l.1) = true ∧ isWord s.2 = true := by
    have hversion : isName isLabelChar "version" = true := by decide
    have houtcome : isName isLabelChar "outcome" = true := by decide
    have hfact : isName isLabelChar "fact" = true := by decide
    have hresult : isName isLabelChar "result" = true := by decide
    simp only [baseFamilies, List.forall_mem_cons, List.forall_mem_map, List.not_mem_nil,
      List.all_cons, List.all_nil, hversion, houtcome, hfact, hresult, isWord_natRepr,
      isWord_intRepr, snapshot.durationSec.isWord_text, Bool.and_true, and_self, implies_true,
      IsEmpty.forall_iff]
  exact fun f hf => ⟨(htexts f hf).1, (htexts f hf).2.1, (htexts f hf).2.2, hsamples f hf⟩

theorem plain_runrFamily (reachable : Bool) : Family.Plain (runrFamily reachable) := by
  cases reachable <;> exact ⟨by decide +kernel, by decide +kernel, by decide, by decide⟩

theorem plain_systemdFamily (reachable : Bool) : Family.Plain (systemdFamily reachable) := by
  cases reachable <;> exact ⟨by decide +kernel, by decide +kernel, by decide, by decide⟩

theorem plain_families : ∀ f ∈ snapshot.families, Family.Plain f := by
  have hrunr := forall_mem_reachable plain_runrFamily snapshot.runrReachable
  have hsystemd := forall_mem_reachable plain_systemdFamily snapshot.systemdReachable
  exact List.forall_mem_append.mpr
    ⟨List.forall_mem_append.mpr ⟨snapshot.plain_baseFamilies, hrunr⟩, hsystemd⟩

theorem mem_lines {line : Line} (h : line ∈ snapshot.lines) :
    line = .blank ∨ ∃ f ∈ snapshot.families, line ∈ f.lines := by
  rw [lines, List.mem_append, List.mem_flatMap, List.mem_flatMap] at h
  rcases h with ⟨f, hf, hline⟩ | ⟨f, hf, hline⟩
  · rcases List.mem_append.mp hline with hline | hline
    · exact .inr ⟨f, List.mem_append_left _ hf, hline⟩
    · exact .inl (List.mem_singleton.mp hline)
  · exact .inr ⟨f, List.mem_append_right _ hf, hline⟩

theorem read_format : read snapshot.format = some snapshot.lines := by
  rw [format_eq]
  refine read_render _ fun line hline => ?_
  rcases snapshot.mem_lines hline with rfl | ⟨f, hf, hline⟩
  · rfl
  · exact (snapshot.plain_families f hf).lines line hline

theorem filter_lines : snapshot.lines.filter (· ≠ .blank) =
    snapshot.families.flatMap Family.lines := by
  have hblank : [Line.blank].filter (fun line => decide (line ≠ .blank)) = [] := by decide
  simp only [lines, families, List.filter_append, List.filter_flatMap, Family.filter_lines,
    hblank, List.append_nil, List.flatMap_append, List.append_assoc]

theorem nodup_metrics : (snapshot.families.map Family.metric).Nodup := by
  have hall : ["bosun_last_attempt_timestamp_seconds", "bosun_last_run_timestamp_seconds",
      "bosun_last_run_exit_code", "bosun_last_run_duration_seconds", "bosun_resources_total",
      "bosun_fact_state", "bosun_defers_pending", "bosun_defers_executed_total",
      "bosun_defers_replay_total", "bosun_runr_reachable", "bosun_systemd_reachable"].Nodup := by
    decide +kernel
  refine hall.sublist ?_
  cases hrunr : snapshot.runrReachable <;> cases hsystemd : snapshot.systemdReachable <;>
    simp [families, baseFamilies, hrunr, hsystemd, runrFamily, systemdFamily]

/-- No sample is there twice if no fact is. -/
theorem nodup_samples (h : (snapshot.factStates.map FactStateEntry.name).Nodup) :
    ∀ f ∈ snapshot.families, (f.samples.map Prod.fst).Nodup := by
  have hfacts : (snapshot.factStates.map fun entry => [("fact", entry.name)]).Nodup := by
    have hmap : (snapshot.factStates.map fun entry => [("fact", entry.name)]) =
        (snapshot.factStates.map FactStateEntry.name).map fun name => [("fact", name)] := by
      rw [List.map_map]
      rfl
    rw [hmap]
    exact h.map fun name name' heq => by simpa using heq
  have houtcomes : [[("outcome", "changed")], [("outcome", "unchanged")], [("outcome", "failed")],
      [("outcome", "deferred")], [("outcome", "interrupted")]].Nodup := by decide
  have hresults : [[("result", "ok")], [("result", "failed")],
      [("result", "client_unavailable")], [("result", "manual_clear")]].Nodup := by decide
  have hbase : ∀ f ∈ snapshot.baseFamilies, (f.samples.map Prod.fst).Nodup := by
    simp only [baseFamilies, List.forall_mem_cons, List.map_cons, List.map_nil, List.map_map,
      Function.comp_def, hfacts, houtcomes, hresults, List.nodup_singleton, List.not_mem_nil,
      IsEmpty.forall_iff, implies_true, and_self]
  have hrunr : ∀ f ∈ (snapshot.runrReachable.map runrFamily).toList,
      (f.samples.map Prod.fst).Nodup :=
    forall_mem_reachable (fun _ => List.nodup_singleton _) _
  have hsystemd : ∀ f ∈ (snapshot.systemdReachable.map systemdFamily).toList,
      (f.samples.map Prod.fst).Nodup :=
    forall_mem_reachable (fun _ => List.nodup_singleton _) _
  exact List.forall_mem_append.mpr ⟨List.forall_mem_append.mpr ⟨hbase, hrunr⟩, hsystemd⟩

/-! ### What can be told from it -/

theorem factSamples_injective : Function.Injective fun facts : List FactStateEntry =>
    facts.map fun entry => ([("fact", entry.name)], toString entry.stateCode) := by
  refine List.map_injective_iff.mpr fun entry entry' h => ?_
  obtain ⟨name, code⟩ := entry
  obtain ⟨name', code'⟩ := entry'
  simp only [Prod.mk.injEq, List.cons.injEq, and_true, true_and] at h
  obtain ⟨rfl, hcode⟩ := h
  obtain rfl := PgType.natRepr_injective hcode
  rfl

theorem boolText_injective : Function.Injective boolText := by
  intro b b' h
  revert b b'
  decide

theorem reachable_injective {reachable reachable' : Option Bool}
    (h : (reachable.map fun b => (([] : List (String × String)), boolText b)).toList =
      (reachable'.map fun b => ([], boolText b)).toList) : reachable = reachable' := by
  cases reachable with
  | none =>
    cases reachable' with
    | none => rfl
    | some b' => cases h
  | some b =>
    cases reachable' with
    | none => cases h
    | some b' =>
      have htext : boolText b = boolText b' := by simpa using h
      rw [boolText_injective htext]

section Told

variable {snapshot} {snapshot' : PromSnapshot} (h : snapshot.lines = snapshot'.lines)
include h

theorem samples_eq {f f' : Family} (hf : f ∈ snapshot.families) (hf' : f' ∈ snapshot'.families)
    (hmetric : f.metric = f'.metric) : f.samples = f'.samples := by
  rw [← samplesOf_of_mem snapshot.filter_lines snapshot.nodup_metrics hf,
    ← samplesOf_of_mem snapshot'.filter_lines snapshot'.nodup_metrics hf', hmetric, h]

/-- The metrics that every snapshot has, one by one. -/
theorem baseSamples_eq (k : Fin 9) :
    (snapshot.baseFamilies.get k).samples = (snapshot'.baseFamilies.get k).samples := by
  refine samples_eq h (List.mem_append_left _ (List.mem_append_left _ (List.get_mem _ _)))
    (List.mem_append_left _ (List.mem_append_left _ (List.get_mem _ _))) ?_
  fin_cases k <;> rfl

end Told

theorem samplesOf_runr : samplesOf "bosun_runr_reachable" snapshot.lines =
    (snapshot.runrReachable.map fun b => ([], boolText b)).toList := by
  cases hrunr : snapshot.runrReachable with
  | none =>
    refine samplesOf_of_notMem snapshot.filter_lines ?_
    cases hsystemd : snapshot.systemdReachable <;>
      simp [families, baseFamilies, hrunr, hsystemd, systemdFamily]
  | some b =>
    have hmem : runrFamily b ∈ snapshot.families := by simp [families, hrunr]
    exact samplesOf_of_mem snapshot.filter_lines snapshot.nodup_metrics hmem

theorem samplesOf_systemd : samplesOf "bosun_systemd_reachable" snapshot.lines =
    (snapshot.systemdReachable.map fun b => ([], boolText b)).toList := by
  cases hsystemd : snapshot.systemdReachable with
  | none =>
    refine samplesOf_of_notMem snapshot.filter_lines ?_
    cases hrunr : snapshot.runrReachable <;>
      simp [families, baseFamilies, hrunr, hsystemd, runrFamily]
  | some b =>
    have hmem : systemdFamily b ∈ snapshot.families := by simp [families, hsystemd]
    exact samplesOf_of_mem snapshot.filter_lines snapshot.nodup_metrics hmem

/-- Of two snapshots with one text only the durations may differ, and not by a thousandth as it
    is written. -/
theorem eq_of_format {snapshot snapshot' : PromSnapshot}
    (h : snapshot.format = snapshot'.format) :
    { snapshot with durationSec := snapshot'.durationSec } = snapshot' ∧
      snapshot.durationSec.thousandths = snapshot'.durationSec.thousandths := by
  have hlines : snapshot.lines = snapshot'.lines := by
    have hread := snapshot.read_format
    rw [h, snapshot'.read_format] at hread
    exact (Option.some.inj hread).symm
  have hattempt := baseSamples_eq hlines 0
  have hrun := baseSamples_eq hlines 1
  have hexit := baseSamples_eq hlines 2
  have hduration := baseSamples_eq hlines 3
  have hresources := baseSamples_eq hlines 4
  have hfacts := baseSamples_eq hlines 5
  have hpending := baseSamples_eq hlines 6
  have hexecuted := baseSamples_eq hlines 7
  have hreplays := baseSamples_eq hlines 8
  simp only [baseFamilies, Fin.isValue, List.get_eq_getElem, Int.toString_eq_repr,
    Nat.toString_eq_repr, List.length_cons, List.length_nil, Nat.reduceAdd, Fin.coe_ofNat_eq_mod,
    Nat.zero_mod, List.getElem_cons_zero, List.cons.injEq, Prod.mk.injEq, true_and, and_true,
    Nat.one_mod, List.getElem_cons_succ, Nat.reduceMod, Nat.mod_succ]
    at hattempt hrun hexit hduration hresources hpending hexecuted hreplays
  have hrunr : snapshot.runrReachable = snapshot'.runrReachable :=
    reachable_injective (by rw [← samplesOf_runr, ← samplesOf_runr, hlines])
  have hsystemd : snapshot.systemdReachable = snapshot'.systemdReachable :=
    reachable_injective (by rw [← samplesOf_systemd, ← samplesOf_systemd, hlines])
  obtain ⟨⟨exitCode, changed, unchanged, failed, deferred, interrupted, pending, stats, replays,
    runr, systemd⟩, version, duration, started, attempted, facts⟩ := snapshot
  obtain ⟨⟨exitCode', changed', unchanged', failed', deferred', interrupted', pending', stats',
    replays', runr', systemd'⟩, version', duration', started', attempted', facts'⟩ := snapshot'
  obtain ⟨rfl, hattempted⟩ := hattempt
  obtain rfl := PgType.intRepr_injective hattempted
  obtain rfl := PgType.intRepr_injective hrun.2
  obtain rfl := PgType.natRepr_injective hexit
  obtain rfl := PgType.natRepr_injective hresources.1
  obtain rfl := PgType.natRepr_injective hresources.2.1
  obtain rfl := PgType.natRepr_injective hresources.2.2.1
  obtain rfl := PgType.natRepr_injective hresources.2.2.2.1
  obtain rfl := PgType.natRepr_injective hresources.2.2.2.2
  obtain rfl := factSamples_injective hfacts
  obtain rfl := Fin.ext (PgType.natRepr_injective hpending)
  obtain rfl := DeferReplayStats.ext_repr hexecuted
  obtain rfl := PgType.natRepr_injective hreplays
  obtain rfl : runr = runr' := hrunr
  obtain rfl : systemd = systemd' := hsystemd
  exact ⟨rfl, FixedWidth.decimal_injective 3 hduration⟩

theorem format_eq_iff {snapshot snapshot' : PromSnapshot} :
    snapshot.format = snapshot'.format ↔
      { snapshot with durationSec := snapshot'.durationSec } = snapshot' ∧
        snapshot.durationSec.thousandths = snapshot'.durationSec.thousandths := by
  refine ⟨eq_of_format, fun ⟨hrest, hduration⟩ => ?_⟩
  have htext : snapshot.durationSec.text = snapshot'.durationSec.text := by
    rw [SecondsF64.text, SecondsF64.text, hduration]
  rw [← hrest]
  simp only [format, blocks, htext]

end PromSnapshot

/-! ### The file of the tags -/

section Tags

variable (tags : SortedMap String Unit)

def tagsFamily : Family :=
  ⟨"bosun_active_tags", "1 per active tag passed on the CLI", "gauge",
    if tags.entries = [] then [([("tag", "")], "0")]
    else tags.entries.map fun tag => ([("tag", tag.1)], "1")⟩

theorem formatTags_eq : formatTags tags = render (tagsFamily tags).lines := by
  have hempty : labelText "tag" "" = Sample.labelsText [("tag", "")] :=
    labelText_plain "tag" (by decide)
  have hblock : MetricBlock.mk "bosun_active_tags" "1 per active tag passed on the CLI" "gauge"
      (if tags.entries = [] then [(labelText "tag" "", "0")]
        else tags.entries.map fun tag => (labelText "tag" (escapeLabel tag.1), "1")) =
      .ofFamily (tagsFamily tags) := by
    by_cases hnil : tags.entries = []
    · simp [MetricBlock.ofFamily, tagsFamily, hnil, hempty]
    · simp [MetricBlock.ofFamily, tagsFamily, hnil, escapeLabel_eq, labelText_eq]
  rw [formatTags, hblock, pushes_ofFamily, render]

theorem plain_tagsFamily : Family.Plain (tagsFamily tags) where
  metric := by
    show isName isNameChar "bosun_active_tags" = true
    decide +kernel
  help := by
    show isHelpText "1 per active tag passed on the CLI" = true
    decide +kernel
  kind := by
    show isWord "gauge" = true
    decide
  samples := by
    have hname : isName isLabelChar "tag" = true := by decide
    unfold tagsFamily
    split
    · simp [hname]
      decide
    · simp only [List.forall_mem_map, List.all_cons, List.all_nil, hname]
      exact fun _ _ => ⟨rfl, by decide⟩

theorem read_formatTags : read (formatTags tags) = some (tagsFamily tags).lines := by
  rw [formatTags_eq]
  exact read_render _ (plain_tagsFamily tags).lines

theorem holds_tags : Holds (tagsFamily tags).lines [tagsFamily tags] where
  lines := by rw [Family.filter_lines, List.flatMap_singleton]
  metrics := List.nodup_singleton _
  samples := by
    have htags : (tags.entries.map fun tag => [("tag", tag.1)]).Nodup := by
      refine List.pairwise_map.mpr (tags.sorted.imp fun hlt heq => ?_)
      exact absurd (by simpa using heq) (ne_of_lt hlt)
    rw [List.forall_mem_singleton, tagsFamily]
    dsimp only
    split
    · exact List.nodup_singleton _
    · rw [List.map_map]
      exact htags

/-- No two sets of tags have one text. -/
theorem formatTags_injective {tags tags' : SortedMap String Unit}
    (h : formatTags tags = formatTags tags') : tags = tags' := by
  have hlines : (tagsFamily tags).lines = (tagsFamily tags').lines := by
    have hread := read_formatTags tags
    rw [h, read_formatTags] at hread
    exact (Option.some.inj hread).symm
  have hsamples : (tagsFamily tags).samples = (tagsFamily tags').samples := by
    rw [← samplesOf_of_mem (holds_tags tags).lines (holds_tags tags).metrics List.mem_cons_self,
      hlines]
    exact samplesOf_of_mem (holds_tags tags').lines (holds_tags tags').metrics List.mem_cons_self
  apply SortedMap.ext
  simp only [tagsFamily] at hsamples
  split at hsamples
  · rename_i hnil
    split at hsamples
    · rename_i hnil'
      rw [hnil, hnil']
    · obtain ⟨tag, rest, hcons⟩ := List.exists_cons_of_ne_nil ‹tags'.entries ≠ []›
      simp [hcons] at hsamples
  · split at hsamples
    · obtain ⟨tag, rest, hcons⟩ := List.exists_cons_of_ne_nil ‹tags.entries ≠ []›
      simp [hcons] at hsamples
    · refine List.map_injective_iff.mpr (fun tag tag' heq => ?_) hsamples
      exact Prod.ext (by simpa using heq) rfl

end Tags

/-- **The files of a run.**  Both are read back: the lines of the metrics stand together, no
    sample is there twice, and the samples are those of the snapshot and of the tags.  No other
    tags have these texts, and no other snapshot but for a duration that rounds to the same
    thousandth of a second. -/
theorem metricFiles_told (snapshot : PromSnapshot)
    (h : (snapshot.factStates.map FactStateEntry.name).Nodup) (tags : SortedMap String Unit) :
    (∃ lines, read snapshot.format = some lines ∧ Holds lines snapshot.families) ∧
    (∃ lines, read (formatTags tags) = some lines ∧ Holds lines [tagsFamily tags]) ∧
    (∀ snapshot' : PromSnapshot, snapshot'.format = snapshot.format ↔
      { snapshot' with durationSec := snapshot.durationSec } = snapshot ∧
        snapshot'.durationSec.thousandths = snapshot.durationSec.thousandths) ∧
    |(snapshot.durationSec.thousandths : Rat) / 1000 - snapshot.durationSec.value| ≤ 1 / 2000 ∧
    ∀ tags', formatTags tags' = formatTags tags ↔ tags' = tags :=
  ⟨⟨_, snapshot.read_format, snapshot.filter_lines, snapshot.nodup_metrics,
      snapshot.nodup_samples h⟩,
    ⟨_, read_formatTags tags, holds_tags tags⟩, fun _ => PromSnapshot.format_eq_iff,
    snapshot.durationSec.abs_thousandths_sub,
    fun _ => ⟨formatTags_injective, congrArg formatTags⟩⟩

/-- What is tracked is tracked once. -/
theorem nodup_buildFactStates {J : Type} (get : String → FactValue J) :
    ((buildFactStates get).map FactStateEntry.name).Nodup := by
  have hnames : (buildFactStates get).map FactStateEntry.name = TRACKED_FACTS := by
    simp [buildFactStates, Function.comp_def]
  rw [hnames]
  decide

/-- A bundle that could not be evaluated, on a node where no fact was known, after this time. -/
def failedSnapshot (d : SecondsF64) : PromSnapshot where
  toMetricSnapshot := .failure EVAL_ERROR
  version := "0.1.0"
  durationSec := d
  startedAtUtc := 1747567200
  attemptedAtUtc := 1747567210
  factStates := buildFactStates fun _ => (.unknown "collector failed" : FactValue Unit)

/-- A second and a quarter, and less than half a thousandth before it. -/
def quarterPast : SecondsF64 := ⟨5 / 4, 5, -2, by decide, by decide, by decide, by norm_num⟩

def justBefore : SecondsF64 :=
  ⟨10237 / 8192, 10237, -13, by decide, by decide, by decide, by norm_num⟩

/-- The two times give one text. -/
theorem metricFiles_told_failed :
    (∃ lines, read (failedSnapshot quarterPast).format = some lines ∧
      Holds lines (failedSnapshot quarterPast).families) ∧
    (failedSnapshot justBefore).format = (failedSnapshot quarterPast).format := by
  obtain ⟨hread, -, htold, -⟩ := metricFiles_told (failedSnapshot quarterPast)
    (nodup_buildFactStates fun _ => (.unknown "collector failed" : FactValue Unit))
    (.insertAll [("canary", ())])
  exact ⟨hread, (htold _).mpr ⟨rfl, by decide +kernel⟩⟩

end Bosun
