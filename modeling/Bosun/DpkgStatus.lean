import Bosun.ControlFile
import Bosun.Library.RunningBest

/-!
# The installed packages

`parse_installed_from_status` goes through the stanzas of dpkg's status file and keeps for each
package the newest version that is installed; an architecture of its own makes a stanza of its
own.  `installed_highest` says what the printed file of well-formed stanzas gives.

The order of versions is that of a crate: `debVersion` reads a version into a linear order, and
versions that Debian takes for the same (`1.0` and `1.0-0`) are read into the same element.
-/

namespace Bosun

variable {V : Type} [LinearOrder V] (debVersion : String → Option V)

/-! ## The parser -/

/-- A version that is not read makes the comparison one of strings. -/
def isNewer (new old : String) : Bool :=
  match debVersion new, debVersion old with
  | some n, some o => decide (o < n)
  | _, _ => decide (old < new)

/-- A word of the status is `installed`; `not-installed` is another word. -/
def ParsedPackage.statusOk (pkg : ParsedPackage) : Bool :=
  match pkg.status with
  | some status => (splitWhitespace status.toList).any fun word => String.ofList word = "installed"
  | none => false

/-- The body of the loop of `parse_installed_from_status`. -/
def addInstalled (out : Fields) (pkg : ParsedPackage) : Fields :=
  if pkg.statusOk then
    match pkg.version with
    | none => out
    | some version =>
      match out.lookup pkg.name with
      | some existing =>
        if isNewer debVersion version existing then out.insert pkg.name version else out
      | none => out.insert pkg.name version
  else out

def parseInstalledFromStatus (text : List Char) : Fields :=
  (parseControlFile text).foldl (addInstalled debVersion) ∅

/-! ## The status file -/

/-- Where a version stands in Debian's order. -/
def rank (version : String) : WithBot V := debVersion version

def IsWord (s : String) : Prop := s.toList ≠ [] ∧ Unspaced s.toList

instance (s : String) : Decidable (IsWord s) :=
  inferInstanceAs (Decidable (s.toList ≠ [] ∧ Unspaced s.toList))

/-- A stanza of the status file.  Its status is what is wanted, a flag and the state; only the
    state can be `installed`, and then there is a version. -/
structure DpkgStanza where
  stanza : Stanza
  readable : stanza.Readable
  name : String
  named : stanza.get "Package" = some name
  want : String
  flag : String
  state : String
  words : IsWord want ∧ IsWord flag ∧ IsWord state
  wanted : want ≠ "installed"
  flagged : flag ≠ "installed"
  status : stanza.get "Status" = some (want ++ " " ++ flag ++ " " ++ state)
  versioned : state = "installed" →
    ∃ version, stanza.get "Version" = some version ∧ (debVersion version).isSome

variable {debVersion}

namespace DpkgStanza

/-- The package and the version that the stanza has installed. -/
def installed (d : DpkgStanza debVersion) : Option (String × String) :=
  if d.state = "installed" then (d.stanza.get "Version").map fun version => (d.name, version)
  else none

/-- The stanza says that this version of the package is installed. -/
def Installs (d : DpkgStanza debVersion) (name version : String) : Prop :=
  d.installed = some (name, version)

end DpkgStanza

def printStatus (stanzas : List (DpkgStanza debVersion)) (ends : Nat) : List Char :=
  printStanzas (stanzas.map DpkgStanza.stanza) ends

/-! ## What is kept -/

/-- What the loop takes from a package. -/
def ParsedPackage.installed (pkg : ParsedPackage) : Option (String × String) :=
  if pkg.statusOk then pkg.version.map fun version => (pkg.name, version) else none

theorem addInstalled_eq (out : Fields) (pkg : ParsedPackage) :
    addInstalled debVersion out pkg = match pkg.installed with
      | some item => RunningBest.keepAt (isNewer debVersion · ·) out item.1 item.2
      | none => out := by
  unfold addInstalled ParsedPackage.installed RunningBest.keepAt
  by_cases hstatus : pkg.statusOk
  · cases hversion : pkg.version with
    | none => simp
    | some version => cases hlookup : out.lookup pkg.name <;> simp [hstatus, hlookup]
  · simp [hstatus]

theorem parseInstalledFromStatus_eq (text : List Char) :
    parseInstalledFromStatus debVersion text =
      ((parseControlFile text).filterMap ParsedPackage.installed).foldl
        (fun out item => RunningBest.keepAt (isNewer debVersion · ·) out item.1 item.2) ∅ := by
  unfold parseInstalledFromStatus
  rw [List.foldl_filterMap]
  congr 1
  funext out pkg
  rw [addInstalled_eq]
  cases pkg.installed <;> rfl

namespace DpkgStanza

omit [LinearOrder V]

variable (d : DpkgStanza debVersion)

theorem splitWhitespace_status :
    splitWhitespace (d.want ++ " " ++ d.flag ++ " " ++ d.state).toList =
      [d.want.toList, d.flag.toList, d.state.toList] := by
  have htext : (d.want ++ " " ++ d.flag ++ " " ++ d.state).toList =
      [' '].intercalate [d.want.toList, d.flag.toList, d.state.toList] := by
    simp [List.intercalate]
  rw [htext, splitWhitespace_intercalate]
  simpa [IsWord] using d.words

theorem statusOk {pkg : ParsedPackage} (h : pkg.status = d.stanza.get "Status") :
    pkg.statusOk = decide (d.state = "installed") := by
  simp only [ParsedPackage.statusOk, h, d.status, d.splitWhitespace_status]
  simp [d.wanted, d.flagged]

/-- The parser takes from the stanza what it has installed. -/
theorem package_installed : d.stanza.package.bind ParsedPackage.installed = d.installed := by
  rw [Stanza.package, d.named, Option.map_some, Option.bind_some, ParsedPackage.installed,
    d.statusOk rfl, installed]
  simp

end DpkgStanza

/-- The version of the package in what is parsed of the printed stanzas. -/
def currentVersion (stanzas : List (DpkgStanza debVersion)) (ends : Nat) (name : String) :
    Option String :=
  (parseInstalledFromStatus debVersion (printStatus stanzas ends)).lookup name

theorem currentVersion_eq (stanzas : List (DpkgStanza debVersion)) (ends : Nat) (name : String) :
    currentVersion stanzas ends name = RunningBest.best (isNewer debVersion · ·)
      (stanzas.filterMap fun d => (d.installed.filter (·.1 = name)).map Prod.snd) := by
  have hreadable : ∀ s ∈ stanzas.map DpkgStanza.stanza, s.Readable := by
    intro s hs
    obtain ⟨d, -, rfl⟩ := List.mem_map.mp hs
    exact d.readable
  have hitems : (stanzas.map DpkgStanza.stanza).filterMap
      (fun s => s.package.bind ParsedPackage.installed) =
        stanzas.filterMap DpkgStanza.installed := by
    rw [List.filterMap_map]
    exact List.filterMap_congr fun d _ => d.package_installed
  rw [currentVersion, parseInstalledFromStatus_eq, printStatus,
    parseControlFile_printStanzas hreadable, List.filterMap_filterMap, hitems,
    RunningBest.lookup_foldl_keepAt, List.filter_filterMap, List.map_filterMap]

/-! ## The newest -/

theorem isNewer_iff {new old : String} (hnew : (debVersion new).isSome)
    (hold : (debVersion old).isSome) :
    isNewer debVersion new old ↔ rank debVersion old < rank debVersion new := by
  obtain ⟨n, hn⟩ := Option.isSome_iff_exists.mp hnew
  obtain ⟨o, ho⟩ := Option.isSome_iff_exists.mp hold
  simp only [isNewer, rank, hn, ho, decide_eq_true_eq]
  exact WithBot.coe_lt_coe.symm

omit [LinearOrder V] in
theorem DpkgStanza.installs_iff {d : DpkgStanza debVersion} {name version : String} :
    d.Installs name version ↔
      (d.installed.filter (·.1 = name)).map Prod.snd = some version := by
  unfold DpkgStanza.Installs
  cases d.installed with
  | none => simp
  | some item =>
    by_cases hname : item.1 = name
    · simp [Option.filter, hname, Prod.ext_iff]
    · simp [Option.filter, hname, Prod.ext_iff]

omit [LinearOrder V] in
theorem DpkgStanza.Installs.isSome {d : DpkgStanza debVersion} {name version : String}
    (h : d.Installs name version) : (debVersion version).isSome := by
  unfold DpkgStanza.Installs DpkgStanza.installed at h
  split at h
  · next hstate =>
    obtain ⟨version', hversion, hsome⟩ := d.versioned hstate
    obtain ⟨-, rfl⟩ : d.name = name ∧ version' = version := by simpa [hversion] using h
    exact hsome
  · cases h

/-- The version is the highest that is installed of the package, as the first stanza with it
    spells it. -/
def FirstHighest (stanzas : List (DpkgStanza debVersion)) (name version : String) : Prop :=
  ∃ before d after, stanzas = before ++ d :: after ∧ d.Installs name version ∧
    (∀ d' ∈ before, ∀ v, d'.Installs name v → rank debVersion v < rank debVersion version) ∧
    ∀ d' ∈ after, ∀ v, d'.Installs name v → rank debVersion v ≤ rank debVersion version

theorem FirstHighest.le {stanzas : List (DpkgStanza debVersion)} {name version v : String}
    (h : FirstHighest stanzas name version) {d : DpkgStanza debVersion} (hd : d ∈ stanzas)
    (hv : d.Installs name v) : rank debVersion v ≤ rank debVersion version := by
  obtain ⟨before, first, after, rfl, hfirst, hbefore, hafter⟩ := h
  rcases List.mem_append.mp hd with hd | hd
  · exact (hbefore d hd v hv).le
  · rcases List.mem_cons.mp hd with rfl | hd
    · have hsame : some (name, v) = some (name, version) := hv.symm.trans hfirst
      obtain rfl : v = version := by simpa using hsame
      exact le_rfl
    · exact hafter d hd v hv

theorem FirstHighest.installs {stanzas : List (DpkgStanza debVersion)} {name version : String}
    (h : FirstHighest stanzas name version) : ∃ d ∈ stanzas, d.Installs name version := by
  obtain ⟨before, d, after, rfl, hd, -⟩ := h
  exact ⟨d, by simp, hd⟩

theorem currentVersion_eq_none_iff (stanzas : List (DpkgStanza debVersion)) (ends : Nat)
    (name : String) : currentVersion stanzas ends name = none ↔
      ∀ d ∈ stanzas, ∀ version, ¬ d.Installs name version := by
  rw [currentVersion_eq, RunningBest.best_eq_none, List.filterMap_eq_nil_iff]
  refine forall₂_congr fun d _ => ?_
  rw [Option.eq_none_iff_forall_ne_some]
  exact forall_congr' fun version => not_congr DpkgStanza.installs_iff.symm

theorem firstHighest_of_currentVersion {stanzas : List (DpkgStanza debVersion)} {ends : Nat}
    {name version : String} (h : currentVersion stanzas ends name = some version) :
    FirstHighest stanzas name version := by
  rw [currentVersion_eq] at h
  have hsome : ∀ v ∈ stanzas.filterMap fun d => (d.installed.filter (·.1 = name)).map Prod.snd,
      (debVersion v).isSome := by
    intro v hv
    obtain ⟨d, -, hd⟩ := List.mem_filterMap.mp hv
    exact (DpkgStanza.installs_iff.mpr hd).isSome
  obtain ⟨before, after, hsplit, hbefore, hafter⟩ := RunningBest.best_split _ (rank debVersion)
    (fun c hc d hd => isNewer_iff (hsome c hc) (hsome d hd)) h
  -- the versions come from the stanzas in their order
  obtain ⟨front, back, rfl, rfl, hback⟩ := List.filterMap_eq_append_iff.mp hsplit
  obtain ⟨skipped, d, after', rfl, hskipped, hd, rfl⟩ := List.filterMap_eq_cons_iff.mp hback
  refine ⟨front ++ skipped, d, after', by simp, DpkgStanza.installs_iff.mpr hd, ?_, ?_⟩
  · intro d' hd' v hv
    rw [DpkgStanza.installs_iff] at hv
    rcases List.mem_append.mp hd' with hd' | hd'
    · exact hbefore v (List.mem_filterMap.mpr ⟨d', hd', hv⟩)
    · rw [hskipped d' hd'] at hv
      cases hv
  · intro d' hd' v hv
    rw [DpkgStanza.installs_iff] at hv
    exact hafter v (List.mem_filterMap.mpr ⟨d', hd', hv⟩)

/-- **What dpkg has installed.**  A package is in the map when a stanza has it installed; its
    version is the highest among those stanzas, spelled as in the first of them that has it.
    Another order of the stanzas, and another end of the file, give the same version in Debian's
    order, and the same text where equal versions are spelled alike. -/
theorem installed_highest (stanzas : List (DpkgStanza debVersion)) (ends : Nat) (name : String) :
    (currentVersion stanzas ends name = none ↔
      ∀ d ∈ stanzas, ∀ version, ¬ d.Installs name version) ∧
    (∀ version, currentVersion stanzas ends name = some version →
      FirstHighest stanzas name version) ∧
    ∀ stanzas' ends', stanzas.Perm stanzas' →
      (currentVersion stanzas' ends' name).map (rank debVersion) =
        (currentVersion stanzas ends name).map (rank debVersion) ∧
      ((∀ d ∈ stanzas, ∀ d' ∈ stanzas, ∀ v v', d.Installs name v → d'.Installs name v' →
          rank debVersion v = rank debVersion v' → v = v') →
        currentVersion stanzas' ends' name = currentVersion stanzas ends name) := by
  refine ⟨currentVersion_eq_none_iff stanzas ends name,
    fun _ => firstHighest_of_currentVersion, ?_⟩
  intro stanzas' ends' hperm
  cases hversion : currentVersion stanzas ends name with
  | none =>
    have hnone := (currentVersion_eq_none_iff stanzas ends name).mp hversion
    have hnone' : currentVersion stanzas' ends' name = none :=
      (currentVersion_eq_none_iff stanzas' ends' name).mpr fun d hd =>
        hnone d (hperm.mem_iff.mpr hd)
    exact ⟨by rw [hnone'], fun _ => hnone'⟩
  | some v =>
    have hfirst := firstHighest_of_currentVersion hversion
    obtain ⟨d, hd, hinstalls⟩ := hfirst.installs
    cases hversion' : currentVersion stanzas' ends' name with
    | none =>
      have hnone' := (currentVersion_eq_none_iff stanzas' ends' name).mp hversion'
      exact absurd hinstalls (hnone' d (hperm.mem_iff.mp hd) v)
    | some v' =>
      have hfirst' := firstHighest_of_currentVersion hversion'
      obtain ⟨d', hd', hinstalls'⟩ := hfirst'.installs
      rw [← hperm.mem_iff] at hd'
      -- each is highest in both orders
      have hrank : rank debVersion v' = rank debVersion v :=
        le_antisymm (hfirst.le hd' hinstalls') (hfirst'.le (hperm.mem_iff.mp hd) hinstalls)
      exact ⟨by simp [hrank], fun hspelled =>
        congrArg some (hspelled d' hd' d hd v' v hinstalls' hinstalls hrank)⟩

/-- Debian takes a revision that is missing for `0`. -/
def spelledTwice : String → Option Nat
  | "1.0" | "1.0-0" => some 1
  | _ => none

def libc6Fields (architecture version : String) : List ControlField :=
  [⟨"Package", "libc6", []⟩, ⟨"Status", "install ok installed", []⟩,
    ⟨"Architecture", architecture, []⟩, ⟨"Version", version, []⟩]

def libc6 (architecture version : String)
    (hwf : ∀ f ∈ libc6Fields architecture version, f.WellFormed)
    (hversion : (spelledTwice version).isSome) : DpkgStanza spelledTwice where
  stanza :=
    { fields := libc6Fields architecture version
      nonempty := List.cons_ne_nil _ _
      distinct := by simp [libc6Fields]
      wellFormed := hwf }
  readable := ⟨by simp [Stanza.Simple, libc6Fields], by simp [Stanza.Simple, libc6Fields],
    by simp [Stanza.Simple, libc6Fields], by simp [Stanza.Simple, libc6Fields]⟩
  name := "libc6"
  named := rfl
  want := "install"
  flag := "ok"
  state := "installed"
  words := by decide +kernel
  wanted := by decide
  flagged := by decide
  status := rfl
  versioned := fun _ => ⟨version, rfl, hversion⟩

/-- Two stanzas with one version in two spellings: the first one's is kept. -/
def libc6Stanzas : List (DpkgStanza spelledTwice) :=
  [libc6 "amd64" "1.0" (by decide +kernel) rfl, libc6 "i386" "1.0-0" (by decide +kernel) rfl]

theorem libc6_spelling : libc6Stanzas.Perm libc6Stanzas.reverse ∧
    currentVersion libc6Stanzas 1 "libc6" = some "1.0" ∧
    currentVersion libc6Stanzas.reverse 1 "libc6" = some "1.0-0" := by
  refine ⟨(List.reverse_perm _).symm, ?_, ?_⟩
  · rw [currentVersion_eq]
    decide +kernel
  · rw [currentVersion_eq]
    decide +kernel

end Bosun
