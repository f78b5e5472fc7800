import Bosun.FileWrites

/-!
# Whether `file.content` converges

The mode is set before the owner, and on Linux a new owner takes the setuid bit away, and from a
file that its group may execute the setgid bit too.  Where a file is written, `second_plan_iff`
says that the next plan is content exactly when that does not happen.
-/

namespace Bosun

section Matches

variable {P : Type} {tools : FileTools P} {env : FileEnv} {spec : FileContentSpec}

theorem matchesSpec_iff {obs : FileObservation} : matchesSpec env spec obs = .ok true ↔
    (obs.sha256Hex = spec.contentSha256 ∧ obs.size = spec.contentSize) ∧
      obs.mode &&& 0o7777 = spec.mode &&& 0o7777 ∧
      matchesId env.resolveOwner obs.uid spec.owner = .ok true ∧
      matchesId env.resolveGroup obs.gid spec.group = .ok true := by
  unfold matchesSpec
  by_cases hcontent : obs.sha256Hex = spec.contentSha256 ∧ obs.size = spec.contentSize
  · have hsame : ¬ (obs.sha256Hex ≠ spec.contentSha256 ∨ obs.size ≠ spec.contentSize) := by
      rw [not_or, not_not, not_not]
      exact hcontent
    by_cases hmode : obs.mode &&& 0o7777 = spec.mode &&& 0o7777
    · cases howner : matchesId env.resolveOwner obs.uid spec.owner with
      | error e => simp [hsame, hmode, bind, Except.bind]
      | ok owner => cases owner <;> simp [hcontent, hmode, bind, Except.bind, pure, Except.pure]
    · simp [hsame, hmode, pure, Except.pure]
  · have hdiffer : obs.sha256Hex ≠ spec.contentSha256 ∨ obs.size ≠ spec.contentSize := by
      rwa [not_and_or] at hcontent
    simp [hdiffer, hcontent, pure, Except.pure]

/-- No call fails; names resolve as before. -/
def FileEnv.quiet (env : FileEnv) : FileEnv := { env with fault := fun _ _ => none }

/-- A plan that meets no failure is content with a file that matches, and only with one. -/
theorem filePlan_quiet {resource : Resource P} {nodes : Nodes Bytes} {f : RegularFile Bytes}
    (hspec : tools.fileSpec resource.payload = .ok spec) (hvalid : spec.validate = .ok ())
    (hfile : nodeAt nodes spec.target = some (.file f)) :
    filePlan tools env.quiet resource nodes = .ok .noChange ↔
      matchesSpec env spec (tools.observation f) = .ok true := by
  have hstat : statTarget env.quiet spec "" nodes = .ok (some f) := by
    rw [statTarget, hfile]
    rfl
  have hobserve : observeExisting tools env.quiet spec f = .ok (tools.observation f) := rfl
  have hmatches : matchesSpec env.quiet spec = matchesSpec env spec := rfl
  rw [filePlan, hspec]
  simp only [hvalid, hstat, hobserve, hmatches, bind, Except.bind]
  cases matchesSpec env spec (tools.observation f) with
  | error e => simp
  | ok same => cases same <;> simp [pure, Except.pure]

theorem matchesSpec_of_upToDate {existing : Option (RegularFile Bytes)}
    (h : upToDate tools env spec existing = .ok true) :
    ∃ f, existing = some f ∧ matchesSpec env spec (tools.observation f) = .ok true := by
  cases existing with
  | none => cases h
  | some f =>
    refine ⟨f, rfl, ?_⟩
    cases hread : env.call .read spec.target ("read " ++ spec.path ++ " for plan") with
    | error e => simp [upToDate, observeExisting, hread, bind, Except.bind] at h
    | ok _ =>
      simpa [upToDate, observeExisting, hread, bind, Except.bind, pure, Except.pure] using h

end Matches

/-! ## What `chown` leaves of the mode -/

/-- `chown` takes no bit away from this mode. -/
def SurvivesChown (mode : Nat) : Prop :=
  mode &&& 0o4000 = 0 ∧ (mode &&& 0o2000 = 0 ∨ mode &&& 0o010 = 0)

/-- A mode of which only `kept` is left is whole if it has nothing of what is lost. -/
theorem and_kept_iff {kept : Nat} (lost : Nat) (hall : 0o7777 = kept ||| lost)
    (hkept : kept &&& lost = 0) (hin : 0o7777 &&& kept &&& 0o7777 = kept) (hlost : 0o7777 &&& lost = lost) (mode : Nat) :
    (mode &&& 0o7777) &&& kept &&& 0o7777 = mode &&& 0o7777 ↔ mode &&& lost = 0 := by
  have hleft : (mode &&& 0o7777) &&& kept &&& 0o7777 = mode &&& kept := by
    rw [Nat.and_assoc, Nat.and_assoc, ← Nat.and_assoc 0o7777, hin]
  rw [hleft]
  constructor
  · intro h
    have hspecial := congrArg (· &&& lost) h
    simpa [Nat.and_assoc, hkept, hlost] using hspecial.symm
  · intro h
    rw [hall, Nat.and_or_distrib_left, h, Nat.or_zero]

/-- A file with the bits of `mode` keeps them under its new owner just when the mode survives it or
    the owner is not new. -/
theorem owned_mode_iff {B : Type} (bytes : B) (mode uid gid uid' gid' : Nat) :
    (RegularFile.owned ⟨bytes, mode &&& 0o7777, uid, gid⟩ uid' gid').mode &&& 0o7777 &&& 0o7777 =
        mode &&& 0o7777 ↔ SurvivesChown mode ∨ uid = uid' ∧ gid = gid' := by
  have hgroup : (mode &&& 0o7777) &&& 0o010 = mode &&& 0o010 := by
    rw [Nat.and_assoc]
    rfl
  have hidem : ∀ n : Nat, n &&& 0o7777 &&& 0o7777 = n &&& 0o7777 := by
    intro n
    rw [Nat.and_assoc]
    rfl
  rw [hidem, RegularFile.owned]
  by_cases hids : uid = uid' ∧ gid = gid'
  · simp [hids, hidem]
  · rw [if_neg hids, RegularFile.chown]
    dsimp only
    rw [hgroup, SurvivesChown]
    by_cases hnone : mode &&& 0o010 = 0
    · rw [if_pos hnone, and_kept_iff 0o4000 rfl rfl rfl rfl]
      simp [hnone, hids]
    · have hboth : mode &&& 0o6000 = 0 ↔ mode &&& 0o4000 = 0 ∧ mode &&& 0o2000 = 0 := by
        rw [show 0o6000 = 0o4000 ||| 0o2000 from rfl, Nat.and_or_distrib_left, Nat.or_eq_zero_iff]
      rw [if_neg hnone, and_kept_iff 0o6000 rfl rfl rfl rfl, hboth]
      simp [hnone, hids]

/-! ## The second plan -/

def fileAt (nodes : Nodes Bytes) (place : List String) : Option (RegularFile Bytes) :=
  match nodeAt nodes place with
  | some (.file f) => some f
  | _ => none

/-- The wanted ids are those the process gives a new file. -/
def KeepsIds (env : FileEnv) (spec : FileContentSpec) (existing : Option (RegularFile Bytes)) :
    Prop :=
  (wantId env.resolveOwner (existing.map (·.uid)) spec.owner = .ok none ∨
    wantId env.resolveOwner (existing.map (·.uid)) spec.owner = .ok (some env.euid)) ∧
  (wantId env.resolveGroup (existing.map (·.gid)) spec.group = .ok none ∨
    wantId env.resolveGroup (existing.map (·.gid)) spec.group = .ok (some env.egid))

/-- There is nothing to write, or no setuid or setgid bit is lost by the write. -/
def KeepsSpecialBits {P : Type} (tools : FileTools P) (env : FileEnv) (spec : FileContentSpec)
    (existing : Option (RegularFile Bytes)) : Prop :=
  upToDate tools env spec existing = .ok true ∨ SurvivesChown spec.mode ∨
    KeepsIds env spec existing

section Convergence

variable {P : Type} {tools : FileTools P} {env : FileEnv} {spec : FileContentSpec}

theorem getD_eq_iff (id : Nat) (wanted : Option Nat) : id = wanted.getD id ↔
    (.ok wanted : Except PrimitiveError (Option Nat)) = .ok none ∨
      (.ok wanted : Except PrimitiveError (Option Nat)) = .ok (some id) := by
  cases wanted with
  | none => simp
  | some other => simp [eq_comm]

/-- The id of the staged file is the one the spec names. -/
theorem matchesId_wantId {resolve : String → Except PrimitiveError Nat} {existing : Option Nat}
    {name : Option String} {wanted : Option Nat} (h : wantId resolve existing name = .ok wanted)
    (own : Nat) : matchesId resolve (wanted.getD own) name = .ok true := by
  cases name with
  | none => rfl
  | some name =>
    cases hresolve : resolve name with
    | error e => simp [wantId, hresolve, Except.map] at h
    | ok id =>
      simp only [wantId, hresolve, Except.map, Except.ok.injEq] at h
      subst h
      simp [matchesId, hresolve, Except.map]

theorem owned_uid {B : Type} (f : RegularFile B) (uid gid : Nat) :
    (f.owned uid gid).uid = uid ∧ (f.owned uid gid).gid = gid ∧
      (f.owned uid gid).bytes = f.bytes := by
  unfold RegularFile.owned
  by_cases hids : f.uid = uid ∧ f.gid = gid
  · rw [if_pos hids]
    exact ⟨hids.1, hids.2, rfl⟩
  · rw [if_neg hids]
    exact ⟨rfl, rfl, rfl⟩

/-- The staged file matches up to its mode. -/
theorem staged_matches_iff {contents : Bytes} {existing : Option (RegularFile Bytes)}
    {place : List String} {note : String} {f : RegularFile Bytes}
    (hsha : tools.sha256Hex contents = spec.contentSha256)
    (hsize : spec.contentSize = contents.length)
    (hstage : stageTemp env (fileInstall env spec contents existing place note) = .ok f) :
    matchesSpec env spec (tools.observation f) = .ok true ↔
      SurvivesChown spec.mode ∨ KeepsIds env spec existing := by
  obtain ⟨uid, gid, huid, hgid, hf⟩ := stageTemp_ok hstage
  obtain ⟨hfuid, hfgid, hbytes⟩ := owned_uid
    (⟨contents, spec.mode &&& 0o7777, env.euid, env.egid⟩ : RegularFile Bytes)
    (uid.getD env.euid) (gid.getD env.egid)
  have howner := matchesId_wantId huid env.euid
  have hgroup := matchesId_wantId hgid env.egid
  have hmode := owned_mode_iff contents spec.mode env.euid env.egid (uid.getD env.euid)
    (gid.getD env.egid)
  have hobserved : tools.observation f = ⟨spec.contentSha256, spec.contentSize,
      f.mode &&& 0o7777, uid.getD env.euid, gid.getD env.egid⟩ := by
    rw [hf, FileTools.observation]
    dsimp only [fileInstall]
    rw [hfuid, hfgid, hbytes, hsha, hsize]
  rw [matchesSpec_iff, hobserved]
  simp only [howner, hgroup, and_self, true_and, and_true]
  have huid' : wantId env.resolveOwner (existing.map (·.uid)) spec.owner = .ok uid := huid
  have hgid' : wantId env.resolveGroup (existing.map (·.gid)) spec.group = .ok gid := hgid
  rw [hf, KeepsIds, huid', hgid', ← getD_eq_iff, ← getD_eq_iff]
  exact hmode

/-- **When an apply converges.**  After an apply that succeeds, a plan made at once finds nothing
    to do exactly when the apply had nothing to write, or the wanted mode survives `chown`, or the
    file is to have the ids of the process. -/
theorem second_plan_iff {resource : Resource P} {backupRoot : List String} {now : UtcTime}
    {contents : Bytes} {report : ChangeReport} {nodes nodes' : Nodes Bytes}
    (hspec : tools.fileSpec resource.payload = .ok spec)
    (hsize : spec.contentSize = contents.length)
    (h : fileApply tools env backupRoot now resource (some contents) nodes = .ok report nodes') :
    filePlan tools env.quiet resource nodes' = .ok .noChange ↔
      KeepsSpecialBits tools env spec (fileAt nodes spec.target) := by
  rcases applySpec_cases tools env backupRoot now spec (some contents) nodes with
    ⟨err, nodes₂, herr, -⟩ | ⟨contents', existing, hvalid, hcheck, htarget, hrun⟩
  · simp [fileApply, hspec, herr] at h
  have hexisting : fileAt nodes spec.target = existing := by
    rw [fileAt, htarget]
    cases existing <;> rfl
  rw [hexisting]
  have hsha : tools.sha256Hex contents = spec.contentSha256 ∧ contents' = contents := by
    by_cases hsame : tools.sha256Hex contents = spec.contentSha256
    · simp only [checkContents, hsame, if_true, Except.ok.injEq] at hcheck
      exact ⟨hsame, hcheck.symm⟩
    · simp [checkContents, hsame] at hcheck
  obtain ⟨hsha, rfl⟩ := hsha
  rcases hrun with ⟨hcurrent, hrun⟩ | ⟨hstale, nodes₂, hrun, hreplaced⟩
  · -- nothing is written, and what is there matches
    have hnodes : nodes' = nodes := by
      simp only [fileApply, hspec, hrun, FileM.bind_apply] at h
      cases h
      rfl
    obtain ⟨f, rfl, hmatches⟩ := matchesSpec_of_upToDate hcurrent
    rw [hnodes, filePlan_quiet hspec hvalid htarget]
    exact iff_of_true hmatches (.inl hcurrent)
  · have hnodes : nodes' = nodes₂ := by
      simp only [fileApply, hspec, hrun, FileM.bind_apply] at h
      cases h
      rfl
    obtain ⟨f, place, note, hstage, hfile⟩ := hreplaced.stands
    rw [hnodes, filePlan_quiet hspec hvalid hfile, staged_matches_iff hsha hsize hstage,
      KeepsSpecialBits, hstale]
    simp

end Convergence

/-! ## A setuid program -/

/-- The digests of the two contents that occur. -/
def sampleDigest (bytes : Bytes) : String :=
  if bytes = [] then "e3b0c44298fc1c149afbf4c8996fb92427ae41e4649b934ca495991b7852b855"
  else if bytes = [97, 98, 99] then
    "ba7816bf8f01cfea414140de5dae2223b00361a396177a9cb410ff61f20015ad"
  else ""

/-- One spec, and a validator that takes everything. -/
def sampleTools (spec : FileContentSpec) : FileTools Unit where
  fileSpec _ := .ok spec
  observed _ := ()
  wanted _ := ()
  sha256Hex := sampleDigest
  validator _ _ := .ok ()

def abcSpec (mode : Nat) : FileContentSpec where
  path := "/tool"
  mode := mode
  owner := none
  group := none
  contentSha256 := "ba7816bf8f01cfea414140de5dae2223b00361a396177a9cb410ff61f20015ad"
  contentSize := 3
  validateWith := none

def toolResource : Resource Unit where
  id := ⟨"file.content:/tool"⟩
  kind := ⟨"file.content"⟩
  specVersion := 1
  payload := ()
  reloadOn := []
  restartOn := []
  dependsOn := []

/-- `/tool`, executable for all, of somebody who is not root. -/
def toolNodes : Nodes Bytes :=
  AList.insert ["tool"] (.file ⟨[97, 98, 99], 0o755, 1000, 1000⟩) ∅

/-- An apply by root. -/
def applyTool (mode : Nat) : FileM Bytes ChangeReport :=
  fileApply (sampleTools (abcSpec mode)) .calm ["backups"] (noonOn 20) toolResource
    (some [97, 98, 99])

def toolReport : ChangeReport := .ofChanged
  "wrote /tool (sha256=ba7816bf8f01cfea414140de5dae2223b00361a396177a9cb410ff61f20015ad)"

/-- A setgid bit without the right of the group to execute stays. -/
theorem second_plan_setgid :
    filePlan (sampleTools (abcSpec 0o2744)) FileEnv.calm.quiet toolResource
        ((applyTool 0o2744).leaves toolNodes) = .ok .noChange ↔
      KeepsSpecialBits (sampleTools (abcSpec 0o2744)) .calm (abcSpec 0o2744)
        (fileAt toolNodes (abcSpec 0o2744).target) :=
  second_plan_iff rfl rfl (FileM.ok_of_value? (a := toolReport) (by decide +kernel))

/-- The setuid bit that is asked for never comes, and every plan asks for it again. -/
theorem setuid_never_settles :
    applyTool 0o4755 toolNodes = .ok toolReport ((applyTool 0o4755).leaves toolNodes) ∧
    filePlan (sampleTools (abcSpec 0o4755)) FileEnv.calm.quiet toolResource
      ((applyTool 0o4755).leaves toolNodes) ≠ .ok .noChange := by
  refine ⟨FileM.ok_of_value? (by decide +kernel), fun hplan => ?_⟩
  have hfile : nodeAt ((applyTool 0o4755).leaves toolNodes) (abcSpec 0o4755).target =
      some (.file ⟨[97, 98, 99], 0o755, 1000, 1000⟩) := by decide +kernel
  rw [filePlan_quiet rfl rfl hfile, matchesSpec_iff] at hplan
  exact absurd hplan.2.1 (by decide)

end Bosun
