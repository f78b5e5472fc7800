import Bosun.AptKey

/-!
# What an `apt.key` apply leaves behind

The keyring is replaced before its fingerprint is checked, so a check that fails, or is not
made any more, comes too late.  `Unchecked` collects what it takes, and
`fingerprint_gate_iff` says that the gate holds in all other cases.
-/

namespace Bosun

open FileTree

/-! ## The write -/

/-- The calls up to the rename go through. -/
structure Persists (env : FileEnv) (nodes : Nodes Bytes) (place : List String) : Prop where
  named : place ≠ []
  calls : ∀ op ∈ [FileOp.createDirAll, .tempfile, .writeAll, .syncAll, .persist],
    env.fault op place = none
  open_way : blocked nodes place.tail = false
  no_dir : isDirectory (nodeAt nodes place) = false

theorem keyCall_cases (env : FileEnv) (op : FileOp) (place : List String) (context : String) :
    env.fault op place = none ∧ keyCall env op place context = .ok () ∨
      env.fault op place ≠ none ∧ ∃ e, keyCall env op place context = .error e := by
  cases h : env.fault op place with
  | none => exact .inl ⟨rfl, by rw [keyCall, h]⟩
  | some e => exact .inr ⟨by simp, _, by rw [keyCall, h]⟩

theorem makeKeyringDir_cases (env : FileEnv) (place parent : List String) (nodes : Nodes Bytes) :
    (¬ (env.fault .createDirAll place = none ∧ blocked nodes parent = false) ∧
        (makeKeyringDir env place parent).Fails nodes nodes) ∨
      env.fault .createDirAll place = none ∧ blocked nodes parent = false ∧
        makeKeyringDir env place parent nodes = .ok () (mkdirs parent nodes) := by
  rcases keyCall_cases env .createDirAll place ("create_dir_all " ++ render parent) with
    ⟨hnone, hcall⟩ | ⟨hsome, e, hcall⟩
  · cases hblocked : blocked nodes parent with
    | true => exact .inl ⟨by simp, _, by simp [makeKeyringDir, hcall, hblocked]; rfl⟩
    | false => exact .inr ⟨hnone, rfl, by simp [makeKeyringDir, hcall, hblocked]⟩
  · exact .inl ⟨fun h => hsome h.1, e, by simp [makeKeyringDir, hcall]⟩

theorem stageKeyring_cases (env : FileEnv) (place parent : List String) :
    (∃ op ∈ [FileOp.tempfile, .writeAll, .syncAll], env.fault op place ≠ none) ∧
        (∃ e, stageKeyring env place parent = .error e) ∨
      (∀ op ∈ [FileOp.tempfile, .writeAll, .syncAll], env.fault op place = none) ∧
        stageKeyring env place parent = .ok () := by
  rcases keyCall_cases env .tempfile place ("tempfile in " ++ render parent) with
    ⟨htemp, htempCall⟩ | ⟨htemp, e, htempCall⟩
  · rcases keyCall_cases env .writeAll place "write keyring tmp" with
      ⟨hwrite, hwriteCall⟩ | ⟨hwrite, e, hwriteCall⟩
    · rcases keyCall_cases env .syncAll place "fsync keyring tmp" with
        ⟨hsync, hsyncCall⟩ | ⟨hsync, e, hsyncCall⟩
      · right
        simp [htemp, hwrite, hsync, stageKeyring, htempCall, hwriteCall, hsyncCall, bind,
          Except.bind]
      · left
        exact ⟨⟨_, by simp, hsync⟩, e,
          by simp [stageKeyring, htempCall, hwriteCall, hsyncCall, bind, Except.bind]⟩
    · left
      exact ⟨⟨_, by simp, hwrite⟩, e,
        by simp [stageKeyring, htempCall, hwriteCall, bind, Except.bind]⟩
  · left
    exact ⟨⟨_, by simp, htemp⟩, e, by simp [stageKeyring, htempCall, bind, Except.bind]⟩

theorem persistKeyring_cases (env : FileEnv) (path : String) (data : Bytes) (nodes : Nodes Bytes) :
    (¬ (env.fault .persist (placeOf path) = none ∧
          isDirectory (nodeAt nodes (placeOf path)) = false) ∧
        (persistKeyring env path data).Fails nodes nodes) ∨
      env.fault .persist (placeOf path) = none ∧
        isDirectory (nodeAt nodes (placeOf path)) = false ∧
        persistKeyring env path data nodes = .ok () (nodes.insert (placeOf path)
          (.file ⟨data, 0o600, env.euid, env.egid⟩)) := by
  rcases keyCall_cases env .persist (placeOf path) ("persist " ++ path) with
    ⟨hnone, hcall⟩ | ⟨hsome, e, hcall⟩
  · cases hdir : isDirectory (nodeAt nodes (placeOf path)) with
    | true => exact .inl ⟨by simp, _, by simp [persistKeyring, hcall, hdir]; rfl⟩
    | false => exact .inr ⟨hnone, rfl, by simp [persistKeyring, hcall, hdir]⟩
  · exact .inl ⟨fun h => hsome h.1, e, by simp [persistKeyring, hcall]⟩

theorem keyringAt_insert {nodes : Nodes Bytes} {path : String} {f : RegularFile Bytes}
    (h : placeOf path ≠ []) :
    keyringAt (nodes.insert (placeOf path) (.file f)) path = some f.bytes := by
  rw [keyringAt, nodeAt_insert_self h]

/-- Nothing is replaced, or the new keyring stands in its place, with its permissions or
    without. -/
theorem writeKeyring_cases (env : FileEnv) (path : String) (data : Bytes) (nodes : Nodes Bytes) :
    (¬ Persists env nodes (placeOf path) ∧ ∃ nodes', OnlyParents (placeOf path) nodes nodes' ∧
        (writeKeyringAtomic env path data).Fails nodes nodes') ∨
      Persists env nodes (placeOf path) ∧ ∃ nodes', keyringAt nodes' path = some data ∧
        (env.fault .setPermissions (placeOf path) ≠ none ∧
            (writeKeyringAtomic env path data).Fails nodes nodes' ∨
          env.fault .setPermissions (placeOf path) = none ∧
            writeKeyringAtomic env path data nodes = .ok () nodes') := by
  cases hplace : placeOf path with
  | nil =>
    left
    exact ⟨fun h => h.named rfl, nodes, .inl rfl, _, by simp [writeKeyringAtomic, hplace]; rfl⟩
  | cons name parent =>
    have heq : writeKeyringAtomic env path data = (do
        makeKeyringDir env (name :: parent) parent
        FileM.ofExcept (stageKeyring env (name :: parent) parent)
        persistKeyring env path data
        chmodKeyring env path data) := by
      simp only [writeKeyringAtomic, hplace]
    rw [heq]
    rcases makeKeyringDir_cases env (name :: parent) parent nodes with
      ⟨hnot, hfails⟩ | ⟨hmk, hopen, hmade⟩
    · left
      refine ⟨fun h => hnot ⟨h.calls _ (by simp), h.open_way⟩, nodes, .inl rfl, hfails.bind _⟩
    have honly : OnlyParents (name :: parent) nodes (mkdirs parent nodes) := .inr rfl
    rcases stageKeyring_cases env (name :: parent) parent with
      ⟨⟨op, hop, hfault⟩, e, hstage⟩ | ⟨hcalls, hstage⟩
    · left
      refine ⟨fun h => hfault (h.calls op ?_), _, honly, .after hmade ?_⟩
      · simp only [List.mem_cons, List.not_mem_nil, or_false] at hop ⊢
        tauto
      · rw [hstage]
        exact FileM.Fails.bind ⟨e, rfl⟩ _
    have hsame : nodeAt (mkdirs parent nodes) (name :: parent) = nodeAt nodes (name :: parent) :=
      honly.target_eq
    rcases persistKeyring_cases env path data (mkdirs parent nodes) with
      ⟨hnot, hfails⟩ | ⟨hpersist, hdir, hplaced⟩
    · rw [hplace, hsame] at hnot
      left
      refine ⟨fun h => hnot ⟨h.calls _ (by simp), h.no_dir⟩, _, honly, .after hmade ?_⟩
      rw [hstage]
      exact .after (FileM.ofExcept_ok () _) (hfails.bind _)
    rw [hplace, hsame] at hdir
    rw [hplace] at hpersist
    right
    refine ⟨⟨List.cons_ne_nil _ _, ?_, hopen, hdir⟩, ?_⟩
    · intro op hop
      simp only [List.mem_cons, List.not_mem_nil, or_false] at hop
      rcases hop with rfl | rfl | rfl | rfl | rfl
      · exact hmk
      · exact hcalls _ (by simp)
      · exact hcalls _ (by simp)
      · exact hcalls _ (by simp)
      · exact hpersist
    · have hroot : placeOf path ≠ [] := by simp [hplace]
      let bare : RegularFile Bytes := ⟨data, 0o600, env.euid, env.egid⟩
      let ready : RegularFile Bytes := ⟨data, KEYRING_MODE, env.euid, env.egid⟩
      let installed := (mkdirs parent nodes).insert (placeOf path) (.file bare)
      have hrest : ∀ x : FileM Bytes Unit, (do
          FileM.ofExcept (stageKeyring env (name :: parent) parent)
          persistKeyring env path data
          x) (mkdirs parent nodes) = x installed := by
        intro x
        rw [hstage, FileM.bind_ok (FileM.ofExcept_ok () _), FileM.bind_ok hplaced]
      rcases keyCall_cases env .setPermissions (placeOf path) ("set_permissions " ++ path) with
        ⟨hnone, hcall⟩ | ⟨hsome, e, hcall⟩
      · refine ⟨installed.insert (placeOf path) (.file ready), keyringAt_insert hroot,
          .inr ⟨by rw [← hplace, hnone], ?_⟩⟩
        rw [FileM.bind_ok hmade, hrest]
        simp [chmodKeyring, hcall, ready]
      · refine ⟨installed, keyringAt_insert hroot, .inl ⟨by rw [← hplace]; exact hsome, e, ?_⟩⟩
        rw [FileM.bind_ok hmade, hrest]
        simp [chmodKeyring, hcall]

/-! ## The gate -/

/-- An apply of a spec with a fingerprint. -/
structure GatedApply {P : Type} (aptKeySpec : P → Except String AptKeySpec) where
  resource : Resource P
  spec : AptKeySpec
  decodes : aptKeySpec resource.payload = .ok spec
  expected : String
  gated : spec.fingerprint = some expected
  diff : Diff P
  pastDeadline : Bool
  backend : AptKeyBackend
  env : FileEnv

namespace GatedApply

variable {P : Type} {aptKeySpec : P → Except String AptKeySpec} (a : GatedApply aptKeySpec)
  (nodes : Nodes Bytes)

def path : String := a.spec.effectiveKeyringPath

/-- The files and the record when the apply has returned, `Ok` or `Err`. -/
def leaves : KeyState :=
  match aptKeyRun a.backend a.env aptKeySpec a.resource a.diff a.pastDeadline ⟨nodes, []⟩ with
  | .ok _ s => s
  | .error _ s => s

/-- The keyring holds what it held, or content that has passed the check; a key that is to be
    absent may be gone. -/
def GateHolds : Prop :=
  let before := keyringAt nodes a.path
  let after := keyringAt (a.leaves nodes).nodes a.path
  after = before ∨ (∃ content ∈ (a.leaves nodes).verified, after = some content) ∨
    a.spec.state = .absent ∧ after = none

/-- The apply goes on to install. -/
structure Installs : Prop where
  asked : a.diff ≠ .noChange
  checked : validateSourceCombination a.spec = .ok ()
  in_time : a.pastDeadline = false
  present : a.spec.state = .present

/-- gpg is asked about the installed keyring, and gives the expected answer. -/
def Passes (data : Bytes) : Prop :=
  a.env.fault .setPermissions (placeOf a.path) = none ∧
    ∃ actual, a.backend.fingerprintOf .verify a.path (some data) = .ok actual ∧
      normalizeFingerprint actual = normalizeFingerprint a.expected

/-- Other data than before takes the place of the keyring and does not pass. -/
structure Unchecked (data : Bytes) : Prop where
  installs : a.Installs
  outdated : alreadyInstalled a.backend a.env a.spec a.path nodes = .ok false
  obtained : keyringBytes a.backend a.spec = .ok data
  persists : Persists a.env nodes (placeOf a.path)
  other : keyringAt nodes a.path ≠ some data
  fails : ¬ a.Passes data

theorem removeKey_cases (env : FileEnv) (spec : AptKeySpec) (path : String) :
    (∃ err, removeKey env spec path ⟨nodes, []⟩ = .error err ⟨nodes, []⟩) ∨
      removeKey env spec path ⟨nodes, []⟩ = .ok .noChange ⟨nodes, []⟩ ∨
      ∃ report, removeKey env spec path ⟨nodes, []⟩ =
        .ok report ⟨nodes.erase (placeOf path), []⟩ := by
  cases hnode : nodeAt nodes (placeOf path) with
  | none => exact .inr (.inl (by simp [removeKey, hnode]))
  | some node =>
    cases hcall : env.call .removeFile (placeOf path) ("remove apt key " ++ path) with
    | error e => exact .inl ⟨e, by simp [removeKey, hnode, hcall]⟩
    | ok _ =>
      cases hdir : isDirectory (some node) with
      | true => exact .inl ⟨.io ("remove apt key " ++ path) "Is a directory",
          by simp [removeKey, hnode, hcall, hdir]⟩
      | false => exact .inr (.inr ⟨.ofChanged ("removed apt key " ++ spec.name ++ " at " ++ path),
          by simp [removeKey, hnode, hcall, hdir]; rfl⟩)

theorem keyringAt_erase (path : String) : keyringAt (nodes.erase (placeOf path)) path = none := by
  unfold keyringAt nodeAt
  by_cases hroot : placeOf path = []
  · rw [if_pos hroot]
  · rw [if_neg hroot, AList.lookup_erase]

theorem gateHolds_of_same (h : a.leaves nodes = ⟨nodes, []⟩) : a.GateHolds nodes := by
  left
  rw [h]

/-- An apply that does not install leaves the keyring alone or removes it. -/
theorem of_not_installs (h : ¬ a.Installs) : a.GateHolds nodes := by
  cases hdiff : a.diff with
  | noChange =>
    apply gateHolds_of_same
    simp [leaves, aptKeyRun, hdiff]
  | _ =>
    cases hvalid : validateSourceCombination a.spec with
    | error e =>
      apply gateHolds_of_same
      simp [leaves, aptKeyRun, hdiff, a.decodes, aptKeyRunSpec, hvalid]
    | ok _ =>
      cases hlate : a.pastDeadline with
      | true =>
        apply gateHolds_of_same
        simp [leaves, aptKeyRun, hdiff, a.decodes, aptKeyRunSpec, hvalid, hlate]
      | false =>
        cases hstate : a.spec.state with
        | present => exact absurd ⟨by simp [hdiff], hvalid, hlate, hstate⟩ h
        | absent =>
          have hrun : a.leaves nodes = match (if keyringExists a.env .exists nodes a.path then
              removeKey a.env a.spec a.path else return .noChange) ⟨nodes, []⟩ with
              | .ok _ s => s
              | .error _ s => s := by
            simp only [leaves, aptKeyRun, hdiff, a.decodes, aptKeyRunSpec, hvalid, hlate, hstate,
              KeyM.bind_apply, KeyM.ofExcept_ok, decideKeyAction, path]
            by_cases hfound : keyringExists a.env .exists nodes a.spec.effectiveKeyringPath = true
            · simp [hfound]
            · simp [hfound]
          by_cases hfound : keyringExists a.env .exists nodes a.path = true
          · rw [if_pos hfound] at hrun
            rcases removeKey_cases nodes a.env a.spec a.path with ⟨err, hsame⟩ | hsame | hgone
            · rw [hsame] at hrun
              exact gateHolds_of_same a nodes hrun
            · rw [hsame] at hrun
              exact gateHolds_of_same a nodes hrun
            · obtain ⟨report, hgone⟩ := hgone
              rw [hgone] at hrun
              refine .inr (.inr ⟨hstate, ?_⟩)
              rw [hrun]
              exact keyringAt_erase nodes a.path
          · rw [if_neg hfound] at hrun
            exact gateHolds_of_same a nodes hrun

/-- An apply that installs is the installation. -/
theorem leaves_of_installs (h : a.Installs) : a.leaves nodes =
    match installKey a.backend a.env a.spec a.path ⟨nodes, []⟩ with
    | .ok _ s => s
    | .error _ s => s := by
  have hrun : aptKeyRun a.backend a.env aptKeySpec a.resource a.diff a.pastDeadline ⟨nodes, []⟩ =
      installKey a.backend a.env a.spec a.path ⟨nodes, []⟩ := by
    have hasked := h.asked
    cases hdiff : a.diff with
    | noChange => exact absurd hdiff hasked
    | _ =>
      simp [aptKeyRun, a.decodes, aptKeyRunSpec, h.checked, h.in_time, h.present,
        decideKeyAction, a.gated, path]
  rw [leaves, hrun]

/-- New data that has not passed: the gate holds only if it was there before. -/
theorem gate_of_unverified {data : Bytes} {nodes' : Nodes Bytes} (hinstalls : a.Installs)
    (houtdated : alreadyInstalled a.backend a.env a.spec a.path nodes = .ok false)
    (hobtained : keyringBytes a.backend a.spec = .ok data)
    (hpersists : Persists a.env nodes (placeOf a.path)) (hnew : keyringAt nodes' a.path = some data)
    (hleft : a.leaves nodes = ⟨nodes', []⟩) (hfails : ¬ a.Passes data) :
    a.GateHolds nodes ↔ ¬ ∃ data, a.Unchecked nodes data := by
  have hgate : a.GateHolds nodes ↔ keyringAt nodes a.path = some data := by
    simp [GateHolds, hleft, hnew, eq_comm]
  rw [hgate]
  constructor
  · rintro hbefore ⟨data', h⟩
    have hobtained' := h.obtained
    rw [hobtained] at hobtained'
    cases hobtained'
    exact h.other hbefore
  · intro h
    by_contra hbefore
    exact h ⟨data, hinstalls, houtdated, hobtained, hpersists, hbefore, hfails⟩

/-- **The gate.**  For every keyring, download, answer of gpg and failing call: what an apply with a
    fingerprint leaves at the keyring's path is what was there or has passed the check, if and
    only if no other data took its place without passing. -/
theorem fingerprint_gate_iff : a.GateHolds nodes ↔ ¬ ∃ data, a.Unchecked nodes data := by
  by_cases hinstalls : a.Installs
  swap
  · exact iff_of_true (a.of_not_installs nodes hinstalls) fun ⟨_, h⟩ => hinstalls h.installs
  have hrun := a.leaves_of_installs nodes hinstalls
  cases houtdated : alreadyInstalled a.backend a.env a.spec a.path nodes with
  | error e =>
    have hsame : a.leaves nodes = ⟨nodes, []⟩ := by simpa [installKey, houtdated] using hrun
    exact iff_of_true (a.gateHolds_of_same nodes hsame) fun ⟨_, h⟩ => by
      simp [h.outdated] at houtdated
  | ok found =>
    cases found with
    | true =>
      have hsame : a.leaves nodes = ⟨nodes, []⟩ := by simpa [installKey, houtdated] using hrun
      exact iff_of_true (a.gateHolds_of_same nodes hsame) fun ⟨_, h⟩ => by
        simp [h.outdated] at houtdated
    | false =>
      cases hobtained : keyringBytes a.backend a.spec with
      | error e =>
        have hsame : a.leaves nodes = ⟨nodes, []⟩ := by
          simpa [installKey, houtdated, hobtained] using hrun
        exact iff_of_true (a.gateHolds_of_same nodes hsame) fun ⟨_, h⟩ => by
          simp [h.obtained] at hobtained
      | ok data =>
        rcases writeKeyring_cases a.env a.path data nodes with
          ⟨hnot, nodes', honly, err, hwrite⟩ | ⟨hpersists, nodes', hnew, hwrite⟩
        · -- nothing is replaced
          have hleft : a.leaves nodes = ⟨nodes', []⟩ := by
            simpa [installKey, houtdated, hobtained, hwrite] using hrun
          refine iff_of_true (.inl ?_) fun ⟨_, h⟩ => hnot h.persists
          rw [hleft]
          simp only [keyringAt, honly.target_eq]
        · rcases hwrite with ⟨hchmod, err, hwrite⟩ | ⟨hchmod, hwrite⟩
          · -- the check is not made any more
            have hleft : a.leaves nodes = ⟨nodes', []⟩ := by
              simpa [installKey, houtdated, hobtained, hwrite] using hrun
            exact a.gate_of_unverified nodes hinstalls houtdated hobtained hpersists hnew hleft
              fun h => hchmod h.1
          · cases hanswer : a.backend.fingerprintOf .verify a.path (some data) with
            | error e =>
              have hleft : a.leaves nodes = ⟨nodes', []⟩ := by
                simpa [installKey, houtdated, hobtained, hwrite, verifyKeyring, a.gated, hnew,
                  hanswer, Except.mapError] using hrun
              exact a.gate_of_unverified nodes hinstalls houtdated hobtained hpersists hnew hleft
                fun ⟨_, actual, h, _⟩ => by simp [hanswer] at h
            | ok actual =>
              by_cases hequal : normalizeFingerprint actual = normalizeFingerprint a.expected
              · have hleft : a.leaves nodes = ⟨nodes', [data]⟩ := by
                  rw [hrun]
                  simp [installKey, houtdated, hobtained, hwrite, verifyKeyring, a.gated, hnew,
                    hanswer, Except.mapError, hequal, KeyM.passed]
                  rfl
                refine iff_of_true (.inr (.inl ⟨data, ?_, ?_⟩)) fun ⟨data', h⟩ => ?_
                · rw [hleft]
                  exact List.mem_singleton_self data
                · rw [hleft]
                  exact hnew
                · have hobtained' := h.obtained
                  rw [hobtained] at hobtained'
                  cases hobtained'
                  exact h.fails ⟨hchmod, actual, hanswer, hequal⟩
              · have hleft : a.leaves nodes = ⟨nodes', []⟩ := by
                  simpa [installKey, houtdated, hobtained, hwrite, verifyKeyring, a.gated, hnew,
                    hanswer, Except.mapError, hequal] using hrun
                refine a.gate_of_unverified nodes hinstalls houtdated hobtained hpersists hnew hleft
                  fun ⟨_, actual', h, h'⟩ => ?_
                rw [hanswer] at h
                cases h
                exact hequal h'

/-- The mirror answers with a key of its own. -/
def hijacked : GatedApply (Except.ok (ε := String)) :=
  let spec : AptKeySpec := ⟨"pg", .present, some "https://mirror/key", none, some "AB12", none⟩
  { resource := ⟨⟨"apt.key:pg"⟩, ⟨"apt.key"⟩, 1, spec, [], [], []⟩
    spec := spec
    decodes := rfl
    expected := "AB12"
    gated := rfl
    diff := .add "install" spec
    pastDeadline := false
    backend := ⟨fun _ => .ok [0x99], .ok, fun _ _ => .ok "fpr:::::::::CD34:"⟩
    env := .calm }

/-- The apply fails, and the key that did not pass is the keyring now. -/
theorem hijacked_keyring_stays : ¬ hijacked.GateHolds ∅ := by
  intro h
  have hafter : keyringAt (hijacked.leaves ∅).nodes hijacked.path = some [0x99] := by
    decide +kernel
  have hverified : (hijacked.leaves ∅).verified = [] := by decide +kernel
  rcases h with hsame | ⟨content, hcontent, -⟩ | ⟨habsent, -⟩
  · rw [hafter] at hsame
    revert hsame
    decide +kernel
  · rw [hverified] at hcontent
    cases hcontent
  · cases habsent

end GatedApply

end Bosun
