import Bosun.CertTls

/-!
# Pairs of a key and a certificate

Whether the key and the certificate on disk come from one generation, over any sequence of
applies for the same two files.  An apply that fails between its two writes leaves a new key
beside the old certificate, and where that certificate can be read some spec is content with
it.  `pairs_settle_iff` says that nothing else can go wrong.
-/

namespace Bosun

open FileTree

/-! ## Places of checked paths -/

/-- An absolute path without `..` is its names. -/
theorem components_of_absolute {path : String} (habsolute : isAbsolute path = true)
    (hparent : .parentDir ∉ components path) :
    components path = .rootDir :: (placeOf path).reverse.map .normal := by
  have hnormal : ∀ segs : List String, PathComponent.parentDir ∉ segs.filterMap component →
      segs.filterMap component =
        ((segs.filterMap component).filterMap PathComponent.name).map .normal := by
    intro segs
    induction segs with
    | nil => simp
    | cons seg segs ih =>
      intro h
      by_cases hempty : seg = "" ∨ seg = "."
      · have hnone : component seg = none := by simp [component, hempty]
        rw [List.filterMap_cons_none hnone] at h ⊢
        exact ih h
      · by_cases hup : seg = ".."
        · subst hup
          have hsome : component ".." = some .parentDir := by decide
          rw [List.filterMap_cons_some hsome] at h
          exact absurd List.mem_cons_self h
        · have hsome : component seg = some (.normal seg) := by simp [component, hempty, hup]
          rw [List.filterMap_cons_some hsome] at h ⊢
          have hrest := ih fun hmem => h (List.mem_cons_of_mem _ hmem)
          rw [List.filterMap_cons_some (f := PathComponent.name) (b := seg) rfl, List.map_cons,
            ← hrest]
  have hsplit : components path = .rootDir :: (segments path).filterMap component := by
    simp [components, habsolute]
  rw [hsplit] at hparent
  have hsegs := hnormal (segments path) fun h => hparent (List.mem_cons_of_mem _ h)
  rw [placeOf, hsplit, List.reverse_reverse, List.filterMap_cons_none rfl, ← hsegs]

theorem validatePath_ok {field path : String} (h : validatePath field path = .ok ()) :
    components path = .rootDir :: (placeOf path).reverse.map .normal := by
  unfold validatePath at h
  by_cases hnul : hasNul path = true
  · simp [hnul] at h
  · by_cases habsolute : isAbsolute path = true
    · by_cases hparent : .parentDir ∈ components path
      · simp [hnul, habsolute, hparent] at h
      · exact components_of_absolute habsolute hparent
    · simp [hnul, habsolute] at h

/-- The two files of a spec that passes its check are different files. -/
theorem CertTlsSpec.places_ne {spec : CertTlsSpec} (h : spec.validate = .ok ()) :
    placeOf spec.keyPath ≠ placeOf spec.certPath := by
  unfold CertTlsSpec.validate at h
  cases hcert : validatePath "cert.tls.cert_path" spec.certPath with
  | error e => simp [hcert, bind, Except.bind] at h
  | ok _ =>
    cases hkey : validatePath "cert.tls.key_path" spec.keyPath with
    | error e => simp [hcert, hkey, bind, Except.bind] at h
    | ok _ =>
      intro heq
      have hsame : components spec.certPath = components spec.keyPath := by
        rw [validatePath_ok hcert, validatePath_ok hkey, heq]
      simp [hcert, hkey, hsame, bind, Except.bind, throw, throwThe, MonadExceptOf.throw] at h

/-! ## What is on disk -/

/-- The contents of a regular file. -/
def pemAt (nodes : Nodes PemFile) (path : String) : Option PemFile :=
  match nodeAt nodes (placeOf path) with
  | some (.file f) => some f.bytes
  | _ => none

theorem pemAt_of_onlyParents {target : List String} {nodes nodes' : Nodes PemFile}
    (h : OnlyParents target nodes nodes') (path : String) :
    pemAt nodes' path = pemAt nodes path := by
  unfold pemAt
  cases hnode : nodeAt nodes (placeOf path) with
  | some node => rw [h.of_some hnode]
  | none => rcases h.of_none hnode with hnone | hdir <;> simp [*]

theorem pemAt_insert_self {nodes : Nodes PemFile} {path : String} {f : RegularFile PemFile}
    (h : placeOf path ≠ []) :
    pemAt (nodes.insert (placeOf path) (.file f)) path = some f.bytes := by
  rw [pemAt, nodeAt_insert_self h]

theorem pemAt_insert_ne {nodes : Nodes PemFile} {place : List String} {path : String}
    {f : RegularFile PemFile} (h : placeOf path ≠ place) :
    pemAt (nodes.insert place (.file f)) path = pemAt nodes path := by
  rw [pemAt, nodeAt_insert_ne h, pemAt]

/-- The files and the number of generations so far. -/
structure CertDisk where
  nodes : Nodes PemFile
  generations : Nat

section Pairs

variable {P : Type} (certSpec : P → Except String CertTlsSpec) (tools : CertTools)
  (certPath keyPath : String)

namespace CertDisk

/-- The key and the certificate on disk come from the same generation. -/
def Matched (s : CertDisk) : Prop :=
  ∃ key cert g, pemAt s.nodes keyPath = some key ∧ pemAt s.nodes certPath = some cert ∧
    key.generation = some g ∧ cert.generation = some g

/-- Whenever the plan of some spec for these files answers `NoChange`, they are a pair. -/
def Settles (s : CertDisk) : Prop :=
  ∀ (spec : CertTlsSpec) (env : FileEnv) (now : Int), spec.certPath = certPath →
    spec.keyPath = keyPath → decideActionCert tools env spec now s.nodes = .ok .noChange →
    s.Matched certPath keyPath

/-- There is a certificate, and it can be read. -/
def Readable (s : CertDisk) : Prop :=
  ∃ cert parsed, pemAt s.nodes certPath = some cert ∧ parseCert tools cert.text = .ok parsed

/-- Neither file comes from a generation that is still to come. -/
def Fresh (s : CertDisk) : Prop :=
  ∀ path file g, path = keyPath ∨ path = certPath → pemAt s.nodes path = some file →
    file.generation = some g → g < s.generations

/-- The files are missing, or form a pair produced by one generation. -/
def Starts (s : CertDisk) : Prop :=
  s.Fresh certPath keyPath ∧
    (nodeAt s.nodes (placeOf keyPath) = none ∨ nodeAt s.nodes (placeOf certPath) = none ∨
      s.Matched certPath keyPath)

/-- A plan that answers `NoChange` has found a key and has read the certificate. -/
theorem of_noChange {spec : CertTlsSpec} {env : FileEnv} {now : Int} {nodes : Nodes PemFile}
    (h : decideActionCert tools env spec now nodes = .ok .noChange) :
    ∃ key cert parsed, pemAt nodes spec.keyPath = some key ∧
      pemAt nodes spec.certPath = some cert ∧ parseCert tools cert.text = .ok parsed := by
  unfold decideActionCert at h
  simp only [bind, Except.bind] at h
  split at h
  · cases h
  split at h
  · cases h
  cases hcert : nodeAt nodes (placeOf spec.certPath) with
  | none => simp [hcert, pure, Except.pure] at h
  | some cert =>
    cases hkey : nodeAt nodes (placeOf spec.keyPath) with
    | none => simp [hcert, hkey, pure, Except.pure] at h
    | some key =>
      simp only [hcert, hkey] at h
      cases cert with
      | file cert =>
        cases key with
        | file key =>
          simp only [requireRegular] at h
          split at h
          · cases h
          cases hparse : parseCert tools cert.bytes.text with
          | error reason => simp [hparse, pure, Except.pure] at h
          | ok parsed =>
            exact ⟨key.bytes, cert.bytes, parsed, by simp [pemAt, hkey], by simp [pemAt, hcert],
              hparse⟩
        | _ => simp [requireRegular] at h
      | _ => simp [requireRegular] at h

/-- Some spec is content with any certificate that can be read. -/
theorem exists_noChange {nodes : Nodes PemFile} {key cert : PemFile} {parsed : ParsedCert}
    (hkey : pemAt nodes keyPath = some key) (hcert : pemAt nodes certPath = some cert)
    (hparse : parseCert tools cert.text = .ok parsed) :
    ∃ (spec : CertTlsSpec) (env : FileEnv) (now : Int), spec.certPath = certPath ∧
      spec.keyPath = keyPath ∧ decideActionCert tools env spec now nodes = .ok .noChange := by
  let spec : CertTlsSpec := ⟨certPath, keyPath, parsed.commonName, .rsa2048, 3650, 0, none, none,
    0o644, 0o600, []⟩
  have hparsed : decideParsed spec parsed.notAfterUnix parsed = .noChange := by
    simp [decideParsed, spec]
  refine ⟨spec, .calm, parsed.notAfterUnix, rfl, rfl, ?_⟩
  unfold pemAt at hkey hcert
  split at hkey
  · rename_i keyFile hkeyNode
    split at hcert
    · rename_i certFile hcertNode
      obtain rfl := Option.some.inj hcert
      simp only [decideActionCert, FileEnv.call, FileEnv.calm, spec, hkeyNode, hcertNode,
        requireRegular, hparse, bind, Except.bind, pure, Except.pure, Except.ok.injEq]
      exact hparsed
    · cases hcert
  · cases hkey

/-- What settling comes to. -/
theorem settles_iff (s : CertDisk) : s.Settles tools certPath keyPath ↔
    ∀ key cert, pemAt s.nodes keyPath = some key → pemAt s.nodes certPath = some cert →
      (∃ parsed, parseCert tools cert.text = .ok parsed) → s.Matched certPath keyPath := by
  constructor
  · intro h key cert hkey hcert ⟨parsed, hparse⟩
    obtain ⟨spec, env, now, hspecCert, hspecKey, hdecide⟩ :=
      exists_noChange tools certPath keyPath hkey hcert hparse
    exact h spec env now hspecCert hspecKey hdecide
  · intro h spec env now hspecCert hspecKey hdecide
    obtain ⟨key, cert, parsed, hkey, hcert, hparse⟩ := of_noChange tools hdecide
    rw [hspecKey] at hkey
    rw [hspecCert] at hcert
    exact h key cert hkey hcert ⟨parsed, hparse⟩

end CertDisk

/-! ## One apply -/

/-- An apply of some spec for the two files.  The clock is read twice. -/
structure CertRun where
  resource : Resource P
  spec : CertTlsSpec
  decodes : certSpec resource.payload = .ok spec
  certPath_eq : spec.certPath = certPath
  keyPath_eq : spec.keyPath = keyPath
  diff : Diff P
  env : FileEnv
  now : Int
  nowOt : Int

namespace CertRun

variable {certSpec certPath keyPath}

def after (run : CertRun certSpec certPath keyPath) (s : CertDisk) : CertDisk where
  nodes := FileM.leaves (certApply certSpec tools run.env run.resource run.diff run.now run.nowOt
    s.generations) s.nodes
  generations := s.generations + 1

/-- The apply starts to write, and this is what. -/
def Writes (run : CertRun certSpec certPath keyPath) (s : CertDisk) (pair : GeneratedCert)
    (owner group : Option Nat) : Prop :=
  run.spec.validate = .ok () ∧ run.diff ≠ .noChange ∧ ∃ reason,
    preparePair tools run.env run.spec run.now run.nowOt s.generations s.nodes =
      .ok (some (pair, reason, owner, group))

/-- The key is replaced, the certificate is not, and there is one that can be read. -/
def Torn (run : CertRun certSpec certPath keyPath) (s : CertDisk) : Prop :=
  ∃ pair owner group, run.Writes tools s pair owner group ∧
    (∃ nodes, installFile run.env "cert.tls: " (pemInstall run.spec.keyPath pair.keyPem
        s.generations run.spec.modeKey owner group) s.nodes = .ok () nodes ∧
      ∃ err nodes', installFile run.env "cert.tls: " (pemInstall run.spec.certPath pair.certPem
        s.generations run.spec.modeCert owner group) nodes = .error err nodes') ∧
    s.Readable tools certPath

/-- An apply writes, or it leaves everything as it is. -/
theorem after_cases (run : CertRun certSpec certPath keyPath) (s : CertDisk) :
    (¬ ∃ pair owner group, run.Writes tools s pair owner group) ∧
        (run.after tools s).nodes = s.nodes ∨
      ∃ pair owner group, run.Writes tools s pair owner group ∧ (run.after tools s).nodes =
        FileM.leaves (writePair run.env run.spec pair s.generations owner group) s.nodes := by
  unfold after FileM.leaves certApply
  simp only [run.decodes, bind, EStateM.bind]
  cases hvalid : run.spec.validate with
  | error e =>
    left
    refine ⟨?_, rfl⟩
    rintro ⟨_, _, _, hchecked, _⟩
    simp [hvalid] at hchecked
  | ok _ =>
    cases hdiff : run.diff with
    | noChange =>
      left
      refine ⟨?_, rfl⟩
      rintro ⟨_, _, _, hwrites⟩
      exact hwrites.2.1 hdiff
    | _ =>
      have hget : (get : FileM PemFile (Nodes PemFile)) s.nodes = .ok s.nodes s.nodes := rfl
      simp only [FileM.ofExcept, EStateM.bind, pure, EStateM.pure, hget]
      cases hprepare : preparePair tools run.env run.spec run.now run.nowOt s.generations
        s.nodes with
      | error e =>
        left
        refine ⟨?_, rfl⟩
        rintro ⟨_, _, _, _, _, _, h⟩
        simp [hprepare] at h
      | ok todo =>
        cases todo with
        | none =>
          left
          refine ⟨?_, rfl⟩
          rintro ⟨_, _, _, _, _, _, h⟩
          simp [hprepare] at h
        | some todo =>
          obtain ⟨pair, reason, owner, group⟩ := todo
          right
          refine ⟨pair, owner, group, ⟨hvalid, by simp [hdiff], reason, hprepare⟩, ?_⟩
          simp only [EStateM.pure, EStateM.bind]
          cases writePair run.env run.spec pair s.generations owner group s.nodes <;> rfl

/-- What an apply writes is settled before it does. -/
theorem Writes.unique {run : CertRun certSpec certPath keyPath} {s : CertDisk}
    {pair pair' : GeneratedCert} {owner owner' group group' : Option Nat}
    (h : run.Writes tools s pair owner group) (h' : run.Writes tools s pair' owner' group') :
    pair = pair' ∧ owner = owner' ∧ group = group' := by
  obtain ⟨-, -, reason, hprepare⟩ := h
  obtain ⟨-, -, reason', hprepare'⟩ := h'
  rw [hprepare] at hprepare'
  cases hprepare'
  exact ⟨rfl, rfl, rfl⟩

/-- The two writes: the key fails, the certificate fails, or both are in place. -/
theorem writePair_cases {env : FileEnv} {spec : CertTlsSpec} {pair : GeneratedCert}
    {generation : Nat} {owner group : Option Nat} (hvalid : spec.validate = .ok ())
    (nodes : Nodes PemFile) :
    let left := FileM.leaves (writePair env spec pair generation owner group) nodes
    let keyInstall := pemInstall spec.keyPath pair.keyPem generation spec.modeKey owner group
    let certInstall := pemInstall spec.certPath pair.certPem generation spec.modeCert owner group
    (∀ path, pemAt left path = pemAt nodes path) ∧
        (∃ err nodes', installFile env "cert.tls: " keyInstall nodes = .error err nodes') ∨
      pemAt left spec.keyPath = some ⟨pair.keyPem, some generation⟩ ∧
        (∃ nodes', installFile env "cert.tls: " keyInstall nodes = .ok () nodes' ∧
          (pemAt left spec.certPath = pemAt nodes spec.certPath ∧
              (∃ err nodes'', installFile env "cert.tls: " certInstall nodes' =
                .error err nodes'') ∨
            pemAt left spec.certPath = some ⟨pair.certPem, some generation⟩ ∧
              ∃ nodes'', installFile env "cert.tls: " certInstall nodes' = .ok () nodes'')) := by
  intro left keyInstall certInstall
  have hne := CertTlsSpec.places_ne hvalid
  rcases installFile_cases env "cert.tls: " keyInstall nodes with
    ⟨err, nodes', honly, hkey⟩ | ⟨f, nodes', hroot, honly, hstage, hkey⟩
  · left
    have hleft : left = nodes' := FileM.leaves_bind_error hkey
    refine ⟨fun path => ?_, err, nodes', hkey⟩
    rw [hleft]
    exact pemAt_of_onlyParents honly path
  · right
    let nodes₁ : Nodes PemFile := nodes'.insert (placeOf spec.keyPath) (.file f)
    have hkeyAt : pemAt nodes₁ spec.keyPath = some ⟨pair.keyPem, some generation⟩ := by
      rw [pemAt_insert_self hroot, stageTemp_bytes hstage]
      rfl
    have hcertAt : pemAt nodes₁ spec.certPath = pemAt nodes spec.certPath := by
      rw [pemAt_insert_ne hne.symm, pemAt_of_onlyParents honly]
    rcases installFile_cases env "cert.tls: " certInstall nodes₁ with
      ⟨err, nodes₂, honly₂, hcert⟩ | ⟨f₂, nodes₂, hroot₂, honly₂, hstage₂, hcert⟩
    · have hleft : left = nodes₂ :=
        (FileM.leaves_bind_ok hkey).trans (FileM.leaves_error hcert)
      refine ⟨?_, nodes₁, hkey, .inl ⟨?_, err, nodes₂, hcert⟩⟩
      · rw [hleft, pemAt_of_onlyParents honly₂, hkeyAt]
      · rw [hleft, pemAt_of_onlyParents honly₂, hcertAt]
    · have hleft : left = nodes₂.insert (placeOf spec.certPath) (.file f₂) :=
        (FileM.leaves_bind_ok hkey).trans (FileM.leaves_ok hcert)
      refine ⟨?_, nodes₁, hkey, .inr ⟨?_, _, hcert⟩⟩
      · rw [hleft, pemAt_insert_ne hne, pemAt_of_onlyParents honly₂, hkeyAt]
      · rw [hleft, pemAt_insert_self hroot₂, stageTemp_bytes hstage₂]
        rfl

/-- Either of the two files was there before an apply, or comes from its generation. -/
theorem pemAt_after (run : CertRun certSpec certPath keyPath) (s : CertDisk) {path : String}
    (hpath : path = keyPath ∨ path = certPath) {file : PemFile}
    (h : pemAt (run.after tools s).nodes path = some file) :
    pemAt s.nodes path = some file ∨ file.generation = some s.generations := by
  rcases after_cases tools run s with ⟨-, hsame⟩ | ⟨pair, owner, group, hwrites, hleft⟩
  · rw [hsame] at h
    exact .inl h
  · rw [hleft] at h
    rcases writePair_cases hwrites.1 s.nodes with ⟨hsame, -⟩ | ⟨hkey, nodes', -, hcert⟩
    · rw [hsame] at h
      exact .inl h
    · rw [run.keyPath_eq] at hkey
      rw [run.certPath_eq] at hcert
      rcases hpath with rfl | rfl
      · rw [hkey] at h
        cases h
        exact .inr rfl
      · rcases hcert with ⟨hsame, -⟩ | ⟨hnew, -⟩
        · rw [hsame] at h
          exact .inl h
        · rw [hnew] at h
          cases h
          exact .inr rfl

theorem fresh_after (run : CertRun certSpec certPath keyPath) {s : CertDisk}
    (h : s.Fresh certPath keyPath) : (run.after tools s).Fresh certPath keyPath := by
  intro path file g hpath hfile hg
  show g < s.generations + 1
  rcases pemAt_after tools run s hpath hfile with hbefore | hnew
  · have hlt := h path file g hpath hbefore hg
    omega
  · rw [hnew] at hg
    cases hg
    omega

/-- Whether files settle is a matter of the two files. -/
theorem settles_congr {s s' : CertDisk} (hkey : pemAt s'.nodes keyPath = pemAt s.nodes keyPath)
    (hcert : pemAt s'.nodes certPath = pemAt s.nodes certPath) :
    s'.Settles tools certPath keyPath ↔ s.Settles tools certPath keyPath := by
  simp only [CertDisk.settles_iff, CertDisk.Matched, hkey, hcert]

/-- The step: an apply to files that settle leaves files that settle exactly when it is not torn
    over a certificate that can be read. -/
theorem settles_after_iff (run : CertRun certSpec certPath keyPath) {s : CertDisk}
    (hfresh : s.Fresh certPath keyPath) (hsettles : s.Settles tools certPath keyPath) :
    (run.after tools s).Settles tools certPath keyPath ↔ ¬ run.Torn tools s := by
  rcases after_cases tools run s with ⟨hidle, hsame⟩ | ⟨pair, owner, group, hwrites, hleft⟩
  · -- nothing is written
    have hnot : ¬ run.Torn tools s := fun ⟨pair, owner, group, hwrites, _⟩ =>
      hidle ⟨pair, owner, group, hwrites⟩
    have hafter : (run.after tools s).Settles tools certPath keyPath := by
      rw [settles_congr tools (congrArg (pemAt · keyPath) hsame)
        (congrArg (pemAt · certPath) hsame)]
      exact hsettles
    exact iff_of_true hafter hnot
  · rcases writePair_cases hwrites.1 s.nodes with
      ⟨hsame, err, nodes', hkeyFails⟩ | ⟨hkey, nodes', hkeyWritten, hcert⟩
    · -- the key stays as it was
      have hnot : ¬ run.Torn tools s := by
        rintro ⟨pair', owner', group', hwrites', ⟨_, hwritten, -⟩, -⟩
        obtain ⟨rfl, rfl, rfl⟩ := hwrites.unique tools hwrites'
        rw [hkeyFails] at hwritten
        cases hwritten
      have hafter : (run.after tools s).Settles tools certPath keyPath := by
        apply (settles_congr tools _ _).mpr hsettles
        · rw [hleft, hsame]
        · rw [hleft, hsame]
      exact iff_of_true hafter hnot
    · rw [← hleft, run.keyPath_eq] at hkey
      rw [← hleft] at hcert
      rcases hcert with ⟨hcertSame, err, nodes'', hcertFails⟩ | ⟨hcertNew, nodes'', hcertWritten⟩
      · -- a new key beside the old certificate
        rw [run.certPath_eq] at hcertSame
        constructor
        · rintro hafter ⟨-, -, -, -, -, cert, parsed, hcertAt, hparse⟩
          rw [CertDisk.settles_iff] at hafter
          obtain ⟨key, cert', g, hkeyAt, hcertAt', hkeyGen, hcertGen⟩ :=
            hafter _ cert hkey (by rw [hcertSame, hcertAt]) ⟨parsed, hparse⟩
          rw [hkey] at hkeyAt
          rw [hcertSame, hcertAt] at hcertAt'
          cases hkeyAt
          cases hcertAt'
          cases hkeyGen
          have hlt := hfresh certPath cert s.generations (.inr rfl) hcertAt hcertGen
          omega
        · intro hnot
          rw [CertDisk.settles_iff]
          rintro key cert - hcertAt ⟨parsed, hparse⟩
          rw [hcertSame] at hcertAt
          have htorn : run.Torn tools s := ⟨pair, owner, group, hwrites,
            ⟨nodes', hkeyWritten, err, nodes'', hcertFails⟩, cert, parsed, hcertAt, hparse⟩
          exact absurd htorn hnot
      · -- both are in place
        rw [run.certPath_eq] at hcertNew
        have hnot : ¬ run.Torn tools s := by
          rintro ⟨pair', owner', group', hwrites', ⟨nodes₁, hwritten, err, nodes₂, hfails⟩, -⟩
          obtain ⟨rfl, rfl, rfl⟩ := hwrites.unique tools hwrites'
          rw [hkeyWritten] at hwritten
          cases hwritten
          rw [hcertWritten] at hfails
          cases hfails
        have hafter : (run.after tools s).Settles tools certPath keyPath :=
          fun _ _ _ _ _ _ => ⟨_, _, s.generations, hkey, hcertNew, rfl, rfl⟩
        exact iff_of_true hafter hnot

end CertRun

end Pairs

/-! ## One pair -/

namespace CertRun

/-- Certificates that are their own text up to the name. -/
def plainTools : CertTools where
  parseX509Pem text := .ok ⟨"CERTIFICATE", text⟩
  fromDer contents := .ok ⟨[.ok contents], 2000000000⟩
  generate spec _ n := .ok ⟨spec.commonName, "key " ++ toString n⟩
  sha256Hex text := text

def serverSpec (commonName : String) : CertTlsSpec where
  certPath := "/server.crt"
  keyPath := "/server.key"
  commonName := commonName
  algorithm := .rsa2048
  daysValid := 3650
  renewBeforeDays := 30
  owner := none
  group := none
  modeCert := 0o644
  modeKey := 0o600
  subjectAltNames := []

/-- A pair for `a.example.com`. -/
def serverDisk : CertDisk where
  nodes := ((∅ : Nodes PemFile).insert ["server.key"]
    (.file ⟨⟨"key 0", some 0⟩, 0o600, 0, 0⟩)).insert ["server.crt"]
    (.file ⟨⟨"a.example.com", some 0⟩, 0o644, 0, 0⟩)
  generations := 1

def serverRun (commonName : String) (fault : FileOp → List String → Option String) :
    CertRun (Except.ok (ε := String)) "/server.crt" "/server.key" where
  resource := ⟨⟨"cert.tls:/server.crt"⟩, ⟨"cert.tls"⟩, 1, serverSpec commonName, [], [], []⟩
  spec := serverSpec commonName
  decodes := rfl
  certPath_eq := rfl
  keyPath_eq := rfl
  diff := .add "create" (serverSpec commonName)
  env := { FileEnv.calm with fault := fault }
  now := 1700000000
  nowOt := 1700000000

theorem serverDisk_starts : serverDisk.Starts "/server.crt" "/server.key" := by
  refine ⟨?_, .inr (.inr ⟨⟨"key 0", some 0⟩, ⟨"a.example.com", some 0⟩, 0, ?_, ?_, rfl, rfl⟩)⟩
  · rintro path file g (rfl | rfl) hfile hg
    · have hkey : pemAt serverDisk.nodes "/server.key" = some ⟨"key 0", some 0⟩ := by
        decide +kernel
      rw [hkey] at hfile
      cases hfile
      cases hg
      decide
    · have hcert : pemAt serverDisk.nodes "/server.crt" = some ⟨"a.example.com", some 0⟩ := by
        decide +kernel
      rw [hcert] at hfile
      cases hfile
      cases hg
      decide
  · decide +kernel
  · decide +kernel

/-! ## Over any sequence of applies -/

section Sequences

variable {P : Type} {certSpec : P → Except String CertTlsSpec} (tools : CertTools)
  {certPath keyPath : String}

/-- **Pairs.**  From files that are missing or a pair, over any sequence of applies with any
    specs, clocks and failures: in all states it goes through, a plan that answers `NoChange` has
    a key and a certificate of one generation before it, if and only if no apply replaces the
    key and then fails to replace a certificate that can be read. -/
theorem pairs_settle_iff (runs : List (CertRun certSpec certPath keyPath)) (s : CertDisk)
    (hstarts : s.Starts certPath keyPath) :
    EachState (CertRun.after tools) (CertDisk.Settles tools certPath keyPath) runs s ↔
      EachStep (CertRun.after tools) (fun run s => ¬ run.Torn tools s) runs s := by
  have hsettles : s.Settles tools certPath keyPath := by
    rw [CertDisk.settles_iff]
    intro key cert hkey hcert _
    rcases hstarts.2 with hnone | hnone | hmatched
    · simp [pemAt, hnone] at hkey
    · simp [pemAt, hnone] at hcert
    · exact hmatched
  apply eachState_iff_eachStep _ _ runs s hstarts.1 hsettles
  · intro run s hfresh
    exact fresh_after tools run hfresh
  · intro run s hfresh hsettles
    exact settles_after_iff tools run hfresh hsettles

end Sequences

/-- The rule at a pair and a change of its name. -/
theorem pairs_settle_renamed :
    EachState (CertRun.after plainTools)
        (CertDisk.Settles plainTools "/server.crt" "/server.key")
        [serverRun "b.example.com" fun _ _ => none] serverDisk ↔
      EachStep (CertRun.after plainTools) (fun run s => ¬ run.Torn plainTools s)
        [serverRun "b.example.com" fun _ _ => none] serverDisk :=
  pairs_settle_iff plainTools _ serverDisk serverDisk_starts

/-- There is no room for the certificate. -/
def fullDisk : FileOp → List String → Option String := fun op target =>
  if op = .writeAll ∧ target = ["server.crt"] then some "No space left on device" else none

/-- The name in the spec is changed, the disk is full after the key is written, and the name is
    changed back: the plan is content with the old certificate beside the new key. -/
theorem torn_pair_settles : serverDisk.Starts "/server.crt" "/server.key" ∧
    ¬ EachState (CertRun.after plainTools)
      (CertDisk.Settles plainTools "/server.crt" "/server.key")
      [serverRun "b.example.com" fullDisk] serverDisk := by
  refine ⟨serverDisk_starts, fun hafter => ?_⟩
  have hafter := hafter.2
  have hkeyNow : pemAt ((serverRun "b.example.com" fullDisk).after plainTools serverDisk).nodes
      "/server.key" = some ⟨"key 1", some 1⟩ := by decide +kernel
  have hcertNow : pemAt ((serverRun "b.example.com" fullDisk).after plainTools serverDisk).nodes
      "/server.crt" = some ⟨"a.example.com", some 0⟩ := by decide +kernel
  obtain ⟨key, cert, g, hkey, hcert, hkeyGen, hcertGen⟩ :=
    (CertDisk.settles_iff _ _ _ _).mp hafter _ _ hkeyNow hcertNow
      ⟨⟨"a.example.com", 2000000000⟩, rfl⟩
  rw [hkeyNow] at hkey
  rw [hcertNow] at hcert
  cases hkey
  cases hcert
  cases hkeyGen
  cases hcertGen

end CertRun

end Bosun
