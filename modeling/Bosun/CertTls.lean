import Bosun.FileSystem
import Bosun.Library.Sequences

/-!
# `cert.tls`

A private key and a certificate, generated together and put in place one after the other.
Whether they have to be generated again is decided on the certificate alone: its common name
and how long it is still valid.

What a file holds carries the number of the generation it comes from, which the code cannot
see.  `CertRun.Torn` is the one thing that may go wrong: the key is replaced, the certificate
is not, and the certificate that stays is one that can be read.
-/

namespace Bosun

open FileTree

/-! ## The spec -/

inductive CertAlgorithm
  | rsa2048
  | ed25519
  | ecdsaP256
deriving DecidableEq, Repr

structure CertTlsSpec where
  certPath : String
  keyPath : String
  commonName : String
  algorithm : CertAlgorithm
  daysValid : Nat
  renewBeforeDays : Nat
  owner : Option String
  group : Option String
  modeCert : Nat
  modeKey : Nat
  subjectAltNames : List String

def hasNul (s : String) : Bool := s.toList.contains (Char.ofNat 0)

/-- The path of a target; `field` is what the errors call it. -/
def validatePath (field path : String) : Except PrimitiveError Unit :=
  if hasNul path then .error (.invalidPayload (field ++ " contains NUL byte"))
  else if !isAbsolute path then
    .error (.invalidPayload (field ++ " must be absolute, got: " ++ path))
  else if (components path).contains .parentDir then
    .error (.invalidPayload (field ++ " contains '..' segment: " ++ path))
  else .ok ()

def validateSans : List String → Except PrimitiveError Unit
  | [] => .ok ()
  | san :: sans =>
    if san = "" then
      .error (.invalidPayload "cert.tls: subject_alt_names contains empty string")
    else if hasNul san then
      .error (.invalidPayload "cert.tls: subject_alt_names entry contains NUL byte")
    else validateSans sans

namespace CertTlsSpec

def validate (spec : CertTlsSpec) : Except PrimitiveError Unit := do
  validatePath "cert.tls.cert_path" spec.certPath
  validatePath "cert.tls.key_path" spec.keyPath
  if components spec.certPath = components spec.keyPath then
    throw (.invalidPayload "cert.tls: cert_path and key_path must differ")
  if spec.commonName = "" then
    throw (.invalidPayload "cert.tls: common_name must not be empty")
  if hasNul spec.commonName then
    throw (.invalidPayload "cert.tls: common_name contains NUL byte")
  if spec.daysValid = 0 then
    throw (.invalidPayload "cert.tls: days_valid must be > 0")
  if spec.daysValid ≤ spec.renewBeforeDays then
    throw (.invalidPayload ("cert.tls: renew_before_days (" ++ toString spec.renewBeforeDays ++
      ") must be < days_valid (" ++ toString spec.daysValid ++ ")"))
  validateSans spec.subjectAltNames

end CertTlsSpec

/-! ## Certificates -/

/-- The text of a file, and which generation wrote it, if one did. -/
structure PemFile where
  text : String
  generation : Option Nat
deriving DecidableEq, Repr

structure PemBlock where
  label : String
  contents : String

/-- The common names of the subject, each with what becomes of its encoding. -/
structure X509 where
  commonNames : List (Except String String)
  notAfter : Int

structure GeneratedCert where
  certPem : String
  keyPem : String

/-- The parser and the generator of certificates.  The number stands for the randomness a
    generation draws. -/
structure CertTools where
  parseX509Pem : String → Except String PemBlock
  fromDer : String → Except String X509
  generate : CertTlsSpec → Int → Nat → Except PrimitiveError GeneratedCert
  sha256Hex : String → String

structure ParsedCert where
  commonName : String
  notAfterUnix : Int

def parseCert (tools : CertTools) (text : String) : Except String ParsedCert := do
  let pem ← (tools.parseX509Pem text).mapError ("PEM decode: " ++ ·)
  if pem.label ≠ "CERTIFICATE" then throw ("unexpected PEM label '" ++ pem.label ++ "'")
  let cert ← (tools.fromDer pem.contents).mapError ("DER parse: " ++ ·)
  match cert.commonNames with
  | [] => throw "subject has no CommonName"
  | name :: _ =>
    let name ← name.mapError ("CN encoding: " ++ ·)
    return ⟨name, cert.notAfter⟩

/-! ## Plan -/

inductive CertAction
  | noChange
  | create
  | renew (reason : String)
deriving DecidableEq, Repr

/-- Symbolic links, directories and the like are refused. -/
def requireRegular {B : Type} : FileNode B → Except PrimitiveError (RegularFile B)
  | .file f => .ok f
  | _ => .error .invalidTarget

/-- What a readable certificate calls for.  The clock is in seconds. -/
def decideParsed (spec : CertTlsSpec) (now : Int) (parsed : ParsedCert) : CertAction :=
  if parsed.commonName ≠ spec.commonName then
    .renew ("common_name drift: cert has '" ++ parsed.commonName ++ "', spec wants '" ++
      spec.commonName ++ "'")
  else
    let secondsRemaining := parsed.notAfterUnix - now
    if secondsRemaining < spec.renewBeforeDays * 86400 then
      .renew ("expiry near: " ++ toString (secondsRemaining.tdiv 86400) ++
        " days remaining (< renew_before_days=" ++ toString spec.renewBeforeDays ++ ")")
    else .noChange

def decideActionCert (tools : CertTools) (env : FileEnv) (spec : CertTlsSpec) (now : Int)
    (nodes : Nodes PemFile) : Except PrimitiveError CertAction := do
  let certPlace := placeOf spec.certPath
  let keyPlace := placeOf spec.keyPath
  env.call .symlinkMetadata certPlace ("symlink_metadata " ++ spec.certPath)
  env.call .symlinkMetadata keyPlace ("symlink_metadata " ++ spec.keyPath)
  match nodeAt nodes certPlace, nodeAt nodes keyPlace with
  | some cert, some key =>
    let cert ← requireRegular cert
    let _ ← requireRegular key
    env.call .read certPlace ("read " ++ spec.certPath ++ " for plan")
    match parseCert tools cert.bytes.text with
    | .error reason => return .renew reason
    | .ok parsed => return decideParsed spec now parsed
  | _, _ => return .create

/-! ## Apply -/

def resolveOptional (resolve : String → Except PrimitiveError Nat) :
    Option String → Except PrimitiveError (Option Nat)
  | none => .ok none
  | some name => (resolve name).map some

/-- One of the two files of a generation. -/
def pemInstall (path text : String) (generation mode : Nat) (owner group : Option Nat) :
    Install PemFile where
  target := placeOf path
  body := ⟨text, some generation⟩
  mode := mode
  owner := .ok owner
  group := .ok group
  note := ""

/-- The two writes: the key first. -/
def writePair (env : FileEnv) (spec : CertTlsSpec) (pair : GeneratedCert) (generation : Nat)
    (owner group : Option Nat) : FileM PemFile Unit := do
  installFile env "cert.tls: "
    (pemInstall spec.keyPath pair.keyPem generation spec.modeKey owner group)
  installFile env "cert.tls: "
    (pemInstall spec.certPath pair.certPem generation spec.modeCert owner group)

/-- Everything before the first write: the pair, what it is generated for and its owner, or
    `none` when there is nothing to do. -/
def preparePair (tools : CertTools) (env : FileEnv) (spec : CertTlsSpec) (now nowOt : Int)
    (generation : Nat) (nodes : Nodes PemFile) :
    Except PrimitiveError (Option (GeneratedCert × String × Option Nat × Option Nat)) := do
  match ← decideActionCert tools env spec now nodes with
  | .noChange => return none
  | action =>
    let reason := match action with
      | .renew reason => reason
      | _ => "create"
    let owner ← resolveOptional env.resolveOwner spec.owner
    let group ← resolveOptional env.resolveGroup spec.group
    let pair ← tools.generate spec nowOt generation
    return some (pair, reason, owner, group)

/-- `apply.rs::apply`.  The clock is read twice, once for the decision and once for the
    certificate. -/
def certApply {P : Type} (certSpec : P → Except String CertTlsSpec) (tools : CertTools)
    (env : FileEnv) (resource : Resource P) (diff : Diff P) (now nowOt : Int) (generation : Nat) :
    FileM PemFile ChangeReport := do
  match certSpec resource.payload with
  | .error e => throw (.invalidPayload ("cert.tls payload: " ++ e))
  | .ok spec =>
    FileM.ofExcept spec.validate
    match diff with
    | .noChange => return .noChange
    | _ =>
      match ← FileM.ofExcept (preparePair tools env spec now nowOt generation (← get)) with
      | none => return .noChange
      | some (pair, reason, owner, group) =>
        writePair env spec pair generation owner group
        return .ofChanged ("wrote " ++ spec.certPath ++ " and " ++ spec.keyPath ++ " (cn=" ++
          spec.commonName ++ ", sha256_cert=" ++ tools.sha256Hex pair.certPem ++ ", reason=" ++
          reason ++ ")")

end Bosun
