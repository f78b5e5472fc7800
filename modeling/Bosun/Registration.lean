import Bosun.CallArgs
import Bosun.FactCache
import Bosun.FileContent
import Bosun.Library.Utf8
import Bosun.ModuleLoading

/-!
# Registering a resource

`register_primitive_call` of `starlark_glue/globals.rs`: every function of a manifest that
declares a resource ends here.  The keyword arguments become `CallArgs`, the primitive of the kind
makes the payload from them, and the resource is added to the registry; what the manifest gets
back is a handle.  The contents of `file.content` do not go into the payload: they are put into
the store of sensitive values, and the primitive sees their digest and their size.

`service.unit` is one of two such calls, by the fact `init_system`.
-/

namespace Bosun

open CallArgs (optionalHandleList)

/-! ## Reading arguments -/

inductive CallArgsError
  | missing (name : String)
  | wrongType (e : WrongType)
  | outOfRange (name : String) (value : Int) (target : String)
deriving DecidableEq, Repr

def CallArgsError.display : CallArgsError → String
  | missing name => "missing required argument '" ++ name ++ "'"
  | wrongType e => "argument '" ++ e.name ++ "' has wrong type: expected " ++ e.expected ++
      ", got " ++ e.actual
  | outOfRange name value target => "argument '" ++ name ++ "' value " ++ toString value ++
      " out of range for " ++ target

namespace CallArgs

variable (args : CallArgs) (name : String)

def requiredStr : Except CallArgsError String :=
  match args.inner name with
  | some (.str s) => .ok s
  | some arg => .error (.wrongType ⟨name, "str", arg.typeName⟩)
  | none => .error (.missing name)

def optionalStr : Except CallArgsError (Option String) :=
  match args.inner name with
  | some (.str s) => .ok (some s)
  | some arg => .error (.wrongType ⟨name, "str", arg.typeName⟩)
  | none => .ok none

/-- `optional_u32` and `optional_u64`, which differ in the bound. -/
def optionalUnsigned (bound : Nat) (target : String) : Except CallArgsError (Option Nat) :=
  match args.inner name with
  | some (.int i) =>
    if 0 ≤ i ∧ i.toNat < bound then .ok (some i.toNat) else .error (.outOfRange name i target)
  | some arg => .error (.wrongType ⟨name, "int", arg.typeName⟩)
  | none => .ok none

def optionalU32 : Except CallArgsError (Option Nat) :=
  args.optionalUnsigned name (2 ^ 32) "u32"

def optionalU64 : Except CallArgsError (Option Nat) :=
  args.optionalUnsigned name (2 ^ 64) "u64"

def takeRaw : Option ArgValue × CallArgs :=
  (args.inner name, ⟨fun k => if k = name then none else args.inner k⟩)

def putRaw (value : ArgValue) : CallArgs := args.insert name value

end CallArgs

/-! ## The store of sensitive values -/

structure SensitiveStore where
  inner : ResourceId → Option String

namespace SensitiveStore

def new : SensitiveStore := ⟨fun _ => none⟩

def put (id : ResourceId) (value : String) (store : SensitiveStore) : SensitiveStore :=
  ⟨fun k => if k = id then some value else store.inner k⟩

def take (id : ResourceId) (store : SensitiveStore) : Option String × SensitiveStore :=
  (store.inner id, ⟨fun k => if k = id then none else store.inner k⟩)

@[simp] theorem put_inner_same (id : ResourceId) (value : String) (store : SensitiveStore) :
    (store.put id value).inner id = some value := if_pos rfl

theorem put_inner_other {id other : ResourceId} (h : other ≠ id) (value : String)
    (store : SensitiveStore) : (store.put id value).inner other = store.inner other := if_neg h

theorem take_inner_other {id other : ResourceId} (h : other ≠ id) (store : SensitiveStore) :
    (store.take id).2.inner other = store.inner other := if_neg h

end SensitiveStore

/-! ## The call -/

/-- What the registration asks a primitive for. -/
structure Declares (P : Type) where
  identityKeys : List String
  buildPayload : CallArgs → Call P

/-- What a call of the manifest can see of its surroundings, and how other code words its
    errors and values. -/
structure EvalEnv (P : Type) where
  primitives : ResourceKind → Option (Declares P)
  /-- the fact `init_system` -/
  initSystem : FactValue (Value Unit)
  sha256Hex : Bytes → String
  noSerialize : String
  renderJson : Value Unit → String

/-- Why a call fails: Starlark is told a text, and the state keeps a structured error. -/
structure CallFailure where
  recorded : List StarlarkGlueError
  raw : String

/-- An error that is only told. -/
def CallFailure.told (raw : String) : CallFailure := ⟨[], raw⟩

def CallFailure.ofError (e : StarlarkGlueError) : CallFailure := ⟨[e], e.display⟩

/-- `record_invalid_call_in` -/
def recordInvalidCall (kind reason : String) : CallFailure :=
  .ofError (.invalidCall kind reason)

/-- The first arms of the match over `kind_str`. -/
def knownKinds : List String :=
  ["apt.key", "apt.package", "apt.update_cache", "cert.tls", "file.content", "file.delete",
   "file.symlink", "runr.service", "runr.timer", "runr.cgroup", "systemd.service",
   "systemd.timer", "pg_sql.exec", "pg_sql.query", "process.signal", "sysctl.reload",
   "users.user", "users.group"]

/-- `ResourceKind::try_new`, with the text of its error. -/
def ResourceKind.tryNew (s : String) : Except String ResourceKind :=
  if s = "" then .error "resource kind must be non-empty"
  else if s.toList.all fun c =>
      ('a' ≤ c && c ≤ 'z') || ('0' ≤ c && c ≤ '9') || c = '.' || c = '_' || c = '-' then .ok ⟨s⟩
  else .error ("resource kind '" ++ s ++
    "' contains invalid character; expected kebab-case dotted (e.g. apt.package)")

def parseKind (kindStr : String) : Except CallFailure ResourceKind :=
  if kindStr ∈ knownKinds then .ok ⟨kindStr⟩
  else (ResourceKind.tryNew kindStr).mapError fun e =>
    .told ("invalid resource kind '" ++ kindStr ++ "': " ++ e)

def i64Max : Nat := 2 ^ 63 - 1

/-- `extract_sensitive_contents`: the contents, and the arguments with digest and size in their
    place. -/
def extractSensitiveContents (sha256Hex : Bytes → String) (args : CallArgs) :
    Except String (String × CallArgs) :=
  match args.takeRaw "contents" with
  | (some (.str contents), args) =>
    let bytes := Utf8.encode contents.toList
    if bytes.length ≤ i64Max then
      .ok (contents, (args.putRaw "content_sha256" (.str (sha256Hex bytes))).putRaw
        "content_size" (.int bytes.length))
    else .error "file.content: contents too large for i64 size"
  | (some other, _) => .error ("file.content: 'contents' must be str, got " ++ other.typeName)
  | (none, _) => .error "file.content: missing required argument 'contents'"

def buildIdentity (args : CallArgs) : List String → Except CallArgsError (List String)
  | [] => .ok []
  | key :: keys => do
    let part ← args.requiredStr key
    return part :: (← buildIdentity args keys)

section Call

variable {P : Type} (env : EvalEnv P)

def invalidArgs {α : Type} (kindStr : String) (x : Except CallArgsError α) :
    Except CallFailure α :=
  x.mapError fun e => recordInvalidCall kindStr e.display

/-- A list of handles among the arguments. -/
def handlesOf (kindStr name : String) (args : CallArgs) : Except CallFailure (List ResourceId) :=
  (args.optionalHandleList name).mapError fun e =>
    recordInvalidCall kindStr (CallArgsError.wrongType e).display

/-- The contents of a `file.content`, and the arguments its primitive gets; other calls keep
    theirs. -/
def sealContents (kindStr : String) (args : CallArgs) :
    Except CallFailure (Option String × CallArgs) :=
  if kindStr = "file.content" then
    match extractSensitiveContents env.sha256Hex args with
    | .ok (contents, args) => .ok (some contents, args)
    | .error reason => .error (recordInvalidCall kindStr reason)
  else .ok (none, args)

/-- The resource that a call declares. -/
def declareWith (kindStr : String) (kind : ResourceKind) (primitive : Declares P)
    (args : CallArgs) : Except CallFailure (Resource P) := do
  let identity ← invalidArgs kindStr (buildIdentity args primitive.identityKeys)
  let payload ← (callPrimitive ("build_payload " ++ kindStr)
    (primitive.buildPayload args)).mapError fun e => recordInvalidCall kindStr e.display
  let reloadOn ← handlesOf kindStr "reload_on" args
  let restartOn ← handlesOf kindStr "restart_on" args
  let dependsOn ← handlesOf kindStr "depends_on" args
  return ⟨.new kind (":".intercalate identity), kind, 1, payload, reloadOn, restartOn, dependsOn⟩

/-- Everything before the state is touched: the resource, and contents to be kept. -/
def declare (kindStr : String) (kwargs : List (StarValue × StarValue)) :
    Except CallFailure (Resource P × Option String) := do
  let args ← (kwargsToCallArgs env.noSerialize kwargs .empty).mapError .told
  let kind ← parseKind kindStr
  let (contents, args) ← sealContents env kindStr args
  match env.primitives kind with
  | none => throw (.ofError (.unknownPrimitive kindStr))
  | some primitive => return (← declareWith kindStr kind primitive args, contents)

/-- What the calls of one evaluation share. -/
structure EvalState (P : Type) where
  registry : Registry P
  sensitive : SensitiveStore

def EvalState.new : EvalState P := ⟨.empty, .new⟩

def EvalState.keep (id : ResourceId) (contents : Option String) (s : EvalState P) :
    EvalState P :=
  match contents with
  | none => s
  | some contents => { s with sensitive := s.sensitive.put id contents }

/-- `register_primitive_call` -/
def registerPrimitiveCall (kindStr : String) (kwargs : List (StarValue × StarValue))
    (s : EvalState P) : Except CallFailure ResourceId × EvalState P :=
  match declare env kindStr kwargs with
  | .error failure => (.error failure, s)
  | .ok (r, contents) =>
    -- the contents are stored before the registry is asked
    let s := s.keep r.id contents
    match s.registry.add r with
    | .error e => (.error (recordInvalidCall kindStr e.display), s)
    | .ok (id, registry) => (.ok id, { s with registry })

/-! ## `service.unit` -/

def serviceUnitAllowedKwargs : List String :=
  ["name", "state", "enable", "health_check_cmd", "health_check_url",
   "health_check_expected_status", "health_check_retry", "health_check_retry_interval_sec",
   "health_check_timeout_sec", "validate_with", "reload_on", "restart_on", "depends_on"]

def rejectUnexpectedServiceUnitKwargs : List (StarValue × StarValue) → Except String Unit
  | [] => .ok ()
  | (.str key, _) :: kwargs =>
    if key ∈ serviceUnitAllowedKwargs then rejectUnexpectedServiceUnitKwargs kwargs
    else .error ("service.unit: unexpected keyword argument " ++ key.quote ++
      "; use runr.service(...) or systemd.service(...) directly for init-specific options")
  | (key, _) :: _ => .error ("service.unit: kwargs key must be a string, got " ++ key.type)

def FactValue.value {J : Type} : FactValue J → Option J
  | known value | stale value _ => some value
  | unknown _ => none

def resolveServiceUnitKind (env : EvalEnv P) : Except String String :=
  match env.initSystem.value with
  | none => .error
      "service.unit: init_system fact unknown; ensure the facts collector populated it"
  | some (.string init) =>
    if init = "systemd" ∨ init = "mixed-systemd-runr" then .ok "systemd.service"
    else if init = "runr" then .ok "runr.service"
    else .error ("service.unit: unsupported init_system " ++ init.quote ++
      "; expected one of systemd, mixed-systemd-runr, runr")
  | some value => .error ("service.unit: init_system fact is not a string (got " ++
      env.renderJson value ++ "); facts collector misconfiguration")

/-- `InitSystemFact::classify` -/
def classifyInit (raw : String) : String :=
  let token := String.ofList ((raw.toList.dropWhile isWhitespace).takeWhile (!isWhitespace ·))
  if token = "systemd" then "systemd"
  else if token = "runit" then "runit"
  else if token = "init" then "init"
  else "unknown"

/-- `InitSystemFact::collect`, from what was read of `/proc/1/comm`. -/
def collectInitSystem (path : String) : Except String String → FactValue (Value Unit)
  | .ok comm => .known (.string (classifyInit comm))
  | .error e => .unknown ("read " ++ path ++ ": " ++ e)

/-- `dispatch_service_unit` -/
def dispatchServiceUnit (kwargs : List (StarValue × StarValue)) (s : EvalState P) :
    Except CallFailure ResourceId × EvalState P :=
  match rejectUnexpectedServiceUnitKwargs kwargs with
  | .error raw => (.error (.told raw), s)
  | .ok () =>
    match resolveServiceUnitKind env with
    | .error raw => (.error (.told raw), s)
    | .ok kindStr => registerPrimitiveCall env kindStr kwargs s

end Call

/-! ## What a call declares -/

/-- A value is a list with this handle in it. -/
def StarValue.Lists (id : ResourceId) : StarValue → Prop
  | list items => .handle id ∈ items
  | _ => False

/-- One of the arguments is a list with this handle in it. -/
def Mentions (kwargs : List (StarValue × StarValue)) (id : ResourceId) : Prop :=
  ∃ p ∈ kwargs, p.2.Lists id

theorem allHandles_eq_some {items : List StarValue} : ∀ {ids : List ResourceId},
    allHandles items = some ids → items = ids.map .handle := by
  induction items with
  | nil =>
    intro ids h
    obtain rfl : [] = ids := Option.some.inj h
    rfl
  | cons item items ih =>
    intro ids h
    cases item with
    | handle id =>
      rw [allHandles, Option.map_eq_some_iff] at h
      obtain ⟨rest, hrest, rfl⟩ := h
      rw [ih hrest, List.map_cons]
    | none => simp [allHandles] at h
    | str => simp [allHandles] at h
    | bool => simp [allHandles] at h
    | int => simp [allHandles] at h
    | list => simp [allHandles] at h
    | other => simp [allHandles] at h

theorem lists_of_valueToArg {noSerialize : String} {v : StarValue} {ids : List ResourceId}
    (h : valueToArg noSerialize v = .ok (.handleList ids)) {id : ResourceId} (hid : id ∈ ids) :
    v.Lists id := by
  have hother : ∀ x : Except String (Value Unit), x.map ArgValue.other ≠ .ok (.handleList ids) := by
    intro x hx
    cases x <;> simp [Except.map] at hx
  cases v with
  | list items =>
    rw [valueToArg] at h
    split at h
    · rename_i handles hhandles
      obtain rfl : handles = ids := by simpa using h
      rw [StarValue.Lists, allHandles_eq_some hhandles]
      exact List.mem_map_of_mem hid
    · exact absurd h (hother _)
  | handle _ =>
    rw [valueToArg] at h
    exact absurd h (hother _)
  | other _ _ =>
    rw [valueToArg] at h
    exact absurd h (hother _)
  | none => simp [valueToArg] at h
  | str _ => simp [valueToArg] at h
  | bool _ => simp [valueToArg] at h
  | int _ => simp [valueToArg] at h

/-- An argument found after the conversion was there before or came from one of the values. -/
theorem inner_kwargsToCallArgs {noSerialize : String} {kwargs : List (StarValue × StarValue)} :
    ∀ {args args' : CallArgs} {name : String} {arg : ArgValue},
      kwargsToCallArgs noSerialize kwargs args = .ok args' → args'.inner name = some arg →
      args.inner name = some arg ∨ ∃ p ∈ kwargs, valueToArg noSerialize p.2 = .ok arg := by
  induction kwargs with
  | nil =>
    intro args args' name arg h harg
    obtain rfl : args = args' := Except.ok.inj h
    exact .inl harg
  | cons p kwargs ih =>
    intro args args' name arg h harg
    obtain ⟨k, v⟩ := p
    cases k with
    | str key =>
      rw [kwargsToCallArgs] at h
      cases hv : valueToArg noSerialize v with
      | error e =>
        rw [hv] at h
        cases h
      | ok a =>
        simp only [hv] at h
        rcases ih h harg with hinner | ⟨p, hp, hvalue⟩
        · rw [CallArgs.insert] at hinner
          simp only at hinner
          split at hinner
          · obtain rfl : a = arg := Option.some.inj hinner
            exact .inr ⟨_, List.mem_cons_self, hv⟩
          · exact .inl hinner
        · exact .inr ⟨p, List.mem_cons_of_mem _ hp, hvalue⟩
    | none => simp [kwargsToCallArgs] at h
    | bool => simp [kwargsToCallArgs] at h
    | int => simp [kwargsToCallArgs] at h
    | list => simp [kwargsToCallArgs] at h
    | handle => simp [kwargsToCallArgs] at h
    | other => simp [kwargsToCallArgs] at h

theorem except_bind_ok {ε α β : Type} {x : Except ε α} {f : α → Except ε β} {b : β} :
    x >>= f = .ok b ↔ ∃ a, x = .ok a ∧ f a = .ok b := by
  cases x with
  | error e => simp [bind, Except.bind]
  | ok a => simp [bind, Except.bind]

theorem except_mapError_ok {ε ε' α : Type} {x : Except ε α} {f : ε → ε'} {a : α} :
    x.mapError f = .ok a ↔ x = .ok a := by
  cases x <;> simp [Except.mapError]

variable {P : Type} {env : EvalEnv P}

/-- What the primitive is asked for and what the caller lists, in one resource. -/
structure Declared (kindStr : String) (kind : ResourceKind) (primitive : Declares P)
    (args : CallArgs) (r : Resource P) : Prop where
  id : ∃ identity, r.id = .new kind identity
  kind : r.kind = kind
  payload : callPrimitive ("build_payload " ++ kindStr) (primitive.buildPayload args) =
    .ok r.payload
  edges : ∀ dep ∈ r.edges, ∃ name ids, args.inner name = some (.handleList ids) ∧ dep ∈ ids

theorem handlesOf_ok {kindStr name : String} {args : CallArgs} {ids : List ResourceId}
    (h : handlesOf kindStr name args = .ok ids) {dep : ResourceId} (hdep : dep ∈ ids) :
    ∃ ids, args.inner name = some (.handleList ids) ∧ dep ∈ ids := by
  rw [handlesOf, except_mapError_ok, CallArgs.optionalHandleList] at h
  split at h
  · rename_i found hfound
    obtain rfl : found = ids := Except.ok.inj h
    exact ⟨found, hfound, hdep⟩
  · cases h
  · obtain rfl : [] = ids := Except.ok.inj h
    cases hdep

theorem declareWith_ok {kindStr : String} {kind : ResourceKind} {primitive : Declares P}
    {args : CallArgs} {r : Resource P} (h : declareWith kindStr kind primitive args = .ok r) :
    Declared kindStr kind primitive args r := by
  obtain ⟨identity, -, h⟩ := except_bind_ok.mp h
  obtain ⟨payload, hpayload, h⟩ := except_bind_ok.mp h
  obtain ⟨reloadOn, hreload, h⟩ := except_bind_ok.mp h
  obtain ⟨restartOn, hrestart, h⟩ := except_bind_ok.mp h
  obtain ⟨dependsOn, hdepends, h⟩ := except_bind_ok.mp h
  obtain rfl := Except.ok.inj h
  refine ⟨⟨_, rfl⟩, rfl, except_mapError_ok.mp hpayload, ?_⟩
  intro dep hdep
  rw [Resource.edges, List.mem_append, List.mem_append] at hdep
  rcases hdep with (hdep | hdep) | hdep
  · exact ⟨_, handlesOf_ok hdepends hdep⟩
  · exact ⟨_, handlesOf_ok hreload hdep⟩
  · exact ⟨_, handlesOf_ok hrestart hdep⟩

theorem parseKind_ok {kindStr : String} {kind : ResourceKind} (h : parseKind kindStr = .ok kind) :
    kind = ⟨kindStr⟩ := by
  unfold parseKind at h
  split at h
  · exact (Except.ok.inj h).symm
  · rw [except_mapError_ok, ResourceKind.tryNew] at h
    split at h
    · cases h
    · split at h
      · exact (Except.ok.inj h).symm
      · cases h

/-- What became of the contents: they are those whose digest and size the primitive is given. -/
def Sealed (env : EvalEnv P) (kindStr : String) (args args' : CallArgs)
    (contents : Option String) : Prop :=
  if kindStr = "file.content" then
    ∃ text, contents = some text ∧ args.inner "contents" = some (.str text) ∧
      args'.inner "content_sha256" = some (.str (env.sha256Hex (Utf8.encode text.toList))) ∧
      args'.inner "content_size" = some (.int (Utf8.encode text.toList).length)
  else contents = none

theorem sealContents_ok {kindStr : String} {args args' : CallArgs} {contents : Option String}
    (h : sealContents env kindStr args = .ok (contents, args')) :
    Sealed env kindStr args args' contents := by
  unfold sealContents at h
  unfold Sealed
  split at h
  · rename_i hkind
    rw [if_pos hkind]
    cases hextract : extractSensitiveContents env.sha256Hex args with
    | error reason =>
      rw [hextract] at h
      cases h
    | ok x =>
      obtain ⟨text, args₁⟩ := x
      simp only [hextract] at h
      obtain ⟨rfl, rfl⟩ := Prod.mk.inj (Except.ok.inj h)
      unfold extractSensitiveContents at hextract
      simp only [CallArgs.takeRaw] at hextract
      split at hextract
      · rename_i found rest hfound
        obtain ⟨hinner, -⟩ := Prod.mk.inj hfound
        split at hextract
        · obtain ⟨rfl, rfl⟩ := Prod.mk.inj (Except.ok.inj hextract)
          exact ⟨found, rfl, hinner, by simp [CallArgs.putRaw, CallArgs.insert],
            by simp [CallArgs.putRaw, CallArgs.insert]⟩
        · cases hextract
      · cases hextract
      · cases hextract
  · rename_i hkind
    rw [if_neg hkind]
    exact (Prod.mk.inj (Except.ok.inj h)).1.symm

/-- Handles are neither put among the arguments nor taken away with the contents. -/
theorem handleList_of_sealContents {kindStr : String} {args args' : CallArgs}
    {contents : Option String} (h : sealContents env kindStr args = .ok (contents, args'))
    {name : String} {ids : List ResourceId} (hids : args'.inner name = some (.handleList ids)) :
    args.inner name = some (.handleList ids) := by
  unfold sealContents at h
  split at h
  · cases hextract : extractSensitiveContents env.sha256Hex args with
    | error reason =>
      rw [hextract] at h
      cases h
    | ok x =>
      obtain ⟨text, args₁⟩ := x
      simp only [hextract] at h
      obtain ⟨-, rfl⟩ := Prod.mk.inj (Except.ok.inj h)
      unfold extractSensitiveContents at hextract
      simp only [CallArgs.takeRaw] at hextract
      split at hextract
      · rename_i found rest hfound
        obtain ⟨-, rfl⟩ := Prod.mk.inj hfound
        split at hextract
        · obtain ⟨-, rfl⟩ := Prod.mk.inj (Except.ok.inj hextract)
          simp only [CallArgs.putRaw, CallArgs.insert] at hids
          split at hids
          · cases hids
          · split at hids
            · cases hids
            · split at hids
              · cases hids
              · exact hids
        · cases hextract
      · cases hextract
      · cases hextract
  · obtain ⟨-, rfl⟩ := Prod.mk.inj (Except.ok.inj h)
    exact hids

/-- Everything that is known of a resource that a call declares. -/
theorem declare_ok {kindStr : String} {kwargs : List (StarValue × StarValue)} {r : Resource P}
    {contents : Option String} (h : declare env kindStr kwargs = .ok (r, contents)) :
    r.kind = ⟨kindStr⟩ ∧ (∀ dep ∈ r.edges, Mentions kwargs dep) ∧
      ∃ primitive args args', env.primitives ⟨kindStr⟩ = some primitive ∧
        Sealed env kindStr args args' contents ∧
        Declared kindStr ⟨kindStr⟩ primitive args' r := by
  obtain ⟨args, hargs, h⟩ := except_bind_ok.mp h
  obtain ⟨kind, hkind, h⟩ := except_bind_ok.mp h
  obtain rfl := parseKind_ok hkind
  obtain ⟨⟨contents', args'⟩, hseal, h⟩ := except_bind_ok.mp h
  simp only at h
  split at h
  · cases h
  · rename_i primitive hprimitive
    obtain ⟨r', hdeclare, h⟩ := except_bind_ok.mp h
    obtain ⟨rfl, rfl⟩ := Prod.mk.inj (Except.ok.inj h)
    have hdeclared := declareWith_ok hdeclare
    refine ⟨hdeclared.kind, ?_, primitive, args, args', hprimitive, sealContents_ok hseal,
      hdeclared⟩
    intro dep hdep
    obtain ⟨name, ids, hids, hmem⟩ := hdeclared.edges dep hdep
    rcases inner_kwargsToCallArgs (except_mapError_ok.mp hargs)
      (handleList_of_sealContents hseal hids) with hempty | ⟨p, hp, hvalue⟩
    · cases hempty
    · exact ⟨p, hp, lists_of_valueToArg hvalue hmem⟩

/-- A call that is answered with a handle has added the resource it declares. -/
theorem registerPrimitiveCall_ok {kindStr : String} {kwargs : List (StarValue × StarValue)}
    {s s' : EvalState P} {id : ResourceId}
    (h : registerPrimitiveCall env kindStr kwargs s = (.ok id, s')) :
    ∃ r contents, declare env kindStr kwargs = .ok (r, contents) ∧ r.id = id ∧
      r.id ∉ s.registry.ids ∧ s'.registry.resources = s.registry.resources ++ [r] ∧
      s'.sensitive = (s.keep r.id contents).sensitive := by
  unfold registerPrimitiveCall at h
  cases hdeclare : declare env kindStr kwargs with
  | error failure =>
    rw [hdeclare] at h
    cases h
  | ok x =>
    obtain ⟨r, contents⟩ := x
    have hkeep : (s.keep r.id contents).registry = s.registry := by
      cases contents <;> rfl
    simp only [hdeclare, hkeep, Registry.add] at h
    by_cases hnew : r.id ∈ s.registry.ids
    · rw [dif_pos hnew] at h
      cases h
    · rw [dif_neg hnew] at h
      obtain ⟨hid, rfl⟩ := Prod.mk.inj h
      exact ⟨r, contents, rfl, Except.ok.inj hid, hnew, rfl, rfl⟩

/-- `service.unit` that is answered is the call of the kind the fact names. -/
theorem dispatchServiceUnit_ok {kwargs : List (StarValue × StarValue)} {s s' : EvalState P}
    {id : ResourceId} (h : dispatchServiceUnit env kwargs s = (.ok id, s')) :
    ∃ kindStr, resolveServiceUnitKind env = .ok kindStr ∧
      registerPrimitiveCall env kindStr kwargs s = (.ok id, s') := by
  unfold dispatchServiceUnit at h
  cases hreject : rejectUnexpectedServiceUnitKwargs kwargs with
  | error raw =>
    rw [hreject] at h
    cases h
  | ok _ =>
    simp only [hreject] at h
    cases hkind : resolveServiceUnitKind env with
    | error raw =>
      rw [hkind] at h
      cases h
    | ok kindStr =>
      simp only [hkind] at h
      exact ⟨kindStr, rfl, h⟩

/-! ## The payload of `file.content` -/

def fileContentArg {α : Type} (x : Except CallArgsError α) : Except PrimitiveError α :=
  x.mapError fun e => .invalidPayload ("file.content: " ++ e.display)

def requireContentSize : Option Nat → Except PrimitiveError Nat
  | some size => .ok size
  | none => .error (.invalidPayload "file.content: missing content_size")

/-- `build_payload` of `file.content`, before it is encoded. -/
def fileContentSpec (args : CallArgs) : Except PrimitiveError FileContentSpec := do
  let path ← fileContentArg (args.requiredStr "path")
  let contentSha256 ← fileContentArg (args.requiredStr "content_sha256")
  let contentSize ← requireContentSize (← fileContentArg (args.optionalU64 "content_size"))
  let mode ← fileContentArg (args.optionalU32 "mode")
  let owner ← fileContentArg (args.optionalStr "owner")
  let group ← fileContentArg (args.optionalStr "group")
  let validateWith ← fileContentArg
    ((args.optionalStrList "validate_with").mapError .wrongType)
  return ⟨path, mode.getD 0o644, owner, group, contentSha256, contentSize, validateWith⟩

/-- `encode` is the `json!` of the payload. -/
def fileContentDeclares {P : Type} (encode : FileContentSpec → P) : Declares P where
  identityKeys := ["path"]
  buildPayload args := .returned ((fileContentSpec args).map encode)

theorem fileContentSpec_ok {args : CallArgs} {spec : FileContentSpec} {sha : String} {size : Nat}
    (h : fileContentSpec args = .ok spec)
    (hsha : args.inner "content_sha256" = some (.str sha))
    (hsize : args.inner "content_size" = some (.int size)) :
    spec.contentSha256 = sha ∧ spec.contentSize = size := by
  obtain ⟨path, -, h⟩ := except_bind_ok.mp h
  obtain ⟨sha', hsha', h⟩ := except_bind_ok.mp h
  obtain ⟨size?, hsize?, h⟩ := except_bind_ok.mp h
  obtain ⟨size', hsize', h⟩ := except_bind_ok.mp h
  obtain ⟨mode, -, h⟩ := except_bind_ok.mp h
  obtain ⟨owner, -, h⟩ := except_bind_ok.mp h
  obtain ⟨group, -, h⟩ := except_bind_ok.mp h
  obtain ⟨validateWith, -, h⟩ := except_bind_ok.mp h
  obtain rfl := Except.ok.inj h
  rw [fileContentArg, except_mapError_ok, CallArgs.requiredStr, hsha] at hsha'
  rw [fileContentArg, except_mapError_ok, CallArgs.optionalU64, CallArgs.optionalUnsigned,
    hsize] at hsize?
  refine ⟨(Except.ok.inj hsha').symm, ?_⟩
  dsimp only at hsize?
  split at hsize?
  · obtain rfl := Except.ok.inj hsize?
    exact (Except.ok.inj hsize').symm
  · cases hsize?

end Bosun
