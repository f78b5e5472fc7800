import Bosun.Bundle

/-!
# Loading the modules of a bundle

`load_resolver.rs` and `evaluate_manifest` of `starlark_glue/mod.rs`: the evaluator runs the
statements of a module in order and calls `FileLoader::load` for its `load` statements; the
loader resolves the path, looks into a cache keyed by canonical path, and otherwise reads,
parses and evaluates the file, whose own `load` statements come back to the same loader.

The recursion goes through the evaluator and the source puts no bound on it.  `load` has
one argument more than the code, the number of nested calls it may make; with too few the
answer is `none`.

What the evaluator and the parser do apart from that is a parameter.  Parsing a file depends on
its text alone; what a statement does besides loading depends on a world `W` that it may
read and change (the registry, the caches of the inventory, the clock).
-/

namespace Bosun

/-! ## The library -/

/-- A statement at the top level of a module. -/
inductive Stmt
  | load (path : String)
  | other
deriving DecidableEq, Repr

/-- A module that has been evaluated and frozen.  The serial number tells two evaluations of
    one file apart. -/
inductive FrozenModule
  | builtins
  | evaluated (file : String) (serial : Nat)
deriving DecidableEq, Repr

inductive StarlarkGlueError
  | syntaxError (file message : String)
  | eval (message : String)
  | invalidCall (kind reason : String)
  | unknownPrimitive (name : String)
  | bundle (e : BundleError)
  | loadCycle (message : String)
deriving DecidableEq, Repr

def StarlarkGlueError.display : StarlarkGlueError → String
  | .syntaxError file message => "starlark syntax error in " ++ file ++ ": " ++ message
  | .eval message => "starlark evaluation error: " ++ message
  | .invalidCall kind reason => "invalid call to " ++ kind ++ ": " ++ reason
  | .unknownPrimitive name => "primitive not registered: " ++ name
  | .bundle e => "bundle error: " ++ e.display
  | .loadCycle message => "load cycle detected: " ++ message

/-- `AstModule::parse`: the name of the file and its text. -/
abbrev Parser := String → String → Except String (List Stmt)

/-- What the run of a statement leaves: the functions it calls may record errors and go on. -/
structure Executed (W : Type) where
  result : Except String Unit
  errors : List StarlarkGlueError
  world : W

/-- What the statements of the modules do besides loading.  A statement is named by its file
    and its position in it. -/
structure Starlark (W : Type) where
  /-- a statement that loads nothing, the check of the deadline before it included -/
  exec : String → Nat → W → Executed W
  /-- the symbols that a `load` statement takes from the module it was given -/
  bindSymbols : String → Nat → FrozenModule → W → Executed W
  /-- how the evaluator words an error that the loader has returned to it -/
  report : String → Nat → String → String
  freeze : String → W → Except String Unit
  buildBuiltins : Except String Unit

/-! ## State -/

/-- What an observer of the evaluator sees. -/
inductive LoadEvent
  | parsed (file : String)
  | received (loader : String) (loadPath : String) (module : FrozenModule)
  | evaluated (file : String)
deriving DecidableEq, Repr

/-- The part of `EvalState` and of the `BundleLoader` that loading uses, and the events so
    far, the newest first.  The head of `currentModule` is the top of the stack. -/
structure LoadState (W : Type) where
  currentModule : List String
  errors : List StarlarkGlueError
  cache : List (String × FrozenModule)
  serial : Nat
  trace : List LoadEvent
  world : W

namespace LoadState

variable {W : Type}

def start (w : W) : LoadState W := ⟨[], [], [], 0, [], w⟩

def push (s : LoadState W) (file : String) : LoadState W :=
  { s with currentModule := file :: s.currentModule }

def pop (s : LoadState W) : LoadState W := { s with currentModule := s.currentModule.tail }

def record (s : LoadState W) (e : LoadEvent) : LoadState W := { s with trace := e :: s.trace }

def pushError (s : LoadState W) (e : StarlarkGlueError) : LoadState W :=
  { s with errors := s.errors ++ [e] }

def absorb (s : LoadState W) (x : Executed W) : LoadState W :=
  { s with errors := s.errors ++ x.errors, world := x.world }

/-- `Module::freeze`. -/
def frozen (s : LoadState W) (file : String) : FrozenModule × LoadState W :=
  (.evaluated file s.serial, { s with serial := s.serial + 1 })

def insert (s : LoadState W) (file : String) (module : FrozenModule) : LoadState W :=
  { s with cache := (file, module) :: s.cache }

def lastErrorMessage (s : LoadState W) : String :=
  match s.errors.getLast? with
  | some e => e.display
  | none => "load error"

end LoadState

/-! ## The loader -/

/-- A call of the loader, or of something that may call it. -/
abbrev LoadM (W ε α : Type) := Option (Except ε α × LoadState W)

section Loader

variable {W : Type} (b : Bundle) (parse : Parser) (lib : Starlark W)

/-- `Evaluator::eval_module` from the `i`-th statement on. -/
def evalStmts (inner : String → LoadState W → LoadM W String FrozenModule) (file : String) :
    Nat → List Stmt → LoadState W → LoadM W String Unit
  | _, [], s => some (.ok (), s)
  | i, .other :: rest, s =>
    let x := lib.exec file i s.world
    match x.result with
    | .error message => some (.error message, s.absorb x)
    | .ok () => evalStmts inner file (i + 1) rest (s.absorb x)
  | i, .load path :: rest, s =>
    match inner path s with
    | none => none
    | some (.error message, s) => some (.error (lib.report file i message), s)
    | some (.ok module, s) =>
      let x := lib.bindSymbols file i module s.world
      let s := (s.record (.received file path module)).absorb x
      match x.result with
      | .error message => some (.error message, s)
      | .ok () => evalStmts inner file (i + 1) rest s

def parseAndEval (inner : String → LoadState W → LoadM W String FrozenModule)
    (modulePath : String) (s : LoadState W) : LoadM W StarlarkGlueError FrozenModule :=
  match b.disk.readToString modulePath with
  | .error _ => some (.error (.bundle (.io modulePath)), s)
  | .ok source =>
    let s := s.record (.parsed modulePath)
    match parse modulePath source with
    | .error message => some (.error (.syntaxError modulePath message), s)
    | .ok stmts =>
      match evalStmts lib inner modulePath 0 stmts s with
      | none => none
      | some (.error message, s) => some (.error (.eval message), s)
      | some (.ok (), s) =>
        let s := s.record (.evaluated modulePath)
        match lib.freeze modulePath s.world with
        | .error message => some (.error (.eval ("module freeze: " ++ message)), s)
        | .ok () =>
          let (module, s) := s.frozen modulePath
          some (.ok module, s)

def loadRoleOrLib (inner : String → LoadState W → LoadM W String FrozenModule)
    (loadPath : String) (s : LoadState W) : LoadM W StarlarkGlueError FrozenModule :=
  match b.resolveModule loadPath with
  | .error e => some (.error (.bundle e), s)
  | .ok resolved =>
    match s.cache.lookup resolved with
    | some cached => some (.ok cached, s)
    | none =>
      -- the guard pops on every way out
      match parseAndEval b parse lib inner resolved (s.push resolved) with
      | none => none
      | some (.error e, s) => some (.error e, s.pop)
      | some (.ok module, s) => some (.ok module, (s.insert resolved module).pop)

/-- The body of `FileLoader::load`, over the loader that its modules are evaluated with. -/
def loadWith (inner : String → LoadState W → LoadM W String FrozenModule) (path : String)
    (s : LoadState W) : LoadM W String FrozenModule :=
  if path = "@bosun/builtins" then some (.ok .builtins, s)
  else if (stripPrefix path "@roles/").isSome || (stripPrefix path "@lib/").isSome then
    match loadRoleOrLib b parse lib inner path s with
    | none => none
    | some (.error e, s) => some (.error (s.pushError e).lastErrorMessage, s.pushError e)
    | some (.ok module, s) => some (.ok module, s)
  else
    let err := StarlarkGlueError.bundle (.unsupportedLoadPath path)
    some (.error err.display, s.pushError err)

/-- `FileLoader::load`, with at most `fuel` calls nested into each other. -/
def load : Nat → String → LoadState W → LoadM W String FrozenModule
  | 0, _, _ => none
  | fuel + 1, path, s => loadWith b parse lib (load fuel) path s

end Loader

/-! ## The manifest -/

/-- What follows the first occurrence of `needle`. -/
def afterFirst (needle : List Char) : List Char → Option (List Char)
  | [] => if needle = [] then some [] else none
  | c :: cs =>
    if needle.isPrefixOf (c :: cs) then some ((c :: cs).drop needle.length)
    else afterFirst needle cs

/-- `str::contains`. -/
def containsText (text needle : String) : Bool := (afterFirst needle.toList text.toList).isSome

/-- `char::is_whitespace`. -/
def isWhitespace (c : Char) : Bool :=
  let n := c.toNat
  (9 ≤ n && n ≤ 13) || n = 0x20 || n = 0x85 || n = 0xA0 || n = 0x1680 ||
    (0x2000 ≤ n && n ≤ 0x200A) || n = 0x2028 || n = 0x2029 || n = 0x202F || n = 0x205F || n = 0x3000

/-- A grave accent or an apostrophe. -/
def isQuoteMark (c : Char) : Bool := c.toNat = 96 || c.toNat = 39

def classifyEvalError (msg : String) : StarlarkGlueError :=
  let symbol := (afterFirst "is not exported: ".toList msg.toList).map fun rest =>
    rest.takeWhile fun c => !(isWhitespace c || isQuoteMark c)
  match symbol with
  | some (c :: cs) => .bundle (.privateSymbol (String.ofList (c :: cs)) "")
  | _ =>
    if containsText msg "Cyclic load" || containsText msg "cyclic load" then .loadCycle msg
    else .eval msg

section Manifest

variable {W : Type} (b : Bundle) (parse : Parser) (lib : Starlark W)

def evaluateManifest (fuel : Nat) (w : W) : LoadM W StarlarkGlueError Unit :=
  let s := LoadState.start w
  match b.disk.readToString b.entry with
  | .error _ => some (.error (.bundle (.io b.entry)), s)
  | .ok source =>
    let s := s.record (.parsed b.entry)
    match parse b.entry source with
    | .error message => some (.error (.syntaxError b.entry message), s)
    | .ok stmts =>
      match lib.buildBuiltins with
      | .error message =>
        some (.error (.eval ("failed to build @bosun/builtins module: " ++ message)), s)
      | .ok () =>
        match evalStmts lib (load b parse lib fuel) b.entry 0 stmts (s.push b.entry) with
        | none => none
        | some (.error raw, s) =>
          match s.errors with
          | first :: _ => some (.error first, { s.pop with errors := [] })
          | [] => some (.error (classifyEvalError raw), s.pop)
        | some (.ok (), s) =>
          let s := s.record (.evaluated b.entry)
          match s.errors with
          | first :: _ => some (.error first, { s.pop with errors := [] })
          | [] => some (.ok (), s.pop)

end Manifest

end Bosun
