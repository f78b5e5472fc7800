import Bosun.Library.FileTree
import Bosun.Services

/-!
# Bundles and the files their load paths name

`bundle.rs` and `path_safety.rs`: a load path `@roles/<name>` or `@lib/<name>` is turned
into a relative path, and the relative path into the canonical path of a file below the
root of the bundle.  The entry, the paths of the inventory and those of templates go through
the same check.  The file system answers as it did when the bundle was unpacked; nothing
writes into the bundle while its manifest is evaluated.
-/

namespace Bosun

open FileTree

/-! ## Paths -/

inductive PathComponent
  | rootDir
  | curDir
  | parentDir
  | normal (name : String)
deriving DecidableEq, Repr

/-- What a segment of a path stands for, apart from a leading `.`. -/
def component (segment : String) : Option PathComponent :=
  if segment = "" ∨ segment = "." then none
  else if segment = ".." then some .parentDir
  else some (.normal segment)

/-- `Path::components`: empty segments are dropped, and so is every `.` but a leading one. -/
def components (path : String) : List PathComponent :=
  (if isAbsolute path then [.rootDir]
   else if (segments path).head? = some "." then [.curDir]
   else []) ++ (segments path).filterMap component

/-- `Path::join` for a relative path. -/
def joinPath (root relative : String) : String :=
  match root.toList.getLast? with
  | none | some '/' => root ++ relative
  | some _ => root ++ "/" ++ relative

/-- `Path::starts_with`. -/
def pathStartsWith (path root : String) : Bool := (components root).isPrefixOf (components path)

/-- What the file system answers about the files of the bundle. -/
structure Disk where
  canonicalize : String → Except IoError String
  isSymlink : String → Except IoError Bool
  readToString : String → Except IoError String

inductive PathSafetyError
  | absolute (path : String)
  | parentDir (path : String)
  | nulByte
  | notFound (path : String)
  | notInRoot (root attempted : String)
  | isSymlink (path : String)
  | io (path : String) (source : IoError)
deriving DecidableEq, Repr

def PathSafetyError.display : PathSafetyError → String
  | .absolute path => "path must be relative, got absolute: " ++ path
  | .parentDir path => "path contains parent-dir segment ('..'): " ++ path
  | .nulByte => "path contains NUL byte"
  | .notFound path => "path not found: " ++ path
  | .notInRoot root attempted =>
    "path resolves outside root: attempted=" ++ attempted.quote ++ ", root=" ++ root.quote
  | .isSymlink path => "path is a symlink (refusing to follow): " ++ path
  | .io path source => "io error while resolving path " ++ path ++ ": " ++ source.display

/-- The first component that may not stand in a relative path. -/
def checkComponents (relative : String) : List PathComponent → Except PathSafetyError Unit
  | [] => .ok ()
  | .rootDir :: _ => .error (.absolute relative)
  | .parentDir :: _ => .error (.parentDir relative)
  | .curDir :: rest | .normal _ :: rest => checkComponents relative rest

def resolveWithinRoot (disk : Disk) (root relative : String) : Except PathSafetyError String :=
  if Char.ofNat 0 ∈ relative.toList then .error .nulByte
  else do
    checkComponents relative (components relative)
    let canonicalRoot ← (disk.canonicalize root).mapError (.io root)
    let candidate := joinPath canonicalRoot relative
    match disk.canonicalize candidate with
    | .error .notFound => .error (.notFound candidate)
    | .error e => .error (.io candidate e)
    | .ok canonicalCandidate =>
      if !pathStartsWith canonicalCandidate canonicalRoot then
        .error (.notInRoot canonicalRoot canonicalCandidate)
      else
        let symlink ← (disk.isSymlink candidate).mapError (.io candidate)
        if symlink then .error (.isSymlink candidate) else .ok canonicalCandidate

/-- What has been checked of a path that is returned. -/
theorem resolveWithinRoot_ok_iff {disk : Disk} {root relative file : String} :
    resolveWithinRoot disk root relative = .ok file ↔
      Char.ofNat 0 ∉ relative.toList ∧
      checkComponents relative (components relative) = .ok () ∧
      ∃ canonicalRoot, disk.canonicalize root = .ok canonicalRoot ∧
        disk.canonicalize (joinPath canonicalRoot relative) = .ok file ∧
        pathStartsWith file canonicalRoot = true ∧
        disk.isSymlink (joinPath canonicalRoot relative) = .ok false := by
  unfold resolveWithinRoot
  by_cases hnul : Char.ofNat 0 ∈ relative.toList
  · simp [hnul]
  · cases hcomponents : checkComponents relative (components relative) with
    | error e => simp [hnul, bind, Except.bind]
    | ok _ =>
      cases hroot : disk.canonicalize root with
      | error e => simp [hnul, bind, Except.bind, Except.mapError]
      | ok canonicalRoot =>
        simp only [hnul, if_false, bind, Except.bind, Except.mapError, not_false_eq_true, true_and]
        cases hcandidate : disk.canonicalize (joinPath canonicalRoot relative) with
        | error e => cases e <;> simp [hcandidate]
        | ok found =>
          cases hbelow : pathStartsWith found canonicalRoot with
          | false =>
            simp only [hbelow, Bool.not_false, if_true, reduceCtorEq, false_iff]
            rintro ⟨_, ⟨⟩, hfound, hbelow', -⟩
            rw [hcandidate] at hfound
            cases hfound
            simp [hbelow] at hbelow'
          | true =>
            cases hlink : disk.isSymlink (joinPath canonicalRoot relative) with
            | error e => simp [hbelow, hlink]
            | ok symlink =>
              cases symlink
              · simp only [hbelow, Bool.not_true, Bool.false_eq_true, if_false, Except.ok.injEq]
                constructor
                · rintro rfl
                  exact ⟨canonicalRoot, rfl, hcandidate, hbelow, hlink⟩
                · rintro ⟨_, rfl, hfound, -⟩
                  exact Except.ok.inj (hcandidate.symm.trans hfound)
              · simp [hbelow, hlink]

/-! ## Bundles -/

inductive BundleError
  | io (path : String)
  | entryNotFound (path : String)
  | unsupportedModuleForTemplate (module : String)
  | templateFromEntry (hint : String)
  | moduleNotFound (loadPath fsPath : String)
  | unsupportedLoadPath (loadPath : String)
  | privateSymbol (symbol module : String)
  | pathSafety (e : PathSafetyError)
deriving DecidableEq, Repr

def BundleError.display : BundleError → String
  | .io path => "io error reading bundle at " ++ path
  | .entryNotFound path => "bundle entry file not found: " ++ path
  | .unsupportedModuleForTemplate module => "template() called from unsupported module: " ++
    module.quote ++ " (only roles/<name>/main.star or _lib/<name>/main.star)"
  | .templateFromEntry hint => "template() cannot be called from bundle entry (main.star): " ++ hint
  | .moduleNotFound loadPath fsPath =>
    "module not found: load path '" ++ loadPath ++ "' resolves to " ++ fsPath.quote
  | .unsupportedLoadPath loadPath => "unsupported load path: '" ++ loadPath ++
    "' (expected @bosun/builtins, @roles/<name>, or @lib/<name>)"
  | .privateSymbol symbol module =>
    "private symbol '" ++ symbol ++ "' cannot be imported from " ++ module.quote
  | .pathSafety e => "path-safety violation: " ++ e.display

/-- A bundle as `load_dir` leaves it, over the file system it was read from.  It is finite:
    `files` lists whatever can be found below its root. -/
structure Bundle where
  root : String
  entry : String
  disk : Disk
  files : List String
  root_canonical : disk.canonicalize root = .ok root
  entry_resolved : ∃ relative, resolveWithinRoot disk root relative = .ok entry
  files_complete : ∀ candidate file, disk.canonicalize candidate = .ok file →
    pathStartsWith file root = true → file ∈ files

/-- `str::strip_prefix`. -/
def stripPrefix (s lead : String) : Option String :=
  if lead.toList.isPrefixOf s.toList then some (String.ofList (s.toList.drop lead.length)) else none

/-- `load_dir`: the entry of the manifest, below the canonical root. -/
def resolveEntry (disk : Disk) (canonicalRoot entry : String) : Except BundleError String :=
  match resolveWithinRoot disk canonicalRoot entry with
  | .ok file => .ok file
  | .error (.notFound missing) => .error (.entryNotFound missing)
  | .error e => .error (.pathSafety e)

/-- The names of a path below another, without the components that are not `Normal`. -/
def namesBelow (root path : String) : Option (List String) :=
  if (components root).isPrefixOf (components path) then
    some (((components path).drop (components root).length).filterMap fun
      | .normal name => some name
      | _ => none)
  else none

def templatesDirForModule (root module : String) : Option String :=
  match namesBelow root module with
  | some [kind, name, "main.star"] =>
    if kind = "roles" ∨ kind = "_lib" then
      some (joinPath (joinPath (joinPath root kind) name) "templates")
    else none
  | _ => none

namespace Bundle

/-- The relative path that a load path stands for. -/
def modulePath (loadPath : String) : Option String :=
  match stripPrefix loadPath "@roles/" with
  | some name => some ("roles/" ++ name ++ "/main.star")
  | none => (stripPrefix loadPath "@lib/").map fun name => "_lib/" ++ name ++ "/main.star"

def resolveModule (b : Bundle) (loadPath : String) : Except BundleError String :=
  match modulePath loadPath with
  | none => .error (.unsupportedLoadPath loadPath)
  | some relative =>
    match resolveWithinRoot b.disk b.root relative with
    | .ok file => .ok file
    | .error (.notFound missing) => .error (.moduleNotFound loadPath missing)
    | .error e => .error (.pathSafety e)

def resolveTemplate (b : Bundle) (module templateRel : String) : Except BundleError String :=
  if components module = components b.entry then
    .error (.templateFromEntry "move rendering into a role or @lib module")
  else if templateRel.toList.head? = some '@' ∨ ':' ∈ templateRel.toList then
    .error (.pathSafety (.parentDir templateRel))
  else
    match templatesDirForModule b.root module with
    | none => .error (.unsupportedModuleForTemplate module)
    | some templatesDir => (resolveWithinRoot b.disk templatesDir templateRel).mapError .pathSafety

theorem resolveWithinRoot_mem (b : Bundle) {relative file : String}
    (h : resolveWithinRoot b.disk b.root relative = .ok file) : file ∈ b.files := by
  obtain ⟨-, -, root, hroot, hfile, hbelow, -⟩ := resolveWithinRoot_ok_iff.mp h
  obtain rfl : b.root = root := Except.ok.inj (b.root_canonical.symm.trans hroot)
  exact b.files_complete _ file hfile hbelow

/-- Whatever a load path resolves to is a file of the bundle. -/
theorem resolveModule_mem (b : Bundle) {loadPath file : String}
    (h : b.resolveModule loadPath = .ok file) : file ∈ b.files := by
  unfold resolveModule at h
  cases hpath : modulePath loadPath with
  | none => simp [hpath] at h
  | some relative =>
    simp only [hpath] at h
    split at h
    · rename_i found hfound
      cases h
      exact b.resolveWithinRoot_mem hfound
    · cases h
    · cases h

end Bundle

end Bosun
