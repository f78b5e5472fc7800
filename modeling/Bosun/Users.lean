import Bosun.Bundle
import Bosun.Library.GetOpt
import Bosun.Library.Utf8

/-!
# `users.user` and `users.group`

`users_user/` and `users_group/`: an account is looked up, compared with what the manifest says
of it, and one of `useradd`, `usermod`, `userdel`, `groupadd`, `groupmod` and `groupdel` is
called to close the difference.  Nothing goes through a shell; what the tools make of their
words is another matter (`argv_faithful`).

The tools are not part of the repository.  `Host.exec` stands for them, and `Documented` says
what is relied on: they read their arguments with `getopt_long`, and a tool that reports success
has done what its manual page says.
-/

namespace Bosun

namespace Users

open GetOpt

/-! ## Specs and options -/

inductive UserState
  | present
  | absent
deriving DecidableEq, Repr

structure UserSpec where
  name : String
  state : UserState
  uid : Option Nat
  group : Option String
  shell : Option String
  home : Option String
  noCreateHome : Bool
  system : Bool
  comment : Option String

inductive GroupState
  | present
  | absent
deriving DecidableEq, Repr

structure GroupSpec where
  name : String
  state : GroupState
  gid : Option Nat
  system : Bool

/-- What the lookup finds of a user. -/
structure UserInfo where
  name : String
  uid : Nat
  primaryGid : Nat
  primaryGroupName : String
  shell : String
  home : String
  comment : String
deriving DecidableEq

structure GroupInfo where
  name : String
  gid : Nat
deriving DecidableEq

structure UserAddOpts where
  name : String
  uid : Option Nat
  group : Option String
  shell : Option String
  home : Option String
  noCreateHome : Bool
  system : Bool
  comment : Option String
deriving DecidableEq

structure UserModOpts where
  name : String
  uid : Option Nat
  group : Option String
  shell : Option String
  home : Option String
  comment : Option String
deriving DecidableEq

def UserModOpts.isEmpty (opts : UserModOpts) : Bool :=
  opts.uid.isNone && opts.group.isNone && opts.shell.isNone && opts.home.isNone &&
    opts.comment.isNone

structure GroupAddOpts where
  name : String
  gid : Option Nat
  system : Bool
deriving DecidableEq

structure GroupModOpts where
  name : String
  gid : Option Nat
deriving DecidableEq

/-! ## Words for the tools -/

/-- A flag that is passed when it is set. -/
def flag (word : String) (set : Bool) : List String := if set then [word] else []

/-- An option that is passed with its value when there is one. -/
def option (word : String) : Option String → List String
  | none => []
  | some value => [word, value]

def buildUseraddArgv (opts : UserAddOpts) : List String :=
  ["useradd"] ++ flag "--system" opts.system ++ option "--uid" (opts.uid.map toString) ++
    option "--gid" opts.group ++ option "--shell" opts.shell ++ option "--home-dir" opts.home ++
    flag "--no-create-home" opts.noCreateHome ++ option "--comment" opts.comment ++ [opts.name]

def buildUsermodArgv (opts : UserModOpts) : List String :=
  ["usermod"] ++ option "--uid" (opts.uid.map toString) ++ option "--gid" opts.group ++
    option "--shell" opts.shell ++ option "--home" opts.home ++
    option "--comment" opts.comment ++ [opts.name]

def buildUserdelArgv (name : String) : List String := ["userdel", name]

def buildGroupaddArgv (opts : GroupAddOpts) : List String :=
  ["groupadd"] ++ flag "--system" opts.system ++ option "--gid" (opts.gid.map toString) ++
    [opts.name]

def buildGroupmodArgv (opts : GroupModOpts) : List String :=
  ["groupmod"] ++ option "--gid" (opts.gid.map toString) ++ [opts.name]

def buildGroupdelArgv (name : String) : List String := ["groupdel", name]

/-! ## Accounts -/

/-- A line of `/etc/passwd`. -/
structure PasswdEntry where
  name : String
  uid : Nat
  gid : Nat
  gecos : String
  dir : String
  shell : String
deriving DecidableEq

/-- A line of `/etc/group`. -/
structure GroupEntry where
  name : String
  gid : Nat
deriving DecidableEq

/-- The two files.  Names are unique; numbers need not be. -/
structure Accounts where
  passwd : List PasswdEntry
  group : List GroupEntry
  passwd_nodup : (passwd.map PasswdEntry.name).Nodup
  group_nodup : (group.map GroupEntry.name).Nodup
deriving DecidableEq

namespace Accounts

variable (accounts : Accounts)

def getpwnam (name : String) : Option PasswdEntry :=
  accounts.passwd.find? fun user => user.name = name

def getgrnam (name : String) : Option GroupEntry :=
  accounts.group.find? fun group => group.name = name

/-- The first group with the number. -/
def getgrgid (gid : Nat) : Option GroupEntry :=
  accounts.group.find? fun group => group.gid = gid

end Accounts

/-! ## The backend -/

/-- What a tool comes to that could be started. -/
structure Output where
  success : Bool
  status : String
  stderr : List UInt8

/-- Lookups that do not go through. -/
structure NssFaults where
  user : String → Option String
  group : String → Option String
  gid : Nat → Bool

/-- `debugStr` and `debugChar` are the `{:?}` of a string and of a character. -/
structure Host where
  isRoot : Bool
  faults : NssFaults
  exec : List String → Accounts → Except IoError Output × Accounts
  debugStr : String → String
  debugChar : Char → String

inductive UsersError
  | lookup (target reason : String)
  | toolNotFound (tool : String)
  | exec (tool status stderrExcerpt : String)
  | notRoot
  | invalidName (name reason : String)
deriving DecidableEq

variable (host : Host)

def primaryGroupName (accounts : Accounts) (gid : Nat) : String :=
  if host.faults.gid gid then "gid=" ++ toString gid
  else
    match accounts.getgrgid gid with
    | some group => group.name
    | none => "gid=" ++ toString gid

def lookupUser (name : String) (accounts : Accounts) : Except UsersError (Option UserInfo) :=
  match host.faults.user name with
  | some e => .error (.lookup name ("getpwnam: " ++ e))
  | none =>
    .ok ((accounts.getpwnam name).map fun user =>
      { name := user.name
        uid := user.uid
        primaryGid := user.gid
        primaryGroupName := primaryGroupName host accounts user.gid
        shell := user.shell
        home := user.dir
        comment := user.gecos })

def lookupGroup (name : String) (accounts : Accounts) : Except UsersError (Option GroupInfo) :=
  match host.faults.group name with
  | some e => .error (.lookup name ("getgrnam: " ++ e))
  | none => .ok ((accounts.getgrnam name).map fun group => ⟨group.name, group.gid⟩)

def STDERR_CHARS : Nat := 512

def runCommand (argv : List String) (accounts : Accounts) : Except UsersError Unit × Accounts :=
  match argv with
  | [] => (.error (.exec "<empty>" "argv is empty" ""), accounts)
  | cmd :: _ =>
    match host.exec argv accounts with
    | (.error .notFound, accounts) => (.error (.toolNotFound cmd), accounts)
    | (.error (.other e), accounts) => (.error (.exec cmd ("spawn: " ++ e) ""), accounts)
    | (.ok output, accounts) =>
      if output.success then (.ok (), accounts)
      else
        (.error (.exec cmd output.status
          (String.ofList ((Utf8.decodeLossy output.stderr).take STDERR_CHARS))), accounts)

/-- The tools are not even tried without root. -/
def asRoot (run : Accounts → Except UsersError Unit × Accounts) (accounts : Accounts) :
    Except UsersError Unit × Accounts :=
  if host.isRoot then run accounts else (.error .notRoot, accounts)

def useradd (opts : UserAddOpts) : Accounts → Except UsersError Unit × Accounts :=
  asRoot host (runCommand host (buildUseraddArgv opts))

def usermod (opts : UserModOpts) : Accounts → Except UsersError Unit × Accounts :=
  asRoot host fun accounts =>
    if opts.isEmpty then (.ok (), accounts) else runCommand host (buildUsermodArgv opts) accounts

def userdel (name : String) : Accounts → Except UsersError Unit × Accounts :=
  asRoot host (runCommand host (buildUserdelArgv name))

def groupadd (opts : GroupAddOpts) : Accounts → Except UsersError Unit × Accounts :=
  asRoot host (runCommand host (buildGroupaddArgv opts))

def groupmod (opts : GroupModOpts) : Accounts → Except UsersError Unit × Accounts :=
  asRoot host fun accounts =>
    if opts.gid.isNone then (.ok (), accounts)
    else runCommand host (buildGroupmodArgv opts) accounts

def groupdel (name : String) : Accounts → Except UsersError Unit × Accounts :=
  asRoot host (runCommand host (buildGroupdelArgv name))

def usersErrorToPrimitive : UsersError → PrimitiveError
  | .notRoot => .apply "users primitives require root (euid != 0)"
  | .toolNotFound tool => .apply (tool ++ " not found in PATH")
  | .exec tool status stderrExcerpt => .exec (tool ++ ": " ++ status) none stderrExcerpt
  | .lookup target reason => .apply ("lookup " ++ target ++ ": " ++ reason)
  | .invalidName name reason =>
    .invalidPayload ("invalid name " ++ host.debugStr name ++ ": " ++ reason)

/-! ## Names -/

def MAX_NAME_LEN : Nat := 32

/-- `[a-z_]` -/
def startsName (c : Char) : Bool := c.isLower || c = '_'

/-- `[a-z0-9_-]` -/
def continuesName (c : Char) : Bool := c.isLower || c.isDigit || c = '_' || c = '-'

/-- Both kinds go by the same rules; only the group does not say what its name begins with. -/
def validateName (kind name : String) (got : Char → String) : Except PrimitiveError Unit :=
  match name.toList with
  | [] => .error (.invalidPayload (kind ++ ": name is empty"))
  | first :: chars =>
    if name.utf8ByteSize > MAX_NAME_LEN then
      .error (.invalidPayload (kind ++ ": name " ++ host.debugStr name ++ " length " ++
        toString name.utf8ByteSize ++ " > " ++ toString MAX_NAME_LEN))
    else if startsName first then
      match chars.find? fun ch => !continuesName ch with
      | none => .ok ()
      | some ch =>
        .error (.invalidPayload (kind ++ ": name " ++ host.debugStr name ++
          " contains invalid character " ++ host.debugChar ch))
    else
      .error (.invalidPayload (kind ++ ": name " ++ host.debugStr name ++
        " must start with [a-z_]" ++ got first))

def validateUserName (name : String) : Except PrimitiveError Unit :=
  validateName host "users.user" name fun first => ", got " ++ host.debugChar first

def validateGroupName (name : String) : Except PrimitiveError Unit :=
  validateName host "users.group" name fun _ => ""

/-! ## What is to be done -/

inductive FieldDiff
  | uid
  | group
  | shell
  | home
  | comment
deriving DecidableEq, Repr

inductive UserAction
  | noChange
  | create
  | update (diffs : List FieldDiff)
  | delete
deriving DecidableEq, Repr

inductive GroupAction
  | noChange
  | create
  | update
  | delete
deriving DecidableEq, Repr

/-- A field that is given, and is not as given. -/
def differs {α : Type} (field : FieldDiff) (given : Option α) (same : α → Bool) :
    List FieldDiff :=
  match given with
  | none => []
  | some a => if same a then [] else [field]

/-- The homes are compared as paths. -/
def collectDiffs (spec : UserSpec) (info : UserInfo) : List FieldDiff :=
  differs .uid spec.uid (fun uid => uid = info.uid) ++
    differs .group spec.group (fun group => group = info.primaryGroupName) ++
    differs .shell spec.shell (fun shell => shell = info.shell) ++
    differs .home spec.home (fun home => components home = components info.home) ++
    differs .comment spec.comment (fun comment => comment = info.comment)

def decideActionUser (spec : UserSpec) (current : Option UserInfo) : UserAction :=
  match spec.state, current with
  | .present, none => .create
  | .present, some info =>
    if collectDiffs spec info = [] then .noChange else .update (collectDiffs spec info)
  | .absent, none => .noChange
  | .absent, some _ => .delete

def decideActionGroup (spec : GroupSpec) (current : Option GroupInfo) : GroupAction :=
  match spec.state, current with
  | .present, none => .create
  | .present, some info =>
    match spec.gid with
    | some gid => if gid ≠ info.gid then .update else .noChange
    | none => .noChange
  | .absent, none => .noChange
  | .absent, some _ => .delete

/-! ## Plan -/

/-- The plan looks nothing up, and always asks for the apply. -/
def planUser {P : Type} (pending payload : P) (spec : UserSpec) :
    Except PrimitiveError (Diff P) :=
  (validateUserName host spec.name).map fun _ =>
    .update pending payload ("converge users.user:" ++ spec.name)

def planGroup {P : Type} (pending payload : P) (spec : GroupSpec) :
    Except PrimitiveError (Diff P) :=
  (validateGroupName host spec.name).map fun _ =>
    .update pending payload ("converge users.group:" ++ spec.name)

/-! ## Apply -/

/-- Only what differs is passed on. -/
def setField (spec : UserSpec) (opts : UserModOpts) : FieldDiff → UserModOpts
  | .uid => { opts with uid := spec.uid }
  | .group => { opts with group := spec.group }
  | .shell => { opts with shell := spec.shell }
  | .home => { opts with home := spec.home }
  | .comment => { opts with comment := spec.comment }

def buildUsermodOpts (spec : UserSpec) (diffs : List FieldDiff) : UserModOpts :=
  diffs.foldl (setField spec) ⟨spec.name, none, none, none, none, none⟩

def FieldDiff.describe : FieldDiff → String
  | .uid => "uid"
  | .group => "group"
  | .shell => "shell"
  | .home => "home"
  | .comment => "comment"

def describeDiffs (diffs : List FieldDiff) : String :=
  ",".intercalate (diffs.map FieldDiff.describe)

/-- The report when the tool is through. -/
def reportOf (message : String) (result : Except UsersError Unit × Accounts) :
    Except PrimitiveError ChangeReport × Accounts :=
  match result with
  | (.error e, accounts) => (.error (usersErrorToPrimitive host e), accounts)
  | (.ok (), accounts) => (.ok (.ofChanged message), accounts)

def carryOutUser (spec : UserSpec) (accounts : Accounts) :
    UserAction → Except PrimitiveError ChangeReport × Accounts
  | .noChange => (.ok .noChange, accounts)
  | .create =>
    reportOf host ("created user " ++ spec.name)
      (useradd host ⟨spec.name, spec.uid, spec.group, spec.shell, spec.home, spec.noCreateHome,
        spec.system, spec.comment⟩ accounts)
  | .update diffs =>
    reportOf host ("updated user " ++ spec.name ++ ": " ++ describeDiffs diffs)
      (usermod host (buildUsermodOpts spec diffs) accounts)
  | .delete => reportOf host ("deleted user " ++ spec.name) (userdel host spec.name accounts)

def applyUser (spec : UserSpec) (diffIsNoChange : Bool) (accounts : Accounts) :
    Except PrimitiveError ChangeReport × Accounts :=
  if diffIsNoChange then (.ok .noChange, accounts)
  else
    match validateUserName host spec.name with
    | .error e => (.error e, accounts)
    | .ok () =>
      match lookupUser host spec.name accounts with
      | .error e => (.error (usersErrorToPrimitive host e), accounts)
      | .ok current => carryOutUser host spec accounts (decideActionUser spec current)

def carryOutGroup (spec : GroupSpec) (accounts : Accounts) :
    GroupAction → Except PrimitiveError ChangeReport × Accounts
  | .noChange => (.ok .noChange, accounts)
  | .create =>
    reportOf host ("created group " ++ spec.name)
      (groupadd host ⟨spec.name, spec.gid, spec.system⟩ accounts)
  | .update =>
    reportOf host ("updated group " ++ spec.name ++ ": gid -> " ++
        (spec.gid.map toString).getD "<unset>")
      (groupmod host ⟨spec.name, spec.gid⟩ accounts)
  | .delete => reportOf host ("deleted group " ++ spec.name) (groupdel host spec.name accounts)

def applyGroup (spec : GroupSpec) (diffIsNoChange : Bool) (accounts : Accounts) :
    Except PrimitiveError ChangeReport × Accounts :=
  if diffIsNoChange then (.ok .noChange, accounts)
  else
    match validateGroupName host spec.name with
    | .error e => (.error e, accounts)
    | .ok () =>
      match lookupGroup host spec.name accounts with
      | .error e => (.error (usersErrorToPrimitive host e), accounts)
      | .ok current => carryOutGroup host spec accounts (decideActionGroup spec current)

/-! ## What the tools make of their words -/

inductive Tool
  | useradd
  | usermod
  | userdel
  | groupadd
  | groupmod
  | groupdel
deriving DecidableEq

def Tool.command : Tool → String
  | .useradd => "useradd"
  | .usermod => "usermod"
  | .userdel => "userdel"
  | .groupadd => "groupadd"
  | .groupmod => "groupmod"
  | .groupdel => "groupdel"

/-- The options a tool is asked to know, each with whether it takes a value. -/
def Tool.options : Tool → List (String × Bool)
  | .useradd => [("system", false), ("uid", true), ("gid", true), ("shell", true),
      ("home-dir", true), ("no-create-home", false), ("comment", true)]
  | .usermod => [("uid", true), ("gid", true), ("shell", true), ("home", true),
      ("comment", true)]
  | .groupadd => [("system", false), ("gid", true)]
  | .groupmod => [("gid", true)]
  | .userdel | .groupdel => []

/-- The tool knows them, whatever else it knows. -/
def Tool.Reads (tool : Tool) (table : Table) : Prop :=
  ∀ name takes, (name, takes) ∈ tool.options →
    ∃ known, table.find name = .ok known ∧ known.long = name ∧ known.takesValue = takes

inductive ToolCall
  | useradd (opts : UserAddOpts)
  | usermod (opts : UserModOpts)
  | userdel (name : String)
  | groupadd (opts : GroupAddOpts)
  | groupmod (opts : GroupModOpts)
  | groupdel (name : String)
deriving DecidableEq

namespace ToolCall

def tool : ToolCall → Tool
  | useradd _ => .useradd
  | usermod _ => .usermod
  | userdel _ => .userdel
  | groupadd _ => .groupadd
  | groupmod _ => .groupmod
  | groupdel _ => .groupdel

def name : ToolCall → String
  | useradd opts => opts.name
  | usermod opts => opts.name
  | userdel name => name
  | groupadd opts => opts.name
  | groupmod opts => opts.name
  | groupdel name => name

def argv : ToolCall → List String
  | useradd opts => buildUseraddArgv opts
  | usermod opts => buildUsermodArgv opts
  | userdel name => buildUserdelArgv name
  | groupadd opts => buildGroupaddArgv opts
  | groupmod opts => buildGroupmodArgv opts
  | groupdel name => buildGroupdelArgv name

end ToolCall

/-- The fields that the options of the tools set; a value that is given twice is given last. -/
structure Settings where
  system : Bool
  noCreateHome : Bool
  uid : Option String
  gid : Option String
  shell : Option String
  home : Option String
  comment : Option String
deriving DecidableEq

namespace Settings

def none : Settings := ⟨false, false, .none, .none, .none, .none, .none⟩

def take (s : Settings) (item : Item) : Settings :=
  if item.option = "system" then { s with system := true }
  else if item.option = "no-create-home" then { s with noCreateHome := true }
  else if item.option = "uid" then { s with uid := item.value }
  else if item.option = "gid" then { s with gid := item.value }
  else if item.option = "shell" then { s with shell := item.value }
  else if item.option = "home" ∨ item.option = "home-dir" then { s with home := item.value }
  else if item.option = "comment" then { s with comment := item.value }
  else s

def ofItems (items : List Item) : Settings := items.foldl take none

end Settings

namespace ToolCall

/-- What a call asks for. -/
def settings : ToolCall → Settings
  | useradd opts => ⟨opts.system, opts.noCreateHome, opts.uid.map toString, opts.group,
      opts.shell, opts.home, opts.comment⟩
  | usermod opts => ⟨false, false, opts.uid.map toString, opts.group, opts.shell, opts.home,
      opts.comment⟩
  | groupadd opts => ⟨opts.system, false, .none, opts.gid.map toString, .none, .none, .none⟩
  | groupmod opts => ⟨false, false, .none, opts.gid.map toString, .none, .none, .none⟩
  | userdel _ | groupdel _ => .none

end ToolCall

/-- A flag as an item. -/
def flagItem (name : String) (set : Bool) : List Item := if set then [⟨name, none⟩] else []

def valueItem (name : String) (value : Option String) : List Item :=
  (value.map fun text => ⟨name, some text⟩).toList

def ToolCall.items : ToolCall → List Item
  | .useradd opts => flagItem "system" opts.system ++ valueItem "uid" (opts.uid.map toString) ++
      valueItem "gid" opts.group ++ valueItem "shell" opts.shell ++
      valueItem "home-dir" opts.home ++ flagItem "no-create-home" opts.noCreateHome ++
      valueItem "comment" opts.comment
  | .usermod opts => valueItem "uid" (opts.uid.map toString) ++ valueItem "gid" opts.group ++
      valueItem "shell" opts.shell ++ valueItem "home" opts.home ++
      valueItem "comment" opts.comment
  | .groupadd opts => flagItem "system" opts.system ++ valueItem "gid" (opts.gid.map toString)
  | .groupmod opts => valueItem "gid" (opts.gid.map toString)
  | .userdel _ | .groupdel _ => []

theorem render_flagItem (name : String) (set : Bool) :
    (flagItem name set).flatMap Item.render = flag ("--" ++ name) set := by
  cases set <;> rfl

theorem render_valueItem (name : String) (value : Option String) :
    (valueItem name value).flatMap Item.render = option ("--" ++ name) value := by
  cases value <;> rfl

theorem ToolCall.argv_eq (call : ToolCall) :
    call.argv = call.tool.command :: (call.items.flatMap Item.render ++ [call.name]) := by
  cases call <;>
    simp [argv, items, tool, name, Tool.command, buildUseraddArgv, buildUsermodArgv,
      buildUserdelArgv, buildGroupaddArgv, buildGroupmodArgv, buildGroupdelArgv,
      render_flagItem, render_valueItem]

theorem mem_flagItem {name : String} {set : Bool} {item : Item} (h : item ∈ flagItem name set) :
    item.option = name ∧ item.value.isSome = false := by
  cases set with
  | false => cases h
  | true =>
    obtain rfl := List.mem_singleton.mp h
    exact ⟨rfl, rfl⟩

theorem mem_valueItem {name : String} {value : Option String} {item : Item}
    (h : item ∈ valueItem name value) : item.option = name ∧ item.value.isSome = true := by
  cases value with
  | none => cases h
  | some text =>
    obtain rfl := List.mem_singleton.mp h
    exact ⟨rfl, rfl⟩

/-- Each item is an option the tool is asked to know. -/
theorem ToolCall.mem_options {call : ToolCall} {item : Item} (h : item ∈ call.items) :
    (item.option, item.value.isSome) ∈ call.tool.options := by
  cases call <;> simp only [items, List.mem_append, List.not_mem_nil] at h
  case useradd opts =>
    rcases h with (((((h | h) | h) | h) | h) | h) | h
    all_goals
      first
        | obtain ⟨hoption, hvalue⟩ := mem_flagItem h
        | obtain ⟨hoption, hvalue⟩ := mem_valueItem h
      simp [hoption, hvalue, tool, Tool.options]
  case usermod opts =>
    rcases h with (((h | h) | h) | h) | h
    all_goals
      obtain ⟨hoption, hvalue⟩ := mem_valueItem h
      simp [hoption, hvalue, tool, Tool.options]
  case groupadd opts =>
    rcases h with h | h
    · obtain ⟨hoption, hvalue⟩ := mem_flagItem h
      simp [hoption, hvalue, tool, Tool.options]
    · obtain ⟨hoption, hvalue⟩ := mem_valueItem h
      simp [hoption, hvalue, tool, Tool.options]
  case groupmod opts =>
    obtain ⟨hoption, hvalue⟩ := mem_valueItem h
    simp [hoption, hvalue, tool, Tool.options]

theorem Tool.options_plain (tool : Tool) : ∀ known ∈ tool.options,
    known.1 ≠ "" ∧ '=' ∉ known.1.toList := by
  cases tool <;> decide

theorem ToolCall.takes {call : ToolCall} {table : Table} (h : call.tool.Reads table) :
    ∀ item ∈ call.items, table.Takes item := by
  intro item hitem
  have hmem := ToolCall.mem_options hitem
  obtain ⟨hnamed, hplain⟩ := call.tool.options_plain _ hmem
  exact ⟨hnamed, hplain, h _ _ hmem⟩

/-- What a user or a group may be called. -/
structure IsName (name : String) : Prop where
  short : name.utf8ByteSize ≤ MAX_NAME_LEN
  letters : ∃ first chars, name.toList = first :: chars ∧ startsName first = true ∧
    ∀ ch ∈ chars, continuesName ch = true

theorem validateName_ok {kind name : String} {got : Char → String} :
    validateName host kind name got = .ok () ↔ IsName name := by
  constructor
  · intro h
    unfold validateName at h
    split at h
    · cases h
    · rename_i first chars hlist
      split at h
      · cases h
      · rename_i hshort
        split at h
        · rename_i hfirst
          split at h
          · rename_i hfind
            refine ⟨Nat.not_lt.mp hshort, first, chars, hlist, hfirst, fun ch hch => ?_⟩
            simpa using List.find?_eq_none.mp hfind ch hch
          · cases h
        · cases h
  · rintro ⟨hshort, first, chars, hlist, hfirst, hchars⟩
    have hfind : chars.find? (fun ch => !continuesName ch) = none := by
      rw [List.find?_eq_none]
      intro ch hch
      simp [hchars ch hch]
    simp [validateName, hlist, Nat.not_lt.mpr hshort, hfirst, hfind]

theorem IsName.isOperand {name : String} (h : IsName name) : IsOperand name := by
  obtain ⟨first, chars, hlist, hfirst, -⟩ := h.letters
  rw [IsOperand, hlist, List.head?_cons]
  intro heq
  rw [Option.some.inj heq] at hfirst
  exact absurd hfirst (by decide)

/-- A tool reads in its words what the caller meant. -/
theorem ToolCall.parse_argv {call : ToolCall} {table : Table} (hname : IsName call.name)
    (h : call.tool.Reads table) :
    parse table none call.argv.tail = .ok (call.items, [call.name]) := by
  rw [call.argv_eq, List.tail_cons]
  refine parse_render (ToolCall.takes h) fun word hword => ?_
  rw [List.mem_singleton.mp hword]
  exact hname.isOperand

/-! ### The settings in the items -/

theorem Settings.foldl_flagItem (s : Settings) (name : String) (set : Bool) :
    (flagItem name set).foldl take s = if set then s.take ⟨name, .none⟩ else s := by
  cases set <;> rfl

theorem Settings.foldl_valueItem (s : Settings) (name : String) (value : Option String) :
    (valueItem name value).foldl take s =
      match value with
      | .none => s
      | some text => s.take ⟨name, some text⟩ := by
  cases value <;> rfl

theorem ToolCall.settings_items (call : ToolCall) :
    Settings.ofItems call.items = call.settings := by
  cases call
  case useradd opts =>
    obtain ⟨name, uid, group, shell, home, noCreateHome, system, comment⟩ := opts
    simp only [Settings.ofItems, items, List.foldl_append, Settings.foldl_flagItem,
      Settings.foldl_valueItem]
    cases system <;> cases noCreateHome <;> cases uid <;> cases group <;> cases shell <;>
      cases home <;> cases comment <;> rfl
  case usermod opts =>
    obtain ⟨name, uid, group, shell, home, comment⟩ := opts
    simp only [Settings.ofItems, items, List.foldl_append, Settings.foldl_valueItem]
    cases uid <;> cases group <;> cases shell <;> cases home <;> cases comment <;> rfl
  case groupadd opts =>
    obtain ⟨name, gid, system⟩ := opts
    cases system <;> cases gid <;> rfl
  case groupmod opts =>
    obtain ⟨name, gid⟩ := opts
    cases gid <;> rfl
  all_goals rfl

/-! ### The call behind an apply -/

/-- The call that an action comes to. -/
def userCall (spec : UserSpec) : UserAction → Option ToolCall
  | .noChange => none
  | .create => some (.useradd ⟨spec.name, spec.uid, spec.group, spec.shell, spec.home,
      spec.noCreateHome, spec.system, spec.comment⟩)
  | .update diffs =>
    if (buildUsermodOpts spec diffs).isEmpty then none
    else some (.usermod (buildUsermodOpts spec diffs))
  | .delete => some (.userdel spec.name)

def groupCall (spec : GroupSpec) : GroupAction → Option ToolCall
  | .noChange => none
  | .create => some (.groupadd ⟨spec.name, spec.gid, spec.system⟩)
  | .update => if spec.gid.isNone then none else some (.groupmod ⟨spec.name, spec.gid⟩)
  | .delete => some (.groupdel spec.name)

/-- The run of a call, or of none. -/
def runCall (call : Option ToolCall) (accounts : Accounts) :
    Except UsersError Unit × Accounts :=
  match call with
  | none => (.ok (), accounts)
  | some call => asRoot host (runCommand host call.argv) accounts

variable {host}

theorem differs_cases {α : Type} (field : FieldDiff) (given : Option α) (same : α → Bool) :
    differs field given same = [] ∧ given.filter (fun a => !same a) = none ∨
    differs field given same = [field] ∧ given.filter (fun a => !same a) = given := by
  cases given with
  | none => exact .inl ⟨rfl, rfl⟩
  | some a => cases h : same a <;> simp [differs, h]

/-- `usermod` is asked for what is given and differs, and for nothing else. -/
theorem buildUsermodOpts_collectDiffs (spec : UserSpec) (info : UserInfo) :
    buildUsermodOpts spec (collectDiffs spec info) =
      { name := spec.name
        uid := spec.uid.filter fun uid => !decide (uid = info.uid)
        group := spec.group.filter fun group => !decide (group = info.primaryGroupName)
        shell := spec.shell.filter fun shell => !decide (shell = info.shell)
        home := spec.home.filter fun home => !decide (components home = components info.home)
        comment := spec.comment.filter fun comment => !decide (comment = info.comment) } := by
  rw [buildUsermodOpts, collectDiffs]
  rcases differs_cases .uid spec.uid (fun uid => uid = info.uid) with
      ⟨hu, hu'⟩ | ⟨hu, hu'⟩ <;>
    rcases differs_cases .group spec.group (fun group => group = info.primaryGroupName) with
      ⟨hg, hg'⟩ | ⟨hg, hg'⟩ <;>
    rcases differs_cases .shell spec.shell (fun shell => shell = info.shell) with
      ⟨hs, hs'⟩ | ⟨hs, hs'⟩ <;>
    rcases differs_cases .home spec.home (fun home => components home = components info.home) with
      ⟨hh, hh'⟩ | ⟨hh, hh'⟩ <;>
    rcases differs_cases .comment spec.comment (fun comment => comment = info.comment) with
      ⟨hc, hc'⟩ | ⟨hc, hc'⟩ <;>
    rw [hu, hu', hg, hg', hs, hs', hh, hh', hc, hc'] <;> rfl

theorem buildUsermodOpts_name (spec : UserSpec) (diffs : List FieldDiff) :
    (buildUsermodOpts spec diffs).name = spec.name := by
  have hkeeps : ∀ (diffs : List FieldDiff) (opts : UserModOpts),
      (diffs.foldl (setField spec) opts).name = opts.name := by
    intro diffs
    induction diffs with
    | nil => exact fun _ => rfl
    | cons diff diffs ih =>
      intro opts
      rw [List.foldl_cons, ih]
      cases diff <;> rfl
  exact hkeeps diffs _

theorem userCall_name {spec : UserSpec} {action : UserAction} {call : ToolCall}
    (h : userCall spec action = some call) : call.name = spec.name := by
  cases action with
  | noChange => cases h
  | create =>
    obtain rfl := Option.some.inj h
    rfl
  | update diffs =>
    rw [userCall] at h
    split at h
    · cases h
    · obtain rfl := Option.some.inj h
      exact buildUsermodOpts_name spec diffs
  | delete =>
    obtain rfl := Option.some.inj h
    rfl

theorem groupCall_name {spec : GroupSpec} {action : GroupAction} {call : ToolCall}
    (h : groupCall spec action = some call) : call.name = spec.name := by
  cases action with
  | noChange => cases h
  | create =>
    obtain rfl := Option.some.inj h
    rfl
  | update =>
    rw [groupCall] at h
    split at h
    · cases h
    · obtain rfl := Option.some.inj h
      rfl
  | delete =>
    obtain rfl := Option.some.inj h
    rfl

/-- The settings of a user that is created. -/
def creating (spec : UserSpec) : Settings :=
  ⟨spec.system, spec.noCreateHome, spec.uid.map toString, spec.group, spec.shell, spec.home,
    spec.comment⟩

/-- The settings of a user that is changed: what is given and differs. -/
def changing (spec : UserSpec) (info : UserInfo) : Settings :=
  ⟨false, false, (spec.uid.filter fun uid => !decide (uid = info.uid)).map toString,
    spec.group.filter fun group => !decide (group = info.primaryGroupName),
    spec.shell.filter fun shell => !decide (shell = info.shell),
    spec.home.filter fun home => !decide (components home = components info.home),
    spec.comment.filter fun comment => !decide (comment = info.comment)⟩

def creatingGroup (spec : GroupSpec) : Settings :=
  ⟨spec.system, false, none, spec.gid.map toString, none, none, none⟩

def changingGroup (spec : GroupSpec) : Settings :=
  ⟨false, false, none, spec.gid.map toString, none, none, none⟩

/-- What a user that is declared so asks of the tools, against what the lookup shows. -/
def UserAsks (spec : UserSpec) (current : Option UserInfo) (call : ToolCall) : Prop :=
  call.name = spec.name ∧
  match spec.state, current with
  | .present, none => call.tool = .useradd ∧ call.settings = creating spec
  | .present, some info => call.tool = .usermod ∧ call.settings = changing spec info
  | .absent, some _ => call.tool = .userdel
  | .absent, none => False

def GroupAsks (spec : GroupSpec) (current : Option GroupInfo) (call : ToolCall) : Prop :=
  call.name = spec.name ∧
  match spec.state, current with
  | .present, none => call.tool = .groupadd ∧ call.settings = creatingGroup spec
  | .present, some info =>
    call.tool = .groupmod ∧ call.settings = changingGroup spec ∧ spec.gid ≠ some info.gid
  | .absent, some _ => call.tool = .groupdel
  | .absent, none => False

theorem userCall_asks {spec : UserSpec} {current : Option UserInfo} {call : ToolCall}
    (h : userCall spec (decideActionUser spec current) = some call) :
    UserAsks spec current call := by
  refine ⟨userCall_name h, ?_⟩
  cases hstate : spec.state with
  | present =>
    cases current with
    | none =>
      simp only [decideActionUser, hstate, userCall, Option.some.injEq] at h
      subst h
      exact ⟨rfl, rfl⟩
    | some info =>
      simp only [decideActionUser, hstate] at h
      split at h
      · cases h
      · rw [userCall] at h
        split at h
        · cases h
        · obtain rfl := Option.some.inj h
          rw [buildUsermodOpts_collectDiffs]
          exact ⟨rfl, rfl⟩
  | absent =>
    cases current with
    | none =>
      simp only [decideActionUser, hstate] at h
      cases h
    | some info =>
      simp only [decideActionUser, hstate, userCall, Option.some.injEq] at h
      subst h
      rfl

theorem groupCall_asks {spec : GroupSpec} {current : Option GroupInfo} {call : ToolCall}
    (h : groupCall spec (decideActionGroup spec current) = some call) :
    GroupAsks spec current call := by
  refine ⟨groupCall_name h, ?_⟩
  cases hstate : spec.state with
  | present =>
    cases current with
    | none =>
      simp only [decideActionGroup, hstate, groupCall, Option.some.injEq] at h
      subst h
      exact ⟨rfl, rfl⟩
    | some info =>
      cases hgid : spec.gid with
      | none =>
        simp only [decideActionGroup, hstate, hgid] at h
        cases h
      | some gid =>
        simp only [decideActionGroup, hstate, hgid] at h
        split at h
        · rename_i hdiffers
          simp only [groupCall, hgid, Option.isNone_some, Bool.false_eq_true, if_false,
            Option.some.injEq] at h
          subst h
          refine ⟨rfl, ?_, fun hsame => hdiffers (Option.some.inj hsame)⟩
          rw [ToolCall.settings, changingGroup, hgid]
        · cases h
  | absent =>
    cases current with
    | none =>
      simp only [decideActionGroup, hstate] at h
      cases h
    | some info =>
      simp only [decideActionGroup, hstate, groupCall, Option.some.injEq] at h
      subst h
      rfl

/-- Of a command line with a program, `runCommand` leaves what the program left. -/
theorem runCommand_snd {argv : List String} (hargv : argv ≠ []) (accounts : Accounts) :
    (runCommand host argv accounts).2 = (host.exec argv accounts).2 := by
  obtain ⟨cmd, words, rfl⟩ := List.exists_cons_of_ne_nil hargv
  rw [runCommand]
  split
  · rename_i h
    rw [h]
  · rename_i h
    rw [h]
  · rename_i h
    rw [h]
    split <;> rfl

theorem ToolCall.argv_ne_nil (call : ToolCall) : call.argv ≠ [] := by
  rw [call.argv_eq]
  exact List.cons_ne_nil _ _

/-- The accounts after a call are what the tool left, or what they were. -/
theorem runCall_snd (call : ToolCall) (accounts : Accounts) :
    (runCall host (some call) accounts).2 =
      if host.isRoot then (host.exec call.argv accounts).2 else accounts := by
  rw [runCall, asRoot]
  split
  · exact runCommand_snd call.argv_ne_nil accounts
  · rfl

theorem runCommand_ok {call : ToolCall} {before after : Accounts}
    (h : runCommand host call.argv before = (.ok (), after)) :
    ∃ output, host.exec call.argv before = (.ok output, after) ∧ output.success = true := by
  obtain ⟨cmd, words, hargv⟩ := List.exists_cons_of_ne_nil call.argv_ne_nil
  rw [hargv, runCommand] at h
  rw [hargv]
  split at h
  · cases h
  · cases h
  · rename_i output accounts hexec
    split at h
    · rename_i hsuccess
      cases h
      exact ⟨output, hexec, hsuccess⟩
    · cases h

theorem reportOf_snd (message : String) (result : Except UsersError Unit × Accounts) :
    (reportOf host message result).2 = result.2 := by
  obtain ⟨⟨⟩ | ⟨⟩, accounts⟩ := result <;> rfl

/-- A call that is left out when there is nothing to change. -/
theorem asRoot_snd (skip : Bool) (call : ToolCall) (accounts : Accounts) :
    (asRoot host (fun accounts => if skip then (.ok (), accounts)
      else runCommand host call.argv accounts) accounts).2 =
    (runCall host (if skip then none else some call) accounts).2 := by
  cases skip with
  | true =>
    rw [asRoot]
    split <;> rfl
  | false => rfl

theorem carryOutUser_snd (spec : UserSpec) (action : UserAction) (accounts : Accounts) :
    (carryOutUser host spec accounts action).2 =
      (runCall host (userCall spec action) accounts).2 := by
  cases action with
  | noChange => rfl
  | create => exact reportOf_snd _ _
  | update diffs =>
    rw [carryOutUser, reportOf_snd]
    exact asRoot_snd _ (.usermod (buildUsermodOpts spec diffs)) accounts
  | delete => exact reportOf_snd _ _

theorem carryOutGroup_snd (spec : GroupSpec) (action : GroupAction) (accounts : Accounts) :
    (carryOutGroup host spec accounts action).2 =
      (runCall host (groupCall spec action) accounts).2 := by
  cases action with
  | noChange => rfl
  | create => exact reportOf_snd _ _
  | update =>
    rw [carryOutGroup, reportOf_snd]
    exact asRoot_snd _ (.groupmod ⟨spec.name, spec.gid⟩) accounts
  | delete => exact reportOf_snd _ _

/-- An apply changes the accounts through one call at most, with a name that was checked. -/
theorem applyUser_snd (spec : UserSpec) (diffIsNoChange : Bool) (accounts : Accounts) :
    (applyUser host spec diffIsNoChange accounts).2 = accounts ∨
    ∃ current call, lookupUser host spec.name accounts = .ok current ∧ IsName call.name ∧
      userCall spec (decideActionUser spec current) = some call ∧
      (applyUser host spec diffIsNoChange accounts).2 = (host.exec call.argv accounts).2 := by
  unfold applyUser
  split
  · exact .inl rfl
  · split
    · exact .inl rfl
    · rename_i hvalid
      split
      · exact .inl rfl
      · rename_i current hlookup
        rw [carryOutUser_snd]
        cases hcall : userCall spec (decideActionUser spec current) with
        | none => exact .inl rfl
        | some call =>
          rw [runCall_snd]
          split
          · have hname : IsName call.name :=
              userCall_name hcall ▸ (validateName_ok host).mp hvalid
            exact .inr ⟨current, call, hlookup, hname, hcall, rfl⟩
          · exact .inl rfl

theorem applyGroup_snd (spec : GroupSpec) (diffIsNoChange : Bool) (accounts : Accounts) :
    (applyGroup host spec diffIsNoChange accounts).2 = accounts ∨
    ∃ current call, lookupGroup host spec.name accounts = .ok current ∧ IsName call.name ∧
      groupCall spec (decideActionGroup spec current) = some call ∧
      (applyGroup host spec diffIsNoChange accounts).2 = (host.exec call.argv accounts).2 := by
  unfold applyGroup
  split
  · exact .inl rfl
  · split
    · exact .inl rfl
    · rename_i hvalid
      split
      · exact .inl rfl
      · rename_i current hlookup
        rw [carryOutGroup_snd]
        cases hcall : groupCall spec (decideActionGroup spec current) with
        | none => exact .inl rfl
        | some call =>
          rw [runCall_snd]
          split
          · have hname : IsName call.name :=
              groupCall_name hcall ▸ (validateName_ok host).mp hvalid
            exact .inr ⟨current, call, hlookup, hname, hcall, rfl⟩
          · exact .inl rfl

/-! ### Nothing is read as something else -/

/-- The table of a tool that knows no more than it is asked to. -/
def Tool.ownTable (tool : Tool) : Table := tool.options.map fun known => ⟨known.1, none, known.2⟩

theorem Tool.reads_ownTable (tool : Tool) : tool.Reads tool.ownTable := by
  intro name takes hmem
  cases tool <;> simp only [Tool.options, List.mem_cons, Prod.mk.injEq, List.not_mem_nil,
    or_false] at hmem
  case useradd =>
    rcases hmem with ⟨rfl, rfl⟩ | ⟨rfl, rfl⟩ | ⟨rfl, rfl⟩ | ⟨rfl, rfl⟩ | ⟨rfl, rfl⟩ |
      ⟨rfl, rfl⟩ | ⟨rfl, rfl⟩ <;> exact ⟨_, rfl, rfl, rfl⟩
  case usermod =>
    rcases hmem with ⟨rfl, rfl⟩ | ⟨rfl, rfl⟩ | ⟨rfl, rfl⟩ | ⟨rfl, rfl⟩ | ⟨rfl, rfl⟩ <;>
      exact ⟨_, rfl, rfl, rfl⟩
  case groupadd => rcases hmem with ⟨rfl, rfl⟩ | ⟨rfl, rfl⟩ <;> exact ⟨_, rfl, rfl, rfl⟩
  case groupmod =>
    obtain ⟨rfl, rfl⟩ := hmem
    exact ⟨_, rfl, rfl, rfl⟩

theorem Tool.command_injective : Function.Injective Tool.command := by
  intro tool tool' h
  cases tool <;> cases tool' <;> first | rfl | exact absurd h (by decide)

/-- A number, as the tools read it. -/
def idOf (text : String) : Option Nat :=
  if text.toList ≠ [] ∧ text.toList.all Char.isDigit then
    some (Nat.ofDigitChars 10 text.toList 0)
  else none

theorem idOf_toString (n : Nat) : idOf (toString n) = some n := by
  have hlist : (toString n).toList = Nat.toDigits 10 n := by
    rw [Nat.toString_eq_ofList_toDigits, String.toList_ofList]
  have hdigits : (Nat.toDigits 10 n).all Char.isDigit = true := by
    rw [List.all_eq_true]
    exact fun c hc => Nat.isDigit_of_mem_toDigits (by decide) (by decide) hc
  rw [idOf, hlist, if_pos ⟨Nat.toDigits_ne_nil, hdigits⟩]
  simp

theorem map_toString_injective : Function.Injective (Option.map (toString : Nat → String)) :=
  Option.map_injective fun n m h => by
    have hid := congrArg idOf h
    rwa [idOf_toString, idOf_toString, Option.some.injEq] at hid

/-- The tool, the name and the settings make up the call. -/
theorem ToolCall.eq_of_settings {call call' : ToolCall} (htool : call.tool = call'.tool)
    (hname : call.name = call'.name) (hsettings : call.settings = call'.settings) :
    call = call' := by
  cases call <;> cases call' <;> first | (cases htool; done) | skip
  case useradd opts opts' =>
    obtain ⟨⟩ := opts
    obtain ⟨⟩ := opts'
    simp only [settings, Settings.mk.injEq, name] at hsettings hname
    obtain ⟨hsystem, hnoCreateHome, huid, hgid, hshell, hhome, hcomment⟩ := hsettings
    simp [hname, hsystem, hnoCreateHome, map_toString_injective huid, hgid, hshell, hhome, hcomment]
  case usermod opts opts' =>
    obtain ⟨⟩ := opts
    obtain ⟨⟩ := opts'
    simp only [settings, Settings.mk.injEq, name] at hsettings hname
    obtain ⟨-, -, huid, hgid, hshell, hhome, hcomment⟩ := hsettings
    simp [hname, map_toString_injective huid, hgid, hshell, hhome, hcomment]
  case groupadd opts opts' =>
    obtain ⟨⟩ := opts
    obtain ⟨⟩ := opts'
    simp only [settings, Settings.mk.injEq, name] at hsettings hname
    obtain ⟨hsystem, -, -, hgid, -⟩ := hsettings
    simp [hname, hsystem, map_toString_injective hgid]
  case groupmod opts opts' =>
    obtain ⟨⟩ := opts
    obtain ⟨⟩ := opts'
    simp only [settings, Settings.mk.injEq, name] at hsettings hname
    obtain ⟨-, -, -, hgid, -⟩ := hsettings
    simp [hname, map_toString_injective hgid]
  all_goals exact congrArg _ hname

/-- Every tool that knows its options reads the words as the name and the settings that were
    meant, and no other call has the same words. -/
structure ReadAsMeant (call : ToolCall) : Prop where
  settings : ∀ table, call.tool.Reads table →
    ∃ items, parse table none call.argv.tail = .ok (items, [call.name]) ∧
      Settings.ofItems items = call.settings
  unique : ∀ call' : ToolCall, IsName call'.name → call'.argv = call.argv → call' = call

theorem ToolCall.readAsMeant {call : ToolCall} (hname : IsName call.name) : ReadAsMeant call where
  settings table h := ⟨call.items, call.parse_argv hname h, call.settings_items⟩
  unique call' hname' hargv := by
    have htool : call'.tool = call.tool := by
      have hhead := congrArg List.head? hargv
      rw [call'.argv_eq, call.argv_eq] at hhead
      exact Tool.command_injective (Option.some.inj hhead)
    have hread := call'.parse_argv hname' call'.tool.reads_ownTable
    rw [htool, hargv, call.parse_argv hname call.tool.reads_ownTable] at hread
    simp only [Except.ok.injEq, Prod.mk.injEq, List.cons.injEq, and_true] at hread
    refine ToolCall.eq_of_settings htool hread.2.symm ?_
    rw [← call'.settings_items, ← call.settings_items, hread.1]

/-- A comment that looks like an option, and a tool that also knows `--root`. -/
example : (parse (⟨"root", some 'R', true⟩ :: Tool.useradd.ownTable) none
    (buildUseraddArgv ⟨"app", none, none, none, none, true, false, some "--root=/"⟩).tail) =
    .ok ([⟨"no-create-home", none⟩, ⟨"comment", some "--root=/"⟩], ["app"]) := by
  decide +kernel

end Users

end Bosun
