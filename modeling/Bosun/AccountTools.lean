import Bosun.Users

/-!
# The tools behind `users.user` and `users.group`

What the manual pages of the tools say that they do to the two files, and what an apply comes to
with them: `UserStep` and `GroupStep` say all that an apply which reports success can have done.

One tool may touch more than the account it is called for.  `useradd` and `userdel` come with a
group of the same name, `groupmod` takes the users of the group along, `groupdel` spares the
group that somebody still needs.
-/

namespace Bosun

namespace Users

open GetOpt

/-! ## What the tools do -/

/-- A group by its number or by its name. -/
def Accounts.resolve (accounts : Accounts) (text : String) : Option Nat :=
  match idOf text with
  | some gid => (accounts.getgrgid gid).map GroupEntry.gid
  | none => (accounts.getgrnam text).map GroupEntry.gid

/-- The user is in the file, instead of anybody of that name. -/
def Puts (user : PasswdEntry) (before after : Accounts) : Prop :=
  ∀ u, u ∈ after.passwd ↔ u = user ∨ u ∈ before.passwd ∧ u.name ≠ user.name

def PutsGroup (group : GroupEntry) (before after : Accounts) : Prop :=
  ∀ g, g ∈ after.group ↔ g = group ∨ g ∈ before.group ∧ g.name ≠ group.name

def DropsGroup (name : String) (before after : Accounts) : Prop :=
  ∀ g, g ∈ after.group ↔ g ∈ before.group ∧ g.name ≠ name

/-- No other group has the number. -/
def HasOwnGid (group : GroupEntry) (accounts : Accounts) : Prop :=
  ∀ g ∈ accounts.group, g.name ≠ group.name → g.gid ≠ group.gid

/-- Nobody has the group for a primary group. -/
def Unused (name : String) (before after : Accounts) : Prop :=
  ∀ g ∈ before.group, g.name = name → ∀ u ∈ after.passwd, u.gid ≠ g.gid

/-- Without `--gid` a group of the user's name may come with the user. -/
structure UserAdded (s : Settings) (before after : Accounts) (user : PasswdEntry) : Prop where
  fresh : before.getpwnam user.name = none
  puts : Puts user before after
  uid : ∀ text ∈ s.uid, idOf text = some user.uid
  gid : ∀ text ∈ s.gid, before.resolve text = some user.gid ∧ after.group = before.group
  shell : ∀ text ∈ s.shell, user.shell = text
  home : ∀ text ∈ s.home, user.dir = text
  comment : ∀ text ∈ s.comment, user.gecos = text
  ownGroup : after.group = before.group ∨ before.getgrnam user.name = none ∧
    ∃ gid, HasOwnGid ⟨user.name, gid⟩ before ∧ PutsGroup ⟨user.name, gid⟩ before after

/-- What is not among the settings stays. -/
structure UserChanged (s : Settings) (before after : Accounts) (user user' : PasswdEntry) :
    Prop where
  there : user ∈ before.passwd
  name : user'.name = user.name
  puts : Puts user' before after
  uid : s.uid.elim (user'.uid = user.uid) fun text => idOf text = some user'.uid
  gid : s.gid.elim (user'.gid = user.gid) fun text => before.resolve text = some user'.gid
  shell : user'.shell = s.shell.getD user.shell
  home : user'.dir = s.home.getD user.dir
  comment : user'.gecos = s.comment.getD user.gecos
  groups : after.group = before.group

/-- The group of the user's name may go with the user. -/
structure UserRemoved (name : String) (before after : Accounts) : Prop where
  users : ∀ u, u ∈ after.passwd ↔ u ∈ before.passwd ∧ u.name ≠ name
  groups : after.group = before.group ∨
    DropsGroup name before after ∧ Unused name before after

structure GroupAdded (s : Settings) (before after : Accounts) (group : GroupEntry) : Prop where
  fresh : before.getgrnam group.name = none
  gid : ∀ text ∈ s.gid, idOf text = some group.gid
  own : HasOwnGid group before
  puts : PutsGroup group before after
  users : after.passwd = before.passwd

/-- The users of a group go along when its number changes. -/
def moveUser (gid gid' : Nat) (user : PasswdEntry) : PasswdEntry :=
  if user.gid = gid then { user with gid := gid' } else user

structure GroupChanged (s : Settings) (before after : Accounts) (group group' : GroupEntry) :
    Prop where
  there : group ∈ before.group
  name : group'.name = group.name
  gid : s.gid.elim (group'.gid = group.gid) fun text => idOf text = some group'.gid
  own : HasOwnGid group' before
  puts : PutsGroup group' before after
  users : after.passwd = before.passwd.map (moveUser group.gid group'.gid)

/-- The primary group of a user is not removed. -/
structure GroupRemoved (name : String) (before after : Accounts) : Prop where
  groups : DropsGroup name before after
  unused : Unused name before before
  users : after.passwd = before.passwd

/-- What a tool has done to the files when it reports success. -/
def Tool.Effect (tool : Tool) (s : Settings) (name : String) (before after : Accounts) : Prop :=
  match tool with
  | .useradd => ∃ user, user.name = name ∧ UserAdded s before after user
  | .usermod => ∃ user user', user.name = name ∧ UserChanged s before after user user'
  | .userdel => UserRemoved name before after
  | .groupadd => ∃ group, group.name = name ∧ GroupAdded s before after group
  | .groupmod => ∃ group group', group.name = name ∧ GroupChanged s before after group group'
  | .groupdel => GroupRemoved name before after

/-- The tools of the host are the documented ones, and its lookups go through. -/
structure Documented (host : Host) (tables : Tool → Table) : Prop where
  reads : ∀ tool : Tool, tool.Reads (tables tool)
  effect : ∀ (tool : Tool) words before after output items name,
    host.exec (tool.command :: words) before = (.ok output, after) → output.success = true →
    parse (tables tool) none words = .ok (items, [name]) →
    tool.Effect (Settings.ofItems items) name before after
  lookupUser : ∀ name, host.faults.user name = none
  lookupGroup : ∀ name, host.faults.group name = none
  lookupGid : ∀ gid, host.faults.gid gid = false

/-- A call that succeeds has the effect that was meant. -/
theorem Documented.effect_of_runCall {host : Host} {tables : Tool → Table}
    (h : Documented host tables) (call : ToolCall) (hname : IsName call.name)
    {before after : Accounts} (hrun : runCall host (some call) before = (.ok (), after)) :
    call.tool.Effect call.settings call.name before after := by
  have hran : runCommand host call.argv before = (.ok (), after) := by
    rw [runCall, asRoot] at hrun
    split at hrun
    · exact hrun
    · cases hrun
  obtain ⟨output, hexec, hsuccess⟩ := runCommand_ok hran
  have hparse := call.parse_argv hname (h.reads call.tool)
  rw [call.argv_eq] at hexec hparse
  rw [← call.settings_items]
  exact h.effect _ _ _ _ output _ _ hexec hsuccess hparse

/-! ## Looking up -/

theorem find?_eq_some_iff_of_nodup {α β : Type} [DecidableEq β] {f : α → β} {l : List α}
    (hnodup : (l.map f).Nodup) {b : β} {a : α} :
    l.find? (fun x => f x = b) = some a ↔ a ∈ l ∧ f a = b := by
  constructor
  · intro h
    exact ⟨List.mem_of_find?_eq_some h, by simpa using List.find?_some h⟩
  · rintro ⟨hmem, hb⟩
    cases hfind : l.find? fun x => f x = b with
    | none => exact absurd hb (by simpa using List.find?_eq_none.mp hfind a hmem)
    | some a' =>
      have hb' : f a' = b := by simpa using List.find?_some hfind
      rw [List.inj_on_of_nodup_map hnodup (List.mem_of_find?_eq_some hfind) hmem
        (hb'.trans hb.symm)]

namespace Accounts

variable {accounts : Accounts}

theorem getpwnam_iff {name : String} {user : PasswdEntry} :
    accounts.getpwnam name = some user ↔ user ∈ accounts.passwd ∧ user.name = name :=
  find?_eq_some_iff_of_nodup accounts.passwd_nodup

theorem getgrnam_iff {name : String} {group : GroupEntry} :
    accounts.getgrnam name = some group ↔ group ∈ accounts.group ∧ group.name = name :=
  find?_eq_some_iff_of_nodup accounts.group_nodup

theorem getpwnam_none {name : String} :
    accounts.getpwnam name = none ↔ ∀ user ∈ accounts.passwd, user.name ≠ name := by
  simp [getpwnam]

theorem getgrnam_none {name : String} :
    accounts.getgrnam name = none ↔ ∀ group ∈ accounts.group, group.name ≠ name := by
  simp [getgrnam]

/-- No two groups share a number. -/
def UniqueGids (accounts : Accounts) : Prop :=
  ∀ g ∈ accounts.group, ∀ g' ∈ accounts.group, g.gid = g'.gid → g = g'

theorem UniqueGids.getgrgid_iff (h : accounts.UniqueGids) {gid : Nat} {group : GroupEntry} :
    accounts.getgrgid gid = some group ↔ group ∈ accounts.group ∧ group.gid = gid :=
  find?_eq_some_iff_of_nodup (accounts.group_nodup.of_map.map_on h)

/-- Names are unique. -/
theorem eq_of_group_name {g g' : GroupEntry} (hg : g ∈ accounts.group) (hg' : g' ∈ accounts.group)
    (h : g.name = g'.name) : g = g' :=
  List.inj_on_of_nodup_map accounts.group_nodup hg hg' h

end Accounts

/-! ## What is settled -/

/-- The fields of the user are as they are given, its group apart. -/
structure Fits (spec : UserSpec) (user : PasswdEntry) : Prop where
  uid : ∀ uid ∈ spec.uid, uid = user.uid
  shell : ∀ shell ∈ spec.shell, shell = user.shell
  home : ∀ home ∈ spec.home, components home = components user.dir
  comment : ∀ comment ∈ spec.comment, comment = user.gecos

/-- What the lookup shows of a user. -/
def infoOf (host : Host) (accounts : Accounts) (user : PasswdEntry) : UserInfo where
  name := user.name
  uid := user.uid
  primaryGid := user.gid
  primaryGroupName := primaryGroupName host accounts user.gid
  shell := user.shell
  home := user.dir
  comment := user.gecos

theorem differs_eq_nil {α : Type} {field : FieldDiff} {given : Option α} {same : α → Bool} :
    differs field given same = [] ↔ ∀ a ∈ given, same a = true := by
  cases given with
  | none => simp [differs]
  | some a => cases h : same a <;> simp [differs, h]

theorem collectDiffs_eq_nil {host : Host} {accounts : Accounts} {spec : UserSpec}
    {user : PasswdEntry} : collectDiffs spec (infoOf host accounts user) = [] ↔
      Fits spec user ∧ ∀ group ∈ spec.group, group = primaryGroupName host accounts user.gid := by
  simp only [collectDiffs, List.append_eq_nil_iff, differs_eq_nil, decide_eq_true_eq]
  constructor
  · rintro ⟨⟨⟨⟨huid, hgroup⟩, hshell⟩, hhome⟩, hcomment⟩
    exact ⟨⟨huid, hshell, hhome, hcomment⟩, hgroup⟩
  · rintro ⟨⟨huid, hshell, hhome, hcomment⟩, hgroup⟩
    exact ⟨⟨⟨⟨huid, hgroup⟩, hshell⟩, hhome⟩, hcomment⟩

/-- The apply of the user finds nothing to do. -/
def UserSettled (host : Host) (spec : UserSpec) (accounts : Accounts) : Prop :=
  ∃ current, lookupUser host spec.name accounts = .ok current ∧
    decideActionUser spec current = .noChange

def GroupSettled (host : Host) (spec : GroupSpec) (accounts : Accounts) : Prop :=
  ∃ current, lookupGroup host spec.name accounts = .ok current ∧
    decideActionGroup spec current = .noChange

section Settled

variable {host : Host} {tables : Tool → Table} (hdoc : Documented host tables)
  {accounts before after : Accounts}
include hdoc

theorem Documented.lookupUser_eq (name : String) (accounts : Accounts) :
    Users.lookupUser host name accounts =
      .ok ((accounts.getpwnam name).map (infoOf host accounts)) := by
  simp only [Users.lookupUser, hdoc.lookupUser]
  rfl

theorem Documented.lookupGroup_eq (name : String) (accounts : Accounts) :
    Users.lookupGroup host name accounts =
      .ok ((accounts.getgrnam name).map fun group => ⟨group.name, group.gid⟩) := by
  simp only [Users.lookupGroup, hdoc.lookupGroup]

theorem Documented.userSettled_iff {spec : UserSpec} : UserSettled host spec accounts ↔
    match spec.state with
    | .absent => accounts.getpwnam spec.name = none
    | .present => ∃ user, accounts.getpwnam spec.name = some user ∧ Fits spec user ∧
        ∀ group ∈ spec.group, group = primaryGroupName host accounts user.gid := by
  rw [UserSettled]
  simp only [hdoc.lookupUser_eq, Except.ok.injEq, exists_eq_left']
  cases hstate : spec.state <;> cases huser : accounts.getpwnam spec.name
  · simp [decideActionUser, hstate]
  · simp only [Option.map_some, decideActionUser, hstate, Option.some.injEq, exists_eq_left',
      ← collectDiffs_eq_nil]
    split <;> simp_all
  · simp [decideActionUser, hstate]
  · simp [decideActionUser, hstate]

theorem Documented.groupSettled_iff {spec : GroupSpec} : GroupSettled host spec accounts ↔
    match spec.state with
    | .absent => accounts.getgrnam spec.name = none
    | .present => ∃ group, accounts.getgrnam spec.name = some group ∧
        ∀ gid ∈ spec.gid, gid = group.gid := by
  rw [GroupSettled]
  simp only [hdoc.lookupGroup_eq, Except.ok.injEq, exists_eq_left']
  cases hstate : spec.state <;> cases hgroup : accounts.getgrnam spec.name
  · simp [decideActionGroup, hstate]
  · cases hgid : spec.gid with
    | none => simp [decideActionGroup, hstate, hgid]
    | some gid =>
      simp only [Option.map_some, decideActionGroup, hstate, hgid]
      split <;> simp_all
  · simp [decideActionGroup, hstate]
  · simp [decideActionGroup, hstate]

end Settled

/-! ## One apply -/

theorem differs_of_isNone {α : Type} {field : FieldDiff} {given : Option α} {same : α → Bool}
    (h : (given.filter fun a => !same a).isNone = true) : differs field given same = [] := by
  cases given with
  | none => rfl
  | some a => cases hsame : same a <;> simp_all [differs]

/-- A difference is never passed on as nothing. -/
theorem collectDiffs_of_isEmpty {spec : UserSpec} {info : UserInfo}
    (h : (buildUsermodOpts spec (collectDiffs spec info)).isEmpty = true) :
    collectDiffs spec info = [] := by
  rw [buildUsermodOpts_collectDiffs] at h
  simp only [UserModOpts.isEmpty, Bool.and_eq_true] at h
  obtain ⟨⟨⟨⟨huid, hgroup⟩, hshell⟩, hhome⟩, hcomment⟩ := h
  rw [collectDiffs, differs_of_isNone huid, differs_of_isNone hgroup, differs_of_isNone hshell,
    differs_of_isNone hhome, differs_of_isNone hcomment]
  rfl

/-- What an apply of a user has done when it reports success. -/
inductive UserStep (host : Host) (spec : UserSpec) (before after : Accounts) : Prop
  | kept (hsettled : UserSettled host spec before) (h : after = before)
  | added (hstate : spec.state = .present) (user : PasswdEntry) (hname : user.name = spec.name)
      (h : UserAdded (creating spec) before after user)
  | changed (hstate : spec.state = .present) (user user' : PasswdEntry)
      (hname : user.name = spec.name)
      (h : UserChanged (changing spec (infoOf host before user)) before after user user')
  | removed (hstate : spec.state = .absent) (h : UserRemoved spec.name before after)

inductive GroupStep (host : Host) (spec : GroupSpec) (before after : Accounts) : Prop
  | kept (hsettled : GroupSettled host spec before) (h : after = before)
  | added (hstate : spec.state = .present) (group : GroupEntry) (hname : group.name = spec.name)
      (h : GroupAdded (creatingGroup spec) before after group)
  | changed (hstate : spec.state = .present) (group group' : GroupEntry)
      (hname : group.name = spec.name)
      (h : GroupChanged (changingGroup spec) before after group group')
  | removed (hstate : spec.state = .absent) (h : GroupRemoved spec.name before after)

theorem reportOf_ok {host : Host} {message : String} {result : Except UsersError Unit × Accounts}
    {report : ChangeReport} {after : Accounts}
    (h : reportOf host message result = (.ok report, after)) : result = (.ok (), after) := by
  obtain ⟨⟨⟩ | ⟨⟩, accounts⟩ := result
  · cases h
  · rw [(Prod.mk.inj h).2]

section Step

variable {host : Host} {tables : Tool → Table} (hdoc : Documented host tables)
  {before after : Accounts} {report : ChangeReport}
include hdoc

theorem Documented.userStep {spec : UserSpec}
    (h : applyUser host spec false before = (.ok report, after)) :
    UserStep host spec before after := by
  unfold applyUser at h
  rw [if_neg (by decide), hdoc.lookupUser_eq] at h
  split at h
  · cases h
  · rename_i hvalid
    have hname : IsName spec.name := (validateName_ok host).mp hvalid
    have hlookup := hdoc.lookupUser_eq spec.name before
    cases hstate : spec.state with
    | present =>
      cases huser : before.getpwnam spec.name with
      | none =>
        rw [huser] at h
        simp only [Option.map_none, decideActionUser, hstate] at h
        obtain ⟨user, hsame, hadded⟩ := hdoc.effect_of_runCall
          (.useradd ⟨spec.name, spec.uid, spec.group, spec.shell, spec.home,
            spec.noCreateHome, spec.system, spec.comment⟩) hname (reportOf_ok h)
        exact .added hstate user hsame hadded
      | some found =>
        rw [huser, Option.map_some] at h hlookup
        simp only [decideActionUser, hstate] at h
        split at h
        · rename_i hnil
          exact .kept ⟨_, hlookup, by simp [decideActionUser, hstate, hnil]⟩
            (Prod.mk.inj h).2.symm
        · rename_i hdiffs
          have hrun := reportOf_ok h
          rw [usermod, asRoot] at hrun
          split at hrun
          · rename_i hroot
            rw [if_neg (fun hempty => hdiffs (collectDiffs_of_isEmpty hempty))] at hrun
            have hcall : runCall host (some (.usermod (buildUsermodOpts spec
                (collectDiffs spec (infoOf host before found))))) before = (.ok (), after) := by
              rw [runCall, asRoot, if_pos hroot]
              exact hrun
            obtain ⟨user, user', hsame, hchanged⟩ := hdoc.effect_of_runCall _
              (by rwa [ToolCall.name, buildUsermodOpts_name]) hcall
            rw [ToolCall.name, buildUsermodOpts_name] at hsame
            obtain rfl : found = user := Option.some.inj
              (huser.symm.trans (Accounts.getpwnam_iff.mpr ⟨hchanged.there, hsame⟩))
            refine .changed hstate found user' hsame ?_
            rw [ToolCall.settings, buildUsermodOpts_collectDiffs] at hchanged
            exact hchanged
          · cases hrun
    | absent =>
      cases huser : before.getpwnam spec.name with
      | none =>
        rw [huser] at h hlookup
        simp only [Option.map_none, decideActionUser, hstate] at h
        exact .kept ⟨_, hlookup, by simp [decideActionUser, hstate]⟩ (Prod.mk.inj h).2.symm
      | some found =>
        rw [huser] at h
        simp only [Option.map_some, decideActionUser, hstate] at h
        exact .removed hstate
          (hdoc.effect_of_runCall (.userdel spec.name) hname (reportOf_ok h))

theorem Documented.groupStep {spec : GroupSpec}
    (h : applyGroup host spec false before = (.ok report, after)) :
    GroupStep host spec before after := by
  unfold applyGroup at h
  rw [if_neg (by decide), hdoc.lookupGroup_eq] at h
  split at h
  · cases h
  · rename_i hvalid
    have hname : IsName spec.name := (validateName_ok host).mp hvalid
    have hlookup := hdoc.lookupGroup_eq spec.name before
    cases hstate : spec.state with
    | present =>
      cases hgroup : before.getgrnam spec.name with
      | none =>
        rw [hgroup] at h
        simp only [Option.map_none, decideActionGroup, hstate] at h
        obtain ⟨group, hsame, hadded⟩ := hdoc.effect_of_runCall
          (.groupadd ⟨spec.name, spec.gid, spec.system⟩) hname (reportOf_ok h)
        exact .added hstate group hsame hadded
      | some found =>
        rw [hgroup, Option.map_some] at h hlookup
        cases hgid : spec.gid with
        | none =>
          simp only [decideActionGroup, hstate, hgid] at h
          exact .kept ⟨_, hlookup, by simp [decideActionGroup, hstate, hgid]⟩
            (Prod.mk.inj h).2.symm
        | some gid =>
          simp only [decideActionGroup, hstate, hgid] at h
          split at h
          · rename_i hupdate
            have hrun := reportOf_ok h
            simp only [groupmod, hgid, Option.isNone_some] at hrun
            obtain ⟨group, group', hsame, hchanged⟩ := hdoc.effect_of_runCall
              (.groupmod ⟨spec.name, some gid⟩) hname hrun
            refine .changed hstate group group' hsame ?_
            rw [changingGroup, hgid]
            exact hchanged
          · rename_i hsame
            exact .kept ⟨_, hlookup, by
              simp [decideActionGroup, hstate, hgid, hsame]⟩ (Prod.mk.inj h).2.symm
    | absent =>
      cases hgroup : before.getgrnam spec.name with
      | none =>
        rw [hgroup] at h hlookup
        simp only [Option.map_none, decideActionGroup, hstate] at h
        exact .kept ⟨_, hlookup, by simp [decideActionGroup, hstate]⟩ (Prod.mk.inj h).2.symm
      | some found =>
        rw [hgroup] at h
        simp only [Option.map_some, decideActionGroup, hstate] at h
        exact .removed hstate
          (hdoc.effect_of_runCall (.groupdel spec.name) hname (reportOf_ok h))

end Step

/-! ### A user -/

theorem primaryGroupName_congr {host : Host} {accounts accounts' : Accounts}
    (h : accounts'.group = accounts.group) (gid : Nat) :
    primaryGroupName host accounts' gid = primaryGroupName host accounts gid := by
  rw [primaryGroupName, primaryGroupName, Accounts.getgrgid, Accounts.getgrgid, h]

/-- The group that is given is called what the lookup will call it: it is the group of the user
    already, or it names the first of the groups with its number. -/
def GroupNamed (host : Host) (spec : UserSpec) (accounts : Accounts) : Prop :=
  ∀ group ∈ spec.group,
    (∃ user, accounts.getpwnam spec.name = some user ∧
      group = primaryGroupName host accounts user.gid) ∨
    ∃ gid, accounts.resolve group = some gid ∧ group = primaryGroupName host accounts gid

theorem eq_getD_filter {α β : Type} (f : α → β) {given : Option α} {a old : α} {same : α → Bool}
    (hsame : ∀ a, same a = true → f a = f old) (ha : a ∈ given) :
    f a = f ((given.filter fun a => !same a).getD old) := by
  have hgiven : given = some a := ha
  cases h : same a with
  | true => rw [hgiven, Option.filter_some_neg (by simp [h]), Option.getD_none, hsame a h]
  | false => rw [hgiven, Option.filter_some_pos (by simp [h]), Option.getD_some]

namespace UserAdded

variable {spec : UserSpec} {before after : Accounts} {user : PasswdEntry}
  (h : UserAdded (creating spec) before after user)
include h

theorem getpwnam : after.getpwnam user.name = some user :=
  Accounts.getpwnam_iff.mpr ⟨(h.puts user).mpr (.inl rfl), rfl⟩

theorem fits : Fits spec user where
  uid uid huid := by
    have hid := h.uid (toString uid) (by rw [creating, huid]; rfl)
    rw [idOf_toString] at hid
    exact Option.some.inj hid
  shell shell hshell := (h.shell shell hshell).symm
  home home hhome := by rw [h.home home hhome]
  comment comment hcomment := (h.comment comment hcomment).symm

end UserAdded

namespace UserChanged

variable {host : Host} {spec : UserSpec} {before after : Accounts} {user user' : PasswdEntry}
  (h : UserChanged (changing spec (infoOf host before user)) before after user user')
include h

theorem getpwnam : after.getpwnam user.name = some user' :=
  Accounts.getpwnam_iff.mpr ⟨(h.puts user').mpr (.inl rfl), h.name⟩

theorem fits : Fits spec user' where
  uid uid huid := by
    have hid := h.uid
    have hgiven : spec.uid = some uid := huid
    by_cases hsame : uid = user.uid
    · simp only [changing, infoOf, hgiven, Option.filter_some, hsame] at hid
      simpa [hsame] using hid.symm
    · simp only [changing, infoOf, hgiven, Option.filter_some, hsame, decide_false, Bool.not_false,
        if_true, Option.map_some, Option.elim_some, idOf_toString] at hid
      exact Option.some.inj hid
  shell shell hshell := by
    rw [h.shell]
    exact eq_getD_filter id (fun a ha => of_decide_eq_true ha) hshell
  home home hhome := by
    rw [h.home]
    exact eq_getD_filter components (fun a ha => of_decide_eq_true ha) hhome
  comment comment hcomment := by
    rw [h.comment]
    exact eq_getD_filter id (fun a ha => of_decide_eq_true ha) hcomment

/-- The group is the one that was asked for, or the one that was there. -/
theorem group {group : String} (hgroup : group ∈ spec.group) :
    group = primaryGroupName host before user.gid ∧ user'.gid = user.gid ∨
    group ≠ primaryGroupName host before user.gid ∧ before.resolve group = some user'.gid := by
  have hgiven : spec.group = some group := hgroup
  have hgid := h.gid
  by_cases hsame : group = primaryGroupName host before user.gid
  · simp only [changing, infoOf, hgiven, Option.filter_some, hsame] at hgid
    exact .inl ⟨hsame, by simpa using hgid⟩
  · simp only [changing, infoOf, hgiven, Option.filter_some, hsame] at hgid
    exact .inr ⟨hsame, by simpa using hgid⟩

end UserChanged

/-- What one step leaves: the user is settled unless it was given a group by a name that the
    lookup does not show. -/
theorem UserStep.settles {host : Host} {tables : Tool → Table} (hdoc : Documented host tables)
    {spec : UserSpec} {before after : Accounts} (h : UserStep host spec before after) :
    (UserSettled host spec after ↔ (spec.state = .present → GroupNamed host spec before)) ∧
    (∀ name ≠ spec.name, after.getpwnam name = before.getpwnam name) ∧
    ∀ user user', before.getpwnam spec.name = some user → after.getpwnam spec.name = some user' →
      (spec.uid = none → user'.uid = user.uid) ∧ (spec.group = none → user'.gid = user.gid) ∧
      (spec.shell = none → user'.shell = user.shell) ∧
      (spec.home = none → user'.dir = user.dir) ∧
      (spec.comment = none → user'.gecos = user.gecos) := by
  have hothers : ∀ user, user.name = spec.name → Puts user before after →
      ∀ name ≠ spec.name, after.getpwnam name = before.getpwnam name := by
    intro user hname hputs name hne
    refine Option.ext fun u => ?_
    rw [Accounts.getpwnam_iff, Accounts.getpwnam_iff, hputs]
    constructor
    · rintro ⟨rfl | ⟨hu, -⟩, rfl⟩
      · exact absurd hname hne
      · exact ⟨hu, rfl⟩
    · rintro ⟨hu, rfl⟩
      exact ⟨.inr ⟨hu, hname ▸ hne⟩, rfl⟩
  cases h with
  | kept hsettled hsame =>
    subst hsame
    refine ⟨⟨fun _ hstate group hgroup => .inl ?_, fun _ => hsettled⟩, fun _ _ => rfl, ?_⟩
    · rw [hdoc.userSettled_iff, hstate] at hsettled
      obtain ⟨user, huser, -, hnamed⟩ := hsettled
      exact ⟨user, huser, hnamed group hgroup⟩
    · intro user user' huser huser'
      obtain rfl := Option.some.inj (huser.symm.trans huser')
      exact ⟨fun _ => rfl, fun _ => rfl, fun _ => rfl, fun _ => rfl, fun _ => rfl⟩
  | added hstate user hname hadded =>
    have hnew : after.getpwnam spec.name = some user := hname ▸ hadded.getpwnam
    have hfresh : before.getpwnam spec.name = none := hname ▸ hadded.fresh
    refine ⟨?_, hothers user hname hadded.puts, fun old _ hold => by simp [hfresh] at hold⟩
    rw [hdoc.userSettled_iff, hstate]
    constructor
    · rintro ⟨user', huser', -, hnamed⟩ - group hgroup
      obtain rfl := Option.some.inj (hnew.symm.trans huser')
      obtain ⟨hresolve, hgroups⟩ := hadded.gid group hgroup
      exact .inr ⟨user.gid, hresolve, primaryGroupName_congr hgroups _ ▸ hnamed group hgroup⟩
    · intro hnamed
      refine ⟨user, hnew, hadded.fits, fun group hgroup => ?_⟩
      obtain ⟨hresolve, hgroups⟩ := hadded.gid group hgroup
      rw [primaryGroupName_congr hgroups]
      rcases hnamed rfl group hgroup with ⟨old, hold, -⟩ | ⟨gid, hgid, hname⟩
      · simp [hfresh] at hold
      · rwa [Option.some.inj (hresolve.symm.trans hgid)]
  | changed hstate user user' hname hchanged =>
    have hnew : after.getpwnam spec.name = some user' := hname ▸ hchanged.getpwnam
    have hold : before.getpwnam spec.name = some user :=
      Accounts.getpwnam_iff.mpr ⟨hchanged.there, hname⟩
    refine ⟨?_, hothers user' (hchanged.name.trans hname) hchanged.puts, ?_⟩
    · rw [hdoc.userSettled_iff, hstate]
      constructor
      · rintro ⟨found, hfound, -, hnamed⟩ - group hgroup
        obtain rfl := Option.some.inj (hnew.symm.trans hfound)
        rcases hchanged.group hgroup with ⟨hsame, -⟩ | ⟨-, hresolve⟩
        · exact .inl ⟨user, hold, hsame⟩
        · exact .inr ⟨user'.gid, hresolve,
            primaryGroupName_congr hchanged.groups _ ▸ hnamed group hgroup⟩
      · intro hnamed
        refine ⟨user', hnew, hchanged.fits, fun group hgroup => ?_⟩
        rw [primaryGroupName_congr hchanged.groups]
        rcases hchanged.group hgroup with ⟨hsame, hgid⟩ | ⟨hother, hresolve⟩
        · rwa [hgid]
        · rcases hnamed rfl group hgroup with ⟨old, hold', hsame⟩ | ⟨gid, hgid, hname⟩
          · obtain rfl := Option.some.inj (hold.symm.trans hold')
            exact absurd hsame hother
          · rwa [Option.some.inj (hresolve.symm.trans hgid)]
    · intro old new hold' hnew'
      obtain rfl := Option.some.inj (hold.symm.trans hold')
      obtain rfl := Option.some.inj (hnew.symm.trans hnew')
      refine ⟨fun hnone => ?_, fun hnone => ?_, fun hnone => ?_, fun hnone => ?_, fun hnone => ?_⟩
      · simpa [changing, hnone] using hchanged.uid
      · simpa [changing, hnone] using hchanged.gid
      · simpa [changing, hnone] using hchanged.shell
      · simpa [changing, hnone] using hchanged.home
      · simpa [changing, hnone] using hchanged.comment
  | removed hstate hremoved =>
    have hgone : after.getpwnam spec.name = none := by
      rw [Accounts.getpwnam_none]
      exact fun user huser => ((hremoved.users user).mp huser).2
    refine ⟨?_, fun name hne => ?_, fun _ user' _ huser' => by simp [hgone] at huser'⟩
    · rw [hdoc.userSettled_iff, hstate]
      exact ⟨fun _ h => absurd h (by simp), fun _ => hgone⟩
    · refine Option.ext fun u => ?_
      rw [Accounts.getpwnam_iff, Accounts.getpwnam_iff, hremoved.users]
      constructor
      · rintro ⟨⟨hu, -⟩, rfl⟩
        exact ⟨hu, rfl⟩
      · rintro ⟨hu, rfl⟩
        exact ⟨⟨hu, hne⟩, rfl⟩

/-- What is settled is left alone. -/
theorem UserSettled.apply_snd {host : Host} {spec : UserSpec} {accounts : Accounts}
    (h : UserSettled host spec accounts) (diffIsNoChange : Bool) :
    (applyUser host spec diffIsNoChange accounts).2 = accounts := by
  obtain ⟨current, hlookup, haction⟩ := h
  unfold applyUser
  rw [hlookup]
  split
  · rfl
  · split
    · rfl
    · simp only [haction]
      rfl

theorem GroupSettled.apply_snd {host : Host} {spec : GroupSpec} {accounts : Accounts}
    (h : GroupSettled host spec accounts) (diffIsNoChange : Bool) :
    (applyGroup host spec diffIsNoChange accounts).2 = accounts := by
  obtain ⟨current, hlookup, haction⟩ := h
  unfold applyGroup
  rw [hlookup]
  split
  · rfl
  · split
    · rfl
    · simp only [haction]
      rfl

/-- Where the name has passed once, the next apply says that it has nothing to do. -/
theorem UserSettled.apply_fst {host : Host} {spec : UserSpec} {accounts : Accounts}
    (h : UserSettled host spec accounts) (hname : validateUserName host spec.name = .ok ())
    (diffIsNoChange : Bool) :
    (applyUser host spec diffIsNoChange accounts).1 = .ok .noChange := by
  obtain ⟨current, hlookup, haction⟩ := h
  unfold applyUser
  rw [hlookup, hname]
  split
  · rfl
  · simp only [haction]
    rfl

/-- **`users.user` converges.**  After an apply that went through the next one has nothing to do,
    unless the user was given a group by a name that the lookup does not show.  Nobody else is
    touched, and of the user only what was given. -/
theorem user_settles {host : Host} {tables : Tool → Table} (hdoc : Documented host tables)
    {spec : UserSpec} {before after : Accounts} {report : ChangeReport}
    (h : applyUser host spec false before = (.ok report, after)) :
    (UserSettled host spec after ↔ (spec.state = .present → GroupNamed host spec before)) ∧
    (UserSettled host spec after → ∀ diffIsNoChange,
      applyUser host spec diffIsNoChange after = (.ok .noChange, after)) ∧
    (∀ name ≠ spec.name, after.getpwnam name = before.getpwnam name) ∧
    ∀ user user', before.getpwnam spec.name = some user → after.getpwnam spec.name = some user' →
      (spec.uid = none → user'.uid = user.uid) ∧ (spec.group = none → user'.gid = user.gid) ∧
      (spec.shell = none → user'.shell = user.shell) ∧
      (spec.home = none → user'.dir = user.dir) ∧
      (spec.comment = none → user'.gecos = user.gecos) := by
  have hname : validateUserName host spec.name = .ok () := by
    unfold applyUser at h
    rw [if_neg (by decide)] at h
    split at h
    · cases h
    · assumption
  obtain ⟨hsettled, hothers, hfields⟩ := (hdoc.userStep h).settles hdoc
  refine ⟨hsettled, fun hafter flag => ?_, hothers, hfields⟩
  exact Prod.ext (hafter.apply_fst hname flag) (hafter.apply_snd flag)

/-! A host on which the group and the user `app` can be made, in this order. -/

def noAccounts : Accounts := ⟨[], [], by decide, by decide⟩

def appGroup : Accounts := ⟨[], [⟨"app", 500⟩], by decide, by decide⟩

def appUser : Accounts :=
  ⟨[⟨"app", 500, 500, "", "/home/app", "/bin/sh"⟩], [⟨"app", 500⟩], by decide, by decide⟩

def appSpec : UserSpec := ⟨"app", .present, some 500, some "app", none, none, true, false, none⟩

def appGroupSpec : GroupSpec := ⟨"app", .present, some 500, false⟩

def appExec (argv : List String) (accounts : Accounts) : Except IoError Output × Accounts :=
  if argv = ["groupadd", "--gid", "500", "app"] ∧ accounts = noAccounts then
    (.ok ⟨true, "exit status: 0", []⟩, appGroup)
  else if argv = ["useradd", "--uid", "500", "--gid", "app", "--no-create-home", "app"] ∧
      accounts = appGroup then
    (.ok ⟨true, "exit status: 0", []⟩, appUser)
  else (.ok ⟨false, "exit status: 1", []⟩, accounts)

def appHost : Host where
  isRoot := true
  faults := ⟨fun _ => none, fun _ => none, fun _ => false⟩
  exec := appExec
  debugStr s := "\"" ++ s ++ "\""
  debugChar c := "'" ++ c.toString ++ "'"

theorem appHost_documented : Documented appHost Tool.ownTable where
  reads := Tool.reads_ownTable
  lookupUser _ := rfl
  lookupGroup _ := rfl
  lookupGid _ := rfl
  effect tool words before after output items name hexec hsuccess hparse := by
    simp only [appHost, appExec] at hexec
    split at hexec
    · rename_i hgroupadd
      obtain ⟨hargv, rfl⟩ := hgroupadd
      obtain ⟨htool, rfl⟩ := List.cons.inj hargv
      obtain rfl : tool = .groupadd := Tool.command_injective htool
      obtain ⟨-, rfl⟩ := Prod.mk.inj hexec
      have hparsed : parse Tool.groupadd.ownTable none ["--gid", "500", "app"] =
          .ok ([⟨"gid", some "500"⟩], ["app"]) := by decide +kernel
      rw [hparsed, Except.ok.injEq, Prod.mk.injEq, List.cons.injEq] at hparse
      obtain ⟨rfl, rfl, -⟩ := hparse
      refine ⟨⟨"app", 500⟩, rfl, by decide, ?_, by unfold HasOwnGid; decide, ?_, rfl⟩
      · intro text htext
        obtain rfl : "500" = text := Option.some.inj htext
        decide +kernel
      · intro g
        simp [appGroup, noAccounts]
    · split at hexec
      · rename_i huseradd
        obtain ⟨hargv, rfl⟩ := huseradd
        obtain ⟨htool, rfl⟩ := List.cons.inj hargv
        obtain rfl : tool = .useradd := Tool.command_injective htool
        obtain ⟨-, rfl⟩ := Prod.mk.inj hexec
        have hparsed : parse Tool.useradd.ownTable none
            ["--uid", "500", "--gid", "app", "--no-create-home", "app"] =
            .ok ([⟨"uid", some "500"⟩, ⟨"gid", some "app"⟩, ⟨"no-create-home", none⟩],
              ["app"]) := by decide +kernel
        rw [hparsed, Except.ok.injEq, Prod.mk.injEq, List.cons.injEq] at hparse
        obtain ⟨rfl, rfl, -⟩ := hparse
        refine ⟨⟨"app", 500, 500, "", "/home/app", "/bin/sh"⟩, rfl, by decide, ?_, ?_, ?_,
          by simp [Settings.ofItems, Settings.take, Settings.none],
          by simp [Settings.ofItems, Settings.take, Settings.none],
          by simp [Settings.ofItems, Settings.take, Settings.none], .inl rfl⟩
        · intro u
          simp [appUser, appGroup]
        · intro text htext
          obtain rfl : "500" = text := Option.some.inj htext
          decide +kernel
        · intro text htext
          obtain rfl : "app" = text := Option.some.inj htext
          exact ⟨by decide +kernel, rfl⟩
      · obtain ⟨houtput, -⟩ := Prod.mk.inj hexec
        obtain rfl := Except.ok.inj houtput
        cases hsuccess

theorem user_settles_app : UserSettled appHost appSpec appUser := by
  have happly : applyUser appHost appSpec false appGroup =
      (.ok (.ofChanged "created user app"), appUser) := by decide +kernel
  refine (user_settles appHost_documented happly).1.mpr fun _ group hgroup => .inr ⟨500, ?_⟩
  obtain rfl : "app" = group := Option.some.inj hgroup
  decide +kernel

end Users

end Bosun
