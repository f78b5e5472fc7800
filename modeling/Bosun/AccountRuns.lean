import Bosun.AccountTools
import Bosun.RunConvergence

/-!
# Accounts over whole runs

Which users and groups are as they were declared when a run is through?  An apply may undo what
an earlier one has done: `SparesGroup` says when a user leaves the group of its name alone, and
`spares_user` that a group never harms a user, because the tools take the users along.
-/

namespace Bosun

namespace Users

open GetOpt

/-! ## Users and groups together -/

/-- The user is as it was declared. -/
def UserHolds (spec : UserSpec) (accounts : Accounts) : Prop :=
  match spec.state with
  | .absent => ∀ user ∈ accounts.passwd, user.name ≠ spec.name
  | .present => ∃ user ∈ accounts.passwd, user.name = spec.name ∧ Fits spec user ∧
      ∀ group ∈ spec.group, ⟨group, user.gid⟩ ∈ accounts.group

def GroupHolds (spec : GroupSpec) (accounts : Accounts) : Prop :=
  match spec.state with
  | .absent => ∀ group ∈ accounts.group, group.name ≠ spec.name
  | .present => ∃ group ∈ accounts.group, group.name = spec.name ∧ ∀ gid ∈ spec.gid, gid = group.gid

theorem IsName.idOf_eq_none {name : String} (h : IsName name) : idOf name = none := by
  obtain ⟨first, chars, hlist, hfirst, -⟩ := h.letters
  have hdigit : first.isDigit = false := by
    rw [Bool.eq_false_iff]
    intro hdigit
    simp only [startsName, Bool.or_eq_true, decide_eq_true_eq] at hfirst
    rcases hfirst with hlower | rfl
    · have hletter : 'a'.val ≤ first.val := of_decide_eq_true (Bool.and_eq_true_iff.mp hlower).1
      have hfar : '9'.toNat < 'a'.toNat := by decide
      exact absurd (hfar.trans_le (UInt32.le_iff_toNat_le.mp hletter))
        (Nat.not_lt.mpr (Char.isDigit_iff_toNat.mp hdigit).2)
    · exact absurd hdigit (by decide)
  rw [idOf, if_neg]
  rw [hlist]
  simp [hdigit]

theorem IsName.ne_gid {name : String} (h : IsName name) (gid : Nat) :
    name ≠ "gid=" ++ toString gid := by
  obtain ⟨first, chars, hlist, -, hchars⟩ := h.letters
  rintro rfl
  have hsplit : 'g' :: 'i' :: 'd' :: '=' :: (toString gid).toList = first :: chars := by
    rw [← hlist, String.toList_append]
    rfl
  obtain ⟨-, rfl⟩ := List.cons.inj hsplit
  exact absurd (hchars '=' (by simp)) (by decide)

/-- A name resolves to the group of that name. -/
theorem IsName.mem_of_resolve {name : String} (h : IsName name) {accounts : Accounts} {gid : Nat}
    (hresolve : accounts.resolve name = some gid) : ⟨name, gid⟩ ∈ accounts.group := by
  rw [Accounts.resolve, h.idOf_eq_none, Option.map_eq_some_iff] at hresolve
  obtain ⟨group, hgroup, rfl⟩ := hresolve
  obtain ⟨hmem, rfl⟩ := Accounts.getgrnam_iff.mp hgroup
  exact hmem

section Holds

variable {host : Host} {tables : Tool → Table} (hdoc : Documented host tables)
  {accounts : Accounts}
include hdoc

theorem Documented.eq_primaryGroupName_iff (hgids : accounts.UniqueGids) {name : String}
    (hname : IsName name) {gid : Nat} :
    name = primaryGroupName host accounts gid ↔ ⟨name, gid⟩ ∈ accounts.group := by
  simp only [primaryGroupName, hdoc.lookupGid]
  constructor
  · intro h
    cases hfind : accounts.getgrgid gid with
    | none =>
      simp only [hfind] at h
      exact absurd h (hname.ne_gid gid)
    | some group =>
      simp only [hfind] at h
      obtain ⟨hmem, rfl⟩ := hgids.getgrgid_iff.mp hfind
      rwa [h]
  · intro h
    rw [hgids.getgrgid_iff.mpr ⟨h, rfl⟩]
    rfl

theorem Documented.userSettled_iff_holds (hgids : accounts.UniqueGids) {spec : UserSpec}
    (hnames : ∀ group ∈ spec.group, IsName group) :
    UserSettled host spec accounts ↔ UserHolds spec accounts := by
  rw [hdoc.userSettled_iff, UserHolds]
  cases spec.state with
  | absent => exact Accounts.getpwnam_none
  | present =>
    simp only [Accounts.getpwnam_iff, and_assoc]
    refine exists_congr fun user => and_congr_right fun _ => and_congr_right fun _ =>
      and_congr_right fun _ => forall₂_congr fun group hgroup => ?_
    exact hdoc.eq_primaryGroupName_iff hgids (hnames group hgroup)

theorem Documented.groupSettled_iff_holds {spec : GroupSpec} :
    GroupSettled host spec accounts ↔ GroupHolds spec accounts := by
  rw [hdoc.groupSettled_iff, GroupHolds]
  cases spec.state with
  | absent => exact Accounts.getgrnam_none
  | present => simp only [Accounts.getgrnam_iff, and_assoc]

end Holds

/-! ### What a step does to the groups -/

/-- The groups stay, or one comes that is new in name and number, or one goes that nobody has. -/
inductive GroupsMove (name : String) (before after : Accounts) : Prop
  | same (h : after.group = before.group)
  | more (gid : Nat) (hfresh : before.getgrnam name = none) (hown : HasOwnGid ⟨name, gid⟩ before)
      (h : PutsGroup ⟨name, gid⟩ before after)
  | less (hunused : Unused name before after) (h : DropsGroup name before after)

namespace GroupsMove

variable {name : String} {before after : Accounts} (h : GroupsMove name before after)
include h

theorem uniqueGids (hgids : before.UniqueGids) : after.UniqueGids := by
  cases h with
  | same h => rwa [Accounts.UniqueGids, h]
  | more gid hfresh hown h =>
    intro g hg g' hg' heq
    rcases (h g).mp hg with rfl | ⟨hg, hne⟩ <;> rcases (h g').mp hg' with rfl | ⟨hg', hne'⟩
    · rfl
    · exact absurd heq.symm (hown g' hg' hne')
    · exact absurd heq (hown g hg hne)
    · exact hgids g hg g' hg' heq
  | less hunused h =>
    exact fun g hg g' hg' heq => hgids g ((h g).mp hg).1 g' ((h g').mp hg').1 heq

/-- The group that somebody has stays. -/
theorem keeps {g : GroupEntry} (hg : g ∈ before.group) {user : PasswdEntry}
    (huser : user ∈ after.passwd) (hgid : user.gid = g.gid) : g ∈ after.group := by
  cases h with
  | same h => rwa [h]
  | more gid hfresh hown h => exact (h g).mpr (.inr ⟨hg, Accounts.getgrnam_none.mp hfresh g hg⟩)
  | less hunused h => exact (h g).mpr ⟨hg, fun hname => hunused g hg hname user huser hgid⟩

end GroupsMove

namespace UserStep

variable {host : Host} {spec : UserSpec} {before after : Accounts}

theorem groupsMove (h : UserStep host spec before after) : GroupsMove spec.name before after := by
  cases h with
  | kept _ h => exact .same (by rw [h])
  | added _ user hname h =>
    rcases h.ownGroup with hsame | ⟨hfresh, gid, hown, hputs⟩
    · exact .same hsame
    · exact .more gid (hname ▸ hfresh) (hname ▸ hown) (hname ▸ hputs)
  | changed _ user user' _ h => exact .same h.groups
  | removed _ h =>
    rcases h.groups with hsame | ⟨hdrops, hunused⟩
    · exact .same hsame
    · exact .less hunused hdrops

theorem mem_passwd_iff (h : UserStep host spec before after) {user : PasswdEntry}
    (hne : user.name ≠ spec.name) : user ∈ after.passwd ↔ user ∈ before.passwd := by
  have hputs : ∀ put : PasswdEntry, put.name = spec.name → Puts put before after →
      (user ∈ after.passwd ↔ user ∈ before.passwd) := by
    intro put hname hputs
    rw [hputs user]
    refine ⟨fun h => ?_, fun h => .inr ⟨h, hname ▸ hne⟩⟩
    rcases h with rfl | ⟨h, -⟩
    · exact absurd hname hne
    · exact h
  cases h with
  | kept _ h => rw [h]
  | added _ put hname h => exact hputs put hname h.puts
  | changed _ old put hname h => exact hputs put (h.name.trans hname) h.puts
  | removed _ h => exact (h.users user).trans (and_iff_left hne)

/-- A user stays as declared when another one is applied. -/
theorem spares_user (h : UserStep host spec before after) {other : UserSpec}
    (hne : other.name ≠ spec.name) (hholds : UserHolds other before) : UserHolds other after := by
  unfold UserHolds at hholds ⊢
  cases hstate : other.state with
  | absent =>
    simp only [hstate] at hholds ⊢
    rintro user huser hname
    exact hholds user ((h.mem_passwd_iff (hname ▸ hne)).mp huser) hname
  | present =>
    simp only [hstate] at hholds ⊢
    obtain ⟨user, huser, hname, hfits, hgroup⟩ := hholds
    have huser' : user ∈ after.passwd := (h.mem_passwd_iff (hname ▸ hne)).mpr huser
    exact ⟨user, huser', hname, hfits,
      fun group hg => h.groupsMove.keeps (hgroup group hg) huser' rfl⟩

end UserStep

/-- The apply of the user leaves the group alone: it has another name, or the user is made with
    a group of its own only if the group is wanted, and removed with it only if it is not. -/
def SparesGroup (user : UserSpec) (group : GroupSpec) : Prop :=
  user.name ≠ group.name ∨
    match user.state, group.state with
    | .present, .present | .absent, .absent => True
    | .present, .absent => user.group.isSome = true
    | .absent, .present => False

theorem UserStep.spares_group {host : Host} {spec : UserSpec} {before after : Accounts}
    (h : UserStep host spec before after) {group : GroupSpec} (hspares : SparesGroup spec group)
    (hholds : GroupHolds group before) : GroupHolds group after := by
  have hsame : after.group = before.group → GroupHolds group after := fun hsame => by
    rwa [GroupHolds, hsame]
  cases h with
  | kept _ h => exact hsame (by rw [h])
  | changed _ user user' _ h => exact hsame h.groups
  | added hpresent user hname h =>
    rcases h.ownGroup with hown | ⟨hfresh, gid, hown, hputs⟩
    · exact hsame hown
    · rw [hname] at hfresh hputs
      unfold GroupHolds at hholds ⊢
      cases hstate : group.state with
      | present =>
        simp only [hstate] at hholds ⊢
        obtain ⟨g, hg, hrest⟩ := hholds
        exact ⟨g, (hputs g).mpr (.inr ⟨hg, Accounts.getgrnam_none.mp hfresh g hg⟩), hrest⟩
      | absent =>
        simp only [hstate] at hholds ⊢
        rcases hspares with hne | hgiven
        · intro g hg
          rcases (hputs g).mp hg with rfl | ⟨hg, -⟩
          · exact hne
          · exact hholds g hg
        · -- a group was given, and none is made
          simp only [hpresent, hstate] at hgiven
          obtain ⟨text, htext⟩ := Option.isSome_iff_exists.mp hgiven
          exact fun g hg => hholds g ((h.gid text htext).2 ▸ hg)
  | removed habsent h =>
    rcases h.groups with hgroups | ⟨hdrops, -⟩
    · exact hsame hgroups
    · unfold GroupHolds at hholds ⊢
      cases hstate : group.state with
      | absent =>
        simp only [hstate] at hholds ⊢
        exact fun g hg => hholds g ((hdrops g).mp hg).1
      | present =>
        simp only [hstate] at hholds ⊢
        obtain ⟨g, hg, hname, hgid⟩ := hholds
        refine ⟨g, (hdrops g).mpr ⟨hg, fun heq => ?_⟩, hname, hgid⟩
        rcases hspares with hne | hfalse
        · exact hne (heq.symm.trans hname)
        · simp [habsent, hstate] at hfalse

/-- The user itself is as declared. -/
theorem UserStep.holds {host : Host} {tables : Tool → Table} (hdoc : Documented host tables)
    {spec : UserSpec} {before after : Accounts} (h : UserStep host spec before after)
    (hgids : before.UniqueGids) (hnames : ∀ group ∈ spec.group, IsName group) :
    UserHolds spec after := by
  cases h with
  | kept hsettled h =>
    rw [h]
    exact (hdoc.userSettled_iff_holds hgids hnames).mp hsettled
  | added hstate user hname h =>
    simp only [UserHolds, hstate]
    refine ⟨user, (h.puts user).mpr (.inl rfl), hname, h.fits, fun group hgroup => ?_⟩
    obtain ⟨hresolve, hsame⟩ := h.gid group hgroup
    rw [hsame]
    exact (hnames group hgroup).mem_of_resolve hresolve
  | changed hstate user user' hname h =>
    simp only [UserHolds, hstate]
    refine ⟨user', (h.puts user').mpr (.inl rfl), h.name.trans hname, h.fits,
      fun group hgroup => ?_⟩
    rw [h.groups]
    rcases h.group hgroup with ⟨hsame, hgid⟩ | ⟨-, hresolve⟩
    · rw [hgid]
      exact (hdoc.eq_primaryGroupName_iff hgids (hnames group hgroup)).mp hsame
    · exact (hnames group hgroup).mem_of_resolve hresolve
  | removed hstate h =>
    simp only [UserHolds, hstate]
    exact fun user huser => ((h.users user).mp huser).2

/-! ### What a step does to the users -/

namespace GroupStep

variable {host : Host} {spec : GroupSpec} {before after : Accounts}

theorem uniqueGids (h : GroupStep host spec before after) (hgids : before.UniqueGids) :
    after.UniqueGids := by
  cases h with
  | kept _ h => rwa [h]
  | added _ group _ h => exact (GroupsMove.more group.gid h.fresh h.own h.puts).uniqueGids hgids
  | changed _ group group' _ h =>
    intro g hg g' hg' heq
    rcases (h.puts g).mp hg with rfl | ⟨hg, hne⟩ <;>
      rcases (h.puts g').mp hg' with rfl | ⟨hg', hne'⟩
    · rfl
    · exact absurd heq.symm (h.own g' hg' hne')
    · exact absurd heq (h.own g hg hne)
    · exact hgids g hg g' hg' heq
  | removed _ h =>
    exact fun g hg g' hg' heq => hgids g ((h.groups g).mp hg).1 g' ((h.groups g').mp hg').1 heq

theorem spares_group (h : GroupStep host spec before after) {other : GroupSpec}
    (hne : other.name ≠ spec.name) (hholds : GroupHolds other before) : GroupHolds other after := by
  have hmem : ∀ g : GroupEntry, g.name = other.name → (g ∈ after.group ↔ g ∈ before.group) := by
    intro g hg
    have hputs : ∀ put : GroupEntry, put.name = spec.name → PutsGroup put before after →
        (g ∈ after.group ↔ g ∈ before.group) := by
      intro put hput hputs
      rw [hputs g]
      refine ⟨fun h => ?_, fun h => .inr ⟨h, by rwa [hput, hg]⟩⟩
      rcases h with rfl | ⟨h, -⟩
      · exact absurd (hg.symm.trans hput) hne
      · exact h
    cases h with
    | kept _ h => rw [h]
    | added _ group hname h => exact hputs group hname h.puts
    | changed _ group group' hname h => exact hputs group' (h.name.trans hname) h.puts
    | removed _ h => exact (h.groups g).trans (and_iff_left (by rwa [hg]))
  unfold GroupHolds at hholds ⊢
  cases hstate : other.state with
  | absent =>
    simp only [hstate] at hholds ⊢
    exact fun g hg hname => hholds g ((hmem g hname).mp hg) hname
  | present =>
    simp only [hstate] at hholds ⊢
    obtain ⟨g, hg, hname, hgid⟩ := hholds
    exact ⟨g, (hmem g hname).mpr hg, hname, hgid⟩

theorem holds {tables : Tool → Table} (hdoc : Documented host tables)
    (h : GroupStep host spec before after) : GroupHolds spec after := by
  have hread : ∀ {gid : Nat} {group : GroupEntry}, gid ∈ spec.gid →
      (∀ text ∈ spec.gid.map toString, idOf text = some group.gid) → gid = group.gid := by
    intro gid group hgid h
    have hid := h (toString gid) (by rw [Option.mem_def.mp hgid]; rfl)
    rw [idOf_toString] at hid
    exact Option.some.inj hid
  cases h with
  | kept hsettled h =>
    rw [h]
    exact hdoc.groupSettled_iff_holds.mp hsettled
  | added hstate group hname h =>
    simp only [GroupHolds, hstate]
    exact ⟨group, (h.puts group).mpr (.inl rfl), hname, fun gid hgid => hread hgid h.gid⟩
  | changed hstate group group' hname h =>
    simp only [GroupHolds, hstate]
    refine ⟨group', (h.puts group').mpr (.inl rfl), h.name.trans hname, fun gid hgid => ?_⟩
    have hchosen := h.gid
    simp only [changingGroup, Option.mem_def.mp hgid, Option.map_some, Option.elim_some,
      idOf_toString] at hchosen
    exact Option.some.inj hchosen
  | removed hstate h =>
    simp only [GroupHolds, hstate]
    exact fun g hg => ((h.groups g).mp hg).2

/-- **Users go along with their groups.**  A user that is as declared stays so, whatever happens
    to a group. -/
theorem spares_user (h : GroupStep host spec before after) (hgids : before.UniqueGids)
    {user : UserSpec} (hholds : UserHolds user before) : UserHolds user after := by
  unfold UserHolds at hholds ⊢
  cases hstate : user.state with
  | absent =>
    simp only [hstate] at hholds ⊢
    cases h with
    | kept _ h => rwa [h]
    | added _ _ _ h => rwa [h.users]
    | removed _ h => rwa [h.users]
    | changed _ group group' _ h =>
      intro u hu
      rw [h.users, List.mem_map] at hu
      obtain ⟨old, hold, rfl⟩ := hu
      have hname : (moveUser group.gid group'.gid old).name = old.name := by
        unfold moveUser
        split <;> rfl
      rw [hname]
      exact hholds old hold
  | present =>
    simp only [hstate] at hholds ⊢
    obtain ⟨u, hu, hname, hfits, hgroup⟩ := hholds
    cases h with
    | kept _ h =>
      rw [h]
      exact ⟨u, hu, hname, hfits, hgroup⟩
    | added _ group _ h =>
      refine ⟨u, h.users ▸ hu, hname, hfits, fun text htext => ?_⟩
      have hg := hgroup text htext
      exact (h.puts _).mpr (.inr ⟨hg, Accounts.getgrnam_none.mp h.fresh _ hg⟩)
    | removed _ h =>
      refine ⟨u, h.users ▸ hu, hname, hfits, fun text htext => ?_⟩
      have hg := hgroup text htext
      exact (h.groups _).mpr ⟨hg, fun heq => h.unused _ hg heq u hu rfl⟩
    | changed _ group group' _ h =>
      refine ⟨moveUser group.gid group'.gid u, h.users ▸ List.mem_map_of_mem hu, ?_⟩
      unfold moveUser
      by_cases hmoves : u.gid = group.gid
      · rw [if_pos hmoves]
        refine ⟨hname, ⟨hfits.uid, hfits.shell, hfits.home, hfits.comment⟩, fun text htext => ?_⟩
        -- the group of the user is the one that changes
        have hsame := hgids _ (hgroup text htext) group h.there hmoves
        have htext' : text = group'.name := (congrArg GroupEntry.name hsame).trans h.name.symm
        rw [htext']
        exact (h.puts _).mpr (.inl rfl)
      · rw [if_neg hmoves]
        refine ⟨hname, hfits, fun text htext => ?_⟩
        have hg := hgroup text htext
        refine (h.puts _).mpr (.inr ⟨hg, fun heq => hmoves ?_⟩)
        exact congrArg GroupEntry.gid (Accounts.eq_of_group_name hg h.there (heq.trans h.name))

end GroupStep

/-! ## The run -/

/-- A primitive that reads its payload and works on the accounts; the rest of the state is `T`. -/
def accountPrimitive {P T σ : Type} (kind : String) (decode : P → Except String σ)
    (plan : σ → P → Except PrimitiveError (Diff P))
    (apply : σ → Bool → Accounts → Except PrimitiveError ChangeReport × Accounts) :
    Primitive P (T × Accounts) where
  plan r s :=
    match decode r.payload with
    | .error e => (.returned (.error (.invalidPayload (kind ++ " payload: " ++ e))), s)
    | .ok spec => (.returned (plan spec r.payload), s)
  apply r diff ctx :=
    match diff with
    | .noChange => (.returned (.ok .noChange), ctx)
    | .add _ _ | .update _ _ _ =>
      match decode r.payload with
      | .error e => (.returned (.error (.invalidPayload (kind ++ " payload: " ++ e))), ctx)
      | .ok spec =>
        let (result, accounts) := apply spec false ctx.state.2
        (.returned result, { ctx with state := (ctx.state.1, accounts) })

def USERS_USER : ResourceKind := ⟨"users.user"⟩
def USERS_GROUP : ResourceKind := ⟨"users.group"⟩

/-- How the payloads are read. -/
structure Payloads (P : Type) where
  user : P → Except String UserSpec
  group : P → Except String GroupSpec
  pending : ResourceKind → P

section Run

variable {P T : Type} (host : Host) (payloads : Payloads P)

def userPrimitive : Primitive P (T × Accounts) :=
  accountPrimitive "users.user" payloads.user
    (fun spec payload => planUser host (payloads.pending USERS_USER) payload spec)
    (applyUser host)

def groupPrimitive : Primitive P (T × Accounts) :=
  accountPrimitive "users.group" payloads.group
    (fun spec payload => planGroup host (payloads.pending USERS_GROUP) payload spec)
    (applyGroup host)

/-- The run knows both kinds, and for the other resources of the registry, the invalidation of
    facts and the pauses nothing touches the accounts. -/
structure RunsAccounts (args : ApplyArgs P (T × Accounts)) : Prop where
  user : args.primitives USERS_USER = some (userPrimitive host payloads)
  group : args.primitives USERS_GROUP = some (groupPrimitive host payloads)
  plan : ∀ r ∈ args.registry.resources, r.kind ≠ USERS_USER → r.kind ≠ USERS_GROUP →
    ∀ primitive, args.primitives r.kind = some primitive → ∀ s, (primitive.plan r s).2.2 = s.2
  apply : ∀ r ∈ args.registry.resources, r.kind ≠ USERS_USER → r.kind ≠ USERS_GROUP →
    ∀ primitive, args.primitives r.kind = some primitive → ∀ diff ctx,
      (primitive.apply r diff ctx).2.state.2 = ctx.state.2
  markDirty : ∀ r ∈ args.registry.resources, ∀ s, (args.markDirty r.kind s).2 = s.2
  pause : ∀ total s, (args.platform.cancellableSleep total s).2.2 = s.2

/-- A user or a group is as declared; any other resource is not looked at. -/
structure AccountHolds (r : Resource P) (accounts : Accounts) : Prop where
  user : ∀ spec, r.kind = USERS_USER → payloads.user r.payload = .ok spec → UserHolds spec accounts
  group : ∀ spec, r.kind = USERS_GROUP → payloads.group r.payload = .ok spec →
    GroupHolds spec accounts

/-- The apply of `late` leaves alone what `early` declares. -/
structure SparesAccount (late early : Resource P) : Prop where
  users : late.kind = USERS_USER → early.kind = USERS_USER → ∀ spec spec',
    payloads.user late.payload = .ok spec → payloads.user early.payload = .ok spec' →
    spec'.name ≠ spec.name
  groups : late.kind = USERS_GROUP → early.kind = USERS_GROUP → ∀ spec spec',
    payloads.group late.payload = .ok spec → payloads.group early.payload = .ok spec' →
    spec'.name ≠ spec.name
  userGroup : late.kind = USERS_USER → early.kind = USERS_GROUP → ∀ spec spec',
    payloads.user late.payload = .ok spec → payloads.group early.payload = .ok spec' →
    SparesGroup spec spec'

/-- Each group a user is given is given by a name. -/
def GroupsByName (registry : Registry P) : Prop :=
  ∀ r ∈ registry.resources, r.kind = USERS_USER → ∀ spec, payloads.user r.payload = .ok spec →
    ∀ group ∈ spec.group, IsName group

variable {host payloads} {args : ApplyArgs P (T × Accounts)}

/-- What an apply that succeeds has done. -/
theorem accountPrimitive_apply {σ : Type} {kind : String} {decode : P → Except String σ}
    {plan : σ → P → Except PrimitiveError (Diff P)}
    {apply : σ → Bool → Accounts → Except PrimitiveError ChangeReport × Accounts} {r : Resource P}
    {diff : Diff P} (hdiff : diff ≠ .noChange) {ctx : ApplyCtx (T × Accounts)}
    {report : ChangeReport}
    (h : ((accountPrimitive kind decode plan apply).apply r diff ctx).1 = .returned (.ok report)) :
    ∃ spec, decode r.payload = .ok spec ∧ apply spec false ctx.state.2 =
      (.ok report, ((accountPrimitive kind decode plan apply).apply r diff ctx).2.state.2) := by
  unfold accountPrimitive at h ⊢
  dsimp only at h ⊢
  cases hdecode : decode r.payload with
  | error e =>
    cases diff with
    | noChange => exact absurd rfl hdiff
    | add description payload => simp [hdecode] at h
    | update source target description => simp [hdecode] at h
  | ok spec =>
    refine ⟨spec, rfl, ?_⟩
    rcases hrun : apply spec false ctx.state.2 with ⟨result, accounts⟩
    cases diff with
    | noChange => exact absurd rfl hdiff
    | add description payload =>
      simp only [hdecode, hrun] at h ⊢
      cases h
      rfl
    | update source target description =>
      simp only [hdecode, hrun] at h ⊢
      cases h
      rfl

/-- The plan changes nothing, and finds something to do. -/
theorem accountPrimitive_plan {σ : Type} {kind : String} {decode : P → Except String σ}
    {plan : σ → P → Except PrimitiveError (Diff P)}
    {apply : σ → Bool → Accounts → Except PrimitiveError ChangeReport × Accounts}
    (hplan : ∀ spec payload, plan spec payload ≠ .ok .noChange) (r : Resource P)
    (s : T × Accounts) :
    ((accountPrimitive kind decode plan apply).plan r s).2 = s ∧
      ((accountPrimitive kind decode plan apply).plan r s).1 ≠ .returned (.ok .noChange) := by
  unfold accountPrimitive
  dsimp only
  split
  · exact ⟨rfl, by simp⟩
  · exact ⟨rfl, fun h => hplan _ _ (Call.returned.inj h)⟩

theorem userPrimitive_plan (r : Resource P) (s : T × Accounts) :
    ((userPrimitive host payloads).plan r s).2 = s ∧
      ((userPrimitive host payloads).plan r s).1 ≠ .returned (.ok .noChange) := by
  refine accountPrimitive_plan (fun spec payload => ?_) r s
  unfold planUser
  cases validateUserName host spec.name <;> simp [Except.map]

theorem groupPrimitive_plan (r : Resource P) (s : T × Accounts) :
    ((groupPrimitive host payloads).plan r s).2 = s ∧
      ((groupPrimitive host payloads).plan r s).1 ≠ .returned (.ok .noChange) := by
  refine accountPrimitive_plan (fun spec payload => ?_) r s
  unfold planGroup
  cases validateGroupName host spec.name <;> simp [Except.map]

/-- **The accounts converge.**  One call at a time, the tools keep what a whole run needs. -/
theorem RunsAccounts.converges {tables : Tool → Table} (hdoc : Documented host tables)
    (hruns : RunsAccounts host payloads args) (hnames : GroupsByName payloads args.registry) :
    Converges args (fun s => s.2.UniqueGids) (fun r s => AccountHolds payloads r s.2)
      (SparesAccount payloads) := by
  have hsteady : ∀ s s' : T × Accounts, s'.2 = s.2 →
      Steady (fun s => s.2.UniqueGids) (fun r s => AccountHolds payloads r s.2) s s' := by
    intro s s' heq hs
    dsimp only
    rw [heq]
    exact ⟨hs, fun _ hr => hr⟩
  refine ⟨fun total s => hsteady _ _ (hruns.pause total s), ?_, ?_,
    fun r hr s => hsteady _ _ (hruns.markDirty r hr s), ?_⟩
  · intro r hr primitive s hprimitive
    refine hsteady _ _ ?_
    by_cases huser : r.kind = USERS_USER
    · obtain rfl := Option.some.inj (hruns.user.symm.trans (huser ▸ hprimitive))
      rw [(userPrimitive_plan r s).1]
    · by_cases hgroup : r.kind = USERS_GROUP
      · obtain rfl := Option.some.inj (hruns.group.symm.trans (hgroup ▸ hprimitive))
        rw [(groupPrimitive_plan r s).1]
      · exact hruns.plan r hr huser hgroup primitive hprimitive s
  · intro r _ primitive s hprimitive _ hplanned
    constructor
    · intro spec huser
      obtain rfl := Option.some.inj (hruns.user.symm.trans (huser ▸ hprimitive))
      exact absurd hplanned (userPrimitive_plan r s).2
    · intro spec hgroup
      obtain rfl := Option.some.inj (hruns.group.symm.trans (hgroup ▸ hprimitive))
      exact absurd hplanned (groupPrimitive_plan r s).2
  · intro r hr primitive diff ctx report hprimitive hdiff hok _ hgids
    by_cases huser : r.kind = USERS_USER
    · obtain rfl := Option.some.inj (hruns.user.symm.trans (huser ▸ hprimitive))
      obtain ⟨spec, hspec, happlied⟩ := accountPrimitive_apply hdiff hok
      have hstep := hdoc.userStep happlied
      refine ⟨hstep.groupsMove.uniqueGids hgids, ⟨?_, ?_⟩, fun early hspares hearly => ⟨?_, ?_⟩⟩
      · intro spec' _ hspec'
        obtain rfl := Except.ok.inj (hspec.symm.trans hspec')
        exact hstep.holds hdoc hgids (hnames r hr huser spec hspec)
      · intro spec' hkind
        exact absurd (huser.symm.trans hkind) (by decide)
      · intro spec' hkind hspec'
        exact hstep.spares_user (hspares.users huser hkind spec spec' hspec hspec')
          (hearly.user spec' hkind hspec')
      · intro spec' hkind hspec'
        exact hstep.spares_group (hspares.userGroup huser hkind spec spec' hspec hspec')
          (hearly.group spec' hkind hspec')
    · by_cases hgroup : r.kind = USERS_GROUP
      · obtain rfl := Option.some.inj (hruns.group.symm.trans (hgroup ▸ hprimitive))
        obtain ⟨spec, hspec, happlied⟩ := accountPrimitive_apply hdiff hok
        have hstep := hdoc.groupStep happlied
        refine ⟨hstep.uniqueGids hgids, ⟨?_, ?_⟩, fun early hspares hearly => ⟨?_, ?_⟩⟩
        · intro spec' hkind
          exact absurd hkind huser
        · intro spec' _ hspec'
          obtain rfl := Except.ok.inj (hspec.symm.trans hspec')
          exact hstep.holds hdoc
        · intro spec' hkind hspec'
          exact hstep.spares_user hgids (hearly.user spec' hkind hspec')
        · intro spec' hkind hspec'
          exact hstep.spares_group (hspares.groups hgroup hkind spec spec' hspec hspec')
            (hearly.group spec' hkind hspec')
      · have hsame := hruns.apply r hr huser hgroup primitive hprimitive diff ctx
        dsimp only
        rw [hsame]
        exact ⟨hgids, ⟨fun _ hkind => absurd hkind huser, fun _ hkind => absurd hkind hgroup⟩,
          fun early _ hearly => hearly⟩

/-- Every user and every group of the manifest is settled. -/
structure AllSettled (host : Host) (payloads : Payloads P) (registry : Registry P)
    (accounts : Accounts) : Prop where
  user : ∀ r ∈ registry.resources, r.kind = USERS_USER → ∀ spec,
    payloads.user r.payload = .ok spec → UserSettled host spec accounts
  group : ∀ r ∈ registry.resources, r.kind = USERS_GROUP → ∀ spec,
    payloads.group r.payload = .ok spec → GroupSettled host spec accounts

/-- A run of a settled manifest leaves the accounts alone. -/
theorem RunsAccounts.idle (hruns : RunsAccounts host payloads args) {accounts : Accounts}
    (hsettled : AllSettled host payloads args.registry accounts) :
    Converges args (fun s => s.2 = accounts) (fun _ _ => True) (fun _ _ => True) := by
  have hsteady : ∀ s s' : T × Accounts, s'.2 = s.2 →
      Steady (P := P) (fun s => s.2 = accounts) (fun _ _ => True) s s' :=
    fun s s' heq hs => ⟨heq.trans hs, fun _ _ => trivial⟩
  refine ⟨fun total s => hsteady _ _ (hruns.pause total s), ?_, fun _ _ _ _ _ _ _ => trivial,
    fun r hr s => hsteady _ _ (hruns.markDirty r hr s), ?_⟩
  · intro r hr primitive s hprimitive
    refine hsteady _ _ ?_
    by_cases huser : r.kind = USERS_USER
    · obtain rfl := Option.some.inj (hruns.user.symm.trans (huser ▸ hprimitive))
      rw [(userPrimitive_plan r s).1]
    · by_cases hgroup : r.kind = USERS_GROUP
      · obtain rfl := Option.some.inj (hruns.group.symm.trans (hgroup ▸ hprimitive))
        rw [(groupPrimitive_plan r s).1]
      · exact hruns.plan r hr huser hgroup primitive hprimitive s
  · intro r hr primitive diff ctx report hprimitive hdiff hok _ hsame
    refine ⟨?_, trivial, fun _ _ _ => trivial⟩
    dsimp only at hsame ⊢
    by_cases huser : r.kind = USERS_USER
    · obtain rfl := Option.some.inj (hruns.user.symm.trans (huser ▸ hprimitive))
      obtain ⟨spec, hspec, happlied⟩ := accountPrimitive_apply hdiff hok
      have hleft := (hsettled.user r hr huser spec hspec).apply_snd false
      rw [hsame] at happlied
      rw [happlied] at hleft
      exact hleft
    · by_cases hgroup : r.kind = USERS_GROUP
      · obtain rfl := Option.some.inj (hruns.group.symm.trans (hgroup ▸ hprimitive))
        obtain ⟨spec, hspec, happlied⟩ := accountPrimitive_apply hdiff hok
        have hleft := (hsettled.group r hr hgroup spec hspec).apply_snd false
        rw [hsame] at happlied
        rw [happlied] at hleft
        exact hleft
      · exact (hruns.apply r hr huser hgroup primitive hprimitive diff ctx).trans hsame

/-- **A manifest of users and groups converges.**  When a run has gone through, all of its users
    and groups are as declared at once, also where the tools have touched more than one of them;
    and another run that goes through leaves the accounts as they are. -/
theorem accounts_converge {tables : Tool → Table} (hdoc : Documented host tables)
    (hruns : RunsAccounts host payloads args) (hnames : GroupsByName payloads args.registry)
    {it : Registry.HashIter} {order : List ResourceId}
    (horder : args.registry.topologicalOrder it = .ok order)
    (hundisturbed : Undisturbed args (SparesAccount payloads) order)
    {ctx : ApplyCtx (T × Accounts)} (hgids : ctx.state.2.UniqueGids)
    (hreached : ∀ o ∈ (args.run order ctx).resources, o.outcome.Reached) :
    AllSettled host payloads args.registry (args.run order ctx).ctx.state.2 ∧
    ∀ it' order' ctx', args.registry.topologicalOrder it' = .ok order' →
      ctx'.state.2 = (args.run order ctx).ctx.state.2 →
      (∀ o ∈ (args.run order' ctx').resources, o.outcome.Reached) →
      (args.run order' ctx').ctx.state.2 = (args.run order ctx).ctx.state.2 := by
  obtain ⟨hgids', hholds⟩ :=
    run_converges (hruns.converges hdoc hnames) hundisturbed hgids hreached
  have hall : ∀ r ∈ args.registry.resources,
      AccountHolds payloads r (args.run order ctx).ctx.state.2 := by
    intro r hr
    refine hholds r.id ?_ r (Registry.get_eq_some.mpr ⟨hr, rfl⟩)
    exact (Registry.topologicalOrder_ok horder).1.mem_iff.mpr (List.mem_map_of_mem hr)
  have hsettled : AllSettled host payloads args.registry (args.run order ctx).ctx.state.2 := by
    refine ⟨fun r hr hkind spec hspec => ?_, fun r hr hkind spec hspec => ?_⟩
    · exact (hdoc.userSettled_iff_holds hgids' (hnames r hr hkind spec hspec)).mpr
        ((hall r hr).user spec hkind hspec)
    · exact hdoc.groupSettled_iff_holds.mpr ((hall r hr).group spec hkind hspec)
  refine ⟨hsettled, fun it' order' ctx' _ hsame hreached' => ?_⟩
  have hfree : Undisturbed args (fun _ _ => True) order' :=
    List.pairwise_of_forall fun _ _ _ _ _ _ => trivial
  exact (run_converges (hruns.idle hsettled) hfree hsame hreached').1

end Run

/-! A manifest with the group and the user `app`. -/

def appPayloads : Payloads (UserSpec ⊕ GroupSpec) where
  user payload := payload.elim .ok fun _ => .error "missing field"
  group payload := payload.elim (fun _ => .error "missing field") .ok
  pending _ := .inr appGroupSpec

def appRegistry : Registry (UserSpec ⊕ GroupSpec) where
  resources :=
    [⟨⟨"users.user:app"⟩, USERS_USER, 1, .inl appSpec, [], [], [⟨"users.group:app"⟩]⟩,
     ⟨⟨"users.group:app"⟩, USERS_GROUP, 1, .inr appGroupSpec, [], [], []⟩]
  nodup := by decide

def appArgs : ApplyArgs (UserSpec ⊕ GroupSpec) (Nat × Accounts) where
  primitives kind :=
    if kind = USERS_USER then some (userPrimitive appHost appPayloads)
    else if kind = USERS_GROUP then some (groupPrimitive appHost appPayloads)
    else none
  registry := appRegistry
  markDirty _ s := s
  opts := ⟨false, .disabled⟩
  platform :=
    { clock := Prod.fst
      cancelled := fun _ => false
      tick := id
      sleep := fun d s => (s.1 + d, s.2)
      clock_le_tick := fun _ => le_rfl
      clock_add_le_sleep := fun _ _ => le_rfl
      cancelled_tick := fun _ h => h
      cancelled_sleep := fun _ _ h => h }

theorem appArgs_runsAccounts : RunsAccounts appHost appPayloads appArgs where
  user := rfl
  group := rfl
  plan r _ huser hgroup primitive h := by simp [appArgs, huser, hgroup] at h
  apply r _ huser hgroup primitive h := by simp [appArgs, huser, hgroup] at h
  markDirty _ _ _ := rfl
  pause total s := appArgs.platform.cancellableSleep_induction (fun s' => s'.2 = s.2)
    (fun _ h => h) (fun _ _ h => h) total rfl

theorem accounts_converge_app :
    (appArgs.run [⟨"users.group:app"⟩, ⟨"users.user:app"⟩] ⟨∅, (0, noAccounts)⟩).ctx.state.2 =
      appUser ∧
    AllSettled appHost appPayloads appRegistry appUser := by
  have hrun : (appArgs.run [⟨"users.group:app"⟩, ⟨"users.user:app"⟩]
      ⟨∅, (0, noAccounts)⟩).ctx.state.2 = appUser := by decide +kernel
  refine ⟨hrun, ?_⟩
  rw [← hrun]
  refine (accounts_converge appHost_documented appArgs_runsAccounts ?_
    (by decide : appRegistry.topologicalOrder ⟨id, fun _ => .rfl⟩ =
      .ok [⟨"users.group:app"⟩, ⟨"users.user:app"⟩]) ?_ (fun _ hg => absurd hg List.not_mem_nil)
    ?_).1
  · intro r hr hkind spec hspec group hgroup
    rcases List.mem_cons.mp hr with rfl | hr
    · obtain rfl := Except.ok.inj hspec
      obtain rfl : "app" = group := Option.some.inj hgroup
      exact ⟨by decide, 'a', ['p', 'p'], by decide, by decide, List.all_eq_true.mp (by decide)⟩
    · obtain rfl := List.mem_singleton.mp hr
      exact absurd hkind (by decide)
  · refine List.pairwise_pair.mpr fun early late hearly hlate => ?_
    obtain rfl := Option.some.inj hearly
    obtain rfl := Option.some.inj hlate
    refine ⟨fun _ h => absurd h (by decide), fun h => absurd h (by decide), ?_⟩
    intro _ _ spec spec' hspec hspec'
    obtain rfl := Except.ok.inj hspec
    obtain rfl := Except.ok.inj hspec'
    exact .inr trivial
  · unfold Outcome.Reached
    decide +kernel

end Users

end Bosun
