import Bosun.Library.FileTree
import Bosun.ModuleLoading

/-!
# Paths stay in the bundle

The resolvers of a bundle over a tree of files with symbolic links anywhere in it.  The entry,
the inventory and the load paths are resolved below the root of the bundle, which is canonical.
A template is resolved below the `templates` directory of its module: that path is written
down, not found, and it is canonicalized like any other.
-/

namespace Bosun

open FileTree

/-! ## The file system as a tree -/

/-- What one resolution may go through on Linux. -/
def MAXSYMLINKS : Nat := 40

def walkError : WalkError → IoError
  | .notFound => .notFound
  | .notDir => .other "Not a directory (os error 20)"
  | .tooManyLinks => .other "Too many levels of symbolic links (os error 40)"

def lookupPath (t : Tree) (cwd : List String) (follow : Bool) (path : String) :
    Except IoError (List String) :=
  if path = "" then .error .notFound
  else (t.walk follow MAXSYMLINKS (if isAbsolute path then [] else cwd) (segments path)).mapError
    walkError

def treeDisk (t : Tree) (cwd : List String) : Disk where
  canonicalize := fun path => (lookupPath t cwd true path).map render
  isSymlink := fun path => (lookupPath t cwd false path).map fun place =>
    match t.node place with
    | some (.link _) => true
    | _ => false
  readToString := fun path =>
    match lookupPath t cwd true path with
    | .error e => .error e
    | .ok place =>
      match t.node place with
      | some (.file content) => .ok content
      | _ => .error (.other "Is a directory (os error 21)")

/-- A bundle in a tree. -/
structure TreeBundle extends Bundle where
  tree : Tree
  cwd : List String
  cwd_dir : tree.node cwd = some .dir
  onTree : toBundle.disk = treeDisk tree cwd

/-! ## Paths of places -/

section Render

variable {place above : List String} {name : String}

theorem render_ne_empty (place : List String) : render place ≠ "" := by
  intro h
  have habs := isAbsolute_render place
  rw [h] at habs
  cases habs

theorem component_name (h : IsName name) : component name = some (.normal name) := by
  simp [component, h.ne_empty, h.ne_dot, h.ne_dotdot]

theorem components_render (hnames : ∀ name ∈ place, IsName name) :
    components (render place) = .rootDir :: place.reverse.map .normal := by
  by_cases hplace : place = []
  · subst hplace
    decide
  · have hrest : place.reverse.filterMap component = place.reverse.map .normal := by
      rw [← List.filterMap_eq_map]
      apply List.filterMap_congr
      intro name hname
      exact component_name (hnames name (List.mem_reverse.mp hname))
    have hempty : component "" = none := by decide
    rw [components, isAbsolute_render, if_pos rfl,
      segments_render hplace fun n hn => (hnames n hn).no_slash, List.filterMap_cons, hempty, hrest]
    rfl

theorem map_normal_inj {names names' : List String} :
    names.map PathComponent.normal = names'.map PathComponent.normal ↔ names = names' := by
  apply List.map_inj_right
  intro a b h
  exact PathComponent.normal.inj h

/-- Below, for places: a suffix. -/
theorem pathStartsWith_render (hnames : ∀ name ∈ place, IsName name)
    (habove : ∀ name ∈ above, IsName name) :
    pathStartsWith (render place) (render above) = true ↔ above <:+ place := by
  rw [pathStartsWith, components_render hnames, components_render habove,
    List.isPrefixOf_iff_prefix, List.prefix_cons_inj, ← List.reverse_prefix]
  constructor
  · rintro ⟨rest, hrest⟩
    obtain ⟨names, names', hsplit, hnames, -⟩ := List.map_eq_append_iff.mp hrest.symm
    rw [map_normal_inj] at hnames
    exact ⟨names', by rw [← hnames, hsplit]⟩
  · intro h
    exact h.map _

theorem namesBelow_render {names : List String} (hnames : ∀ name ∈ place, IsName name)
    (habove : ∀ name ∈ above, IsName name)
    (h : namesBelow (render above) (render place) = some names) :
    place = names.reverse ++ above := by
  unfold namesBelow at h
  split at h
  · rename_i hbelow
    obtain ⟨rest, rfl⟩ := (pathStartsWith_render hnames habove).mp hbelow
    have hsplit : components (render (rest ++ above)) =
        components (render above) ++ rest.reverse.map .normal := by
      rw [components_render hnames, components_render habove]
      simp
    rw [hsplit, List.drop_left] at h
    have hrest : rest.reverse = names := by simpa [List.filterMap_map, Function.comp_def] using h
    rw [← hrest, List.reverse_reverse]
  · cases h

/-- A name under a place. -/
theorem joinPath_render (hnames : ∀ name ∈ place, IsName name) (name : String) :
    joinPath (render place) name = render (name :: place) := by
  cases place with
  | nil => simp [joinPath, render]
  | cons last above =>
    have hlast := hnames last List.mem_cons_self
    obtain ⟨c, hc, hne⟩ : ∃ c, (render (last :: above)).toList.getLast? = some c ∧ c ≠ '/' := by
      have hlist : last.toList ≠ [] := by
        intro h
        exact hlast.ne_empty (String.toList_inj.mp h)
      refine ⟨last.toList.getLast hlist, ?_, ?_⟩
      · rw [render_cons, String.toList_append, List.getLast?_append,
          List.getLast?_eq_some_getLast hlist]
        rfl
      · intro h
        exact hlast.no_slash (h ▸ List.getLast_mem hlist)
    have hjoin : joinPath (render (last :: above)) name =
        render (last :: above) ++ "/" ++ name := by
      unfold joinPath
      split
      · rename_i heq
        simp [heq] at hc
      · rename_i heq
        rw [heq] at hc
        exact absurd (Option.some.inj hc).symm hne
      · rfl
    have hcons : render (name :: last :: above) = render (last :: above) ++ "/" ++ name := by
      have h := @render_cons name (last :: above)
      rwa [if_neg (List.cons_ne_nil _ _)] at h
    rw [hjoin, hcons]

theorem segments_joinPath (hnames : ∀ name ∈ place, IsName name) (relative : String) :
    segments (joinPath (render place) relative) = "" :: (place.reverse ++ segments relative) := by
  rw [joinPath_render hnames, render_cons]
  by_cases hplace : place = []
  · subst hplace
    rw [if_pos rfl, segments_append]
    rfl
  · rw [if_neg hplace, segments_append, segments_render hplace fun n hn => (hnames n hn).no_slash]
    rfl

end Render

/-! ## What the file system finds -/

section Find

variable {t : Tree} {cwd place : List String} {path file : String}

theorem lookupPath_real (hcwd : t.node cwd = some .dir) {found : List String}
    (h : lookupPath t cwd true path = .ok found) : t.Real found := by
  unfold lookupPath at h
  split at h
  · cases h
  · cases hwalk : t.walk true MAXSYMLINKS (if isAbsolute path then [] else cwd) (segments path) with
    | error e =>
      rw [hwalk] at h
      cases h
    | ok place =>
      rw [hwalk] at h
      cases h
      apply Tree.walk_real _ _ _ found _ hwalk
      split
      · exact Tree.real_of_dir t.root_dir
      · exact Tree.real_of_dir hcwd

theorem canonicalize_ok (hcwd : t.node cwd = some .dir)
    (h : (treeDisk t cwd).canonicalize path = .ok file) : ∃ place, file = render place ∧
      t.Real place ∧ lookupPath t cwd true path = .ok place := by
  cases hlookup : lookupPath t cwd true path with
  | error e => simp [treeDisk, hlookup, Except.map] at h
  | ok place =>
    simp only [treeDisk, hlookup, Except.map, Except.ok.injEq] at h
    exact ⟨place, h.symm, lookupPath_real hcwd hlookup, rfl⟩

theorem Real.names (h : t.Real place) : ∀ name ∈ place, IsName name := by
  obtain ⟨node, hnode, -⟩ := h
  have hsome : (t.node place).isSome := by rw [hnode]; rfl
  exact Tree.isName_of_mem hsome

/-- Resolving a path below a place: the walk reaches the place first. -/
theorem lookupPath_below (cwd : List String) (h : t.node place = some .dir) (follow : Bool)
    (relative : String) :
    lookupPath t cwd follow (joinPath (render place) relative) =
      (t.walk follow MAXSYMLINKS place (segments relative)).mapError walkError := by
  have hnames := Real.names (Tree.real_of_dir h)
  have hne : joinPath (render place) relative ≠ "" := by
    rw [joinPath_render hnames]
    exact render_ne_empty _
  have habs : isAbsolute (joinPath (render place) relative) = true := by
    rw [joinPath_render hnames]
    exact isAbsolute_render _
  have hdown : t.walk follow MAXSYMLINKS [] (place.reverse ++ segments relative) =
      t.walk follow MAXSYMLINKS (place.reverse.reverse ++ []) (segments relative) :=
    Tree.walk_down (by simpa using h)
  rw [List.reverse_reverse, List.append_nil] at hdown
  rw [lookupPath, if_neg hne, habs, segments_joinPath hnames]
  simp only [if_true]
  rw [Tree.walk_stay t.root_dir (.inl rfl), hdown]

/-- Nothing is found below a file. -/
theorem lookupPath_below_file (h : t.Real place) (hdir : t.node place ≠ some .dir) (follow : Bool)
    (relative : String) {found : List String} :
    lookupPath t cwd follow (joinPath (render place) relative) ≠ .ok found := by
  obtain ⟨node, hnode, hlink⟩ := h
  cases place with
  | nil => exact absurd t.root_dir hdir
  | cons name above =>
    have habove := t.parent_dir name above (by simp [hnode])
    have hnames := Real.names ⟨node, hnode, hlink⟩
    have hjoin : joinPath (render (name :: above)) relative =
        joinPath (render above) (name ++ "/" ++ relative) := by
      rw [joinPath_render hnames,
        joinPath_render fun n hn => hnames n (List.mem_cons_of_mem name hn)]
      apply String.toList_inj.mp
      simp [render, String.toList_append]
    obtain ⟨segment, rest, hsegments⟩ := List.exists_cons_of_ne_nil (segments_ne_nil relative)
    rw [hjoin, lookupPath_below cwd habove, segments_append,
      segments_name (hnames name List.mem_cons_self).no_slash, hsegments]
    simp only [List.cons_append, List.nil_append]
    rw [Tree.walk_name hnode (fun target heq => absurd heq (hlink target)), Tree.walk_notDir hdir]
    simp [Except.mapError]

/-- A place is its own canonical path. -/
theorem canonicalize_render (cwd : List String) (h : t.Real place) :
    (treeDisk t cwd).canonicalize (render place) = .ok (render place) := by
  have hlookup : lookupPath t cwd true (render place) = .ok place := by
    rw [lookupPath, if_neg (render_ne_empty place), isAbsolute_render]
    simp only [if_true]
    by_cases hplace : place = []
    · subst hplace
      rw [segments_root, Tree.walk_stay t.root_dir (.inl rfl), Tree.walk_stay t.root_dir (.inl rfl),
        Tree.walk_nil]
      rfl
    · rw [segments_render hplace fun n hn => (Real.names h n hn).no_slash,
        Tree.walk_stay t.root_dir (.inl rfl), Tree.walk_self h]
      rfl
  simp [treeDisk, hlookup, Except.map]

end Find

/-! ## Confinement -/

/-- No component of the path names a symbolic link. -/
def NoLinks (t : Tree) (path : String) : Prop :=
  ∃ place, path = render place ∧ ∀ above, above <:+ place → t.Real above

namespace TreeBundle

variable (b : TreeBundle)

/-- `load_inventory_yaml`, up to the path it reads. -/
def resolveInventory (path : String) : Except StarlarkGlueError String :=
  match resolveWithinRoot b.disk b.root path with
  | .ok file => .ok file
  | .error (.notFound _) => .error (.eval ("inventory: read '" ++ path ++ "': file not found"))
  | .error e => .error (.bundle (.pathSafety e))

/-- What can be the module of a template: the entry, or a file that a load path leads to. -/
def IsModule (file : String) : Prop :=
  file = b.entry ∨ ∃ loadPath, b.resolveModule loadPath = .ok file

def InBundle (file : String) : Prop :=
  NoLinks b.tree file ∧ pathStartsWith file b.root = true

/-- Whatever the resolvers return is a path in the bundle, and a template one in the
    directory next to its module. -/
structure Confined : Prop where
  entry : ∀ path file, resolveEntry b.disk b.root path = .ok file → b.InBundle file
  inventory : ∀ path file, b.resolveInventory path = .ok file → b.InBundle file
  module : ∀ loadPath file, b.resolveModule loadPath = .ok file → b.InBundle file
  template : ∀ module templateRel file, b.IsModule module →
    b.resolveTemplate module templateRel = .ok file → b.InBundle file ∧
      ∃ templates, templatesDirForModule b.root module = some templates ∧
        pathStartsWith file templates = true

/-- A symbolic link that leads to a directory. -/
def LinkToDir (path : String) : Prop :=
  b.disk.isSymlink path = .ok true ∧
    ∃ place, b.disk.canonicalize path = .ok (render place) ∧ b.tree.node place = some .dir

/-- The `templates` of a module that may have templates. -/
def IsTemplates (templates : String) : Prop :=
  ∃ module, b.IsModule module ∧ components module ≠ components b.entry ∧
    templatesDirForModule b.root module = some templates

variable {b}

theorem root_real : ∃ place, b.root = render place ∧ b.tree.Real place := by
  have hroot := b.root_canonical
  rw [b.onTree] at hroot
  obtain ⟨place, hrender, hreal, -⟩ := canonicalize_ok b.cwd_dir hroot
  exact ⟨place, hrender, hreal⟩

/-- What the common check returns, below a root whose canonical path is known. -/
theorem resolveWithinRoot_real {root relative file : String} {base : List String}
    (hroot : b.disk.canonicalize root = .ok (render base)) (hbase : b.tree.Real base)
    (h : resolveWithinRoot b.disk root relative = .ok file) :
    ∃ place, file = render place ∧ b.tree.Real place ∧ base <:+ place := by
  obtain ⟨-, -, root', hroot', hfile, hbelow, -⟩ := resolveWithinRoot_ok_iff.mp h
  obtain rfl : render base = root' := Except.ok.inj (hroot.symm.trans hroot')
  rw [b.onTree] at hfile
  obtain ⟨place, rfl, hreal, -⟩ := canonicalize_ok b.cwd_dir hfile
  exact ⟨place, rfl, hreal, (pathStartsWith_render (Real.names hreal) (Real.names hbase)).mp hbelow⟩

theorem inBundle_of_suffix {place base : List String} (hroot : b.root = render base)
    (hbase : b.tree.Real base) (hplace : b.tree.Real place) (hsuffix : base <:+ place) :
    b.InBundle (render place) := by
  constructor
  · exact ⟨place, rfl, fun above habove => hplace.of_suffix habove⟩
  · rw [hroot, pathStartsWith_render (Real.names hplace) (Real.names hbase)]
    exact hsuffix

theorem resolveWithinRoot_inBundle {relative file : String}
    (h : resolveWithinRoot b.disk b.root relative = .ok file) : b.InBundle file := by
  obtain ⟨base, hroot, hbase⟩ := b.root_real
  obtain ⟨place, rfl, hplace, hsuffix⟩ :=
    resolveWithinRoot_real (hroot ▸ b.root_canonical) hbase h
  exact inBundle_of_suffix hroot hbase hplace hsuffix

theorem resolveModule_inBundle {loadPath file : String}
    (h : b.resolveModule loadPath = .ok file) : b.InBundle file := by
  unfold Bundle.resolveModule at h
  split at h
  · cases h
  · split at h
    · rename_i found hfound
      cases h
      exact resolveWithinRoot_inBundle hfound
    · cases h
    · cases h

theorem isModule_real {file : String} (h : b.IsModule file) :
    ∃ place, file = render place ∧ b.tree.Real place := by
  have hin : b.InBundle file := by
    rcases h with rfl | ⟨loadPath, h⟩
    · obtain ⟨relative, hentry⟩ := b.entry_resolved
      exact resolveWithinRoot_inBundle hentry
    · exact resolveModule_inBundle h
  obtain ⟨⟨place, rfl, hreal⟩, -⟩ := hin
  exact ⟨place, rfl, hreal place (List.suffix_refl place)⟩

/-- The `templates` of a module stands in the directory of its file. -/
theorem templatesDir_eq {module templates : String} {base : List String}
    (hroot : b.root = render base) (hbase : b.tree.Real base) (hmodule : b.IsModule module)
    (h : templatesDirForModule b.root module = some templates) :
    ∃ above, templates = render ("templates" :: above) ∧ b.tree.node above = some .dir ∧
      base <:+ above ∧ ∀ name ∈ "templates" :: above, IsName name := by
  obtain ⟨place, rfl, hplace⟩ := isModule_real hmodule
  rw [hroot] at h
  unfold templatesDirForModule at h
  split at h
  · rename_i kind name hbelow
    have hnames := Real.names hplace
    have hplace' := namesBelow_render hnames (Real.names hbase) hbelow
    simp only [List.reverse_cons, List.reverse_nil, List.nil_append, List.cons_append] at hplace'
    subst hplace'
    split at h
    · have hdir : b.tree.node (name :: kind :: base) = some .dir := by
        obtain ⟨node, hnode, -⟩ := hplace
        exact b.tree.parent_dir "main.star" _ (by rw [hnode]; rfl)
      have hdirNames := Real.names (Tree.real_of_dir hdir)
      have hkind : ∀ n ∈ kind :: base, IsName n :=
        fun n hn => hdirNames n (List.mem_cons_of_mem name hn)
      rw [joinPath_render (Real.names hbase), joinPath_render hkind, joinPath_render hdirNames] at h
      refine ⟨name :: kind :: base, (Option.some.inj h).symm, hdir, ⟨[name, kind], rfl⟩, ?_⟩
      intro n hn
      rcases List.mem_cons.mp hn with rfl | hn
      · exact ⟨by decide, by decide, by decide, by decide⟩
      · exact hdirNames n hn
    · cases h
  · cases h

/-- The same path, looked up without following a link at its end. -/
theorem isSymlink_iff {above : List String} {name : String} (habove : b.tree.node above = some .dir)
    (hname : IsName name) : b.disk.isSymlink (render (name :: above)) = .ok true ↔
      ∃ target, b.tree.node (name :: above) = some (.link target) := by
  have hlookup := lookupPath_below b.cwd habove false name
  rw [joinPath_render (Real.names (Tree.real_of_dir habove)), segments_name hname.no_slash]
    at hlookup
  rw [b.onTree]
  simp only [treeDisk, hlookup]
  cases hnode : b.tree.node (name :: above) with
  | none =>
    obtain ⟨_, hstep⟩ := b.tree.walk_cons false MAXSYMLINKS above name []
    rw [hstep, if_neg (by simpa using habove), if_neg (by simp [hname.ne_empty, hname.ne_dot]),
      if_neg hname.ne_dotdot, hnode]
    simp [Except.mapError, Except.map]
  | some node =>
    rw [Tree.walk_name hnode (fun _ _ => ⟨rfl, rfl⟩), Tree.walk_nil]
    cases node <;> simp [Except.mapError, Except.map, hnode]

/-- Below a `templates` that is no link to a directory, what is returned stays in it. -/
theorem template_confined {templates templateRel file : String}
    (hlink : ¬ b.LinkToDir templates) {above : List String}
    (htemplates : templates = render ("templates" :: above))
    (habove : b.tree.node above = some .dir)
    (hnames : ∀ name ∈ "templates" :: above, IsName name)
    (h : resolveWithinRoot b.disk templates templateRel = .ok file) :
    ∃ place, file = render place ∧ b.tree.Real place ∧ "templates" :: above <:+ place := by
  subst htemplates
  obtain ⟨-, -, root', hroot', hfile, -⟩ := resolveWithinRoot_ok_iff.mp h
  have hroot := hroot'
  rw [b.onTree] at hroot'
  obtain ⟨base, rfl, hbase, hlookup⟩ := canonicalize_ok b.cwd_dir hroot'
  have hbaseDir : b.tree.node base = some .dir := by
    by_contra hdir
    rw [b.onTree] at hfile
    obtain ⟨place, -, -, hfound⟩ := canonicalize_ok b.cwd_dir hfile
    exact lookupPath_below_file hbase hdir true templateRel hfound
  have hreal : b.tree.Real ("templates" :: above) := by
    have hname := hnames "templates" List.mem_cons_self
    by_cases hsym : ∃ target, b.tree.node ("templates" :: above) = some (.link target)
    · exact absurd ⟨(isSymlink_iff habove hname).mpr hsym, base, hroot, hbaseDir⟩ hlink
    · have hbelow := lookupPath_below b.cwd habove true "templates"
      rw [joinPath_render (Real.names (Tree.real_of_dir habove)), segments_name hname.no_slash,
        hlookup] at hbelow
      cases hnode : b.tree.node ("templates" :: above) with
      | none =>
        obtain ⟨_, hstep⟩ := b.tree.walk_cons true MAXSYMLINKS above "templates" []
        rw [hstep, if_neg (by simpa using habove), if_neg (by simp), if_neg (by simp), hnode]
          at hbelow
        cases hbelow
      | some node => exact ⟨node, hnode, fun target heq => hsym ⟨target, heq ▸ hnode⟩⟩
  have hself := canonicalize_render b.cwd hreal
  rw [← b.onTree] at hself
  exact resolveWithinRoot_real hself hreal h

/-- A link to a directory is followed by the template path `.`. -/
theorem template_escapes {templates : String} {place : List String}
    (hcanonical : b.disk.canonicalize templates = .ok (render place))
    (hplace : b.tree.node place = some .dir) :
    resolveWithinRoot b.disk templates "." = .ok (render place) := by
  have hwalk : ∀ follow,
      lookupPath b.tree b.cwd follow (joinPath (render place) ".") = .ok place := by
    intro follow
    have hsegments : segments "." = ["."] := by decide
    rw [lookupPath_below b.cwd hplace, hsegments, Tree.walk_stay hplace (.inr rfl), Tree.walk_nil]
    rfl
  rw [resolveWithinRoot_ok_iff]
  refine ⟨by decide, by decide, render place, hcanonical, ?_, ?_, ?_⟩
  · rw [b.onTree]
    simp [treeDisk, hwalk, Except.map]
  · have hnames := Real.names (Tree.real_of_dir hplace)
    exact (pathStartsWith_render hnames hnames).mpr (List.suffix_refl place)
  · rw [b.onTree]
    simp [treeDisk, hwalk, Except.map, hplace]

/-- **The resolvers confine where no `templates` is a link to a directory, and only there.** -/
theorem confined_iff (b : TreeBundle) :
    b.Confined ↔ ∀ templates, b.IsTemplates templates → ¬ b.LinkToDir templates := by
  obtain ⟨base, hroot, hbase⟩ := b.root_real
  constructor
  · rintro hconfined templates ⟨module, hmodule, hentry, hdir⟩ ⟨hsym, place, hcanonical, hplace⟩
    have hresolve : b.resolveTemplate module "." = .ok (render place) := by
      rw [Bundle.resolveTemplate, if_neg hentry, if_neg (by decide), hdir]
      simp only [template_escapes hcanonical hplace, Except.mapError]
    obtain ⟨-, templates', hdir', hinside⟩ := hconfined.template module "." _ hmodule hresolve
    obtain rfl : templates = templates' := Option.some.inj (hdir.symm.trans hdir')
    obtain ⟨above, rfl, habove, -, hnames⟩ := templatesDir_eq hroot hbase hmodule hdir
    -- the link would stand above a place that was found by following links
    have hsuffix := (pathStartsWith_render (Real.names (Tree.real_of_dir hplace)) hnames).mp hinside
    obtain ⟨node, hnode, hno⟩ := (Tree.real_of_dir hplace).of_suffix hsuffix
    obtain ⟨target, htarget⟩ :=
      (isSymlink_iff habove (hnames "templates" List.mem_cons_self)).mp hsym
    exact hno target (Option.some.inj (hnode.symm.trans htarget))
  · intro hlinks
    constructor
    case entry =>
      intro path file h
      unfold resolveEntry at h
      split at h
      · rename_i found hfound
        cases h
        exact resolveWithinRoot_inBundle hfound
      · cases h
      · cases h
    case inventory =>
      intro path file h
      unfold resolveInventory at h
      split at h
      · rename_i found hfound
        cases h
        exact resolveWithinRoot_inBundle hfound
      · cases h
      · cases h
    case module =>
      intro loadPath file h
      exact resolveModule_inBundle h
    case template =>
      intro module templateRel file hmodule h
      unfold Bundle.resolveTemplate at h
      split at h
      · cases h
      · rename_i hentry
        split at h
        · cases h
        · cases hdir : templatesDirForModule b.root module with
          | none => simp [hdir] at h
          | some templates =>
            simp only [hdir] at h
            obtain ⟨above, htemplates, habove, hsuffix, hnames⟩ :=
              templatesDir_eq hroot hbase hmodule hdir
            cases hresolve : resolveWithinRoot b.disk templates templateRel with
            | error e => simp [hresolve, Except.mapError] at h
            | ok found =>
              simp only [hresolve, Except.mapError, Except.ok.injEq] at h
              obtain ⟨place, rfl, hplace, hinside⟩ := template_confined
                (hlinks templates ⟨module, hmodule, hentry, hdir⟩) htemplates habove hnames hresolve
              subst h
              constructor
              · exact inBundle_of_suffix hroot hbase hplace
                  ((hsuffix.trans (List.suffix_cons "templates" above)).trans hinside)
              · refine ⟨templates, rfl, ?_⟩
                rw [htemplates, pathStartsWith_render (Real.names hplace) hnames]
                exact hinside

/-! ## A role that links its templates to another directory -/

def leakingEntries : List (List String × Node) :=
  [([], .dir), (["b"], .dir), (["main.star", "b"], .file ""), (["roles", "b"], .dir),
   (["r", "roles", "b"], .dir), (["main.star", "r", "roles", "b"], .file ""),
   (["templates", "r", "roles", "b"], .link "/etc"), (["etc"], .dir),
   (["passwd", "etc"], .file "root:x:0:0")]

theorem mem_leakingEntries {place : List String} (h : (leakingEntries.lookup place).isSome) :
    place ∈ leakingEntries.map Prod.fst := by
  by_contra hmem
  have hnone : leakingEntries.lookup place = none := by
    rw [List.lookup_eq_none_iff]
    intro e he
    simp only [bne_iff_ne, ne_eq]
    rintro rfl
    exact hmem (List.mem_map_of_mem he)
  simp [hnone] at h

theorem leakingEntries_sorted : ∀ place ∈ leakingEntries.map Prod.fst, ∀ name above,
    place = name :: above → leakingEntries.lookup above = some .dir ∧ name ≠ "" ∧ name ≠ "." ∧
      name ≠ ".." ∧ '/' ∉ name.toList := by
  intro place hmem name above hplace
  subst hplace
  simp only [leakingEntries, List.map_cons, List.map_nil, List.mem_cons, List.cons.injEq,
    List.not_mem_nil, or_false, reduceCtorEq, false_or] at hmem
  rcases hmem with ⟨rfl, rfl⟩ | ⟨rfl, rfl⟩ | ⟨rfl, rfl⟩ | ⟨rfl, rfl⟩ | ⟨rfl, rfl⟩ | ⟨rfl, rfl⟩ |
    ⟨rfl, rfl⟩ | ⟨rfl, rfl⟩ <;> decide

def leakingTree : Tree where
  node := fun place => leakingEntries.lookup place
  root_dir := by decide
  parent_dir := by
    intro name place h
    exact (leakingEntries_sorted _ (mem_leakingEntries h) name place rfl).1
  named := by
    intro name place h
    obtain ⟨-, hne, hdot, hdotdot, hslash⟩ :=
      leakingEntries_sorted _ (mem_leakingEntries h) name place rfl
    exact ⟨hne, hdot, hdotdot, hslash⟩

/-- `/b`, with `roles/r/templates` a link to `/etc`. -/
def leaking : TreeBundle where
  root := "/b"
  entry := "/b/main.star"
  disk := treeDisk leakingTree []
  files := leakingEntries.map fun e => render e.1
  root_canonical := by decide +kernel
  entry_resolved := ⟨"main.star", by decide +kernel⟩
  files_complete := by
    intro candidate file h _
    obtain ⟨place, rfl, ⟨node, hnode, -⟩, -⟩ := canonicalize_ok leakingTree.root_dir h
    have hmem := mem_leakingEntries (show (leakingEntries.lookup place).isSome by
      rw [show leakingEntries.lookup place = some node from hnode]; rfl)
    simpa using List.mem_map_of_mem (f := render) hmem
  tree := leakingTree
  cwd := []
  cwd_dir := leakingTree.root_dir
  onTree := rfl

theorem leaking_not_confined :
    leaking.resolveTemplate "/b/roles/r/main.star" "passwd" = .ok "/etc/passwd" ∧
    ¬ leaking.Confined := by
  have hresolve : leaking.resolveTemplate "/b/roles/r/main.star" "passwd" = .ok "/etc/passwd" := by
    decide +kernel
  have hmodule : leaking.IsModule "/b/roles/r/main.star" := .inr ⟨"@roles/r", by decide +kernel⟩
  refine ⟨hresolve, ?_⟩
  intro hconfined
  obtain ⟨⟨-, hinside⟩, -⟩ := hconfined.template _ _ _ hmodule hresolve
  revert hinside
  decide +kernel

end TreeBundle

end Bosun
