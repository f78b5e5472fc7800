import Mathlib.Data.List.Basic

/-!
# Trees of files with symbolic links

Paths are resolved as POSIX does it, one segment after the other.  A place in the tree is
the list of its names, the innermost first, so that the places above it are its suffixes.

The number of links that one resolution may go through is bounded; the walk recurses on that
bound, and for a given bound on the segments.
-/

namespace FileTree

inductive Node
  | file (content : String)
  | dir
  | link (target : String)
deriving DecidableEq, Repr

def segments (path : String) : List String := (path.toList.splitOn '/').map String.ofList

def isAbsolute (path : String) : Bool := path.toList.head? = some '/'

/-- What an entry of a directory may be called. -/
structure IsName (s : String) : Prop where
  ne_empty : s ≠ ""
  ne_dot : s ≠ "."
  ne_dotdot : s ≠ ".."
  no_slash : '/' ∉ s.toList

inductive WalkError
  | notFound
  | notDir
  | tooManyLinks
deriving DecidableEq, Repr

/-- Whatever has a place stands in a directory. -/
structure Tree where
  node : List String → Option Node
  root_dir : node [] = some .dir
  parent_dir : ∀ name place, (node (name :: place)).isSome → node place = some .dir
  named : ∀ name place, (node (name :: place)).isSome → IsName name

namespace Tree

variable (t : Tree)

/-- From `place` along the segments.  A link in the last of them is followed or not; where a
    link is followed, the walk goes on with `expand`. -/
def walkSegments (follow : Bool)
    (expand : List String → List String → Except WalkError (List String)) :
    List String → List String → Except WalkError (List String)
  | place, [] => .ok place
  | place, segment :: rest =>
    if t.node place ≠ some .dir then .error .notDir
    else if segment = "" ∨ segment = "." then walkSegments follow expand place rest
    else if segment = ".." then walkSegments follow expand place.tail rest
    else
      match t.node (segment :: place) with
      | none => .error .notFound
      | some (.link target) =>
        if rest = [] ∧ follow = false then .ok (segment :: place)
        else expand (if isAbsolute target then [] else place) (segments target ++ rest)
      | some _ => walkSegments follow expand (segment :: place) rest

def walk (follow : Bool) : Nat → List String → List String → Except WalkError (List String)
  | 0 => t.walkSegments follow fun _ _ => .error .tooManyLinks
  | links + 1 => t.walkSegments follow (walk follow links)

/-- Something that is no link. -/
def Real (place : List String) : Prop :=
  ∃ node, t.node place = some node ∧ ∀ target, node ≠ .link target

variable {t}

theorem real_of_dir {place : List String} (h : t.node place = some .dir) : t.Real place :=
  ⟨.dir, h, by simp⟩

/-- Above whatever has a place there are directories only. -/
theorem dir_of_suffix {names place : List String} (hnames : names ≠ [])
    (h : (t.node (names ++ place)).isSome) : t.node place = some .dir := by
  induction names with
  | nil => exact absurd rfl hnames
  | cons name names ih =>
    have hparent := t.parent_dir name (names ++ place) h
    by_cases hempty : names = []
    · simpa [hempty] using hparent
    · exact ih hempty (by simp [hparent])

theorem Real.of_suffix {place above : List String} (h : t.Real place) (hsuffix : above <:+ place) :
    t.Real above := by
  obtain ⟨names, rfl⟩ := hsuffix
  by_cases hnames : names = []
  · simpa [hnames] using h
  · obtain ⟨node, hnode, -⟩ := h
    exact real_of_dir (dir_of_suffix hnames (by simp [hnode]))

theorem isName_of_mem {place : List String} (h : (t.node place).isSome) :
    ∀ name ∈ place, IsName name := by
  induction place with
  | nil => simp
  | cons name place ih =>
    intro name' hmem
    rcases List.mem_cons.mp hmem with rfl | hmem
    · exact t.named _ place h
    · have hparent := t.parent_dir name place h
      exact ih (by simp [hparent]) name' hmem

/-! ## What a walk finds -/

theorem walkSegments_real {expand : List String → List String → Except WalkError (List String)}
    (hexpand : ∀ place rest found, t.Real place → expand place rest = .ok found → t.Real found)
    (rest : List String) : ∀ place found, t.Real place →
      t.walkSegments true expand place rest = .ok found → t.Real found := by
  induction rest with
  | nil =>
    intro place found hplace h
    cases h
    exact hplace
  | cons segment rest ih =>
    intro place found hplace h
    unfold walkSegments at h
    split at h
    · cases h
    · rename_i hdir
      rw [not_not] at hdir
      split at h
      · exact ih place found hplace h
      · split at h
        · exact ih place.tail found (hplace.of_suffix (List.tail_suffix place)) h
        · split at h
          · cases h
          · rename_i target _
            rw [if_neg (by simp)] at h
            refine hexpand _ _ found ?_ h
            split
            · exact real_of_dir t.root_dir
            · exact hplace
          · rename_i node hlink hnode
            exact ih _ found ⟨node, hnode, fun target heq => hlink target heq⟩ h

/-- A walk that follows every link ends at something that is none. -/
theorem walk_real (links : Nat) : ∀ place rest found, t.Real place →
    t.walk true links place rest = .ok found → t.Real found := by
  induction links with
  | zero =>
    intro place rest found hplace h
    exact walkSegments_real (by simp) rest place found hplace h
  | succ links ih =>
    intro place rest found hplace h
    exact walkSegments_real ih rest place found hplace h

/-- One step of a walk, whatever the bound on the links. -/
theorem walk_cons (follow : Bool) (links : Nat) (place : List String) (segment : String)
    (rest : List String) :
    ∃ expand : List String → List String → Except WalkError (List String),
      t.walk follow links place (segment :: rest) =
      if t.node place ≠ some .dir then .error .notDir
      else if segment = "" ∨ segment = "." then t.walk follow links place rest
      else if segment = ".." then t.walk follow links place.tail rest
      else
        match t.node (segment :: place) with
        | none => .error .notFound
        | some (.link target) =>
          if rest = [] ∧ follow = false then .ok (segment :: place)
          else expand (if isAbsolute target then [] else place) (segments target ++ rest)
        | some _ => t.walk follow links (segment :: place) rest := by
  cases links with
  | zero => exact ⟨fun _ _ => .error .tooManyLinks, rfl⟩
  | succ links => exact ⟨t.walk follow links, rfl⟩

theorem walk_nil (follow : Bool) (links : Nat) (place : List String) :
    t.walk follow links place [] = .ok place := by
  cases links <;> rfl

theorem walk_notDir {follow : Bool} {links : Nat} {place rest : List String} {segment : String}
    (h : t.node place ≠ some .dir) :
    t.walk follow links place (segment :: rest) = .error .notDir := by
  obtain ⟨_, hstep⟩ := t.walk_cons follow links place segment rest
  rw [hstep, if_pos h]

theorem walk_stay {follow : Bool} {links : Nat} {place rest : List String} {segment : String}
    (h : t.node place = some .dir) (hstay : segment = "" ∨ segment = ".") :
    t.walk follow links place (segment :: rest) = t.walk follow links place rest := by
  obtain ⟨_, hstep⟩ := t.walk_cons follow links place segment rest
  rw [hstep, if_neg (by simpa using h), if_pos hstay]

/-- A name that is no link, or a link at the end that is not followed. -/
theorem walk_name {follow : Bool} {links : Nat} {place rest : List String} {name : String}
    {node : Node} (hnode : t.node (name :: place) = some node)
    (hlink : ∀ target, node = .link target → rest = [] ∧ follow = false) :
    t.walk follow links place (name :: rest) = t.walk follow links (name :: place) rest := by
  obtain ⟨_, hstep⟩ := t.walk_cons follow links place name rest
  have hsome : (t.node (name :: place)).isSome := by simp [hnode]
  have hdir := t.parent_dir name place hsome
  have hname := t.named name place hsome
  rw [hstep, if_neg (by simpa using hdir), if_neg (by simp [hname.ne_empty, hname.ne_dot]),
    if_neg hname.ne_dotdot, hnode]
  cases node with
  | file _ => rfl
  | dir => rfl
  | link target =>
    obtain ⟨rfl, rfl⟩ := hlink target rfl
    simp [walk_nil]

/-- Down to a directory, whatever comes then. -/
theorem walk_down {follow : Bool} {links : Nat} {names rest : List String} :
    ∀ {place : List String}, t.node (names.reverse ++ place) = some .dir →
      t.walk follow links place (names ++ rest) =
        t.walk follow links (names.reverse ++ place) rest := by
  induction names with
  | nil =>
    intro place _
    rfl
  | cons name names ih =>
    intro place h
    have hassoc : (name :: names).reverse ++ place = names.reverse ++ (name :: place) := by simp
    rw [hassoc] at h ⊢
    have hdir : t.node (name :: place) = some .dir := by
      by_cases hempty : names = []
      · simpa [hempty] using h
      · have hrev : names.reverse ≠ [] := by simpa using hempty
        exact dir_of_suffix hrev (by rw [h]; rfl)
    rw [List.cons_append, walk_name hdir (fun target heq => nomatch heq)]
    exact ih h

/-- A place that is no link is found under its own name. -/
theorem walk_self {follow : Bool} {links : Nat} {place : List String} (h : t.Real place) :
    t.walk follow links [] place.reverse = .ok place := by
  obtain ⟨node, hnode, hlink⟩ := h
  cases place with
  | nil => exact walk_nil follow links []
  | cons name above =>
    have habove := t.parent_dir name above (by simp [hnode])
    have hdown : t.walk follow links [] (above.reverse ++ [name]) =
        t.walk follow links (above.reverse.reverse ++ []) [name] :=
      walk_down (by simpa using habove)
    rw [List.reverse_reverse, List.append_nil] at hdown
    rw [List.reverse_cons, hdown, walk_name hnode (fun target heq => absurd heq (hlink target)),
      walk_nil]

end Tree

/-! ## Paths as strings -/

/-- The path of a place from the root. -/
def render (place : List String) : String :=
  if place = [] then "/"
  else String.ofList (place.reverse.flatMap fun name => '/' :: name.toList)

theorem splitOn_names (names : List String) (hnames : ∀ name ∈ names, '/' ∉ name.toList) :
    ∀ first : List Char, '/' ∉ first →
      (first ++ names.flatMap fun name => '/' :: name.toList).splitOn '/' =
        first :: names.map String.toList := by
  induction names with
  | nil =>
    intro first hfirst
    simp [List.splitOn_eq_singleton hfirst]
  | cons name names ih =>
    intro first hfirst
    have hrest := ih (fun n hn => hnames n (List.mem_cons_of_mem name hn)) name.toList
      (hnames name List.mem_cons_self)
    rw [List.flatMap_cons, List.cons_append, List.splitOn_append_cons_self_of_not_mem hfirst, hrest]
    rfl

theorem segments_append (left right : String) :
    segments (left ++ "/" ++ right) = segments left ++ segments right := by
  simp [segments, String.toList_append, List.splitOn_append_cons_self]

theorem segments_render {place : List String} (hplace : place ≠ [])
    (hnames : ∀ name ∈ place, '/' ∉ name.toList) :
    segments (render place) = "" :: place.reverse := by
  have hsplit := splitOn_names place.reverse (by simpa using hnames) [] (by simp)
  rw [List.nil_append] at hsplit
  rw [segments, render, if_neg hplace, String.toList_ofList, hsplit]
  simp [Function.comp_def]

theorem segments_root : segments (render []) = ["", ""] := by decide

theorem segments_name {name : String} (h : '/' ∉ name.toList) : segments name = [name] := by
  simp [segments, List.splitOn_eq_singleton h]

theorem segments_ne_nil (path : String) : segments path ≠ [] := by
  simp [segments, List.splitOn_ne_nil]

theorem isAbsolute_render (place : List String) : isAbsolute (render place) = true := by
  by_cases hplace : place = []
  · subst hplace
    decide
  · obtain ⟨name, names, hrev⟩ : ∃ name names, place.reverse = name :: names :=
      List.exists_cons_of_ne_nil (by simpa using hplace)
    simp [isAbsolute, render, hplace, hrev]

/-- Below a place, segment by segment. -/
theorem render_cons {name : String} {place : List String} :
    render (name :: place) = (if place = [] then "" else render place) ++ "/" ++ name := by
  apply String.toList_inj.mp
  by_cases hplace : place = []
  · simp [render, hplace, String.toList_append]
  · simp [render, hplace, String.toList_append]

end FileTree
