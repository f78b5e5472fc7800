import Bosun.FileContent

/-!
# `file.delete`

A file, a symbolic link or a directory is removed; what is in a directory only with `recursive`.
What stands at the path is looked at again in the apply, a directory without `recursive` is
listed first, and each of these calls sees the files as they are at that moment: between any two
of them somebody else may change them (`DeleteEnv.others`).

The kernel follows links on its way, and with a slash or a dot at the end of the path also one that
stands at the path itself.  Where it does (`FileDelete.strays`) the calls reach other files than
those at the place, and what they do there is left to the environment.

`DeleteRun.calls` records each call with the files it was made on; nothing reads it.
-/

namespace Bosun

open FileTree

/-! ## The spec -/

/-- `follow_symlinks` is read from the payload and used for nothing. -/
structure FileDeleteSpec where
  path : String
  recursive : Bool

namespace FileDeleteSpec

def validate (spec : FileDeleteSpec) : Except PrimitiveError Unit :=
  validatePath "file.delete.path" spec.path

def place (spec : FileDeleteSpec) : List String := placeOf spec.path

/-- No slash and no dot stands at the end of the path. -/
def endsWithName (spec : FileDeleteSpec) : Bool :=
  (segments spec.path).getLast?.any fun last => last ≠ "" && last ≠ "."

end FileDeleteSpec

/-! ## Files -/

section Files

variable {B : Type}

/-- Whatever has a place stands in a directory. -/
def Rooted (nodes : Nodes B) : Prop :=
  ∀ name place, (nodes.lookup (name :: place)).isSome → nodeAt nodes place = some .dir

/-- Without the places that are gone. -/
def eraseWhere (gone : List String → Bool) (nodes : Nodes B) : Nodes B :=
  (nodes.keys.filter gone).foldl (fun nodes place => nodes.erase place) nodes

theorem lookup_foldl_erase (places : List (List String)) : ∀ (nodes : Nodes B) (p : List String),
    (places.foldl (fun nodes place => nodes.erase place) nodes).lookup p =
      if p ∈ places then none else nodes.lookup p := by
  induction places with
  | nil => simp
  | cons place places ih =>
    intro nodes p
    rw [List.foldl_cons, ih]
    by_cases hp : p = place
    · subst hp
      simp
    · simp [hp, AList.lookup_erase_ne hp]

theorem lookup_eraseWhere (gone : List String → Bool) (nodes : Nodes B) (p : List String) :
    (eraseWhere gone nodes).lookup p = if gone p then none else nodes.lookup p := by
  rw [eraseWhere, lookup_foldl_erase]
  by_cases hkey : p ∈ nodes.keys
  · simp [List.mem_filter, hkey]
  · have hnone : nodes.lookup p = none := AList.lookup_eq_none.mpr hkey
    simp [List.mem_filter, hkey, hnone]

end Files

structure Files (B : Type) where
  nodes : Nodes B
  rooted : Rooted nodes

namespace Files

variable {B : Type} (files : Files B)

def node (place : List String) : Option (FileNode B) := nodeAt files.nodes place

/-- A directory without entries. -/
def isEmpty (place : List String) : Bool :=
  files.nodes.keys.all fun p => p = [] || p.tail ≠ place

theorem rooted_eraseWhere {gone : List String → Bool}
    (hbelow : ∀ name p, gone p = true → gone (name :: p) = true) :
    Rooted (eraseWhere gone files.nodes) := by
  intro name place h
  rw [lookup_eraseWhere] at h
  split at h
  · cases h
  · rename_i hstays
    have hparent := files.rooted name place h
    unfold nodeAt at hparent ⊢
    split at hparent
    · rename_i hplace
      rw [if_pos hplace]
    · rename_i hplace
      rw [if_neg hplace, lookup_eraseWhere, if_neg (fun hgone => hstays (hbelow name place hgone))]
      exact hparent

/-- What is gone takes with it what is below. -/
def remove (gone : List String → Bool)
    (hbelow : ∀ name p, gone p = true → gone (name :: p) = true) : Files B :=
  ⟨eraseWhere gone files.nodes, files.rooted_eraseWhere hbelow⟩

/-- At or below the place. -/
def under (place p : List String) : Bool := place <:+ p

theorem under_cons {place : List String} : ∀ name p, under place p = true →
    under place (name :: p) = true := by
  intro name p h
  have hsuffix : place <:+ p := of_decide_eq_true h
  exact decide_eq_true (hsuffix.trans (List.suffix_cons name p))

/-- Below the place, unless it is among what survives with everything above it. -/
def underWithout (place : List String) (survives : List String → Bool) (p : List String) : Bool :=
  p.tails.any fun above => under place above && above ≠ place && !survives above

theorem underWithout_cons {place : List String} {survives : List String → Bool} : ∀ name p,
    underWithout place survives p = true → underWithout place survives (name :: p) = true := by
  intro name p h
  rw [underWithout, List.any_eq_true] at h ⊢
  obtain ⟨above, habove, hgone⟩ := h
  refine ⟨above, ?_, hgone⟩
  rw [List.mem_tails] at habove ⊢
  exact habove.trans (List.suffix_cons name p)

theorem node_of_ne {place : List String} (h : place ≠ []) :
    files.node place = files.nodes.lookup place := if_neg h

theorem lookup_remove {gone : List String → Bool}
    {hbelow : ∀ name p, gone p = true → gone (name :: p) = true} (p : List String) :
    (files.remove gone hbelow).nodes.lookup p = if gone p then none else files.nodes.lookup p :=
  lookup_eraseWhere gone files.nodes p

/-- Above whatever is there, there are directories. -/
theorem dir_above {names place : List String} (hnames : names ≠ [])
    (h : (files.nodes.lookup (names ++ place)).isSome) : files.node place = some .dir := by
  induction names with
  | nil => exact absurd rfl hnames
  | cons name names ih =>
    have hparent := files.rooted name (names ++ place) h
    by_cases hempty : names = []
    · simpa [hempty, node] using hparent
    · refine ih hempty ?_
      rw [nodeAt, if_neg (by simp [hempty])] at hparent
      rw [hparent]
      rfl

/-- Nothing is below what is no directory. -/
theorem lookup_below_of_not_dir {place p : List String} (hdir : files.node place ≠ some .dir)
    (hp : place <:+ p) (hne : p ≠ place) : files.nodes.lookup p = none := by
  obtain ⟨names, rfl⟩ := hp
  have hnames : names ≠ [] := by
    rintro rfl
    exact hne rfl
  by_contra hsome
  exact hdir (files.dir_above hnames (Option.isSome_iff_ne_none.mpr hsome))

/-- Nothing is below a directory without entries. -/
theorem lookup_below_of_isEmpty {place p : List String} (hempty : files.isEmpty place = true)
    (hp : place <:+ p) (hne : p ≠ place) : files.nodes.lookup p = none := by
  obtain ⟨names, rfl⟩ := hp
  have hnames : names ≠ [] := by
    rintro rfl
    exact hne rfl
  -- the entry of the directory that is on the way
  obtain ⟨upper, name, rfl⟩ : ∃ upper name, names = upper ++ [name] :=
    ⟨names.dropLast, names.getLast hnames, (List.dropLast_append_getLast hnames).symm⟩
  have hentry : files.nodes.lookup (name :: place) = none := by
    rw [AList.lookup_eq_none]
    intro hkey
    have := List.all_eq_true.mp hempty _ hkey
    simp at this
  by_cases hupper : upper = []
  · subst hupper
    simpa using hentry
  · have hbelow : name :: place <:+ (upper ++ [name]) ++ place := ⟨upper, by simp⟩
    refine files.lookup_below_of_not_dir ?_ hbelow ?_
    · rw [files.node_of_ne (by simp), hentry]
      simp
    · intro heq
      have := congrArg List.length heq
      simp only [List.length_append, List.length_cons, List.length_nil] at this
      have := List.length_pos_iff.mpr hupper
      omega

end Files

/-! ## The calls -/

inductive DeleteOp
  | symlinkMetadata
  | readDir
  | removeFile
  | removeDirAll
deriving DecidableEq, Repr

structure DeleteEnv (B : Type) where
  fault : DeleteOp → Option String
  /-- what a `remove_dir_all` that fails has left -/
  survives : List String → Bool
  /-- what a listing through a link finds: whether nothing is there -/
  linkedEmpty : Except IoError Bool
  /-- what is found, and what a removal does, where the path leads elsewhere -/
  strayNode : Except IoError (FileNode B)
  strayRemoval : Files B → Except IoError Unit × Files B
  /-- what others do to the files before a call is made -/
  others : DeleteOp → Files B → Files B

/-- No call fails, and nobody else does anything. -/
def DeleteEnv.calm (B : Type) : DeleteEnv B where
  fault _ := none
  survives _ := true
  linkedEmpty := .ok true
  strayNode := .ok .symlink
  strayRemoval files := (.ok (), files)
  others _ files := files

@[simp] theorem calm_others {B : Type} (op : DeleteOp) (files : Files B) :
    (DeleteEnv.calm B).others op files = files := rfl

namespace FileDelete

variable {B : Type} (env : DeleteEnv B) (spec : FileDeleteSpec)

def isLink : Option (FileNode B) → Bool
  | some .symlink => true
  | _ => false

/-- The path does not lead to its place: a link stands above it, or one at it would be followed. -/
def strays (files : Files B) : Bool :=
  (spec.place ≠ [] && !spec.endsWithName) ||
    spec.place.tail.tails.any fun above => isLink (files.node above)

/-- Nothing is at the place. -/
def missing (files : Files B) : IoError :=
  if blocked files.nodes spec.place.tail then .other "Not a directory (os error 20)"
  else .notFound

def lstat (files : Files B) : Except IoError (FileNode B) :=
  match env.fault .symlinkMetadata with
  | some e => .error (.other e)
  | none =>
    if strays spec files then env.strayNode
    else
      match files.node spec.place with
      | some node => .ok node
      | none => .error (missing spec files)

/-- `std::fs::remove_file` -/
def unlink (files : Files B) : Except IoError (Files B) :=
  match env.fault .removeFile with
  | some e => .error (.other e)
  | none =>
    if strays spec files then
      match env.strayRemoval files with
      | (.ok (), files) => .ok files
      | (.error e, _) => .error e
    else
      match files.node spec.place with
      | none => .error (missing spec files)
      | some .dir => .error (.other "Is a directory (os error 21)")
      | some _ => .ok (files.remove (Files.under spec.place) Files.under_cons)

/-- `std::fs::remove_dir_all`; a link is removed itself, and the root stays. -/
def removeTree (files : Files B) : Except IoError Unit × Files B :=
  match env.fault .removeDirAll with
  | some e => (.error (.other e),
      files.remove (Files.underWithout spec.place env.survives) Files.underWithout_cons)
  | none =>
    if strays spec files then env.strayRemoval files
    else
      match files.node spec.place with
      | none => (.error (missing spec files), files)
      | some .dir =>
        if spec.place = [] then
          (.error (.other "Device or resource busy (os error 16)"),
            files.remove (Files.underWithout [] fun _ => false) Files.underWithout_cons)
        else (.ok (), files.remove (Files.under spec.place) Files.under_cons)
      | some .symlink => (.ok (), files.remove (Files.under spec.place) Files.under_cons)
      | some _ => (.error (.other "Not a directory (os error 20)"), files)

/-- `std::fs::read_dir`, and whether it has a first entry. -/
def listing (files : Files B) : Except IoError Bool :=
  match env.fault .readDir with
  | some e => .error (.other e)
  | none =>
    if strays spec files then env.linkedEmpty
    else
      match files.node spec.place with
      | none => .error (missing spec files)
      | some .dir => .ok (files.isEmpty spec.place)
      | some .symlink => env.linkedEmpty
      | some _ => .error (.other "Not a directory (os error 20)")

/-! ## Plan -/

inductive DeleteAction
  | noChange
  | deleteFile
  | deleteDir
deriving DecidableEq, Repr

def decideActionDelete (files : Files B) : Except PrimitiveError DeleteAction :=
  match lstat env spec files with
  | .error .notFound => .ok .noChange
  | .error e => .error (.io ("symlink_metadata " ++ spec.path) e.display)
  | .ok .dir => .ok .deleteDir
  | .ok _ => .ok .deleteFile

/-- `plan`; `exists_` are the two sides of the update. -/
def planDelete {P : Type} (exists_ : String → Bool → P) (files : Files B) :
    Except PrimitiveError (Diff P) :=
  match spec.validate with
  | .error e => .error e
  | .ok () =>
    match decideActionDelete env spec (env.others .symlinkMetadata files) with
    | .error e => .error e
    | .ok .noChange => .ok .noChange
    | .ok _ => .ok (.update (exists_ spec.path true) (exists_ spec.path false)
        ("delete " ++ spec.path))

/-! ## Apply -/

structure DeleteRun (B : Type) where
  result : Except PrimitiveError ChangeReport
  files : Files B
  calls : List (DeleteOp × Files B)

/-- `remove_file` of the primitive -/
def removeFile (calls : List (DeleteOp × Files B)) (files : Files B) : DeleteRun B :=
  let files := env.others .removeFile files
  let calls := calls ++ [(.removeFile, files)]
  match unlink env spec files with
  | .ok files => ⟨.ok (.ofChanged ("deleted " ++ spec.path)), files, calls⟩
  | .error .notFound => ⟨.ok .noChange, files, calls⟩
  | .error e => ⟨.error (.io ("remove_file " ++ spec.path) e.display), files, calls⟩

/-- The second half of `remove_directory` -/
def removeAll (calls : List (DeleteOp × Files B)) (files : Files B) : DeleteRun B :=
  let files := env.others .removeDirAll files
  let calls := calls ++ [(.removeDirAll, files)]
  match removeTree env spec files with
  | (.ok (), files) => ⟨.ok (.ofChanged ("deleted directory " ++ spec.path)), files, calls⟩
  | (.error .notFound, files) => ⟨.ok .noChange, files, calls⟩
  | (.error e, files) => ⟨.error (.io ("remove_dir_all " ++ spec.path) e.display), files, calls⟩

/-- `is_empty_dir`; a directory that is gone counts as empty. -/
def isEmptyDir (files : Files B) : Except PrimitiveError Bool :=
  match listing env spec files with
  | .ok empty => .ok empty
  | .error .notFound => .ok true
  | .error e => .error (.io ("read_dir " ++ spec.path) e.display)

def removeDirectory (calls : List (DeleteOp × Files B)) (files : Files B) : DeleteRun B :=
  if spec.recursive then removeAll env spec calls files
  else
    let files := env.others .readDir files
    let calls := calls ++ [(.readDir, files)]
    match isEmptyDir env spec files with
    | .error e => ⟨.error e, files, calls⟩
    | .ok false => ⟨.error (.apply ("refusing to delete non-empty directory " ++ spec.path ++
        " without recursive=true")), files, calls⟩
    | .ok true => removeAll env spec calls files

/-- `apply`; of the diff it asks only whether it is `NoChange`. -/
def applyDelete (diffIsNoChange : Bool) (files : Files B) : DeleteRun B :=
  if diffIsNoChange then ⟨.ok .noChange, files, []⟩
  else
    match spec.validate with
    | .error e => ⟨.error e, files, []⟩
    | .ok () =>
      let files := env.others .symlinkMetadata files
      let calls := [(.symlinkMetadata, files)]
      match decideActionDelete env spec files with
      | .error e => ⟨.error e, files, calls⟩
      | .ok .noChange => ⟨.ok .noChange, files, calls⟩
      | .ok .deleteFile => removeFile env spec calls files
      | .ok .deleteDir => removeDirectory env spec calls files

/-! ## What a removal leaves -/

variable {env spec} {files files' : Files B}

/-- Nothing but what is at or below the place is gone. -/
def OnlyUnder (place : List String) (before after : Files B) : Prop :=
  ∀ p, after.nodes.lookup p = before.nodes.lookup p ∨
    (after.nodes.lookup p = none ∧ place <:+ p)

theorem OnlyUnder.refl (place : List String) (files : Files B) : OnlyUnder place files files :=
  fun _ => .inl rfl

theorem onlyUnder_remove {gone : List String → Bool}
    {hbelow : ∀ name p, gone p = true → gone (name :: p) = true} {place : List String}
    (hgone : ∀ p, gone p = true → place <:+ p) (files : Files B) :
    OnlyUnder place files (files.remove gone hbelow) := by
  intro p
  rw [Files.lookup_remove]
  split
  · rename_i h
    exact .inr ⟨rfl, hgone p h⟩
  · exact .inl rfl

theorem suffix_of_underWithout {place : List String} {survives : List String → Bool}
    {p : List String} (h : Files.underWithout place survives p = true) : place <:+ p := by
  obtain ⟨above, habove, hgone⟩ := List.any_eq_true.mp h
  rw [Bool.and_eq_true, Bool.and_eq_true] at hgone
  exact (of_decide_eq_true hgone.1.1).trans ((List.mem_tails above p).mp habove)

/-- Everything at the place is gone, and nothing else is. -/
def Gone (place : List String) (before after : Files B) : Prop :=
  ∀ p, after.nodes.lookup p = if place <:+ p then none else before.nodes.lookup p

theorem gone_remove (place : List String) (files : Files B) :
    Gone place files (files.remove (Files.under place) Files.under_cons) := by
  intro p
  rw [Files.lookup_remove]
  simp [Files.under]

theorem Gone.node {place : List String} (h : Gone place files files') (hplace : place ≠ []) :
    files'.node place = none := by
  rw [files'.node_of_ne hplace, h place, if_pos (List.suffix_refl place)]

theorem Gone.onlyUnder {place : List String} (h : Gone place files files') :
    OnlyUnder place files files' := by
  intro p
  rw [h p]
  split
  · exact .inr ⟨rfl, ‹_›⟩
  · exact .inl rfl

theorem place_ne_nil {node : FileNode B} (hnode : files.node spec.place = some node)
    (hdir : node ≠ .dir) : spec.place ≠ [] := by
  intro hplace
  rw [hplace, Files.node, nodeAt, if_pos rfl] at hnode
  exact hdir (Option.some.inj hnode).symm

/-- `unlink` that succeeds was called on something that is no directory. -/
theorem unlink_ok (hstraight : strays spec files = false)
    (h : unlink env spec files = .ok files') :
    Gone spec.place files files' ∧ spec.place ≠ [] ∧ files.node spec.place ≠ some .dir := by
  unfold unlink at h
  split at h
  · cases h
  · rw [hstraight, if_neg Bool.false_ne_true] at h
    split at h
    · cases h
    · cases h
    · rename_i node hdir hnode
      cases h
      have hne : node ≠ .dir := by simpa using hdir
      refine ⟨gone_remove spec.place files, place_ne_nil hnode hne, ?_⟩
      rw [hnode]
      simpa using hne

theorem unlink_notFound (hstraight : strays spec files = false)
    (h : unlink env spec files = .error .notFound) : files.node spec.place = none := by
  unfold unlink at h
  split at h
  · cases h
  · rw [hstraight, if_neg Bool.false_ne_true] at h
    split at h
    · assumption
    · cases h
    · cases h

/-- How `remove_dir_all` ends: with nothing there, or with some of what was below. -/
inductive TreeRemoval (spec : FileDeleteSpec) (files : Files B) :
    Except IoError Unit × Files B → Prop
  | removed {after : Files B} (hplace : spec.place ≠ []) (h : Gone spec.place files after) :
      TreeRemoval spec files (.ok (), after)
  | absent (h : files.node spec.place = none) : TreeRemoval spec files (.error .notFound, files)
  | failed {e : IoError} {after : Files B} (he : e ≠ .notFound)
      (h : OnlyUnder spec.place files after) : TreeRemoval spec files (.error e, after)

theorem removeTree_cases (env : DeleteEnv B) (hstraight : strays spec files = false) :
    TreeRemoval spec files (removeTree env spec files) := by
  unfold removeTree
  split
  · exact .failed (by simp) (onlyUnder_remove (fun _ => suffix_of_underWithout) files)
  · rw [hstraight, if_neg Bool.false_ne_true]
    split
    · rename_i hnone
      by_cases hmissing : missing spec files = .notFound
      · rw [hmissing]
        exact .absent hnone
      · exact .failed hmissing (.refl _ files)
    · split
      · rename_i hplace
        exact .failed (by simp)
          (onlyUnder_remove (fun _ _ => by rw [hplace]; exact List.nil_suffix) files)
      · rename_i hplace
        exact .removed hplace (gone_remove spec.place files)
    · rename_i hnode
      exact .removed (place_ne_nil hnode (by simp)) (gone_remove spec.place files)
    · exact .failed (by simp) (.refl _ files)

/-- What a directory held when it was found empty: nothing, unless it was listed through a link. -/
theorem listed_empty (hstraight : strays spec files = false)
    (h : isEmptyDir env spec files = .ok true) :
    files.node spec.place = some .symlink ∨
      ∀ p, spec.place <:+ p → p ≠ spec.place → files.nodes.lookup p = none := by
  unfold isEmptyDir listing at h
  split at h
  · rename_i empty hlisting
    obtain rfl := Except.ok.inj h
    split at hlisting
    · cases hlisting
    · rw [hstraight, if_neg Bool.false_ne_true] at hlisting
      split at hlisting
      · cases hlisting
      · exact .inr fun p hp hne =>
          files.lookup_below_of_isEmpty (Except.ok.inj hlisting) hp hne
      · exact .inl ‹_›
      · cases hlisting
  · rename_i hlisting
    split at hlisting
    · cases hlisting
    · rw [hstraight, if_neg Bool.false_ne_true] at hlisting
      split at hlisting
      · rename_i hnone
        refine .inr fun p hp hne => files.lookup_below_of_not_dir ?_ hp hne
        rw [hnone]
        simp
      · cases hlisting
      · exact .inl ‹_›
      · cases hlisting
  · cases h

/-! ## Under interference -/

/-- The last call was made on these files; before the first one they are the files given. -/
def lastSeen (files : Files B) (calls : List (DeleteOp × Files B)) : Files B :=
  (calls.getLast?.map Prod.snd).getD files

@[simp] theorem lastSeen_append (files : Files B) (calls : List (DeleteOp × Files B))
    (op : DeleteOp) (seen : Files B) : lastSeen files (calls ++ [(op, seen)]) = seen := by
  simp [lastSeen]

/-- What an apply promises while others change the files between its calls: success means that
    nothing is at the path; since the last call it has taken away nothing from elsewhere; and
    without `recursive` nothing from below the path that was there when the directory was
    listed, unless the listing went through a link. -/
structure DeleteSafe (spec : FileDeleteSpec) (files : Files B) (run : DeleteRun B) : Prop where
  gone : ∀ report, run.result = .ok report → run.files.node spec.place = none
  onlyUnder : OnlyUnder spec.place (lastSeen files run.calls) run.files
  listed : spec.recursive = false → ∀ p, p ≠ spec.place →
    (lastSeen files run.calls).nodes.lookup p ≠ none → run.files.nodes.lookup p = none →
      ∃ seen, (.readDir, seen) ∈ run.calls ∧
        (seen.nodes.lookup p = none ∨ seen.node spec.place = some .symlink)

/-- Whenever a call is made the path leads to its place. -/
def LeadsStraight (spec : FileDeleteSpec) (calls : List (DeleteOp × Files B)) : Prop :=
  ∀ op seen, (op, seen) ∈ calls → strays spec seen = false

/-- A run that has taken nothing away since its last call. -/
theorem deleteSafe_idle {run : DeleteRun B} (hfiles : run.files = lastSeen files run.calls)
    (hgone : ∀ report, run.result = .ok report → run.files.node spec.place = none) :
    DeleteSafe spec files run where
  gone := hgone
  onlyUnder := by
    rw [hfiles]
    exact .refl _ _
  listed _ p _ hbefore hafter := absurd (hfiles ▸ hafter) hbefore

theorem removeFile_calls (calls : List (DeleteOp × Files B)) (files : Files B) :
    (removeFile env spec calls files).calls =
      calls ++ [(.removeFile, env.others .removeFile files)] := by
  unfold removeFile
  dsimp only
  split <;> rfl

theorem removeAll_calls (calls : List (DeleteOp × Files B)) (files : Files B) :
    (removeAll env spec calls files).calls =
      calls ++ [(.removeDirAll, env.others .removeDirAll files)] := by
  unfold removeAll
  dsimp only
  split <;> rfl

theorem removeFile_safe (start : Files B) (calls : List (DeleteOp × Files B)) (files : Files B)
    (hstraight : LeadsStraight spec (removeFile env spec calls files).calls) :
    DeleteSafe spec start (removeFile env spec calls files) := by
  have hnow : strays spec (env.others .removeFile files) = false := by
    rw [removeFile_calls] at hstraight
    exact hstraight .removeFile _ (List.mem_append_right _ List.mem_cons_self)
  unfold removeFile
  dsimp only
  split
  · rename_i files' hunlink
    obtain ⟨hgone, hplace, hdir⟩ := unlink_ok hnow hunlink
    refine ⟨fun _ _ => hgone.node hplace, ?_, ?_⟩
    · rw [lastSeen_append]
      exact hgone.onlyUnder
    · -- below something that is no directory there is nothing to lose
      intro _ p hne hbefore hafter
      rw [lastSeen_append] at hbefore
      rw [hgone p] at hafter
      split at hafter
      · rename_i hp
        exact absurd (Files.lookup_below_of_not_dir _ hdir hp hne) hbefore
      · exact absurd hafter hbefore
  · rename_i hunlink
    exact deleteSafe_idle (lastSeen_append ..).symm fun _ _ => unlink_notFound hnow hunlink
  · exact deleteSafe_idle (lastSeen_append ..).symm fun _ h => by cases h

/-- The removal of a directory; what is known of the listing is what makes it safe. -/
theorem removeAll_safe (start : Files B) (calls : List (DeleteOp × Files B)) (files : Files B)
    (hlisted : spec.recursive = false → ∃ seen, (.readDir, seen) ∈ calls ∧
      isEmptyDir env spec seen = .ok true)
    (hstraight : LeadsStraight spec (removeAll env spec calls files).calls) :
    DeleteSafe spec start (removeAll env spec calls files) := by
  rw [removeAll_calls] at hstraight
  have hnow : strays spec (env.others .removeDirAll files) = false :=
    hstraight .removeDirAll _ (List.mem_append_right _ List.mem_cons_self)
  have hbelow : ∀ (after : Files B),
      OnlyUnder spec.place (env.others .removeDirAll files) after → ∀ result,
      (∀ report, result = .ok report → after.node spec.place = none) →
      DeleteSafe spec start
        ⟨result, after, calls ++ [(.removeDirAll, env.others .removeDirAll files)]⟩ := by
    intro after hunder result hgone
    refine ⟨hgone, by rw [lastSeen_append]; exact hunder, ?_⟩
    intro hrecursive p hne hbefore hafter
    rw [lastSeen_append] at hbefore
    obtain ⟨seen, hseen, hempty⟩ := hlisted hrecursive
    refine ⟨seen, List.mem_append_left _ hseen, ?_⟩
    rcases hunder p with hsame | ⟨-, hp⟩
    · exact absurd (hsame.symm.trans hafter) hbefore
    · have hseen' := hstraight .readDir seen (List.mem_append_left _ hseen)
      exact (listed_empty hseen' hempty).symm.imp (fun h => h p hp hne) id
  unfold removeAll
  dsimp only
  have hcases := removeTree_cases env hnow
  generalize removeTree env spec (env.others .removeDirAll files) = removal at hcases
  cases hcases with
  | removed hplace h => exact hbelow _ h.onlyUnder _ fun _ _ => h.node hplace
  | absent h => exact hbelow _ (.refl _ _) _ fun _ _ => h
  | @failed e after he h =>
    cases e with
    | notFound => exact absurd rfl he
    | other message => exact hbelow _ h _ fun _ hok => by cases hok

theorem removeDirectory_safe (start : Files B) (calls : List (DeleteOp × Files B))
    (files : Files B) : LeadsStraight spec (removeDirectory env spec calls files).calls →
    DeleteSafe spec start (removeDirectory env spec calls files) := by
  unfold removeDirectory
  split
  · rename_i hrecursive
    exact removeAll_safe start calls files fun h => by rw [hrecursive] at h; cases h
  · dsimp only
    split
    · exact fun _ => deleteSafe_idle (lastSeen_append ..).symm fun _ h => by cases h
    · exact fun _ => deleteSafe_idle (lastSeen_append ..).symm fun _ h => by cases h
    · rename_i hempty
      exact removeAll_safe start _ _ fun _ =>
        ⟨env.others .readDir files, List.mem_append_right _ List.mem_cons_self, hempty⟩

theorem decideActionDelete_noChange (hstraight : strays spec files = false)
    (h : decideActionDelete env spec files = .ok .noChange) : files.node spec.place = none := by
  unfold decideActionDelete lstat at h
  split at h
  · rename_i hlstat
    split at hlstat
    · cases hlstat
    · rw [hstraight, if_neg Bool.false_ne_true] at hlstat
      split at hlstat
      · cases hlstat
      · assumption
  · cases h
  · cases h
  · cases h

/-- **`file.delete` among others.**  Whatever fails and whatever others do between its calls, an
    apply whose path leads to its place at each of them promises all of `DeleteSafe`. -/
theorem applyDelete_safe (env : DeleteEnv B) (spec : FileDeleteSpec) (files : Files B)
    (hstraight : LeadsStraight spec (applyDelete env spec false files).calls) :
    DeleteSafe spec files (applyDelete env spec false files) := by
  revert hstraight
  unfold applyDelete
  rw [if_neg Bool.false_ne_true]
  split
  · exact fun _ => deleteSafe_idle rfl fun _ h => by cases h
  · dsimp only
    split
    · exact fun _ => deleteSafe_idle rfl fun _ h => by cases h
    · rename_i hdecide
      intro hstraight
      have hnow := hstraight .symlinkMetadata _ List.mem_cons_self
      exact deleteSafe_idle rfl fun _ _ => decideActionDelete_noChange hnow hdecide
    · exact removeFile_safe files _ _
    · exact removeDirectory_safe files _ _

/-- `/spool` with a file in it. -/
def fullSpool : Files Nat where
  nodes := AList.insert ["job", "spool"] (.file ⟨0, 0o644, 0, 0⟩) (AList.insert ["spool"] .dir ∅)
  rooted name place h := by
    rw [AList.lookup_isSome, AList.mem_insert, AList.mem_insert] at h
    rcases h with h | h | h
    · obtain ⟨-, rfl⟩ := List.cons.inj h
      decide
    · obtain ⟨-, rfl⟩ := List.cons.inj h
      decide
    · simp at h

/-- `/spool`, empty -/
def emptySpool : Files Nat := fullSpool.remove (Files.under ["job", "spool"]) Files.under_cons

/-- Somebody puts a file into the directory after it was listed. -/
def latecomer : DeleteEnv Nat where
  __ := DeleteEnv.calm Nat
  others op files := if op = .removeDirAll then fullSpool else files

/-- The file goes with the directory: it was not there when the directory was listed. -/
theorem applyDelete_safe_spool :
    (applyDelete latecomer ⟨"/spool", false⟩ false emptySpool).files.node ["job", "spool"] = none ∧
    ∃ seen, (.readDir, seen) ∈ (applyDelete latecomer ⟨"/spool", false⟩ false emptySpool).calls ∧
      (seen.nodes.lookup ["job", "spool"] = none ∨ seen.node ["spool"] = some .symlink) := by
  have hsafe := applyDelete_safe latecomer ⟨"/spool", false⟩ emptySpool fun op seen hseen => by
    have hcalls : (applyDelete latecomer ⟨"/spool", false⟩ false emptySpool).calls =
        [(.symlinkMetadata, emptySpool), (.readDir, emptySpool), (.removeDirAll, fullSpool)] := rfl
    rw [hcalls] at hseen
    simp only [List.mem_cons, List.not_mem_nil, or_false, Prod.mk.injEq] at hseen
    rcases hseen with ⟨-, rfl⟩ | ⟨-, rfl⟩ | ⟨-, rfl⟩ <;> decide
  exact ⟨by decide, hsafe.listed rfl ["job", "spool"] (by decide) (by decide) (by decide)⟩

/-! ## Convergence -/

theorem blocked_congr {nodes nodes' : Nodes B} (place : List String)
    (h : ∀ above, above <:+ place → nodes'.lookup above = nodes.lookup above) :
    blocked nodes' place = blocked nodes place := by
  induction place with
  | nil => rfl
  | cons name place ih =>
    rw [blocked, blocked, ih fun above habove => h above (habove.trans (List.suffix_cons _ _)),
      h _ (List.suffix_refl _)]

theorem blocked_eq_false {nodes : Nodes B} (place : List String)
    (h : ∀ above, above <:+ place → above ≠ [] → nodes.lookup above = some .dir) :
    blocked nodes place = false := by
  induction place with
  | nil => rfl
  | cons name place ih =>
    rw [blocked, ih fun above habove => h above (habove.trans (List.suffix_cons _ _)),
      h _ (List.suffix_refl _) (by simp)]
    rfl

/-- Nothing blocks the way to what is there. -/
theorem blocked_of_node {place : List String} {node : FileNode B} (hplace : place ≠ [])
    (hnode : files.node place = some node) : blocked files.nodes place.tail = false := by
  refine blocked_eq_false _ fun above habove hne => ?_
  obtain ⟨name, parent, rfl⟩ := List.exists_cons_of_ne_nil hplace
  obtain ⟨names, hnames⟩ : above <:+ parent := habove
  rw [files.node_of_ne hplace] at hnode
  have hdir : files.node above = some .dir := by
    refine files.dir_above (List.cons_ne_nil name names) ?_
    rw [List.cons_append, hnames, hnode]
    rfl
  rwa [files.node_of_ne hne] at hdir

theorem blocked_of_gone {place : List String} (hplace : place ≠ []) (h : Gone place files files') :
    blocked files'.nodes place.tail = blocked files.nodes place.tail := by
  refine blocked_congr _ fun above habove => ?_
  obtain ⟨name, parent, rfl⟩ := List.exists_cons_of_ne_nil hplace
  rw [h above, if_neg]
  intro hunder
  have := hunder.length_le
  have := List.IsSuffix.length_le habove
  simp only [List.length_cons, List.tail_cons] at *
  omega

theorem strays_of_gone (hplace : spec.place ≠ []) (h : Gone spec.place files files') :
    strays spec files' = strays spec files := by
  have hnode : ∀ above ∈ spec.place.tail.tails, files'.node above = files.node above := by
    intro above habove
    obtain ⟨name, parent, hparent⟩ := List.exists_cons_of_ne_nil hplace
    rw [List.mem_tails, hparent, List.tail_cons] at habove
    by_cases hroot : above = []
    · rw [hroot]
      rfl
    · rw [files'.node_of_ne hroot, files.node_of_ne hroot, h above, if_neg]
      intro hunder
      have hle := (hparent ▸ hunder).length_le
      have := habove.length_le
      rw [List.length_cons] at hle
      omega
  rw [strays, strays]
  congr 1
  rw [Bool.eq_iff_iff, List.any_eq_true, List.any_eq_true]
  constructor
  · rintro ⟨above, habove, hlink⟩
    exact ⟨above, habove, hnode above habove ▸ hlink⟩
  · rintro ⟨above, habove, hlink⟩
    exact ⟨above, habove, hnode above habove ▸ hlink⟩

/-- What a quiet host lets `file.delete` remove. -/
structure Deletable (spec : FileDeleteSpec) (files : Files B) : Prop where
  reachable : files.node spec.place = none → blocked files.nodes spec.place.tail = false
  allowed : files.node spec.place = some .dir →
    spec.recursive = true ∨ files.isEmpty spec.place = true

theorem lstat_calm_of_node (hstraight : strays spec files = false) {node : FileNode B}
    (h : files.node spec.place = some node) : lstat (.calm B) spec files = .ok node := by
  simp [lstat, DeleteEnv.calm, hstraight, h]

theorem lstat_calm_of_none (hstraight : strays spec files = false)
    (h : files.node spec.place = none) (hfree : blocked files.nodes spec.place.tail = false) :
    lstat (.calm B) spec files = .error .notFound := by
  simp [lstat, DeleteEnv.calm, hstraight, h, missing, hfree]

/-- Where nothing is, nothing is done. -/
theorem applyDelete_absent (hvalid : spec.validate = .ok ())
    (hstraight : strays spec files = false) (h : files.node spec.place = none)
    (hfree : blocked files.nodes spec.place.tail = false) (diffIsNoChange : Bool) :
    (applyDelete (.calm B) spec diffIsNoChange files).result = .ok .noChange ∧
      (applyDelete (.calm B) spec diffIsNoChange files).files = files := by
  have hlstat := lstat_calm_of_none hstraight h hfree
  cases diffIsNoChange with
  | true => exact ⟨rfl, rfl⟩
  | false => simp [applyDelete, hvalid, decideActionDelete, hlstat]

theorem applyDelete_file (hvalid : spec.validate = .ok ())
    (hstraight : strays spec files = false) {node : FileNode B}
    (hnode : files.node spec.place = some node) (hdir : node ≠ .dir) :
    (applyDelete (.calm B) spec false files).result = .ok (.ofChanged ("deleted " ++ spec.path)) ∧
      Gone spec.place files (applyDelete (.calm B) spec false files).files := by
  have hdecide : decideActionDelete (.calm B) spec files = .ok .deleteFile := by
    rw [decideActionDelete, lstat_calm_of_node hstraight hnode]
    cases node with
    | dir => exact absurd rfl hdir
    | file _ => rfl
    | symlink => rfl
    | special => rfl
  have hunlink : unlink (.calm B) spec files =
      .ok (files.remove (Files.under spec.place) Files.under_cons) := by
    rw [unlink, hstraight, hnode]
    cases node with
    | dir => exact absurd rfl hdir
    | file _ => rfl
    | symlink => rfl
    | special => rfl
  have hrun : applyDelete (.calm B) spec false files =
      removeFile (.calm B) spec [(.symlinkMetadata, files)] files := by
    simp [applyDelete, hvalid, hdecide]
  rw [hrun, removeFile, calm_others, hunlink]
  exact ⟨rfl, gone_remove spec.place files⟩

theorem applyDelete_dir (hvalid : spec.validate = .ok ()) (hplace : spec.place ≠ [])
    (hstraight : strays spec files = false)
    (hnode : files.node spec.place = some .dir) :
    (spec.recursive = true ∨ files.isEmpty spec.place = true →
      (applyDelete (.calm B) spec false files).result =
          .ok (.ofChanged ("deleted directory " ++ spec.path)) ∧
        Gone spec.place files (applyDelete (.calm B) spec false files).files) ∧
    (¬ (spec.recursive = true ∨ files.isEmpty spec.place = true) →
      (∃ e, (applyDelete (.calm B) spec false files).result = .error e) ∧
        (applyDelete (.calm B) spec false files).files = files) := by
  have hdecide : decideActionDelete (.calm B) spec files = .ok .deleteDir := by
    rw [decideActionDelete, lstat_calm_of_node hstraight hnode]
  have hrun : applyDelete (.calm B) spec false files =
      removeDirectory (.calm B) spec [(.symlinkMetadata, files)] files := by
    simp [applyDelete, hvalid, hdecide]
  have hlisting : isEmptyDir (.calm B) spec files = .ok (files.isEmpty spec.place) := by
    simp [isEmptyDir, listing, DeleteEnv.calm, hstraight, hnode]
  have hremove : ∀ calls,
      (removeAll (.calm B) spec calls files).result =
          .ok (.ofChanged ("deleted directory " ++ spec.path)) ∧
        Gone spec.place files (removeAll (.calm B) spec calls files).files := by
    intro calls
    have htree : removeTree (.calm B) spec files =
        (.ok (), files.remove (Files.under spec.place) Files.under_cons) := by
      simp [removeTree, DeleteEnv.calm, hstraight, hnode, hplace]
    rw [removeAll, calm_others, htree]
    exact ⟨rfl, gone_remove spec.place files⟩
  rw [hrun, removeDirectory]
  by_cases hrecursive : spec.recursive = true
  · rw [if_pos hrecursive]
    exact ⟨fun _ => hremove _, fun h => absurd (.inl hrecursive) h⟩
  · rw [if_neg hrecursive]
    dsimp only
    rw [calm_others, hlisting]
    by_cases hempty : files.isEmpty spec.place = true
    · rw [hempty]
      exact ⟨fun _ => hremove _, fun h => absurd (.inr rfl) h⟩
    · rw [(Bool.not_eq_true _).mp hempty]
      exact ⟨fun h => absurd h (by simp [hrecursive]), fun _ => ⟨⟨_, rfl⟩, rfl⟩⟩

/-- What is done on a quiet host, in one step: all of it, or nothing. -/
theorem applyDelete_calm (hvalid : spec.validate = .ok ()) (hplace : spec.place ≠ [])
    (hstraight : strays spec files = false) :
    (Deletable spec files → (∃ report, (applyDelete (.calm B) spec false files).result =
        .ok report) ∧ Gone spec.place files (applyDelete (.calm B) spec false files).files) ∧
    (¬ Deletable spec files → (∃ e, (applyDelete (.calm B) spec false files).result = .error e) ∧
      (applyDelete (.calm B) spec false files).files = files) := by
  cases hnode : files.node spec.place with
  | none =>
    have hdeletable : Deletable spec files ↔ blocked files.nodes spec.place.tail = false :=
      ⟨fun h => h.reachable hnode, fun h => ⟨fun _ => h, fun hdir => by simp [hnode] at hdir⟩⟩
    constructor
    · intro h
      obtain ⟨hresult, hfiles⟩ := applyDelete_absent hvalid hstraight hnode (hdeletable.mp h) false
      refine ⟨⟨_, hresult⟩, ?_⟩
      intro p
      rw [hfiles]
      split
      · rename_i hp
        by_cases hne : p = spec.place
        · rw [hne, ← files.node_of_ne hplace, hnode]
        · exact files.lookup_below_of_not_dir (by simp [hnode]) hp hne
      · rfl
    · intro h
      have hblocked : blocked files.nodes spec.place.tail = true := by
        simpa [hdeletable] using h
      have hlstat : lstat (.calm B) spec files =
          .error (.other "Not a directory (os error 20)") := by
        simp [lstat, DeleteEnv.calm, hstraight, hnode, missing, hblocked]
      simp [applyDelete, hvalid, decideActionDelete, hlstat]
  | some node =>
    by_cases hdir : node = .dir
    · subst hdir
      obtain ⟨hallowed, hrefused⟩ := applyDelete_dir hvalid hplace hstraight hnode
      refine ⟨fun h => ?_, fun h => hrefused fun hor => h ⟨?_, fun _ => hor⟩⟩
      · obtain ⟨hresult, hgone⟩ := hallowed (h.allowed hnode)
        exact ⟨⟨_, hresult⟩, hgone⟩
      · simp [hnode]
    · obtain ⟨hresult, hgone⟩ := applyDelete_file hvalid hstraight hnode hdir
      refine ⟨fun _ => ⟨⟨_, hresult⟩, hgone⟩, fun h => absurd ⟨?_, ?_⟩ h⟩
      · simp [hnode]
      · rw [hnode]
        intro heq
        exact absurd (Option.some.inj heq) hdir

/-- **`file.delete` converges.**  On a quiet host, and where the path names something other than
    the root and leads to it, it succeeds on exactly what it may remove.  Then the path is gone
    with everything below and nothing else is; a second plan finds nothing to do and a second
    apply does nothing.  Otherwise no file is touched and every plan asks again. -/
theorem applyDelete_converges {P : Type} (exists_ : String → Bool → P)
    (hvalid : spec.validate = .ok ()) (hplace : spec.place ≠ []) (files : Files B)
    (hstraight : strays spec files = false) :
    ((∃ report, (applyDelete (.calm B) spec false files).result = .ok report) ↔
      Deletable spec files) ∧
    (Deletable spec files →
      Gone spec.place files (applyDelete (.calm B) spec false files).files ∧
      planDelete (.calm B) spec exists_ (applyDelete (.calm B) spec false files).files =
        .ok .noChange ∧
      ∀ diffIsNoChange, (applyDelete (.calm B) spec diffIsNoChange
          (applyDelete (.calm B) spec false files).files).files =
        (applyDelete (.calm B) spec false files).files) ∧
    (¬ Deletable spec files → (applyDelete (.calm B) spec false files).files = files ∧
      planDelete (.calm B) spec exists_ files ≠ .ok .noChange) := by
  obtain ⟨hdone, hrefused⟩ := applyDelete_calm hvalid hplace hstraight
  refine ⟨⟨fun ⟨report, hok⟩ => ?_, fun h => (hdone h).1⟩, fun h => ?_, fun h => ?_⟩
  · by_contra h
    obtain ⟨⟨e, he⟩, -⟩ := hrefused h
    rw [hok] at he
    cases he
  · have hgone := (hdone h).2
    have hnode := hgone.node hplace
    have hafter := (strays_of_gone hplace hgone).trans hstraight
    have hfree : blocked (applyDelete (.calm B) spec false files).files.nodes spec.place.tail =
        false := by
      rw [blocked_of_gone hplace hgone]
      cases hbefore : files.node spec.place with
      | none => exact h.reachable hbefore
      | some node => exact blocked_of_node hplace hbefore
    refine ⟨hgone, ?_, fun flag => (applyDelete_absent hvalid hafter hnode hfree flag).2⟩
    simp [planDelete, hvalid, decideActionDelete, lstat_calm_of_none hafter hnode hfree]
  · refine ⟨(hrefused h).2, fun hplan => ?_⟩
    have hdecide : decideActionDelete (.calm B) spec files = .ok .noChange := by
      simp only [planDelete, hvalid, calm_others] at hplan
      split at hplan
      · cases hplan
      · assumption
      · cases hplan
    have hnode := decideActionDelete_noChange hstraight hdecide
    refine h ⟨fun _ => ?_, fun hdir => by simp [hnode] at hdir⟩
    unfold decideActionDelete at hdecide
    split at hdecide
    · rename_i hlstat
      simp only [lstat, DeleteEnv.calm, hstraight, Bool.false_eq_true, if_false, hnode, missing]
        at hlstat
      split at hlstat
      · cases hlstat
      · exact (Bool.not_eq_true _).mp ‹_›
    · cases hdecide
    · cases hdecide
    · cases hdecide

theorem applyDelete_converges_spool :
    planDelete (.calm Nat) ⟨"/spool", true⟩ (fun path there => (path, there))
      (applyDelete (.calm Nat) ⟨"/spool", true⟩ false fullSpool).files = .ok .noChange :=
  ((applyDelete_converges (fun path there => (path, there))
    (by decide : (⟨"/spool", true⟩ : FileDeleteSpec).validate = .ok ()) (by decide) fullSpool
    (by decide)).2.1 ⟨fun h => absurd h (by decide), fun _ => .inl rfl⟩).2.1

end FileDelete

end Bosun
