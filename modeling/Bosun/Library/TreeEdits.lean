import Bosun.Library.FileTree
import Mathlib.Data.List.Infix

/-!
# Editing a tree of files

Three edits of a `Tree`: something is put where nothing is, whatever is at or below some
places is removed, and missing directories are made on the way down to a place.  Each comes
with what it leaves alone.
-/

namespace FileTree

/-- What is between two separators has none. -/
theorem not_mem_of_mem_splitOn {α : Type} [DecidableEq α] {sep : α} {l piece : List α}
    (h : piece ∈ l.splitOn sep) : sep ∉ piece := by
  induction l generalizing piece with
  | nil =>
    obtain rfl : piece = [] := by simpa [List.splitOn, List.splitOnP_nil] using h
    simp
  | cons a l ih =>
    rw [List.splitOn, List.splitOnP_cons_eq_if_modifyHead] at h
    by_cases ha : a = sep
    · rw [if_pos (by simpa using ha), List.mem_cons] at h
      rcases h with rfl | h
      · simp
      · exact ih h
    · obtain ⟨first, rest, hsplit⟩ :=
        List.exists_cons_of_ne_nil (List.splitOnP_ne_nil (· == sep) l)
      rw [if_neg (by simpa using ha), hsplit, List.modifyHead_cons, List.mem_cons] at h
      have hpieces : ∀ piece ∈ first :: rest, sep ∉ piece := fun piece hpiece =>
        ih (by rw [List.splitOn, hsplit]; exact hpiece)
      rcases h with rfl | h
      · simp only [List.mem_cons, not_or]
        exact ⟨fun heq => ha heq.symm, hpieces first List.mem_cons_self⟩
      · exact hpieces piece (List.mem_cons_of_mem _ h)

theorem no_slash_of_mem_segments {path segment : String} (h : segment ∈ segments path) :
    '/' ∉ segment.toList := by
  obtain ⟨piece, hpiece, rfl⟩ := List.mem_map.mp h
  rw [String.toList_ofList]
  exact not_mem_of_mem_splitOn hpiece

namespace Tree

variable (t : Tree)

/-- Nothing is below a place where nothing is. -/
theorem node_append_of_none {place : List String} (h : t.node place = none)
    (names : List String) : t.node (names ++ place) = none := by
  cases names with
  | nil => exact h
  | cons name names =>
    cases hnode : t.node (name :: names ++ place) with
    | none => rfl
    | some node =>
      have hdir := dir_of_suffix (List.cons_ne_nil name names) (by rw [hnode]; rfl)
      rw [h] at hdir
      cases hdir

/-! ## Removing -/

/-- Without what is at or below the places that are gone. -/
def prune (gone : List String → Bool) (hroot : gone [] = false) : Tree where
  node place := if place.tails.any gone then none else t.node place
  root_dir := by simp [hroot, t.root_dir]
  parent_dir name place h := by
    by_cases hgone : (name :: place).tails.any gone = true
    · rw [if_pos hgone] at h
      cases h
    · rw [if_neg hgone] at h
      have hplace : ¬ place.tails.any gone = true := by
        intro hany
        refine hgone ?_
        rw [List.tails, List.any_cons, hany, Bool.or_true]
      rw [if_neg hplace]
      exact t.parent_dir name place h
  named name place h := by
    by_cases hgone : (name :: place).tails.any gone = true
    · rw [if_pos hgone] at h
      cases h
    · rw [if_neg hgone] at h
      exact t.named name place h

variable {t} {gone : List String → Bool} {hroot : gone [] = false} {place : List String}

theorem node_prune_of_gone {above : List String} (h : above <:+ place) (hgone : gone above = true) :
    (t.prune gone hroot).node place = none :=
  if_pos (List.any_eq_true.mpr ⟨above, (List.mem_tails above place).mpr h, hgone⟩)

theorem node_prune_of_stays (h : ∀ above, above <:+ place → gone above = false) :
    (t.prune gone hroot).node place = t.node place := by
  refine if_neg fun hany => ?_
  obtain ⟨above, habove, hgone⟩ := List.any_eq_true.mp hany
  rw [h above ((List.mem_tails above place).mp habove)] at hgone
  cases hgone

/-- Pruning never adds anything. -/
theorem node_prune_eq_some {node : Node} (h : (t.prune gone hroot).node place = some node) :
    t.node place = some node := by
  show t.node place = some node
  by_cases hany : place.tails.any gone = true
  · have : (t.prune gone hroot).node place = none := if_pos hany
    rw [this] at h
    cases h
  · have : (t.prune gone hroot).node place = t.node place := if_neg hany
    rwa [this] at h

/-! ## Putting -/

variable (t)

/-- `node` where nothing is, in a directory. -/
def insert (name : String) (place : List String) (node : Node) (hname : IsName name)
    (hdir : t.node place = some .dir) (hfree : t.node (name :: place) = none) : Tree where
  node p := if p = name :: place then some node else t.node p
  root_dir := by simp [t.root_dir]
  parent_dir name' p h := by
    have hne : p ≠ name :: p := fun heq => absurd (congrArg List.length heq) (by simp)
    by_cases hp : name' :: p = name :: place
    · obtain ⟨rfl, rfl⟩ := List.cons.inj hp
      rw [if_neg hne]
      exact hdir
    · rw [if_neg hp] at h
      have hparent := t.parent_dir name' p h
      by_cases hplace : p = name :: place
      · rw [hplace, hfree] at hparent
        cases hparent
      · rw [if_neg hplace]
        exact hparent
  named name' p h := by
    by_cases hp : name' :: p = name :: place
    · obtain ⟨rfl, rfl⟩ := List.cons.inj hp
      exact hname
    · rw [if_neg hp] at h
      exact t.named name' p h

variable {t} {name : String} {node : Node} {hname : IsName name}
  {hdir : t.node place = some .dir} {hfree : t.node (name :: place) = none}

theorem node_insert_self :
    (t.insert name place node hname hdir hfree).node (name :: place) = some node := if_pos rfl

theorem node_insert_of_ne {p : List String} (h : p ≠ name :: place) :
    (t.insert name place node hname hdir hfree).node p = t.node p := if_neg h

/-! ## Making directories -/

variable (t)

/-- Every directory on the way down, or nothing when something else is in the way. -/
def mkdirs : (place : List String) → (∀ name ∈ place, IsName name) → Option Tree
  | [], _ => some t
  | name :: place, hnames =>
    match mkdirs place fun n hn => hnames n (List.mem_cons_of_mem _ hn) with
    | none => none
    | some t' =>
      if t'.node (name :: place) = some .dir then some t'
      else if h : t'.node place = some .dir ∧ t'.node (name :: place) = none then
        some (t'.insert name place .dir (hnames name List.mem_cons_self) h.1 h.2)
      else none

variable {t}

/-- Afterwards there is a directory, and only what is on the way down has changed: what was
missing there is a directory now. -/
theorem mkdirs_spec {place : List String} {hnames : ∀ name ∈ place, IsName name} {t' : Tree}
    (h : t.mkdirs place hnames = some t') :
    t'.node place = some .dir ∧ (∀ p, ¬ p <:+ place → t'.node p = t.node p) ∧
      ∀ p node, t.node p = some node → t'.node p = some node := by
  induction place generalizing t' with
  | nil =>
    cases h
    exact ⟨t.root_dir, fun _ _ => rfl, fun _ _ hp => hp⟩
  | cons name place ih =>
    rw [mkdirs] at h
    split at h
    · cases h
    · rename_i t₁ h₁
      obtain ⟨hdir, hother, hkeep⟩ := ih h₁
      have hoff : ∀ p, ¬ p <:+ name :: place → ¬ p <:+ place := fun p hp hsuffix =>
        hp (hsuffix.trans (List.suffix_cons name place))
      split at h
      · rename_i hthere
        cases h
        exact ⟨hthere, fun p hp => hother p (hoff p hp), hkeep⟩
      · split at h
        · rename_i hfree
          cases h
          refine ⟨node_insert_self, fun p hp => ?_, fun p node hp => ?_⟩
          · rw [node_insert_of_ne fun heq => hp (heq ▸ List.suffix_refl _)]
            exact hother p (hoff p hp)
          · have hkept := hkeep p node hp
            rw [node_insert_of_ne]
            · exact hkept
            · rintro rfl
              rw [hfree.2] at hkept
              cases hkept
        · cases h

end Tree

end FileTree
