import Mathlib.Data.List.Perm.Basic
import Mathlib.Data.List.Perm.Lattice
import Mathlib.Data.List.Nodup
import Mathlib.Logic.Relation
import Mathlib.Data.Fintype.EquivFin
import Mathlib.Order.WellFounded
import Mathlib.Data.Finite.Defs
import Mathlib.Order.RelClasses

/-!
# Kahn's algorithm on a multigraph

A graph is kept the way an implementation keeps it: an in-degree for every
vertex and, for every vertex, the list of its successors.  Parallel edges are
stored as often as they occur.  `drain` is the worklist loop with an explicit
bound on the number of turns.

The loop invariant `Inv` says that the in-degrees count the edges that leave a
vertex not yet done, and that a vertex is done or waiting exactly when no such
edge enters it.  From it follow the two halves of the correctness statement:
what the loop puts out is ordered (`drain_precedes`), and what it leaves behind
are exactly the vertices that lie on a cycle or are reached from one
(`not_mem_order_iff`).
-/

namespace Kahn

variable {α : Type*} [DecidableEq α]

/-- In-degrees and successor lists. -/
structure Graph (α : Type*) where
  inDegree : α → Nat
  adj : α → List α

namespace Graph

def empty : Graph α := ⟨fun _ => 0, fun _ => []⟩

/-- Record the edge `u → v`; an edge recorded twice counts twice. -/
def addEdge (g : Graph α) (e : α × α) : Graph α where
  inDegree := Function.update g.inDegree e.2 (g.inDegree e.2 + 1)
  adj := Function.update g.adj e.1 (g.adj e.1 ++ [e.2])

def ofEdges (edges : List (α × α)) : Graph α := edges.foldl addEdge empty

theorem mem_adj_addEdge (g : Graph α) (e : α × α) (u v : α) :
    v ∈ (g.addEdge e).adj u ↔ v ∈ g.adj u ∨ (u, v) = e := by
  obtain ⟨a, b⟩ := e
  by_cases hu : u = a
  · subst hu; simp [addEdge]
  · simp [addEdge, hu]

theorem mem_adj_foldl (edges : List (α × α)) (g : Graph α) (u v : α) :
    v ∈ (edges.foldl addEdge g).adj u ↔ v ∈ g.adj u ∨ (u, v) ∈ edges := by
  induction edges generalizing g with
  | nil => simp
  | cons e edges ih => rw [List.foldl_cons, ih, mem_adj_addEdge, List.mem_cons, or_assoc]

theorem mem_adj_ofEdges {edges : List (α × α)} {u v : α} :
    v ∈ (ofEdges edges).adj u ↔ (u, v) ∈ edges := by
  simp [ofEdges, mem_adj_foldl, empty]

/-- In-degrees and successor lists agree on the vertices `V`. -/
def Counted (V : List α) (g : Graph α) : Prop :=
  ∀ v, g.inDegree v = (V.flatMap g.adj).count v

theorem count_flatMap_update (V : List α) (hV : V.Nodup) (adj : α → List α) {u : α}
    (hu : u ∈ V) (w v : α) :
    (V.flatMap (Function.update adj u (adj u ++ [w]))).count v =
      (V.flatMap adj).count v + if w = v then 1 else 0 := by
  induction V with
  | nil => simp at hu
  | cons a V ih =>
    obtain ⟨ha, hV⟩ := List.nodup_cons.mp hV
    by_cases hau : a = u
    · -- the edge is stored here, and `u` does not occur again
      subst hau
      have hrest : V.flatMap (Function.update adj a (adj a ++ [w])) = V.flatMap adj := by
        refine List.flatMap_congr fun x hx => ?_
        have hxa : x ≠ a := fun h => ha (h ▸ hx)
        simp [hxa]
      simp only [List.flatMap_cons, hrest, Function.update_self, List.count_append,
        List.count_singleton, beq_iff_eq]
      omega
    · have hu' : u ∈ V := (List.mem_cons.mp hu).resolve_left (Ne.symm hau)
      simp only [List.flatMap_cons, List.count_append, Function.update_of_ne hau, ih hV hu']
      omega

theorem counted_addEdge {V : List α} (hV : V.Nodup) {g : Graph α} (hg : Counted V g)
    {e : α × α} (he : e.1 ∈ V) : Counted V (g.addEdge e) := by
  intro v
  have hcount := count_flatMap_update V hV g.adj he e.2 v
  by_cases hv : e.2 = v
  · subst hv
    simpa [addEdge, hg e.2] using hcount.symm
  · simpa [addEdge, Function.update_of_ne (Ne.symm hv), hv, hg v] using hcount.symm

theorem counted_ofEdges {V : List α} (hV : V.Nodup) {edges : List (α × α)}
    (hedges : ∀ e ∈ edges, e.1 ∈ V) : Counted V (ofEdges edges) := by
  have hfold : ∀ (edges : List (α × α)) (g : Graph α), (∀ e ∈ edges, e.1 ∈ V) →
      Counted V g → Counted V (edges.foldl addEdge g) := by
    intro edges
    induction edges with
    | nil => intro g _ hg; exact hg
    | cons e edges ih =>
      intro g hedges hg
      rw [List.forall_mem_cons] at hedges
      exact ih _ hedges.2 (counted_addEdge hV hg hedges.1)
  refine hfold edges empty hedges fun v => ?_
  have hnone : v ∉ V.flatMap empty.adj := by simp [empty]
  exact (List.count_eq_zero.mpr hnone).symm

end Graph

/-- The loop in the middle of a run: in-degrees still owed, vertices waiting,
    vertices done. -/
structure State (α : Type*) where
  inDegree : α → Nat
  queue : List α
  order : List α

/-- One edge into `v` is paid off; at zero, `v` joins the queue. -/
def settle (s : State α) (v : α) : State α :=
  let d := s.inDegree v - 1
  { s with
    inDegree := Function.update s.inDegree v d
    queue := if d = 0 then s.queue ++ [v] else s.queue }

/-- `u` is done; all its out-edges are paid off. -/
def visit (adj : α → List α) (s : State α) (u : α) : State α :=
  (adj u).foldl settle { s with order := s.order ++ [u] }

/-- At most `fuel` turns of `while let Some(u) = queue.pop_front()`. -/
def drain (adj : α → List α) : Nat → State α → State α
  | 0, s => s
  | fuel + 1, s =>
    match s.queue with
    | [] => s
    | u :: queue => drain adj fuel (visit adj { s with queue := queue } u)

/-! ## The loop invariant -/

/-- `owed` lists the targets of the edges not yet paid off. -/
structure Inv (V owed : List α) (s : State α) : Prop where
  inDegree_eq : ∀ v, s.inDegree v = owed.count v
  nodup : (s.order ++ s.queue).Nodup
  mem_iff : ∀ v, v ∈ s.order ++ s.queue ↔ v ∈ V ∧ v ∉ owed

theorem Inv.perm {V owed owed' : List α} {s : State α} (h : Inv V owed s)
    (hp : owed.Perm owed') : Inv V owed' s where
  inDegree_eq v := (h.inDegree_eq v).trans (hp.count_eq v)
  nodup := h.nodup
  mem_iff v := by rw [h.mem_iff v, hp.mem_iff]

theorem Inv.settle {V owed : List α} {s : State α} {v : α} (h : Inv V (v :: owed) s)
    (hv : v ∈ V) : Inv V owed (settle s v) := by
  have hdeg : s.inDegree v = owed.count v + 1 := by simp [h.inDegree_eq v]
  have hout : v ∉ s.order ++ s.queue := fun hmem => ((h.mem_iff v).mp hmem).2 (by simp)
  refine ⟨?_, ?_, ?_⟩
  · intro w
    by_cases hw : w = v
    · subst hw; simp [Kahn.settle, hdeg]
    · have hcount : (v :: owed).count w = owed.count w := by
        simp [Ne.symm hw]
      simp [Kahn.settle, Function.update_of_ne hw, h.inDegree_eq w, hcount]
  · by_cases hzero : owed.count v = 0
    · have hsnoc : (s.order ++ s.queue ++ [v]).Nodup :=
        List.nodup_append_comm.mp (List.nodup_cons.mpr ⟨hout, h.nodup⟩)
      simpa [Kahn.settle, hdeg, hzero] using hsnoc
    · simpa [Kahn.settle, hdeg, hzero] using h.nodup
  · intro w
    have hw := h.mem_iff w
    by_cases hzero : owed.count v = 0
    · have hfree : v ∉ owed := List.count_eq_zero.mp hzero
      by_cases hwv : w = v
      · subst hwv; simp [Kahn.settle, hdeg, hzero, hv, hfree]
      · simpa [Kahn.settle, hdeg, hzero, hwv] using hw
    · have howed : v ∈ owed := by
        by_contra hfree
        exact hzero (List.count_eq_zero.mpr hfree)
      by_cases hwv : w = v
      · subst hwv; simpa [Kahn.settle, hdeg, hzero, howed] using hout
      · simpa [Kahn.settle, hdeg, hzero, hwv] using hw

theorem Inv.foldl_settle {V owed : List α} (succs : List α) {s : State α}
    (h : Inv V (succs ++ owed) s) (hsuccs : ∀ v ∈ succs, v ∈ V) :
    Inv V owed (succs.foldl Kahn.settle s) := by
  induction succs generalizing s with
  | nil => simpa using h
  | cons v succs ih =>
    rw [List.forall_mem_cons] at hsuccs
    exact ih (Inv.settle (by simpa using h) hsuccs.1) hsuccs.2

@[simp] theorem settle_order (s : State α) (v : α) : (settle s v).order = s.order := rfl

@[simp] theorem foldl_settle_order (succs : List α) (s : State α) :
    (succs.foldl settle s).order = s.order := by
  induction succs generalizing s with
  | nil => rfl
  | cons v succs ih => rw [List.foldl_cons, ih, settle_order]

@[simp] theorem visit_order (adj : α → List α) (s : State α) (u : α) :
    (visit adj s u).order = s.order ++ [u] := by simp [visit]

/-! ## What holds between two turns -/

/-- The vertices of `V` that are not done. -/
def todo (V order : List α) : List α := V.filter (fun v => v ∉ order)

/-- Every vertex stands after all its predecessors. -/
def Precedes (V : List α) (adj : α → List α) (order : List α) : Prop :=
  ∀ before v after, order = before ++ v :: after → ∀ u ∈ V, v ∈ adj u → u ∈ before

structure Turn (V : List α) (adj : α → List α) (s : State α) : Prop where
  inv : Inv V ((todo V s.order).flatMap adj) s
  precedes : Precedes V adj s.order

omit [DecidableEq α] in
theorem Precedes.snoc {V : List α} {adj : α → List α} {order : List α} {v : α}
    (h : Precedes V adj order) (hv : ∀ u ∈ V, v ∈ adj u → u ∈ order) :
    Precedes V adj (order ++ [v]) := by
  intro before w after heq u hu hw
  rcases List.eq_nil_or_concat after with rfl | ⟨after, z, rfl⟩
  · obtain ⟨rfl, rfl⟩ : order = before ∧ v = w := by simpa using heq
    exact hv u hu hw
  · obtain ⟨rfl, -⟩ : order = before ++ w :: after ∧ v = z := by
      rw [List.concat_eq_append, ← List.cons_append, ← List.append_assoc] at heq
      simpa using List.append_inj' heq rfl
    exact h before w after rfl u hu hw

theorem mem_todo {V order : List α} {v : α} : v ∈ todo V order ↔ v ∈ V ∧ v ∉ order := by
  simp [todo]

theorem todo_perm_cons {V order : List α} (hV : V.Nodup) {u : α} (hu : u ∈ V)
    (hout : u ∉ order) : (todo V order).Perm (u :: todo V (order ++ [u])) := by
  have hmem : u ∈ todo V order := mem_todo.mpr ⟨hu, hout⟩
  have herase : (todo V order).erase u = todo V (order ++ [u]) := by
    simp only [todo]
    rw [(hV.filter _).erase_eq_filter, List.filter_filter]
    refine List.filter_congr fun v _ => ?_
    by_cases hv : v = u <;> simp [hv]
  exact herase ▸ List.perm_cons_erase hmem

section Loop

variable {V : List α} {adj : α → List α} (hV : V.Nodup)
  (hadj : ∀ u ∈ V, ∀ v ∈ adj u, v ∈ V)
include hV hadj

theorem Turn.visit {s : State α} {u : α} {queue : List α} (h : Turn V adj s)
    (hq : s.queue = u :: queue) : Turn V adj (visit adj { s with queue := queue } u) := by
  have hnodup : (s.order ++ u :: queue).Nodup := hq ▸ h.inv.nodup
  have hperm : (s.order ++ u :: queue).Perm ((s.order ++ [u]) ++ queue) := by simp
  have hu : u ∈ V ∧ u ∉ (todo V s.order).flatMap adj :=
    (h.inv.mem_iff u).mp (by simp [hq])
  have hout : u ∉ s.order := fun hmem => by
    simpa using List.disjoint_of_nodup_append hnodup hmem (by simp)
  have htodo := todo_perm_cons hV hu.1 hout
  refine ⟨?_, ?_⟩
  · rw [visit_order]
    refine Inv.foldl_settle (adj u) ?_ (hadj u hu.1)
    have howed : ((todo V s.order).flatMap adj).Perm
        (adj u ++ (todo V (s.order ++ [u])).flatMap adj) := by
      simpa using htodo.flatMap_right adj
    refine Inv.perm ⟨h.inv.inDegree_eq, hperm.nodup_iff.mp hnodup, ?_⟩ howed
    intro v
    rw [← h.inv.mem_iff v, hq]
    exact hperm.symm.mem_iff
  · rw [visit_order]
    refine h.precedes.snoc fun w hw hwu => ?_
    by_contra hnot
    exact hu.2 (List.mem_flatMap.mpr ⟨w, mem_todo.mpr ⟨hw, hnot⟩, hwu⟩)

omit hV hadj in
theorem Turn.order_subset {s : State α} (h : Turn V adj s) : s.order ++ s.queue ⊆ V :=
  fun v hv => ((h.inv.mem_iff v).mp hv).1

theorem Turn.drain {s : State α} {fuel : Nat} (h : Turn V adj s)
    (hfuel : V.length ≤ fuel + s.order.length) :
    Turn V adj (drain adj fuel s) ∧ (drain adj fuel s).queue = [] := by
  induction fuel generalizing s with
  | zero =>
    -- all vertices are done, so none can be waiting
    refine ⟨h, ?_⟩
    have hle := (h.inv.nodup.subperm (h.order_subset)).length_le
    rw [List.length_append] at hle
    have hzero : s.queue.length = 0 := by simp only [Nat.zero_add] at hfuel; omega
    simpa [Kahn.drain] using List.length_eq_zero_iff.mp hzero
  | succ fuel ih =>
    match hq : s.queue with
    | [] => simpa [Kahn.drain, hq] using h
    | u :: queue =>
      have hturn := h.visit hV hadj hq
      simp only [Kahn.drain, hq]
      exact ih hturn (by simp; omega)

end Loop

/-- The first vertex to be done is the head of the queue. -/
theorem order_prefix_drain (adj : α → List α) (fuel : Nat) (s : State α) :
    s.order <+: (drain adj fuel s).order := by
  induction fuel generalizing s with
  | zero => exact List.prefix_rfl
  | succ fuel ih =>
    match hq : s.queue with
    | [] => simp [drain, hq]
    | u :: queue =>
      simp only [drain, hq]
      refine List.IsPrefix.trans ?_ (ih _)
      rw [visit_order]
      exact List.prefix_append _ _

theorem head_drain (adj : α → List α) (fuel : Nat) {s : State α} {u : α} {queue : List α}
    (hq : s.queue = u :: queue) (ho : s.order = []) :
    (drain adj (fuel + 1) s).order.head? = some u := by
  have hpre := order_prefix_drain adj fuel (visit adj { s with queue := queue } u)
  rw [visit_order, ho] at hpre
  obtain ⟨rest, hrest⟩ := hpre
  simp only [drain, hq, ho]
  rw [← hrest]
  rfl

/-! ## What is left behind -/

/-- The edge relation on the vertices `V`. -/
def Edge (V : List α) (adj : α → List α) (u v : α) : Prop := u ∈ V ∧ v ∈ adj u

/-- `v` lies on a cycle or is reached from one. -/
def BehindCycle (V : List α) (adj : α → List α) (v : α) : Prop :=
  ∃ c, Relation.TransGen (Edge V adj) c c ∧ Relation.ReflTransGen (Edge V adj) c v

def Acyclic (V : List α) (adj : α → List α) : Prop :=
  ∀ v, ¬ Relation.TransGen (Edge V adj) v v

/-- In an ordered list nothing that is on the list is reached from a cycle. -/
theorem Precedes.not_cycle {V : List α} {adj : α → List α} {order : List α}
    (h : Precedes V adj order) (hnodup : order.Nodup) {u v : α} (hv : v ∈ order)
    (huv : Relation.TransGen (Edge V adj) u v) : u ∈ order ∧ order.idxOf u < order.idxOf v := by
  have hstep : ∀ {u v}, v ∈ order → Edge V adj u v →
      u ∈ order ∧ order.idxOf u < order.idxOf v := by
    intro u v hv huv
    obtain ⟨before, after, rfl⟩ := List.append_of_mem hv
    have hu := h before v after rfl u huv.1 huv.2
    have hvb : v ∉ before := fun hmem =>
      List.disjoint_of_nodup_append hnodup hmem (by simp)
    refine ⟨by simp [hu], ?_⟩
    rw [List.idxOf_append_of_mem hu, List.idxOf_append_of_notMem hvb]
    have := List.idxOf_lt_length_of_mem hu
    simp; omega
  induction huv with
  | single huv => exact hstep hv huv
  | tail _ hlast ih =>
    obtain ⟨hw, hlt⟩ := hstep hv hlast
    obtain ⟨hu, hlt'⟩ := ih hw
    exact ⟨hu, hlt'.trans hlt⟩

/-- If every vertex of a finite set has a predecessor in the set, each of them
    is reached from a cycle. -/
theorem behindCycle_of_predecessors {V : List α} {adj : α → List α} (S : List α)
    (hpred : ∀ v ∈ S, ∃ u ∈ S, Edge V adj u v) {v : α} (hv : v ∈ S) :
    BehindCycle V adj v := by
  by_contra hnone
  -- the vertices of `S` from which `v` is reached; none of them is on a cycle
  let A := {a : α // a ∈ S ∧ Relation.ReflTransGen (Edge V adj) a v}
  let r : A → A → Prop := fun a b => Relation.TransGen (Edge V adj) a.1 b.1
  have : Finite A := Finite.of_injective (β := {a : α // a ∈ S})
    (fun a => ⟨a.1, a.2.1⟩) (fun a b hab => Subtype.ext (by simpa using hab))
  have htrans : IsTrans A r := ⟨fun _ _ _ hab hbc => hab.trans hbc⟩
  have hirrefl : Std.Irrefl r := ⟨fun a haa => hnone ⟨a.1, haa, a.2.2⟩⟩
  have hwf : WellFounded r := Finite.wellFounded_of_trans_of_irrefl r
  obtain ⟨m, -, hmin⟩ := hwf.has_min Set.univ ⟨⟨v, hv, .refl⟩, trivial⟩
  obtain ⟨u, hu, huv⟩ := hpred m.1 m.2.1
  exact hmin ⟨u, hu, Relation.ReflTransGen.head huv m.2.2⟩ trivial (.single huv)

section Result

variable {V : List α} {g : Graph α} (hV : V.Nodup) (hg : g.Counted V)
  (hadj : ∀ u ∈ V, ∀ v ∈ g.adj u, v ∈ V)

/-- The state in which the loop starts: every vertex without an incoming edge
    waits, in the order in which the vertices were enumerated. -/
def start (g : Graph α) (vertices : List α) : State α :=
  ⟨g.inDegree, vertices.filter (fun v => g.inDegree v = 0), []⟩

include hV hg in
theorem turn_start {vertices : List α} (hp : vertices.Perm V) :
    Turn V g.adj (start g vertices) := by
  refine ⟨⟨?_, ?_, ?_⟩, ?_⟩
  · simpa [start, todo] using fun v => hg v
  · simpa [start] using (hp.nodup_iff.mpr hV).filter _
  · intro v
    have hcount : g.inDegree v = 0 ↔ v ∉ V.flatMap g.adj := by
      rw [hg v, List.count_eq_zero]
    simp only [start, List.nil_append, List.mem_filter, decide_eq_true_eq, hp.mem_iff, hcount]
    simp [todo]
  · intro before v after h
    simp [start] at h

include hV hg hadj

theorem turn_result {vertices : List α} (hp : vertices.Perm V) :
    Turn V g.adj (drain g.adj V.length (start g vertices)) ∧
      (drain g.adj V.length (start g vertices)).queue = [] :=
  (turn_start hV hg hp).drain hV hadj (by simp)

theorem drain_precedes {vertices : List α} (hp : vertices.Perm V) :
    Precedes V g.adj (drain g.adj V.length (start g vertices)).order :=
  (turn_result hV hg hadj hp).1.precedes

theorem drain_nodup {vertices : List α} (hp : vertices.Perm V) :
    (drain g.adj V.length (start g vertices)).order.Nodup := by
  have hinv := (turn_result hV hg hadj hp).1.inv.nodup
  exact hinv.of_append_left

theorem drain_subset {vertices : List α} (hp : vertices.Perm V) :
    (drain g.adj V.length (start g vertices)).order ⊆ V := fun _ hv =>
  (turn_result hV hg hadj hp).1.order_subset (List.mem_append_left _ hv)

/-- A vertex keeps a positive in-degree exactly when it is not put out. -/
theorem inDegree_pos_iff {vertices : List α} (hp : vertices.Perm V) {v : α} (hv : v ∈ V) :
    0 < (drain g.adj V.length (start g vertices)).inDegree v ↔
      v ∉ (drain g.adj V.length (start g vertices)).order := by
  obtain ⟨hturn, hqueue⟩ := turn_result hV hg hadj hp
  have hmem := hturn.inv.mem_iff v
  rw [hqueue, List.append_nil] at hmem
  rw [hturn.inv.inDegree_eq v, List.count_pos_iff, hmem]
  simp [hv]

/-- **What is left behind** is what lies on a cycle or is reached from one. -/
theorem not_mem_order_iff {vertices : List α} (hp : vertices.Perm V) {v : α} (hv : v ∈ V) :
    v ∉ (drain g.adj V.length (start g vertices)).order ↔ BehindCycle V g.adj v := by
  obtain ⟨hturn, hqueue⟩ := turn_result hV hg hadj hp
  constructor
  · intro hout
    refine behindCycle_of_predecessors
      (todo V (drain g.adj V.length (start g vertices)).order) ?_ (mem_todo.mpr ⟨hv, hout⟩)
    intro w hw
    obtain ⟨hwV, hwout⟩ := mem_todo.mp hw
    have hmem := hturn.inv.mem_iff w
    rw [hqueue, List.append_nil] at hmem
    have howed : w ∈ (todo V (drain g.adj V.length (start g vertices)).order).flatMap
        g.adj := by
      by_contra hfree
      exact hwout (hmem.mpr ⟨hwV, hfree⟩)
    obtain ⟨u, hu, huw⟩ := List.mem_flatMap.mp howed
    exact ⟨u, hu, (mem_todo.mp hu).1, huw⟩
  · rintro ⟨c, hcc, hcv⟩ hmem
    have hnodup := drain_nodup hV hg hadj hp
    have hc : c ∈ (drain g.adj V.length (start g vertices)).order := by
      rcases Relation.reflTransGen_iff_eq_or_transGen.mp hcv with rfl | hcv
      · exact hmem
      · exact (hturn.precedes.not_cycle hnodup hmem hcv).1
    exact lt_irrefl _ (hturn.precedes.not_cycle hnodup hc hcc).2

/-- **Completeness.**  Every vertex is put out exactly when there is no cycle. -/
theorem length_order_eq_iff {vertices : List α} (hp : vertices.Perm V) :
    (drain g.adj V.length (start g vertices)).order.length = V.length ↔
      Acyclic V g.adj := by
  have hsub := (drain_nodup hV hg hadj hp).subperm (drain_subset hV hg hadj hp)
  constructor
  · intro hlen v hcycle
    have hv : v ∈ V := by
      obtain ⟨w, hvw, -⟩ := Relation.TransGen.head'_iff.mp hcycle
      exact hvw.1
    have hperm := hsub.perm_of_length_le hlen.ge
    exact (not_mem_order_iff hV hg hadj hp hv).mpr ⟨v, hcycle, .refl⟩ (hperm.mem_iff.mpr hv)
  · intro hacyclic
    refine le_antisymm hsub.length_le (hV.subperm fun v hv => ?_).length_le
    by_contra hout
    obtain ⟨c, hcc, -⟩ := (not_mem_order_iff hV hg hadj hp hv).mp hout
    exact hacyclic c hcc

end Result

end Kahn
