import Bosun.Registry

/-!
# What `topological_order` guarantees

The statement a caller relies on is `OrderSpec`: an unknown handle is reported
exactly when there is one; otherwise an order exists exactly when the edges have
no cycle; an order lists every id once, each behind the targets of its edges;
the nodes named by a cycle error are those on a cycle or behind one; and the
order is the same whatever order the hash map is iterated in.

All of it holds for every registry except the last part.  The initial queue is
filled by iterating over `in_degree`, so two resources without any edge come out
in the order of that iteration (`orderSpec_iff`).
-/

namespace Bosun.Registry

variable {P : Type}

/-! ## The graph -/

/-- `a` has an edge of one of the three kinds to `b`. -/
def DependsOn (reg : Registry P) (a b : ResourceId) : Prop :=
  ∃ r ∈ reg.resources, r.id = a ∧ b ∈ r.edges

/-- Some edge points to an id that is not registered. -/
def HasUnknownHandle (reg : Registry P) : Prop :=
  ∃ r ∈ reg.resources, ∃ dep ∈ r.edges, dep ∉ reg.ids

def Acyclic (reg : Registry P) : Prop :=
  ∀ id, ¬ Relation.TransGen reg.DependsOn id id

/-- The id lies on a cycle or depends, perhaps through others, on one. -/
def OnOrBehindCycle (reg : Registry P) (id : ResourceId) : Prop :=
  ∃ c, Relation.TransGen reg.DependsOn c c ∧ Relation.ReflTransGen reg.DependsOn id c

/-- Every id stands behind the targets of its edges. -/
def TargetsFirst (reg : Registry P) (order : List ResourceId) : Prop :=
  ∀ before id after, order = before ++ id :: after →
    ∀ dep, reg.DependsOn id dep → dep ∈ before

/-- The ids of the resources that have no edge at all. -/
def roots (reg : Registry P) : List ResourceId :=
  (reg.resources.filter (fun r => r.edges.isEmpty)).map Resource.id

/-- The edges as pairs (dependency, dependent), in the order they are added. -/
def edgeList (reg : Registry P) : List (ResourceId × ResourceId) :=
  reg.resources.flatMap (fun r => r.edges.map (fun dep => (dep, r.id)))

def graph (reg : Registry P) : Kahn.Graph ResourceId := Kahn.Graph.ofEdges reg.edgeList

theorem mem_edgeList {reg : Registry P} {a b : ResourceId} :
    (b, a) ∈ reg.edgeList ↔ reg.DependsOn a b := by
  constructor
  · intro h
    obtain ⟨r, hr, hmem⟩ := List.mem_flatMap.mp h
    obtain ⟨dep, hdep, heq⟩ := List.mem_map.mp hmem
    obtain ⟨rfl, rfl⟩ := Prod.mk.inj heq
    exact ⟨r, hr, rfl, hdep⟩
  · rintro ⟨r, hr, rfl, hdep⟩
    exact List.mem_flatMap.mpr ⟨r, hr, List.mem_map.mpr ⟨b, hdep, rfl⟩⟩

theorem mem_adj {reg : Registry P} {a b : ResourceId} :
    a ∈ reg.graph.adj b ↔ reg.DependsOn a b :=
  Kahn.Graph.mem_adj_ofEdges.trans mem_edgeList

theorem DependsOn.mem_ids {reg : Registry P} {a b : ResourceId} (h : reg.DependsOn a b) :
    a ∈ reg.ids := by
  obtain ⟨r, hr, rfl, -⟩ := h
  exact mem_ids_of_mem hr

theorem DependsOn.target_mem {reg : Registry P} (hknown : ¬ reg.HasUnknownHandle)
    {a b : ResourceId} (h : reg.DependsOn a b) : b ∈ reg.ids := by
  obtain ⟨r, hr, rfl, hb⟩ := h
  by_contra hout
  exact hknown ⟨r, hr, b, hb, hout⟩

/-! ## Linking -/

/-- One resource: the loop adds all its edges, or stops at the first handle that
    is not registered. -/
theorem linkResource_eq (known : ResourceId → Bool) (id : ResourceId)
    (edges : List ResourceId) (g : Kahn.Graph ResourceId) :
    edges.foldlM (linkEdge known id) g =
      match edges.find? (fun dep => !known dep) with
      | some dep => .error (.unknownHandle dep)
      | none => .ok ((edges.map (fun dep => (dep, id))).foldl Kahn.Graph.addEdge g) := by
  induction edges generalizing g with
  | nil => rfl
  | cons dep edges ih =>
    cases hdep : known dep with
    | false => simp [linkEdge, hdep, Bind.bind, Except.bind]
    | true => simp [linkEdge, hdep, Bind.bind, Except.bind, ih]

theorem linkResources_eq (known : ResourceId → Bool) (resources : List (Resource P))
    (g : Kahn.Graph ResourceId) :
    resources.foldlM (linkResource known) g =
      match (resources.flatMap Resource.edges).find? (fun dep => !known dep) with
      | some dep => .error (.unknownHandle dep)
      | none => .ok ((resources.flatMap
          (fun r => r.edges.map (fun dep => (dep, r.id)))).foldl Kahn.Graph.addEdge g) := by
  induction resources generalizing g with
  | nil => rfl
  | cons r resources ih =>
    rw [List.foldlM_cons, linkResource, linkResource_eq, List.flatMap_cons, List.find?_append]
    cases hfind : r.edges.find? (fun dep => !known dep) with
    | some dep => rfl
    | none =>
      simp only [List.flatMap_cons, List.foldl_append, Option.none_or]
      exact ih _

theorem link_eq_ok {reg : Registry P} (hknown : ¬ reg.HasUnknownHandle) :
    reg.link = .ok reg.graph := by
  have hfind : (reg.resources.flatMap Resource.edges).find? (fun dep => !reg.contains dep)
      = none := by
    refine List.find?_eq_none.mpr fun dep hdep => ?_
    obtain ⟨r, hr, hmem⟩ := List.mem_flatMap.mp hdep
    have hin : dep ∈ reg.ids := DependsOn.target_mem hknown ⟨r, hr, rfl, hmem⟩
    simp [contains_iff.mpr hin]
  rw [link, linkResources_eq, hfind]
  rfl

theorem link_eq_error {reg : Registry P} (hunknown : reg.HasUnknownHandle) :
    ∃ id, reg.link = .error (.unknownHandle id) := by
  obtain ⟨r, hr, dep, hdep, hout⟩ := hunknown
  have hmem : dep ∈ reg.resources.flatMap Resource.edges := List.mem_flatMap.mpr ⟨r, hr, hdep⟩
  have hsome : ((reg.resources.flatMap Resource.edges).find?
      (fun dep => !reg.contains dep)).isSome := by
    refine List.find?_isSome.mpr ⟨dep, hmem, ?_⟩
    simpa [Registry.contains] using hout
  obtain ⟨id, hid⟩ := Option.isSome_iff_exists.mp hsome
  exact ⟨id, by rw [link, linkResources_eq, hid]⟩

/-! ## The loop, for registries without unknown handles -/

section Known

variable {reg : Registry P} (hknown : ¬ reg.HasUnknownHandle)
include hknown

theorem counted_graph : reg.graph.Counted reg.ids := by
  refine Kahn.Graph.counted_ofEdges reg.nodup fun e he => ?_
  obtain ⟨b, a⟩ := e
  exact (mem_edgeList.mp he).target_mem hknown

omit hknown in
theorem adj_subset : ∀ b ∈ reg.ids, ∀ a ∈ reg.graph.adj b, a ∈ reg.ids :=
  fun _ _ _ ha => (mem_adj.mp ha).mem_ids

theorem edge_iff {a b : ResourceId} :
    Kahn.Edge reg.ids reg.graph.adj b a ↔ reg.DependsOn a b :=
  ⟨fun h => mem_adj.mp h.2, fun h => ⟨h.target_mem hknown, mem_adj.mpr h⟩⟩

theorem edge_eq_swap :
    Kahn.Edge reg.ids reg.graph.adj = Function.swap reg.DependsOn := by
  funext b a
  exact propext (edge_iff hknown)

theorem acyclic_iff : Kahn.Acyclic reg.ids reg.graph.adj ↔ reg.Acyclic := by
  refine forall_congr' fun v => not_congr ?_
  rw [edge_eq_swap hknown]
  exact Relation.transGen_swap

theorem behindCycle_iff {id : ResourceId} :
    Kahn.BehindCycle reg.ids reg.graph.adj id ↔ reg.OnOrBehindCycle id := by
  refine exists_congr fun c => ?_
  rw [edge_eq_swap hknown]
  exact and_congr Relation.transGen_swap Relation.reflTransGen_swap

/-- Whether the loop puts out everything does not depend on the iteration. -/
theorem length_sweep_iff (it : HashIter) :
    (reg.sweep it reg.graph).order.length = reg.resources.length ↔ reg.Acyclic := by
  have hlen : reg.resources.length = reg.ids.length := (List.length_map _).symm
  rw [hlen, ← acyclic_iff hknown]
  exact Kahn.length_order_eq_iff reg.nodup (counted_graph hknown) adj_subset (it.perm reg.ids)

/-- The loop ends because its queue is empty, not because the bound is reached. -/
theorem sweep_queue (it : HashIter) : (reg.sweep it reg.graph).queue = [] :=
  (Kahn.turn_result reg.nodup (counted_graph hknown) adj_subset (it.perm reg.ids)).2

theorem topologicalOrder_of_acyclic (hacyclic : reg.Acyclic) (it : HashIter) :
    reg.topologicalOrder it = .ok (reg.sweep it reg.graph).order := by
  have hlen := (length_sweep_iff hknown it).mpr hacyclic
  simp only [topologicalOrder, link_eq_ok hknown]
  exact if_neg (not_not.mpr hlen)

theorem topologicalOrder_of_cyclic (hcyclic : ¬ reg.Acyclic) (it : HashIter) :
    reg.topologicalOrder it = .error (.cycle (renderNodes
      ((it.run reg.ids).filter (fun id => 0 < (reg.sweep it reg.graph).inDegree id)))) := by
  have hlen := mt (length_sweep_iff hknown it).mp hcyclic
  simp only [topologicalOrder, link_eq_ok hknown]
  exact if_pos hlen

theorem sweep_perm (hacyclic : reg.Acyclic) (it : HashIter) :
    (reg.sweep it reg.graph).order.Perm reg.ids := by
  have hp := it.perm reg.ids
  have hnodup := Kahn.drain_nodup reg.nodup (counted_graph hknown) adj_subset hp
  have hsub := Kahn.drain_subset reg.nodup (counted_graph hknown) adj_subset hp
  have hlen := (Kahn.length_order_eq_iff reg.nodup (counted_graph hknown) adj_subset hp).mpr
    ((acyclic_iff hknown).mpr hacyclic)
  exact (hnodup.subperm hsub).perm_of_length_le hlen.ge

theorem sweep_targetsFirst (it : HashIter) :
    reg.TargetsFirst (reg.sweep it reg.graph).order := by
  intro before id after heq dep hdep
  exact Kahn.drain_precedes reg.nodup (counted_graph hknown) adj_subset (it.perm reg.ids)
    before id after heq dep (hdep.target_mem hknown) (mem_adj.mpr hdep)

theorem mem_stuck_iff (it : HashIter) (id : ResourceId) :
    id ∈ (it.run reg.ids).filter (fun id => 0 < (reg.sweep it reg.graph).inDegree id) ↔
      id ∈ reg.ids ∧ reg.OnOrBehindCycle id := by
  have hp := it.perm reg.ids
  rw [List.mem_filter, hp.mem_iff, decide_eq_true_eq]
  refine and_congr_right fun hid => ?_
  rw [← behindCycle_iff hknown]
  exact (Kahn.inDegree_pos_iff reg.nodup (counted_graph hknown) adj_subset hp hid).trans
    (Kahn.not_mem_order_iff reg.nodup (counted_graph hknown) adj_subset hp hid)

end Known

/-- What a caller may use of an order: every id once, behind its targets. -/
theorem topologicalOrder_ok {reg : Registry P} {it : HashIter} {order : List ResourceId}
    (h : reg.topologicalOrder it = .ok order) :
    order.Perm reg.ids ∧ reg.TargetsFirst order := by
  by_cases hunknown : reg.HasUnknownHandle
  · obtain ⟨id, hlink⟩ := link_eq_error hunknown
    rw [topologicalOrder, hlink] at h
    cases h
  · by_cases hacyclic : reg.Acyclic
    · rw [topologicalOrder_of_acyclic hunknown hacyclic it] at h
      cases h
      exact ⟨sweep_perm hunknown hacyclic it, sweep_targetsFirst hunknown it⟩
    · rw [topologicalOrder_of_cyclic hunknown hacyclic it] at h
      cases h

/-! ## Determinism -/

theorem mem_roots {reg : Registry P} {id : ResourceId} :
    id ∈ reg.roots ↔ id ∈ reg.ids ∧ ∀ dep, ¬ reg.DependsOn id dep := by
  constructor
  · intro h
    obtain ⟨r, hr, rfl⟩ := List.mem_map.mp h
    obtain ⟨hmem, hempty⟩ := List.mem_filter.mp hr
    refine ⟨mem_ids_of_mem hmem, ?_⟩
    rintro dep ⟨r', hr', hid, hdep⟩
    obtain rfl : r' = r := List.inj_on_of_nodup_map reg.nodup hr' hmem hid
    rw [List.isEmpty_iff.mp hempty] at hdep
    exact absurd hdep (List.not_mem_nil)
  · rintro ⟨hid, hnone⟩
    obtain ⟨r, hr, rfl⟩ := List.mem_map.mp hid
    refine List.mem_map_of_mem (List.mem_filter.mpr ⟨hr, ?_⟩)
    rw [List.isEmpty_iff, List.eq_nil_iff_forall_not_mem]
    exact fun dep hdep => hnone dep ⟨r, hr, rfl, hdep⟩

theorem nodup_roots (reg : Registry P) : reg.roots.Nodup :=
  reg.nodup.sublist (List.filter_sublist.map Resource.id)

/-- The vertices that wait at the start are the resources without edges. -/
theorem inDegree_eq_zero_iff {reg : Registry P} (hknown : ¬ reg.HasUnknownHandle)
    {id : ResourceId} (hid : id ∈ reg.ids) :
    reg.graph.inDegree id = 0 ↔ id ∈ reg.roots := by
  rw [counted_graph hknown id, List.count_eq_zero, mem_roots]
  constructor
  · intro h
    refine ⟨hid, fun dep hdep => h ?_⟩
    exact List.mem_flatMap.mpr ⟨dep, hdep.target_mem hknown, mem_adj.mpr hdep⟩
  · rintro ⟨-, hnone⟩ hmem
    obtain ⟨dep, -, hadj⟩ := List.mem_flatMap.mp hmem
    exact hnone dep (mem_adj.mp hadj)

theorem initial_queue_perm {reg : Registry P} (hknown : ¬ reg.HasUnknownHandle)
    (it : HashIter) : (Kahn.start reg.graph (it.run reg.ids)).queue.Perm reg.roots := by
  have hp := it.perm reg.ids
  refine (List.perm_ext_iff_of_nodup ?_ reg.nodup_roots).mpr fun id => ?_
  · exact (hp.nodup_iff.mpr reg.nodup).filter _
  · simp only [Kahn.start, List.mem_filter, decide_eq_true_eq, hp.mem_iff]
    constructor
    · rintro ⟨hid, hzero⟩
      exact (inDegree_eq_zero_iff hknown hid).mp hzero
    · intro hroot
      have hid := (mem_roots.mp hroot).1
      exact ⟨hid, (inDegree_eq_zero_iff hknown hid).mpr hroot⟩

theorem sweep_eq_of_roots {reg : Registry P} (hknown : ¬ reg.HasUnknownHandle)
    (hroots : reg.roots.length ≤ 1) (it it' : HashIter) :
    reg.sweep it reg.graph = reg.sweep it' reg.graph := by
  have hqueue : ∀ it : HashIter,
      (Kahn.start reg.graph (it.run reg.ids)).queue = reg.roots := by
    intro it
    have hperm := initial_queue_perm hknown it
    match hr : reg.roots, hroots with
    | [], _ => rw [hr] at hperm; exact hperm.eq_nil
    | [root], _ => rw [hr] at hperm; exact List.perm_singleton.mp hperm
  have hstart : Kahn.start reg.graph (it.run reg.ids) =
      Kahn.start reg.graph (it'.run reg.ids) :=
    congrArg (fun queue => Kahn.State.mk reg.graph.inDegree queue [])
      ((hqueue it).trans (hqueue it').symm)
  rw [sweep, hstart, sweep]

/-- The iteration that yields `first` before all other keys. -/
def HashIter.startingWith (first : ResourceId) : HashIter where
  run ids := if first ∈ ids then first :: ids.erase first else ids
  perm ids := by
    by_cases h : first ∈ ids
    · rw [if_pos h]
      exact (List.perm_cons_erase h).symm
    · rw [if_neg h]

theorem head_sweep {reg : Registry P} (hknown : ¬ reg.HasUnknownHandle) {root : ResourceId}
    (hroot : root ∈ reg.roots) :
    (reg.sweep (.startingWith root) reg.graph).order.head? = some root := by
  have hid := (mem_roots.mp hroot).1
  have hzero := (inDegree_eq_zero_iff hknown hid).mpr hroot
  obtain ⟨n, hn⟩ : ∃ n, reg.ids.length = n + 1 :=
    Nat.exists_eq_add_one.mpr (List.length_pos_of_mem hid)
  rw [sweep, hn]
  have hqueue : (Kahn.start reg.graph ((HashIter.startingWith root).run reg.ids)).queue =
      root :: (reg.ids.erase root).filter (fun v => reg.graph.inDegree v = 0) := by
    simp [Kahn.start, HashIter.startingWith, hid, hzero]
  exact Kahn.head_drain reg.graph.adj n hqueue rfl

/-! ## The specification -/

/-- What `topological_order` promises for one registry, over every iteration
    order of its hash maps. -/
structure OrderSpec (reg : Registry P) : Prop where
  unknown : ∀ it, (∃ id, reg.topologicalOrder it = .error (.unknownHandle id)) ↔
    reg.HasUnknownHandle
  complete : ¬ reg.HasUnknownHandle → ∀ it,
    (∃ order, reg.topologicalOrder it = .ok order) ↔ reg.Acyclic
  sound : ∀ it order, reg.topologicalOrder it = .ok order →
    order.Perm reg.ids ∧ reg.TargetsFirst order
  deterministic : ∀ it it' order, reg.topologicalOrder it = .ok order →
    reg.topologicalOrder it' = .ok order
  cycle : ∀ it nodes, reg.topologicalOrder it = .error (.cycle nodes) →
    ∃ stuck : List ResourceId, nodes = renderNodes stuck ∧ stuck.Nodup ∧
      ∀ id, id ∈ stuck ↔ id ∈ reg.ids ∧ reg.OnOrBehindCycle id

theorem unknown_iff (reg : Registry P) (it : HashIter) :
    (∃ id, reg.topologicalOrder it = .error (.unknownHandle id)) ↔ reg.HasUnknownHandle := by
  constructor
  · rintro ⟨id, h⟩
    by_contra hknown
    by_cases hacyclic : reg.Acyclic
    · rw [topologicalOrder_of_acyclic hknown hacyclic it] at h
      cases h
    · rw [topologicalOrder_of_cyclic hknown hacyclic it] at h
      cases h
  · intro hunknown
    obtain ⟨id, hlink⟩ := link_eq_error hunknown
    exact ⟨id, by rw [topologicalOrder, hlink]; rfl⟩

theorem complete_iff {reg : Registry P} (hknown : ¬ reg.HasUnknownHandle) (it : HashIter) :
    (∃ order, reg.topologicalOrder it = .ok order) ↔ reg.Acyclic := by
  constructor
  · rintro ⟨order, h⟩
    by_contra hcyclic
    rw [topologicalOrder_of_cyclic hknown hcyclic it] at h
    cases h
  · intro hacyclic
    exact ⟨_, topologicalOrder_of_acyclic hknown hacyclic it⟩

theorem cycle_nodes {reg : Registry P} {it : HashIter} {nodes : String}
    (h : reg.topologicalOrder it = .error (.cycle nodes)) :
    ∃ stuck : List ResourceId, nodes = renderNodes stuck ∧ stuck.Nodup ∧
      ∀ id, id ∈ stuck ↔ id ∈ reg.ids ∧ reg.OnOrBehindCycle id := by
  have hknown : ¬ reg.HasUnknownHandle := by
    intro hunknown
    obtain ⟨id, hlink⟩ := link_eq_error hunknown
    rw [topologicalOrder, hlink] at h
    cases h
  have hcyclic : ¬ reg.Acyclic := by
    intro hacyclic
    rw [topologicalOrder_of_acyclic hknown hacyclic it] at h
    cases h
  rw [topologicalOrder_of_cyclic hknown hcyclic it] at h
  obtain rfl : renderNodes _ = nodes := by simpa using h
  exact ⟨_, rfl, ((it.perm reg.ids).nodup_iff.mpr reg.nodup).filter _,
    mem_stuck_iff hknown it⟩

/-- Two resources without edges, each first in some iteration. -/
theorem not_deterministic {reg : Registry P} (hknown : ¬ reg.HasUnknownHandle)
    (hacyclic : reg.Acyclic) (hroots : 1 < reg.roots.length) :
    ∃ it it' order, reg.topologicalOrder it = .ok order ∧
      reg.topologicalOrder it' ≠ .ok order := by
  have hne : reg.roots[0] ≠ reg.roots[1] := fun h => by
    have := (List.Nodup.getElem_inj_iff reg.nodup_roots).mp h
    omega
  refine ⟨.startingWith reg.roots[0], .startingWith reg.roots[1], _,
    topologicalOrder_of_acyclic hknown hacyclic _, fun h => hne ?_⟩
  rw [topologicalOrder_of_acyclic hknown hacyclic] at h
  have h0 := head_sweep hknown (List.getElem_mem (l := reg.roots) (n := 0) (by omega))
  have h1 := head_sweep hknown (List.getElem_mem hroots)
  rw [Except.ok.inj h] at h1
  exact Option.some.inj (h0.symm.trans h1)

/-- **Correctness of the topological order.**  Everything `OrderSpec` asks holds
    unless the registry is accepted and has two resources without edges. -/
theorem orderSpec_iff (reg : Registry P) :
    reg.OrderSpec ↔ reg.HasUnknownHandle ∨ ¬ reg.Acyclic ∨ reg.roots.length ≤ 1 := by
  constructor
  · intro hspec
    by_contra hcond
    obtain ⟨hknown, hacyclic, hroots⟩ :
        ¬ reg.HasUnknownHandle ∧ reg.Acyclic ∧ 1 < reg.roots.length := by
      push Not at hcond
      exact hcond
    obtain ⟨it, it', order, h, h'⟩ := not_deterministic hknown hacyclic hroots
    exact h' (hspec.deterministic it it' order h)
  · intro hcond
    refine ⟨reg.unknown_iff, complete_iff, fun it order => topologicalOrder_ok, ?_,
      fun it nodes => cycle_nodes⟩
    intro it it' order h
    have hknown : ¬ reg.HasUnknownHandle := fun hunknown => by
      obtain ⟨id, hid⟩ := (reg.unknown_iff it).mpr hunknown
      rw [hid] at h
      cases h
    have hacyclic : reg.Acyclic := (complete_iff hknown it).mp ⟨order, h⟩
    have hroots : reg.roots.length ≤ 1 :=
      (hcond.resolve_left hknown).resolve_left (not_not.mpr hacyclic)
    rw [topologicalOrder_of_acyclic hknown hacyclic] at h ⊢
    rw [← h, sweep_eq_of_roots hknown hroots it it']

/-- Two packages that have nothing to do with each other. -/
def twoPackages : Registry Unit where
  resources :=
    [⟨⟨"apt.package:nginx"⟩, ⟨"apt.package"⟩, 1, (), [], [], []⟩,
     ⟨⟨"apt.package:curl"⟩, ⟨"apt.package"⟩, 1, (), [], [], []⟩]
  nodup := by decide

/-- Iterated in one order the packages come out as registered, in the other they
    come out reversed. -/
theorem twoPackages_not_orderSpec : ¬ twoPackages.OrderSpec := by
  intro hspec
  have hforward : twoPackages.topologicalOrder ⟨id, fun _ => .rfl⟩ =
      .ok [⟨"apt.package:nginx"⟩, ⟨"apt.package:curl"⟩] := by decide
  have hbackward : twoPackages.topologicalOrder ⟨List.reverse, List.reverse_perm⟩ =
      .ok [⟨"apt.package:curl"⟩, ⟨"apt.package:nginx"⟩] := by decide
  have h := hspec.deterministic _ ⟨List.reverse, List.reverse_perm⟩ _ hforward
  rw [hbackward] at h
  exact absurd h (by decide)

end Bosun.Registry
