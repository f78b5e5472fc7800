import Mathlib.Data.List.Sort
import Bosun.Library.Kahn
import Bosun.Resource

/-!
# The registry and its topological order

`registry.rs`.  A `Registry` is the vector of the registered resources; that no
two of them share an id is carried as a field, so the index map `by_id` of the
source needs no counterpart here: it is a lookup in the vector.

`topologicalOrder` is Kahn's algorithm over the three edge kinds.  The source
keeps the in-degrees in a hash map and fills the initial queue by iterating over
it; the order of that iteration is not fixed by anything, so it is a parameter
(`HashIter`) of the model.
-/

namespace Bosun

inductive RegistryError
  | duplicateId (id : ResourceId)
  | unknownHandle (id : ResourceId)
  | cycle (nodes : String)
deriving DecidableEq, Repr

def RegistryError.display : RegistryError → String
  | duplicateId id => "duplicate resource id: " ++ id.asStr
  | unknownHandle id => "unknown handle referenced: " ++ id.asStr
  | cycle nodes => "dependency cycle detected; stuck nodes: " ++ nodes

structure Registry (P : Type) where
  resources : List (Resource P)
  nodup : (resources.map Resource.id).Nodup

namespace Registry

variable {P : Type}

def empty : Registry P := ⟨[], List.nodup_nil⟩

/-- The ids in the order of registration. -/
def ids (reg : Registry P) : List ResourceId := reg.resources.map Resource.id

/-- `by_id.contains_key`. -/
def contains (reg : Registry P) (id : ResourceId) : Bool := reg.ids.contains id

def get (reg : Registry P) (id : ResourceId) : Option (Resource P) :=
  reg.resources.find? (fun r => r.id = id)

theorem contains_iff {reg : Registry P} {id : ResourceId} :
    reg.contains id = true ↔ id ∈ reg.ids := by simp [contains]

def add (reg : Registry P) (r : Resource P) :
    Except RegistryError (ResourceId × Registry P) :=
  if h : r.id ∈ reg.ids then .error (.duplicateId r.id)
  else .ok (r.id, ⟨reg.resources ++ [r], by
    rw [List.map_append]
    exact List.nodup_append_comm.mp (List.nodup_cons.mpr ⟨h, reg.nodup⟩)⟩)

theorem get_eq_some {reg : Registry P} {id : ResourceId} {r : Resource P} :
    reg.get id = some r ↔ r ∈ reg.resources ∧ r.id = id := by
  constructor
  · intro h
    exact ⟨List.mem_of_find?_eq_some h, by simpa using List.find?_some h⟩
  · rintro ⟨hr, rfl⟩
    cases hget : reg.get r.id with
    | none => simpa using List.find?_eq_none.mp hget r hr
    | some r' =>
      have hr' : r' ∈ reg.resources := List.mem_of_find?_eq_some hget
      have hid : r'.id = r.id := by simpa using List.find?_some hget
      exact congrArg some (List.inj_on_of_nodup_map reg.nodup hr' hr hid)

theorem get_of_mem {reg : Registry P} {id : ResourceId} (h : id ∈ reg.ids) :
    ∃ r, reg.get id = some r ∧ r.id = id := by
  obtain ⟨r, hr, hid⟩ := List.mem_map.mp h
  exact ⟨r, get_eq_some.mpr ⟨hr, hid⟩, hid⟩

theorem mem_ids_of_mem {reg : Registry P} {r : Resource P} (h : r ∈ reg.resources) :
    r.id ∈ reg.ids := List.mem_map_of_mem h

/-! ## The order -/

/-- The order in which a hash map with these keys is iterated: some permutation
    of the keys, chosen by the hasher's random state. -/
structure HashIter where
  run : List ResourceId → List ResourceId
  perm : ∀ ids, (run ids).Perm ids

/-- One edge of the resource `id`, from its target `dep`. -/
def linkEdge (known : ResourceId → Bool) (id : ResourceId) (g : Kahn.Graph ResourceId)
    (dep : ResourceId) : Except RegistryError (Kahn.Graph ResourceId) :=
  if known dep then .ok (g.addEdge (dep, id)) else .error (.unknownHandle dep)

def linkResource (known : ResourceId → Bool) (g : Kahn.Graph ResourceId) (r : Resource P) :
    Except RegistryError (Kahn.Graph ResourceId) :=
  r.edges.foldlM (linkEdge known r.id) g

/-- The two nested loops that fill `in_degree` and `adj`. -/
def link (reg : Registry P) : Except RegistryError (Kahn.Graph ResourceId) :=
  reg.resources.foldlM (linkResource reg.contains) Kahn.Graph.empty

/-- `stuck.sort(); stuck.join(", ")`. -/
def renderNodes (stuck : List ResourceId) : String :=
  ", ".intercalate ((stuck.map ResourceId.asStr).insertionSort (· ≤ ·))

/-- The worklist loop.  `n` turns are enough: each of them puts out a new id. -/
def sweep (it : HashIter) (reg : Registry P) (g : Kahn.Graph ResourceId) :
    Kahn.State ResourceId :=
  Kahn.drain g.adj reg.ids.length (Kahn.start g (it.run reg.ids))

def topologicalOrder (it : HashIter) (reg : Registry P) :
    Except RegistryError (List ResourceId) := do
  let g ← reg.link
  let s := reg.sweep it g
  if s.order.length ≠ reg.resources.length then
    -- the second iteration over `in_degree`
    let stuck := (it.run reg.ids).filter (fun id => 0 < s.inDegree id)
    .error (.cycle (renderNodes stuck))
  else .ok s.order

end Registry

end Bosun
