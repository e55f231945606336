import StorageCluster.Proofs.Satellite.Forest
import StorageCluster.Proofs.Satellite.Memory

/-!
# How a batch is laid out

The resources of a batch are expanded one after the other, and each is remembered before the next
one is looked at, so a batch may also name a resource twice. The arena is one chain behind the
other, in the order of the batch, and whatever has no stack is told once why.
-/
namespace StorageCluster

/-! ## Chains one behind the other -/

/-- Resources that are expanded, each with its stack. -/
abbrev Stacked := List (Resource × List LayerKind)

/-- The chains of resources, the first one from the given index. -/
def chains : Nat → Stacked → List LayerResource
  | _, [] => []
  | index, (r, stack) :: rest => chain r index none stack ++ chains (index + stack.length) rest

/-- How many layers resources have together. -/
def Stacked.total : Stacked → Nat
  | [] => 0
  | (_, stack) :: rest => stack.length + total rest

theorem length_chain (r : Resource) (index : Nat) (parent : Option LayerId)
    (stack : List LayerKind) : (chain r index parent stack).length = stack.length := by
  induction stack generalizing index parent with
  | nil => rfl
  | cons kind rest ih => rw [chain, List.length_cons, ih, List.length_cons]

theorem length_chains (index : Nat) (items : Stacked) :
    (chains index items).length = items.total := by
  induction items generalizing index with
  | nil => rfl
  | cons item rest ih => rw [chains, List.length_append, length_chain, ih, Stacked.total]

theorem chains_append (index : Nat) (items more : Stacked) :
    chains index (items ++ more) = chains index items ++ chains (index + items.total) more := by
  induction items generalizing index with
  | nil => rfl
  | cons item rest ih =>
    rw [List.cons_append, chains, chains, ih, List.append_assoc, Stacked.total, Nat.add_assoc]

/-- The kinds of the layers are those of the stacks. -/
theorem map_chains (index : Nat) (items : Stacked) :
    (chains index items).map (fun l => (l.resource, l.kind)) =
      items.flatMap fun item => item.2.map (item.1, ·) := by
  induction items generalizing index with
  | nil => rfl
  | cons item rest ih =>
    rw [chains, List.map_append, StackMemory.map_chain, ih, List.flatMap_cons]

/-- A chain stands behind all layers of those before it. -/
theorem getElem?_chains {before after : Stacked} {r : Resource} {stack : List LayerKind} {i : Nat}
    (hi : i < stack.length) :
    (chains 0 (before ++ (r, stack) :: after))[before.total + i]? =
      (chain r before.total none stack)[i]? := by
  rw [chains_append, List.getElem?_append_right (by rw [length_chains]; omega), length_chains,
    Nat.add_sub_cancel_left, Nat.zero_add, chains, List.getElem?_append_left]
  rwa [length_chain]

/-- From a layer of a chain, climbing ends at its top. -/
theorem Arena.climb_chain {a : Arena} {start : LayerId} {top i fuel : Nat}
    (h : ∀ j ≤ i, ∃ l, a.layers[top + j]? = some l ∧
      l.parent = if j = 0 then none else some ⟨top + j - 1⟩) (hf : i < fuel) :
    a.climb start fuel ⟨top + i⟩ = .ok ⟨top⟩ := by
  induction fuel generalizing i with
  | zero => exact absurd hf (Nat.not_lt_zero i)
  | succ fuel ih =>
    obtain ⟨l, hl, hp⟩ := h i (Nat.le_refl i)
    cases i with
    | zero =>
      have hget : a.get? ⟨top⟩ = some l := hl
      rw [if_pos rfl] at hp
      simp only [Arena.climb, Nat.add_zero, hget, hp]
    | succ i =>
      have hget : a.get? ⟨top + (i + 1)⟩ = some l := hl
      rw [if_neg (Nat.add_one_ne_zero i)] at hp
      simp only [Arena.climb, hget, hp]
      exact ih (fun j hj => h j (Nat.le_succ_of_le hj)) (Nat.lt_of_succ_lt_succ hf)

namespace StackMemory

/-- The memory when a resource was expanded. -/
def following (m : StackMemory) (fullSync : Bool) (r : Resource) : StackMemory :=
  { m with known := learn (m.stackFor fullSync) m.known r }

/-- The stack that each resource of a batch is expanded with, or why there is none. -/
def stacksFor (fullSync : Bool) :
    StackMemory → List Resource → List (Resource × Except StackFault (List LayerKind))
  | _, [] => []
  | m, r :: rest => (r, m.stackFor fullSync r) :: stacksFor fullSync (m.following fullSync r) rest

/-- The resources of a batch that are expanded. -/
def built (m : StackMemory) (fullSync : Bool) (resources : List Resource) : Stacked :=
  (m.stacksFor fullSync resources).filterMap fun item => item.2.toOption.map (item.1, ·)

/-- What is told of the resources of a batch that are not expanded. -/
def refused (m : StackMemory) (fullSync : Bool) (resources : List Resource) :
    List (ResourceName × Entry) :=
  (m.stacksFor fullSync resources).filterMap fun item =>
    match item.2 with
    | .ok _ => none
    | .error fault =>
      some (item.1.name, fault.toFault.toEntry.aboutDefinition item.1.name.display)

variable {m : StackMemory} {fullSync : Bool} {r : Resource} {stack : List LayerKind}
  {fault : StackFault}

theorem map_fst_stacksFor (m : StackMemory) (fullSync : Bool) (resources : List Resource) :
    (m.stacksFor fullSync resources).map Prod.fst = resources := by
  induction resources generalizing m with
  | nil => rfl
  | cons r rest ih => rw [stacksFor, List.map_cons, ih]

theorem built_of_ok (h : m.stackFor fullSync r = .ok stack) (rest : List Resource) :
    m.built fullSync (r :: rest) = (r, stack) :: (m.following fullSync r).built fullSync rest := by
  simp [built, stacksFor, h, Except.toOption]

theorem built_of_error (h : m.stackFor fullSync r = .error fault) (rest : List Resource) :
    m.built fullSync (r :: rest) = (m.following fullSync r).built fullSync rest := by
  simp [built, stacksFor, h, Except.toOption]

theorem refused_of_ok (h : m.stackFor fullSync r = .ok stack) (rest : List Resource) :
    m.refused fullSync (r :: rest) = (m.following fullSync r).refused fullSync rest := by
  simp [refused, stacksFor, h]

theorem refused_of_error (h : m.stackFor fullSync r = .error fault) (rest : List Resource) :
    m.refused fullSync (r :: rest) =
      (r.name, fault.toFault.toEntry.aboutDefinition r.name.display) ::
        (m.following fullSync r).refused fullSync rest := by
  simp [refused, stacksFor, h]

/-- Each resource is either expanded, or told why it is not. -/
theorem length_built_add (m : StackMemory) (fullSync : Bool) (resources : List Resource) :
    (m.built fullSync resources).length + (m.refused fullSync resources).length =
      resources.length := by
  induction resources generalizing m with
  | nil => rfl
  | cons r rest ih =>
    have hrest := ih (m.following fullSync r)
    cases hs : m.stackFor fullSync r with
    | error fault =>
      rw [built_of_error hs, refused_of_error hs, List.length_cons, List.length_cons]
      omega
    | ok stack =>
      rw [built_of_ok hs, refused_of_ok hs, List.length_cons, List.length_cons]
      omega

theorem validate_of_built {resources : List Resource} {item : Resource × List LayerKind}
    (h : item ∈ m.built fullSync resources) : Stack.validate item.2 = .ok () := by
  induction resources generalizing m with
  | nil => cases h
  | cons r rest ih =>
    cases hs : m.stackFor fullSync r with
    | error fault => exact ih (built_of_error hs rest ▸ h)
    | ok stack =>
      rw [built_of_ok hs] at h
      rcases List.mem_cons.1 h with rfl | h
      · exact (stackFor_eq_ok_iff.1 hs).2
      · exact ih h

/-- What is expanded is laid out behind what was there, and what is not is told behind what was
told. -/
theorem foldl_expandNext (m : StackMemory) (fullSync : Bool) (e : Expansion)
    (resources : List Resource) :
    (resources.foldl (expandNext fullSync) (m, e)).2 =
      { arena := ⟨e.arena.layers ++ chains e.arena.size (m.built fullSync resources)⟩
        failures := e.failures ++ m.refused fullSync resources } := by
  induction resources generalizing m e with
  | nil => simp [built, refused, stacksFor, chains]
  | cons r rest ih =>
    rw [List.foldl_cons]
    cases hs : m.stackFor fullSync r with
    | error fault =>
      have hnext : expandNext fullSync (m, e) r = (m.following fullSync r, { e with
          failures := e.failures ++
            [(r.name, fault.toFault.toEntry.aboutDefinition r.name.display)] }) := by
        simp only [expandNext, expandOne_eq, hs, following, learn]
      rw [hnext, ih, built_of_error hs, refused_of_error hs, List.append_assoc,
        List.singleton_append]
    | ok stack =>
      have hnext : expandNext fullSync (m, e) r = (m.following fullSync r, { e with
          arena := ⟨e.arena.layers ++ chain r e.arena.size none stack⟩ }) := by
        simp only [expandNext, expandOne_eq, hs, following, learn]
      rw [hnext, ih, built_of_ok hs, refused_of_ok hs, chains]
      simp [Arena.size, length_chain]

/-! ## The layout of a batch -/

/-- Everything that a batch expands to. The chains hold the stacks from top to bottom. -/
structure LaysOut (m : StackMemory) (fullSync : Bool) (resources : List Resource)
    (snapshots : List Snapshot) (e : Expansion) : Prop where
  order : (m.stacksFor fullSync resources).map Prod.fst = resources
  layers : e.arena = (Arena.mk (chains 0 (m.built fullSync resources))).withSnapshots snapshots
  kinds : e.arena.layers.map (fun l => (l.resource, l.kind)) =
    (m.built fullSync resources).flatMap fun item => item.2.map (item.1, ·)
  rootOf : ∀ (before : Stacked) r stack after,
    m.built fullSync resources = before ++ (r, stack) :: after →
    ∀ i < stack.length, e.arena.rootOf ⟨before.total + i⟩ = .ok ⟨before.total⟩
  failures : e.failures = m.refused fullSync resources
  complete : e.arena.roots.length + e.failures.length = resources.length
  snapshots : ∀ l ∈ e.arena.layers,
    l.snapshots = snapshots.filter fun s => s.resource == l.resource.name

theorem length_roots_chains (index : Nat) {items : Stacked}
    (h : ∀ item ∈ items, item.2 ≠ []) :
    ((chains index items).filter LayerResource.isRoot).length = items.length := by
  induction items generalizing index with
  | nil => rfl
  | cons item rest ih =>
    have htop := congrArg List.length (roots_chain item.1 index (h item List.mem_cons_self))
    rw [List.length_map, List.length_singleton] at htop
    rw [chains, List.filter_append, List.length_append, htop,
      ih _ fun other ho => h other (List.mem_cons_of_mem item ho), List.length_cons, Nat.add_comm]

theorem expand_laysOut (m : StackMemory) (fullSync : Bool) (resources : List Resource)
    (snapshots : List Snapshot) :
    m.LaysOut fullSync resources snapshots (m.expand resources snapshots fullSync).2 := by
  have hfold := m.foldl_expandNext fullSync {} resources
  have hexpand : (m.expand resources snapshots fullSync).2 =
      { arena := (Arena.mk (chains 0 (m.built fullSync resources))).withSnapshots snapshots
        failures := m.refused fullSync resources } := by
    simp only [expand, hfold]
    rfl
  have hall : ∀ item ∈ m.built fullSync resources, item.2 ≠ [] :=
    fun _ hitem => ne_nil_of_validate (validate_of_built hitem)
  rw [hexpand]
  constructor
  case order => exact map_fst_stacksFor m fullSync resources
  case layers => rfl
  case kinds =>
    rw [← map_chains 0, Arena.withSnapshots, List.map_map]
    rfl
  case rootOf =>
    intro before r stack after hbuilt i hi
    have hat (j : Nat) (hj : j < stack.length) : ∃ l, ((Arena.mk (chains 0
        (m.built fullSync resources))).withSnapshots snapshots).layers[before.total + j]? =
          some l ∧ l.parent = if j = 0 then none else some ⟨before.total + j - 1⟩ := by
      rw [Arena.withSnapshots, List.getElem?_map, hbuilt, getElem?_chains hj, getElem?_chain,
        List.getElem?_eq_getElem hj]
      exact ⟨_, rfl, rfl⟩
    obtain ⟨_, hl, _⟩ := hat i hi
    have hlt := (List.getElem?_eq_some_iff.1 hl).1
    exact Arena.climb_chain (fun j hj => hat j (Nat.lt_of_le_of_lt hj hi))
      (Nat.lt_succ_of_lt (Nat.lt_of_le_of_lt (Nat.le_add_left i before.total) hlt))
  case failures => rfl
  case complete =>
    have hroots := length_roots_chains 0 hall
    rw [← length_built_add m fullSync resources, ← hroots]
    simp only [Arena.roots, Arena.withSnapshots, List.filter_map, List.length_map]
    rfl
  case snapshots =>
    intro l hl
    obtain ⟨old, _, rfl⟩ := List.mem_map.1 hl
    rfl

end StackMemory

/-- Whatever layers are inserted below which parents, the arena is a forest in which climbing finds
the root above each layer, and a call that is rejected changes nothing. Whatever a satellite
remembers and whatever batch comes, the arena of its expansion is one chain for each resource that
has a stack, in order, and the others are told once why they have none. -/
theorem arenas_are_forests :
    (∀ calls call, (Arena.afterAll calls).Forest ∧ (Arena.afterAll calls).Rooted ∧
      (Arena.afterAll calls).Attempted call ((Arena.afterAll calls).attempt call)) ∧
    ∀ (m : StackMemory) fullSync resources snapshots,
      m.LaysOut fullSync resources snapshots (m.expand resources snapshots fullSync).2 :=
  ⟨fun calls call => ⟨Arena.afterAll_forest calls, (Arena.afterAll_forest calls).rooted,
    Arena.attempted _ call⟩, StackMemory.expand_laysOut⟩

end StorageCluster
