import StorageCluster.Proofs.Satellite.Chain
import StorageCluster.Proofs.Name
import StorageCluster.Satellite.Expansion

/-!
# What a batch expands to

When all resources of a batch have different names, each is expanded as if it were alone: with the
stack that the satellite remembers for it, or not at all. The arena then holds one chain for each
resource that has a stack, and there is one failure for each of the others.
-/
namespace StorageCluster

namespace StackMemory

/-- The stack that a resource is expanded with. -/
def stackFor (m : StackMemory) (fullSync : Bool) (r : Resource) :
    Except StackFault (List LayerKind) := do
  let stack ← m.stackOf r fullSync
  Stack.validate stack
  return stack

theorem ne_nil_of_validate {stack : List LayerKind} (h : Stack.validate stack = .ok ()) :
    stack ≠ [] := by
  rintro rfl
  cases h

theorem stackFor_eq_ok_iff {m : StackMemory} {fullSync : Bool} {r : Resource}
    {stack : List LayerKind} : m.stackFor fullSync r = .ok stack ↔
      m.stackOf r fullSync = .ok stack ∧ Stack.validate stack = .ok () := by
  unfold stackFor
  cases m.stackOf r fullSync with
  | error fault => simp [bind, Except.bind]
  | ok found =>
    cases hv : Stack.validate found with
    | error fault =>
      simp only [bind, Except.bind, hv, reduceCtorEq, Except.ok.injEq, false_iff, not_and]
      rintro rfl hok
      rw [hv] at hok
      cases hok
    | ok =>
      simp only [bind, Except.bind, hv, pure, Except.pure, Except.ok.injEq]
      constructor
      · rintro rfl
        exact ⟨rfl, hv⟩
      · exact And.left

theorem ne_nil_of_stackFor {m : StackMemory} {fullSync : Bool} {r : Resource}
    {stack : List LayerKind} (h : m.stackFor fullSync r = .ok stack) : stack ≠ [] :=
  ne_nil_of_validate (stackFor_eq_ok_iff.1 h).2

theorem expandOne_eq (m : StackMemory) (a : Arena) (fullSync : Bool) (r : Resource) :
    m.expandOne a fullSync r =
      match m.stackFor fullSync r with
      | .ok stack => .ok (⟨a.layers ++ chain r a.size none stack⟩, stack)
      | .error fault => .error fault.toFault := by
  unfold expandOne stackFor
  cases m.stackOf r fullSync with
  | error fault => rfl
  | ok stack =>
    cases hv : Stack.validate stack with
    | error fault => simp [bind, Except.bind, Except.mapError, hv]
    | ok => simp [bind, Except.bind, Except.mapError, hv, Arena.addChain_eq, pure, Except.pure]

/-- Remembering the stack of one resource does not matter to the others. -/
theorem stackFor_insert {m : StackMemory} {name : ResourceName} {stack : List LayerKind}
    {fullSync : Bool} {r : Resource} (h : (name == r.name) = false) :
    { m with known := m.known.insert name stack }.stackFor fullSync r = m.stackFor fullSync r := by
  have hc : compare r.name name ≠ .eq := by
    rw [← Name.beq_eq_false_iff, Name.beq_comm]
    exact h
  have hf : (m.known.insert name stack).find? r.name = m.known.find? r.name := by
    rw [SortedMap.find?_insert, if_neg hc]
  unfold stackFor stackOf
  simp only [hf]

/-- The layers that a resource gets: none if it cannot be expanded. -/
def layersFor (m : StackMemory) (fullSync : Bool) (r : Resource) : List LayerKind :=
  (m.stackFor fullSync r).toOption.getD []

def failureFor? (m : StackMemory) (fullSync : Bool) (r : Resource) :
    Option (ResourceName × Entry) :=
  match m.stackFor fullSync r with
  | .ok _ => none
  | .error fault => some (r.name, fault.toFault.toEntry.aboutDefinition r.name.display)

/-- Resources are expanded with the stacks that a memory tells for them. -/
structure Expands (m : StackMemory) (fullSync : Bool) (resources : List Resource)
    (e : Expansion) : Prop where
  linked : e.arena.Linked
  layers : e.arena.layers.map (fun l => (l.resource, l.kind)) =
    resources.flatMap fun r => (m.layersFor fullSync r).map (r, ·)
  roots : e.arena.roots.map (·.resource) = resources.filter fun r => (m.stackFor fullSync r).isOk
  failures : e.failures = resources.filterMap (m.failureFor? fullSync)

theorem map_chain (r : Resource) (index : Nat) (parent : Option LayerId)
    (stack : List LayerKind) :
    (chain r index parent stack).map (fun l => (l.resource, l.kind)) = stack.map (r, ·) := by
  induction stack generalizing index parent with
  | nil => rfl
  | cons kind rest ih => simp only [chain, List.map_cons, ih]

theorem filter_isRoot_chain (r : Resource) (index : Nat) (parent : LayerId)
    (stack : List LayerKind) :
    (chain r index (some parent) stack).filter LayerResource.isRoot = [] := by
  induction stack generalizing index parent with
  | nil => rfl
  | cons kind rest ih => simp [chain, LayerResource.isRoot, ih]

/-- The top of a chain is its only root. -/
theorem roots_chain (r : Resource) (index : Nat) {stack : List LayerKind} (h : stack ≠ []) :
    ((chain r index none stack).filter LayerResource.isRoot).map (·.resource) = [r] := by
  cases stack with
  | nil => exact absurd rfl h
  | cons kind rest =>
    rw [chain, List.filter_cons_of_pos rfl, filter_isRoot_chain]
    rfl

theorem Expands.start (m : StackMemory) (fullSync : Bool) : Expands m fullSync [] {} :=
  ⟨.empty, rfl, rfl, rfl⟩

theorem Expands.next {m now : StackMemory} {fullSync : Bool} {done : List Resource}
    {e : Expansion} {r : Resource} (h : Expands m fullSync done e)
    (hr : now.stackFor fullSync r = m.stackFor fullSync r) :
    Expands m fullSync (done ++ [r]) (expandNext fullSync (now, e) r).2 := by
  unfold expandNext
  simp only [expandOne_eq, hr]
  cases hs : m.stackFor fullSync r with
  | error fault =>
    refine ⟨h.linked, ?_, ?_, ?_⟩
    · simp [h.layers, layersFor, hs, Except.toOption]
    · simp [h.roots, hs, Except.isOk, Except.toBool]
    · simp [h.failures, failureFor?, hs]
  | ok stack =>
    have hroots := roots_chain r e.arena.size (ne_nil_of_stackFor hs)
    have hold := h.roots
    unfold Arena.roots at hold
    refine ⟨h.linked.append_chain r stack, ?_, ?_, ?_⟩
    · simp [h.layers, layersFor, hs, Except.toOption, map_chain]
    · simp [Arena.roots, hold, hroots, hs, Except.isOk, Except.toBool]
    · simp [h.failures, failureFor?, hs]

/-- After one resource, the memory tells the same stack for all resources of other names. -/
theorem stackFor_expandNext {m : StackMemory} {e : Expansion} {fullSync : Bool} {r other : Resource}
    (h : (r.name == other.name) = false) :
    (expandNext fullSync (m, e) r).1.stackFor fullSync other = m.stackFor fullSync other := by
  unfold expandNext
  simp only [expandOne_eq]
  cases m.stackFor fullSync r with
  | error fault => rfl
  | ok stack => exact stackFor_insert h

theorem Expands.foldl {m now : StackMemory} {fullSync : Bool} {done resources : List Resource}
    {e : Expansion} (h : Expands m fullSync done e)
    (hsame : ∀ r ∈ resources, now.stackFor fullSync r = m.stackFor fullSync r)
    (hdistinct : resources.Pairwise fun a b => (a.name == b.name) = false) :
    Expands m fullSync (done ++ resources)
      (resources.foldl (expandNext fullSync) (now, e)).2 := by
  induction resources generalizing done now e with
  | nil => simpa using h
  | cons r rest ih =>
    obtain ⟨hr, hrest⟩ := List.pairwise_cons.1 hdistinct
    have hnext := h.next (hsame r List.mem_cons_self)
    rw [List.foldl_cons, ← Prod.eta (expandNext fullSync (now, e) r), List.append_cons]
    refine ih hnext ?_ hrest
    intro other ho
    rw [stackFor_expandNext (hr other ho)]
    exact hsame other (List.mem_cons_of_mem r ho)

theorem Expands.withSnapshots {m : StackMemory} {fullSync : Bool} {resources : List Resource}
    {e : Expansion} (h : Expands m fullSync resources e) (snapshots : List Snapshot) :
    Expands m fullSync resources { e with arena := e.arena.withSnapshots snapshots } := by
  refine ⟨h.linked.withSnapshots snapshots, ?_, ?_, h.failures⟩
  · simp [Arena.withSnapshots, ← h.layers, Function.comp_def]
  · have hroots := h.roots
    simp only [Arena.withSnapshots, Arena.roots, List.filter_map, List.map_map] at hroots ⊢
    exact hroots

/-- A batch of resources with different names is expanded one by one. -/
theorem expand_expands (m : StackMemory) (resources : List Resource) (snapshots : List Snapshot)
    (fullSync : Bool) (hdistinct : resources.Pairwise fun a b => (a.name == b.name) = false) :
    Expands m fullSync resources (m.expand resources snapshots fullSync).2 := by
  have h := (Expands.start m fullSync).foldl (fun _ _ => rfl) hdistinct
  exact h.withSnapshots snapshots

namespace Expands

variable {m : StackMemory} {fullSync : Bool} {resources : List Resource} {e : Expansion}

/-- The arena holds the layers of the resources in the batch, and no others. -/
theorem mem_layers (h : m.Expands fullSync resources e) (r : Resource) (kind : LayerKind) :
    (∃ l ∈ e.arena.layers, l.resource = r ∧ l.kind = kind) ↔
      r ∈ resources ∧ kind ∈ m.layersFor fullSync r := by
  have hm : (r, kind) ∈ e.arena.layers.map (fun l => (l.resource, l.kind)) ↔
      (r, kind) ∈ resources.flatMap fun r => (m.layersFor fullSync r).map (r, ·) := by
    rw [h.layers]
  simpa using hm

theorem resource_mem (h : m.Expands fullSync resources e) {l : LayerResource}
    (hl : l ∈ e.arena.layers) : l.resource ∈ resources :=
  ((h.mem_layers l.resource l.kind).1 ⟨l, hl, rfl, rfl⟩).1

theorem exists_root (h : m.Expands fullSync resources e) {r : Resource} (hr : r ∈ resources)
    {stack : List LayerKind} (hs : m.stackFor fullSync r = .ok stack) :
    ∃ root ∈ e.arena.roots, root.resource = r := by
  have hm : r ∈ e.arena.roots.map (·.resource) := by
    rw [h.roots]
    exact List.mem_filter.2 ⟨hr, by rw [hs]; rfl⟩
  exact List.mem_map.1 hm

theorem roots_pairwise (h : m.Expands fullSync resources e)
    (hdistinct : resources.Pairwise fun a b => (a.name == b.name) = false) :
    e.arena.roots.Pairwise fun a b => (a.resource.name == b.resource.name) = false := by
  have hp := hdistinct.filter fun r => (m.stackFor fullSync r).isOk
  rw [← h.roots] at hp
  exact List.pairwise_map.1 hp

end Expands

/-- In a batch of different names a name tells its resource. -/
theorem eq_of_name {resources : List Resource} {a b : Resource}
    (hdistinct : resources.Pairwise fun a b => (a.name == b.name) = false)
    (ha : a ∈ resources) (hb : b ∈ resources) (h : (a.name == b.name) = true) : a = b := by
  by_contra hne
  have hsymm : Std.Symm fun a b : Resource => (a.name == b.name) = false :=
    ⟨fun a b hab => by rw [Name.beq_comm, hab]⟩
  have hab := hdistinct.forall ha hb hne
  rw [h] at hab
  cases hab

end StackMemory

end StorageCluster
