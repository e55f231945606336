import StorageCluster.Proofs.Controller.Atomicity
import StorageCluster.Proofs.Controller.Moves
import StorageCluster.Proofs.Store.Loading

/-!
# Operations and the store

A core is backed when its store holds exactly the rows of its graph. Operations on a core are steps:
either nothing has changed or the graph has moved and its changes were committed; so a core that
starts empty stays backed. Main result: `Reached.load_ok_iff`, by which what operations have
accepted can be loaded again just if all volumes lie in known pools and all snapshots belong to
known definitions and nodes, which no operation asks for.
-/
namespace StorageCluster

/-! ## How arguments are made -/

theorem Node.Storable.addInterface {n : Node} (h : n.Storable) {i : Interface}
    (hi : i.address.IsReadBack) : Ensures Storable (n.addInterface i) := by
  unfold Node.addInterface
  split
  · exact .throw _
  next hfree =>
    exact .pure ⟨h.flags, h.interfaces.insert_new (Bool.eq_false_iff.2 hfree),
      SortedMap.forall_insert hi h.addresses⟩

theorem Resource.Storable.addVolume {r : Resource} {owner : ResourceName} (h : r.Storable owner)
    (v : Volume) : Storable { r with volumes := r.volumes.insert v.number v } owner :=
  ⟨h.name, h.flags, h.volumes.insert v⟩

namespace Definition.Storable

variable {d : Definition}

theorem addVolume (h : d.Storable) (v : VolumeDefinition) : (d.addVolume v).Storable :=
  { h with volumes := h.volumes.insert v }

theorem addResource (h : d.Storable) {r : Resource} (hr : r.Storable r.name) :
    Ensures Storable (d.addResource r) := by
  intro added hadded
  obtain ⟨hname, hfree, rfl⟩ := Definition.addResource_ok_iff.1 hadded
  exact { h with
    resources := h.resources.insert_new hfree
    resource := SortedMap.forall_insert ⟨hname, hr.flags, hr.volumes⟩ h.resource }

theorem addSnapshot (h : d.Storable) {s : Snapshot} (hs : s.flags.IsKnown) :
    (d.addSnapshot s).Storable :=
  { h with
    snapshots := h.snapshots.insert Std.ReflCmp.compare_self
    snapshot := SortedMap.forall_insert hs h.snapshot }

end Definition.Storable

/-- A connection as it is made between two nodes, with any properties. -/
def Connection.IsBetween (c : Connection) : Prop :=
  ∃ uuid a b made, between uuid a b = .ok made ∧ c = { made with props := c.props }

theorem Connection.IsBetween.ordered {c : Connection} (h : c.IsBetween) :
    compare c.source c.target = .lt := by
  obtain ⟨uuid, a, b, made, hmade, hc⟩ := h
  unfold between at hmade
  rw [hc]
  split at hmade
  next => cases hmade
  next hlt =>
    cases hmade
    exact hlt
  next hgt =>
    cases hmade
    exact Std.OrientedCmp.gt_iff_lt.1 hgt

/-- The store of a core holds the rows of its graph. -/
structure Core.Backed (c : Core) : Prop where
  holds : c.store.Holds c.graph.changes
  storable : c.graph.Storable

theorem Graph.Storable.empty : Storable {} := by
  refine ⟨.empty _, ?_, .empty _, .empty _, ?_, .empty _, ?_, .empty _, ?_⟩ <;>
    · intro value h
      cases h

namespace Core

variable {accept : Definition → Graph → Prop} {c c' : Core}

/-- What an operation makes of a core. -/
inductive Step (accept : Definition → Graph → Prop) (c c' : Core) : Prop
  | untouched (h : c.Untouched c')
  | moved {t : Transaction} (move : c.graph.Move accept t c'.graph)
    (committed : c.store.commit t = (c'.store, .ok ()))

namespace Backed

theorem start {c : Core} {kind : EngineKind} (hgraph : c.graph = {})
    (hengine : c.store.engine = .new kind) : c.Backed := by
  have hnew : Store.Holds ⟨.new kind, 0⟩ [] := .new kind 0
  constructor
  · rw [hgraph]
    exact hnew.of_engine hengine
  · rw [hgraph]
    exact .empty

theorem load_iff (h : c.Backed) (loaded : Graph × Graph.Summary) :
    Graph.load c.store = .ok loaded ↔
      c.graph.Grounded ∧ loaded = (c.graph.stored, c.graph.census) := by
  obtain ⟨m, hs, hm⟩ := h.holds
  exact Graph.load_iff h.storable hm hs loaded

theorem step (h : c.Backed) (hstep : Step accept c c') : c'.Backed := by
  cases hstep with
  | untouched hu =>
    constructor
    · rw [hu.graph]
      exact h.holds.of_engine hu.engine
    · rw [hu.graph]
      exact h.storable
  | moved move committed =>
    exact ⟨h.holds.commit move.brings committed, move.storable h.storable⟩

end Backed

/-! ## Single operations -/

theorem persist_ok {t : Transaction} {update : Graph → Graph} {store : Store}
    (h : c.store.commit t = (store, .ok ())) : (c.persist t update).2 = .ok () := by
  rw [persist, h]

theorem persist_step {t : Transaction} {update : Graph → Graph}
    (h : ∀ store, c.store.commit t = (store, .ok ()) → c.graph.Move accept t (update c.graph)) :
    Step accept c (c.persist t update).1 := by
  unfold persist
  split
  next store hc => exact .moved (h store hc) hc
  next store fault hc => exact .untouched ⟨rfl, rfl, Store.engine_of_refused hc⟩

theorem known_of_unknownNode? {names : List NodeName} (h : c.unknownNode? names = none) :
    ∀ name ∈ names, c.graph.nodes.contains name = true := by
  intro name hn
  have hk := List.find?_eq_none.1 h name hn
  simpa using hk

theorem createNode_step {n : Node} (hn : (c.createNode n).2 = .ok () → n.Storable) :
    Step accept c (c.createNode n).1 := by
  unfold createNode at hn ⊢
  split
  · exact .untouched (.refl c)
  next hfree =>
    rw [if_neg hfree] at hn
    exact persist_step fun store hc => .node (Bool.eq_false_iff.2 hfree) (hn (persist_ok hc))

theorem createGroup_step (r : Group) : Step accept c (c.createGroup r).1 := by
  unfold createGroup
  split
  · exact .untouched (.refl c)
  next hfree => exact persist_step fun _ _ => .group (Bool.eq_false_iff.2 hfree)

/-- The store refuses a second row under one key, so what it has accepted was not there. -/
theorem Backed.free (h : c.Backed) {κ α : Type} [Ord κ] [Std.TransOrd κ] [Stored α] [FlatStored α]
    {m : SortedMap κ α} (own : α → κ) {store : Store} {a : α} (hm : m.Filed own)
    (hrows : ∀ b ∈ m.values, Change.ofNew b ∈ c.graph.changes)
    (hkey : ∀ b, compare (own a) (own b) = .eq → Stored.key b = Stored.key a)
    (hc : c.store.commit [Change.ofNew a] = (store, .ok ())) : m.contains (own a) = false := by
  by_contra hn
  obtain ⟨b, hb⟩ := Option.isSome_iff_exists.1 (Bool.not_eq_false _ ▸ hn)
  have hin : Change.ofNew b ∈ c.graph.changes := hrows b (SortedMap.mem_values.2 ⟨own a, hb⟩)
  exact h.holds.fresh hc (hkey b (hm (own a) b hb)) hin

theorem createConnection_step (h : c.Backed) {n : Connection}
    (hn : (c.createConnection n).2 = .ok () → compare n.source n.target = .lt) :
    Step accept c (c.createConnection n).1 := by
  unfold createConnection at hn ⊢
  split
  · exact .untouched (.refl c)
  next hknown =>
    simp only [hknown] at hn
    refine persist_step fun store hc => .connection ?_ ⟨?_, ?_, hn (persist_ok hc)⟩
    · refine h.free (fun n : Connection => (n.source, n.target)) h.storable.connections.filed
        (fun b hb => ?_) (fun b hb => ?_) hc
      · simp only [Graph.changes, List.mem_append]
        exact .inr (.inr (.inr (.inr (List.mem_map.2 ⟨b, hb, rfl⟩))))
      · obtain ⟨hsource, htarget⟩ := (pair_compare_eq_iff _ _).1 hb
        exact congrArg₂ (fun source target => compositeKey [source, target])
          ((Name.compare_eq_iff _ _).1 hsource).symm ((Name.compare_eq_iff _ _).1 htarget).symm
    · exact known_of_unknownNode? hknown _ (by simp)
    · exact known_of_unknownNode? hknown _ (by simp)

theorem createPool_step (h : c.Backed) (p : Pool) : Step accept c (c.createPool p).1 := by
  unfold createPool
  split
  · exact .untouched (.refl c)
  next hknown =>
    refine persist_step fun store hc => .pool ?_ (known_of_unknownNode? hknown _ (by simp))
    refine h.free (fun p : Pool => (p.node, p.name)) h.storable.pools.filed (fun b hb => ?_)
      (fun b hb => ?_) hc
    · simp only [Graph.changes, List.mem_append]
      exact .inr (.inr (.inr (.inl (List.mem_map.2 ⟨b, hb, rfl⟩))))
    · obtain ⟨hnode, hname⟩ := (pair_compare_eq_iff _ _).1 hb
      exact congrArg₂ (fun node name => compositeKey [node, name])
        ((Name.compare_eq_iff _ _).1 hnode).symm ((Name.compare_eq_iff _ _).1 hname).symm

theorem createDefinition_step {d : Definition}
    (hd : (c.createDefinition d).2 = .ok () → d.Storable ∧ accept d c.graph) :
    Step accept c (c.createDefinition d).1 := by
  unfold createDefinition at hd ⊢
  split
  · exact .untouched (.refl c)
  next hfree =>
    rw [if_neg hfree] at hd
    split
    · exact .untouched (.refl c)
    next hgroup =>
      rw [if_neg hgroup] at hd
      split
      · exact .untouched (.refl c)
      next hknown =>
        simp only [hknown] at hd
        refine persist_step fun store hc => ?_
        obtain ⟨hstorable, haccept⟩ := hd (persist_ok hc)
        refine .definition (Bool.eq_false_iff.2 hfree) hstorable ⟨by simpa using hgroup, ?_⟩ haccept
        exact fun r hr => known_of_unknownNode? hknown _ (List.mem_map.2 ⟨r, hr, rfl⟩)

theorem updateNodeFlags_step (h : c.Backed) (name : NodeName) {set : NodeFlags} (clear : NodeFlags)
    (hset : ∀ flags, (c.updateNodeFlags name set clear).2 = .ok flags → set.IsKnown) :
    Step accept c (c.updateNodeFlags name set clear).1 := by
  unfold updateNodeFlags at hset ⊢
  split
  · exact .untouched (.refl c)
  next n hn =>
    simp only [hn] at hset
    have hflags : n.flags.IsKnown := (h.storable.node n (SortedMap.mem_values.2 ⟨name, hn⟩)).flags
    refine persist_step fun store hc => .flags hn ((hflags.without clear).union ?_)
    exact hset _ (by rw [persist_ok hc]; rfl)

theorem setConnectionStatus_step (name : NodeName) (status : ConnectionStatus) :
    Step accept c (c.setConnectionStatus name status).1 := by
  unfold setConnectionStatus
  split
  · exact .moved (.status name status) rfl
  · exact .untouched (.refl c)

/-! ## Runs -/

/-- An operation of a core, with its arguments. -/
inductive Operation
  | createNode (n : Node)
  | createConnection (n : Connection)
  | createGroup (r : Group)
  | createPool (p : Pool)
  | createDefinition (d : Definition)
  | updateNodeFlags (name : NodeName) (set clear : NodeFlags)

def perform (c : Core) : Operation → Core × Except Fault Unit
  | .createNode n => c.createNode n
  | .createConnection n => c.createConnection n
  | .createGroup r => c.createGroup r
  | .createPool p => c.createPool p
  | .createDefinition d => c.createDefinition d
  | .updateNodeFlags name set clear =>
    let (c, result) := c.updateNodeFlags name set clear
    (c, result.map fun _ => ())

/-- Arguments are made by their own constructors and have no unknown flags. -/
def Operation.WellFormed : Operation → Prop
  | .createNode n => n.Storable
  | .createConnection n => n.IsBetween
  | .createGroup _ => True
  | .createPool _ => True
  | .createDefinition d => d.Storable
  | .updateNodeFlags _ set _ => set.IsKnown

theorem perform_step (h : c.Backed) (o : Operation)
    (ho : (c.perform o).2 = .ok () → o.WellFormed)
    (haccept : ∀ d, o = .createDefinition d → (c.perform o).2 = .ok () → accept d c.graph) :
    Step accept c (c.perform o).1 := by
  cases o with
  | createNode n => exact createNode_step ho
  | createConnection n => exact createConnection_step h fun hok => (ho hok).ordered
  | createGroup r => exact createGroup_step r
  | createPool p => exact createPool_step h p
  | createDefinition d => exact createDefinition_step fun hok => ⟨ho hok, haccept d rfl hok⟩
  | updateNodeFlags name set clear =>
    refine updateNodeFlags_step h name clear fun flags hok => ho ?_
    simp only [perform, hok]
    rfl

/-- A core after operations on an empty store, some of which may have failed. -/
inductive Reached (kind : EngineKind) : Core → Prop
  | start {c : Core} (graph : c.graph = {}) (engine : c.store.engine = .new kind) : Reached kind c
  | next {c : Core} (before : Reached kind c) (o : Operation)
    (wellFormed : (c.perform o).2 = .ok () → o.WellFormed) : Reached kind (c.perform o).1

theorem Reached.backed {kind : EngineKind} (h : Reached kind c) : c.Backed := by
  induction h with
  | start graph engine => exact .start graph engine
  | next _ o wellFormed ih =>
    have hstep : Step (fun _ _ => True) _ _ := perform_step ih o wellFormed fun _ _ _ => trivial
    exact ih.step hstep

/-- What operations have accepted can be loaded again just if it is grounded. -/
theorem Reached.load_ok_iff {kind : EngineKind} (h : Reached kind c) :
    (∃ loaded, Graph.load c.store = .ok loaded) ↔ c.graph.Grounded := by
  simp [h.backed.load_iff]

end Core

namespace Sample

/-- The resource of `r0` on `alpha`, with a volume in a pool. -/
def holding (pool : PoolName) : Resource :=
  { resource alpha with
    volumes := .ofList [(0, { uuid := default, number := 0, pool, sizeBytes := 4 })] }

def filled (pool : PoolName) : Definition :=
  { definition [] with resources := .ofList [(alpha, holding pool)] }

theorem node_storable (name : NodeName) : (node name).Storable :=
  ⟨Flags.isKnown_none, .empty _, fun _ hi => by cases hi⟩

/-- It is made by the definition's own operations. -/
theorem filled_storable (pool : PoolName) : (filled pool).Storable := by
  let bare : Definition := { uuid := default, name := r0, group := dflt }
  have hbare : bare.Storable :=
    ⟨Flags.isKnown_none, .empty _, .empty _, List.forall_mem_nil _, .empty _, List.forall_mem_nil _⟩
  have hresource : (resource alpha).Storable r0 :=
    ⟨Std.ReflCmp.compare_self, Flags.isKnown_none, .empty _⟩
  have hholding : (holding pool).Storable r0 :=
    hresource.addVolume { uuid := default, number := 0, pool, sizeBytes := 4 }
  have hdefined := hbare.addVolume { uuid := default, number := 0, sizeBytes := 4 }
  exact hdefined.addResource hholding (filled pool)
    (Definition.addResource_ok_iff.2 ⟨Std.ReflCmp.compare_self, rfl, rfl⟩)

/-- Node `alpha` and group `dflt`, and no pool. -/
def bareCore : Core :=
  let c : Core := { store := .new .memory }
  let c := (c.perform (.createNode (node alpha))).1
  (c.perform (.createGroup (group 1))).1

theorem bareCore_reached : Core.Reached .memory bareCore :=
  .next (.next (.start rfl rfl) (.createNode (node alpha)) fun _ => node_storable alpha)
    (.createGroup (group 1)) fun _ => trivial

/-- The pool is there before the definition. -/
def pooledCore : Core :=
  let c := (bareCore.perform (.createPool (.new default pool1 alpha .lvm 16))).1
  (c.perform (.createDefinition (filled pool1))).1

theorem pooledCore_reached : Core.Reached .memory pooledCore :=
  .next (bareCore_reached.next (.createPool (.new default pool1 alpha .lvm 16)) fun _ => trivial)
    (.createDefinition (filled pool1)) fun _ => filled_storable pool1

end Sample

open Sample in
theorem pooledCore_loads :
    Core.Reached .memory pooledCore ∧ pooledCore.graph.definitions.contains r0 = true ∧
      ∃ loaded, Graph.load pooledCore.store = .ok loaded :=
  ⟨pooledCore_reached, by decide +kernel, pooledCore_reached.load_ok_iff.2 (by decide +kernel)⟩

open Sample in
/-- A definition with a volume in an unknown pool is accepted, and nothing can be loaded then. -/
theorem createDefinition_locks_out :
    ∃ (c : Core) (o : Core.Operation), Core.Reached .memory c ∧ o.WellFormed ∧
      (∃ loaded, Graph.load c.store = .ok loaded) ∧ (c.perform o).2 = .ok () ∧
      ∀ loaded, Graph.load (c.perform o).1.store ≠ .ok loaded := by
  have hreached : Core.Reached .memory (bareCore.perform (.createDefinition (filled pool1))).1 :=
    bareCore_reached.next _ fun _ => filled_storable pool1
  refine ⟨bareCore, .createDefinition (filled pool1), bareCore_reached, filled_storable pool1,
    ⟨_, (bareCore_reached.backed.load_iff _).2 ⟨by decide +kernel, rfl⟩⟩, by decide +kernel, ?_⟩
  intro loaded hl
  have hgrounded := ((hreached.backed.load_iff loaded).1 hl).1
  exact absurd hgrounded (by decide +kernel)

end StorageCluster
