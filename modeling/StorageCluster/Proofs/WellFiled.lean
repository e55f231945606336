import StorageCluster.Controller.Core
import StorageCluster.Proofs.Name
import StorageCluster.Proofs.Store.Intake

/-!
# Well-filed graphs

Every object of a graph is filed under its own name. What a store describes is well filed, and the
operations on a core keep it so.
-/
namespace StorageCluster

structure Definition.WellFiled (d : Definition) : Prop where
  volumes : d.volumes.Filed (·.number)
  resources : d.resources.Filed (·.node)

structure Graph.WellFiled (g : Graph) : Prop where
  nodes : g.nodes.Filed (·.name)
  connections : g.connections.Filed fun c => (c.source, c.target)
  groups : g.groups.Filed (·.name)
  pools : g.pools.Filed fun p => (p.node, p.name)
  definitions : g.definitions.Filed (·.name)
  each : ∀ name d, g.definitions.find? name = some d → d.WellFiled

namespace Definition

theorem WellFiled.addVolume {d : Definition} (h : d.WellFiled) (v : VolumeDefinition) :
    (d.addVolume v).WellFiled :=
  ⟨h.volumes.insert Std.ReflCmp.compare_self, h.resources⟩

/-- A definition takes in resources of its own, one for each node. -/
theorem addResource_ok_iff {d added : Definition} {r : Resource} :
    d.addResource r = .ok added ↔ compare r.name d.name = .eq ∧
      d.resources.contains r.node = false ∧
      added = { d with resources := d.resources.insert r.node r } := by
  rw [Definition.addResource, ← Name.beq_iff_compare, bne]
  cases r.name == d.name with
  | false => simp
  | true =>
    cases d.resources.contains r.node with
    | true => simp
    | false => simpa using eq_comm

theorem WellFiled.addResource {d : Definition} (h : d.WellFiled) (r : Resource) :
    Ensures WellFiled (d.addResource r) := by
  intro added hadded
  obtain ⟨_, _, rfl⟩ := addResource_ok_iff.1 hadded
  exact ⟨h.volumes, h.resources.insert Std.ReflCmp.compare_self⟩

theorem WellFiled.modifyResource {d : Definition} (h : d.WellFiled) (node : NodeName)
    {f : Resource → Resource} (hf : ∀ r, (f r).node = r.node) :
    (d.modifyResource node f).WellFiled :=
  ⟨h.volumes, h.resources.modify hf node⟩

end Definition

namespace Graph.WellFiled

variable {g : Graph}

theorem empty : WellFiled {} :=
  ⟨.empty _, .empty _, .empty _, .empty _, .empty _, fun _ _ h => by simp at h⟩

theorem setNode (h : g.WellFiled) (n : Node) : (g.setNode n).WellFiled :=
  { h with nodes := h.nodes.insert Std.ReflCmp.compare_self }

theorem setConnection (h : g.WellFiled) (c : Connection) : (g.setConnection c).WellFiled :=
  { h with connections := h.connections.insert Std.ReflCmp.compare_self }

theorem setGroup (h : g.WellFiled) (r : Group) : (g.setGroup r).WellFiled :=
  { h with groups := h.groups.insert Std.ReflCmp.compare_self }

theorem setPool (h : g.WellFiled) (p : Pool) : (g.setPool p).WellFiled :=
  { h with pools := h.pools.insert Std.ReflCmp.compare_self }

/-- A definition may be filed under any spelling of its name. -/
theorem insertDefinition (h : g.WellFiled) {name : ResourceName} {d : Definition}
    (hn : compare name d.name = .eq) (hd : d.WellFiled) :
    WellFiled { g with definitions := g.definitions.insert name d } := by
  refine { h with definitions := h.definitions.insert hn, each := ?_ }
  intro other e he
  simp only [SortedMap.find?_insert] at he
  split at he
  next =>
    cases he
    exact hd
  next => exact h.each other e he

theorem setDefinition (h : g.WellFiled) {d : Definition} (hd : d.WellFiled) :
    (g.setDefinition d).WellFiled :=
  h.insertDefinition Std.ReflCmp.compare_self hd

theorem modifyNode (h : g.WellFiled) (name : NodeName) {f : Node → Node}
    (hf : ∀ n, (f n).name = n.name) :
    WellFiled { g with nodes := g.nodes.modify name f } :=
  { h with nodes := h.nodes.modify hf name }

end Graph.WellFiled

namespace Graph

variable {g g' : Graph}

theorem WellFiled.gains (h : g.WellFiled) (hg : g.Gains g') : g'.WellFiled := by
  cases hg with
  | node => exact h.setNode _
  | group => exact h.setGroup _
  | @definition d _ _ hvolumes hresources _ =>
    have hd : d.WellFiled := ⟨hvolumes ▸ .empty _, hresources ▸ .empty _⟩
    exact h.setDefinition hd
  | volumeDefinition hd v => exact h.setDefinition ((h.each _ _ hd).addVolume v)
  | pool => exact h.setPool _
  | resource hd _ _ _ hadded => exact h.setDefinition ((h.each _ _ hd).addResource _ _ hadded)
  | volume hd => exact h.setDefinition ((h.each _ _ hd).modifyResource _ fun _ => rfl)
  | snapshot hd =>
    have hd := h.each _ _ hd
    exact h.setDefinition ⟨hd.volumes, hd.resources⟩
  | connection => exact h.setConnection _

/-- What a store describes is well filed. -/
theorem load_wellFiled (store : Store) :
    Ensures (fun loaded => loaded.1.WellFiled) (load store) :=
  load_keeps (fun _ _ h hg => h.gains hg) .empty store

/-- The graph with all nodes offline: what of it can be stored. -/
def offline (g : Graph) : Graph :=
  { g with nodes := g.nodes.map fun _ n => { n with status := .offline } }

theorem offline_offline (g : Graph) : g.offline.offline = g.offline := by
  simp only [offline, SortedMap.map_map]

theorem offline_wellFiled_iff : g.offline.WellFiled ↔ g.WellFiled := by
  have hnodes : g.offline.nodes.Filed (·.name) ↔ g.nodes.Filed (·.name) := by
    simp [SortedMap.Filed, offline, SortedMap.find?_map_values]
  constructor
  · exact fun h => { h with nodes := hnodes.1 h.nodes }
  · exact fun h => { h with nodes := hnodes.2 h.nodes }

end Graph

namespace Core

variable {c : Core}

/-- The store describes the graph, but for the connections of the moment. -/
def Mirrored (c : Core) : Prop :=
  ∃ loaded, Graph.load c.store = .ok loaded ∧ loaded.1.offline = c.graph.offline

/-- A graph that its store mirrors is well filed. -/
theorem Mirrored.wellFiled (h : c.Mirrored) : c.graph.WellFiled := by
  obtain ⟨loaded, hl, he⟩ := h
  have hw : loaded.1.WellFiled := Graph.load_wellFiled c.store loaded hl
  rw [← Graph.offline_wellFiled_iff, ← he]
  exact Graph.offline_wellFiled_iff.2 hw

theorem persist_wellFiled (h : c.graph.WellFiled) (changes : Transaction)
    {update : Graph → Graph} (hu : (update c.graph).WellFiled) :
    (c.persist changes update).1.graph.WellFiled := by
  unfold persist
  split
  · exact hu
  · exact h

theorem createNode_wellFiled (h : c.graph.WellFiled) (n : Node) :
    (c.createNode n).1.graph.WellFiled := by
  unfold createNode
  split
  · exact h
  · exact persist_wellFiled h _ (h.setNode n)

theorem createGroup_wellFiled (h : c.graph.WellFiled) (r : Group) :
    (c.createGroup r).1.graph.WellFiled := by
  unfold createGroup
  split
  · exact h
  · exact persist_wellFiled h _ (h.setGroup r)

theorem createPool_wellFiled (h : c.graph.WellFiled) (p : Pool) :
    (c.createPool p).1.graph.WellFiled := by
  unfold createPool
  split
  · exact h
  · exact persist_wellFiled h _ (h.setPool p)

theorem createDefinition_wellFiled (h : c.graph.WellFiled) {d : Definition} (hd : d.WellFiled) :
    (c.createDefinition d).1.graph.WellFiled := by
  unfold createDefinition
  split
  · exact h
  · split
    · exact h
    · split
      · exact h
      · exact persist_wellFiled h _ (h.setDefinition hd)

theorem updateNodeFlags_wellFiled (h : c.graph.WellFiled) (name : NodeName)
    (set clear : NodeFlags) : (c.updateNodeFlags name set clear).1.graph.WellFiled := by
  unfold updateNodeFlags
  split
  · exact h
  · exact persist_wellFiled h _ (h.modifyNode name fun _ => rfl)

theorem setConnectionStatus_wellFiled (h : c.graph.WellFiled) (name : NodeName)
    (status : ConnectionStatus) : (c.setConnectionStatus name status).1.graph.WellFiled := by
  unfold setConnectionStatus
  split
  · exact h.modifyNode name fun _ => rfl
  · exact h

end Core

end StorageCluster
