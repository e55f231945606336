import StorageCluster.Controller.Core
import StorageCluster.Proofs.Store.Holdings
import StorageCluster.Proofs.WellFiled

/-!
# A graph as rows

All rows that a graph is stored in, and what a graph must be like to be read back from them.
`Graph.Storable` asks that objects are filed under their own names, have no unknown flags and refer
to nodes and groups of the graph; operations on a core guarantee this. `Graph.Grounded` is what they
do not guarantee: that volumes lie in pools of the graph, and that snapshots are of its resource
definitions and on its nodes.
-/
namespace StorageCluster

namespace Definition

def namedVolumes (d : Definition) : List NamedVolumeDefinition :=
  d.volumes.values.map (NamedVolumeDefinition.mk d.name)

def deployedVolumes (d : Definition) : List DeployedVolume :=
  d.resources.values.flatMap fun r => r.volumes.values.map (DeployedVolume.mk r)

end Definition

namespace Graph

/-- The changes that store a whole graph. -/
def changes (g : Graph) : Transaction :=
  g.nodes.values.map Change.ofNew ++ (g.groups.values.map Change.ofNew ++
    (g.definitions.values.flatMap Core.definitionChanges ++ (g.pools.values.map Change.ofNew ++
      g.connections.values.map Change.ofNew)))

def namedVolumes (g : Graph) : List NamedVolumeDefinition :=
  g.definitions.values.flatMap Definition.namedVolumes

def resources (g : Graph) : List Resource := g.definitions.values.flatMap (·.resources.values)

def deployedVolumes (g : Graph) : List DeployedVolume :=
  g.definitions.values.flatMap Definition.deployedVolumes

def snapshots (g : Graph) : List Snapshot := g.definitions.values.flatMap (·.snapshots.values)

/-- How many rows of each table a graph is stored in. -/
def census (g : Graph) : Summary :=
  [(.nodes, g.nodes.size), (.groups, g.groups.size), (.definitions, g.definitions.size),
    (.volumeDefinitions, g.namedVolumes.length), (.pools, g.pools.size),
    (.resources, g.resources.length), (.volumes, g.deployedVolumes.length),
    (.snapshots, g.snapshots.length), (.connections, g.connections.size)]

end Graph

/-- A resource of a definition that can be read back. -/
structure Resource.Storable (r : Resource) (owner : ResourceName) : Prop where
  name : compare r.name owner = .eq
  flags : r.flags.IsKnown
  volumes : r.volumes.Spelled (·.number)

/-- A definition, as its own operations build it, that can be read back. -/
structure Definition.Storable (d : Definition) : Prop where
  flags : d.flags.IsKnown
  volumes : d.volumes.Spelled (·.number)
  resources : d.resources.Spelled (·.node)
  resource : ∀ r ∈ d.resources.values, r.Storable d.name
  snapshots : d.snapshots.Filed fun s => (s.name, s.node)
  snapshot : ∀ s ∈ d.snapshots.values, s.flags.IsKnown

/-- The group of a definition and the nodes of its resources are known. -/
structure Definition.Anchored (d : Definition) (g : Graph) : Prop where
  group : g.groups.contains d.group = true
  nodes : ∀ r ∈ d.resources.values, g.nodes.contains r.node = true

/-- The ends of a connection are known, and in order. -/
structure Connection.Anchored (c : Connection) (g : Graph) : Prop where
  source : g.nodes.contains c.source = true
  target : g.nodes.contains c.target = true
  ordered : compare c.source c.target = .lt

/-- The nodes, groups and pools of a graph are known in another, too. -/
structure Graph.Within (g g' : Graph) : Prop where
  nodes : ∀ name, g.nodes.contains name = true → g'.nodes.contains name = true
  groups : ∀ name, g.groups.contains name = true → g'.groups.contains name = true
  pools : ∀ key, g.pools.contains key = true → g'.pools.contains key = true

namespace Graph.Within

variable {g g' : Graph}

theorem refl (g : Graph) : g.Within g := ⟨fun _ h => h, fun _ h => h, fun _ h => h⟩

theorem setNode (g : Graph) (n : Node) : g.Within (g.setNode n) :=
  { refl g with nodes := fun _ h => SortedMap.contains_insert_of_contains h .. }

theorem setConnection (g : Graph) (c : Connection) : g.Within (g.setConnection c) := { refl g with }

theorem setGroup (g : Graph) (r : Group) : g.Within (g.setGroup r) :=
  { refl g with groups := fun _ h => SortedMap.contains_insert_of_contains h .. }

theorem setDefinition (g : Graph) (d : Definition) : g.Within (g.setDefinition d) := { refl g with }

theorem setPool (g : Graph) (p : Pool) : g.Within (g.setPool p) :=
  { refl g with pools := fun _ h => SortedMap.contains_insert_of_contains h .. }

theorem anchored {d : Definition} (h : g.Within g') (hd : d.Anchored g) : d.Anchored g' :=
  ⟨h.groups _ hd.group, fun r hr => h.nodes _ (hd.nodes r hr)⟩

theorem connection {c : Connection} (h : g.Within g') (hc : c.Anchored g) : c.Anchored g' :=
  ⟨h.nodes _ hc.source, h.nodes _ hc.target, hc.ordered⟩

end Graph.Within

namespace Graph

/-- A graph whose rows can be read back as far as its operations can tell. -/
structure Storable (g : Graph) : Prop where
  nodes : g.nodes.Spelled (·.name)
  node : ∀ n ∈ g.nodes.values, n.Storable
  groups : g.groups.Spelled (·.name)
  definitions : g.definitions.Spelled (·.name)
  definition : ∀ d ∈ g.definitions.values, d.Storable ∧ d.Anchored g
  pools : g.pools.Spelled fun p => (p.node, p.name)
  pool : ∀ p ∈ g.pools.values, g.nodes.contains p.node = true
  connections : g.connections.Spelled fun c => (c.source, c.target)
  connection : ∀ c ∈ g.connections.values, c.Anchored g

/-- A volume lies in a pool that is known on the node of its resource. -/
def HasPoolOf (g : Graph) (v : DeployedVolume) : Prop :=
  g.pools.contains (v.resource.node, v.volume.pool) = true

/-- A snapshot is of a known definition and on a known node. -/
def HasOwnerOf (g : Graph) (s : Snapshot) : Prop :=
  g.nodes.contains s.node = true ∧ g.definitions.contains s.resource = true

instance (g : Graph) : DecidablePred g.HasPoolOf := fun v =>
  inferInstanceAs (Decidable (g.pools.contains (v.resource.node, v.volume.pool) = true))

instance (g : Graph) : DecidablePred g.HasOwnerOf := fun s =>
  inferInstanceAs (Decidable (g.nodes.contains s.node = true ∧
    g.definitions.contains s.resource = true))

/-- All volumes lie in known pools, and all snapshots have a known definition and node. -/
def Grounded (g : Graph) : Prop :=
  (∀ v ∈ g.deployedVolumes, g.HasPoolOf v) ∧ ∀ s ∈ g.snapshots, g.HasOwnerOf s

instance (g : Graph) : Decidable g.Grounded :=
  inferInstanceAs (Decidable ((∀ v ∈ g.deployedVolumes, g.HasPoolOf v) ∧
    ∀ s ∈ g.snapshots, g.HasOwnerOf s))

/-- The snapshots in a graph of one resource definition, by name and node. -/
def snapshotsOf (g : Graph) (name : ResourceName) : SortedMap (SnapshotName × NodeName) Snapshot :=
  .ofList ((g.snapshots.filter fun s => compare s.resource name == .eq).map
    fun s => ((s.name, s.node), s))

/-- What of a graph is stored: its nodes are offline, and its snapshots are filed under their own
names with the definitions that they name. -/
def stored (g : Graph) : Graph :=
  { g.offline with definitions := g.definitions.map fun _ d =>
      { d with snapshots := g.snapshotsOf d.name } }

end Graph

/-! ## Rows by table -/

/-- An entity's row under its key. -/
def Stored.record {α : Type} [Stored α] (a : α) : String × Row := (Stored.key a, Stored.row a)

namespace Transaction

variable (table : Table)

theorem records_append (t t' : Transaction) :
    records (t ++ t') table = t.records table ++ t'.records table :=
  List.filterMap_append

theorem records_cons (change : Change) (t : Transaction) :
    records (change :: t) table = (change.record? table).toList ++ t.records table := by
  rw [records, List.filterMap_cons]
  cases change.record? table <;> rfl

theorem records_flatMap {α : Type} (items : List α) (f : α → Transaction) :
    records (items.flatMap f) table = items.flatMap fun a => records (f a) table := by
  induction items with
  | nil => rfl
  | cons a rest ih => rw [List.flatMap_cons, List.flatMap_cons, records_append, ih]

theorem record?_ofNew {α : Type} [Stored α] (a : α) :
    (Change.ofNew a).record? table =
      if Stored.table α = table then some (Stored.record a) else none := rfl

theorem records_map_ofNew {α β : Type} [Stored α] (f : β → α) (items : List β) :
    records (items.map fun b => Change.ofNew (f b)) table =
      if Stored.table α = table then items.map fun b => Stored.record (f b) else [] := by
  induction items with
  | nil => simp [records]
  | cons b rest ih =>
    rw [List.map_cons, records_cons, ih, record?_ofNew]
    split <;> rfl

end Transaction

/-- The rows of a resource and its volumes. -/
def Resource.records (r : Resource) : Table → List (String × Row)
  | .resources => [Stored.record r]
  | .volumes => r.volumes.values.map fun v => Stored.record (DeployedVolume.mk r v)
  | _ => []

theorem Resource.changes_records (r : Resource) (table : Table) :
    r.changes.records table = r.records table := by
  rw [changes, Transaction.records_cons, Transaction.record?_ofNew, Transaction.records_map_ofNew]
  cases table <;> simp [records, Stored.table]

/-- The rows of a definition and of all that belongs to it. -/
def Definition.records (d : Definition) : Table → List (String × Row)
  | .definitions => [Stored.record d]
  | .volumeDefinitions => d.namedVolumes.map Stored.record
  | .resources => d.resources.values.map Stored.record
  | .volumes => d.deployedVolumes.map Stored.record
  | .snapshots => d.snapshots.values.map Stored.record
  | _ => []

theorem Definition.changes_records (d : Definition) (table : Table) :
    (Core.definitionChanges d).records table = d.records table := by
  rw [Core.definitionChanges, Transaction.records_append, Transaction.records_append,
    Transaction.records_cons, Transaction.record?_ofNew, Transaction.records_map_ofNew,
    Transaction.records_flatMap, Transaction.records_map_ofNew]
  simp only [Resource.changes_records]
  cases table <;>
    simp [records, Stored.table, Resource.records, namedVolumes, deployedVolumes,
      List.map_flatMap, ← List.map_eq_flatMap, Function.comp_def]

namespace Graph

/-- The rows of a graph. -/
def records (g : Graph) : Table → List (String × Row)
  | .nodes => g.nodes.values.map Stored.record
  | .groups => g.groups.values.map Stored.record
  | .definitions => g.definitions.values.map Stored.record
  | .volumeDefinitions => g.namedVolumes.map Stored.record
  | .pools => g.pools.values.map Stored.record
  | .resources => g.resources.map Stored.record
  | .volumes => g.deployedVolumes.map Stored.record
  | .snapshots => g.snapshots.map Stored.record
  | .connections => g.connections.values.map Stored.record

theorem changes_records (g : Graph) (table : Table) :
    g.changes.records table = g.records table := by
  rw [changes, Transaction.records_append, Transaction.records_append, Transaction.records_append,
    Transaction.records_append, Transaction.records_flatMap, Transaction.records_map_ofNew,
    Transaction.records_map_ofNew, Transaction.records_map_ofNew, Transaction.records_map_ofNew]
  simp only [Definition.changes_records]
  cases table <;>
    simp [records, Stored.table, Definition.records, namedVolumes, resources, deployedVolumes,
      snapshots, List.map_flatMap, ← List.map_eq_flatMap]

end Graph

/-! ## Rows of a changed graph -/

theorem perm_under {α : Type} {new xs ys : List α} (before : List α) (h : ys.Perm (new ++ xs)) :
    (before ++ ys).Perm (new ++ (before ++ xs)) :=
  (h.append_left before).trans (List.perm_append_comm_assoc ..)

theorem perm_over {α : Type} {new xs ys : List α} (after : List α) (h : ys.Perm (new ++ xs)) :
    (ys ++ after).Perm (new ++ (xs ++ after)) := by
  rw [← List.append_assoc]
  exact h.append_right after

namespace Definition

variable {d : Definition}

theorem changes_join {r : Resource} (hfree : d.resources.contains r.node = false) :
    (Core.definitionChanges { d with resources := d.resources.insert r.node r }).Perm
      (r.changes ++ Core.definitionChanges d) := by
  have hvalues := SortedMap.values_insert_perm r hfree
  exact perm_over _ (perm_under _ (hvalues.flatMap_right Resource.changes))

/-- Marking a resource deleted exchanges its own row only. -/
theorem changes_markDeleted {node : NodeName} {r : Resource} (hr : d.resource? node = some r) :
    ∃ rest : Transaction, (Core.definitionChanges d).Perm ([Change.ofNew r] ++ rest) ∧
      (Core.definitionChanges (d.modifyResource node Resource.markDeleted)).Perm
        ([Change.ofNew r.markDeleted] ++ rest) := by
  obtain ⟨others, hold, hnew⟩ := SortedMap.exists_values_insert hr
  have hvalues (v : Resource) (m : SortedMap NodeName Resource) (hm : m.values.Perm (v :: others)) :
      (m.values.flatMap Resource.changes).Perm
        ([Change.ofNew v] ++
          ((v.volumes.values.map fun w => Change.ofNew (DeployedVolume.mk v w)) ++
            others.flatMap Resource.changes)) :=
    hm.flatMap_right Resource.changes
  have hmodify : (d.modifyResource node Resource.markDeleted).resources =
      d.resources.insert node r.markDeleted :=
    (SortedMap.insert_eq_modify hr Resource.markDeleted).symm
  refine ⟨_, perm_over _ (perm_under _ (hvalues r _ hold)), ?_⟩
  refine perm_over _ (perm_under _ (hvalues r.markDeleted _ ?_))
  rw [hmodify]
  exact hnew r.markDeleted

end Definition

namespace Graph

variable {g : Graph}

theorem changes_setNode {n : Node} (h : g.nodes.contains n.name = false) :
    (g.setNode n).changes.Perm ([Change.ofNew n] ++ g.changes) :=
  perm_over _ ((SortedMap.values_insert_perm n h).map Change.ofNew)

theorem changes_setGroup {r : Group} (h : g.groups.contains r.name = false) :
    (g.setGroup r).changes.Perm ([Change.ofNew r] ++ g.changes) :=
  perm_under _ (perm_over _ ((SortedMap.values_insert_perm r h).map Change.ofNew))

theorem changes_setDefinition {d : Definition} (h : g.definitions.contains d.name = false) :
    (g.setDefinition d).changes.Perm (Core.definitionChanges d ++ g.changes) := by
  have hvalues := (SortedMap.values_insert_perm d h).flatMap_right Core.definitionChanges
  exact perm_under _ (perm_under _ (perm_over _ hvalues))

theorem changes_setPool {p : Pool} (h : g.pools.contains (p.node, p.name) = false) :
    (g.setPool p).changes.Perm ([Change.ofNew p] ++ g.changes) := by
  have hvalues := (SortedMap.values_insert_perm p h).map Change.ofNew
  exact perm_under _ (perm_under _ (perm_under _ (perm_over _ hvalues)))

theorem changes_setConnection {c : Connection}
    (h : g.connections.contains (c.source, c.target) = false) :
    (g.setConnection c).changes.Perm ([Change.ofNew c] ++ g.changes) := by
  have hvalues := (SortedMap.values_insert_perm c h).map Change.ofNew
  exact perm_under _ (perm_under _ (perm_under _ (perm_under _ hvalues)))

/-- Another node in the place of a known one. -/
theorem changes_insertNode {name : NodeName} {n : Node} (h : g.nodes.find? name = some n) :
    ∃ rest : Transaction, g.changes.Perm ([Change.ofNew n] ++ rest) ∧
      ∀ n', (changes { g with nodes := g.nodes.insert name n' }).Perm
        ([Change.ofNew n'] ++ rest) := by
  obtain ⟨others, hold, hnew⟩ := SortedMap.exists_values_insert h
  refine ⟨_, perm_over _ (hold.map Change.ofNew), fun n' => ?_⟩
  exact perm_over _ ((hnew n').map Change.ofNew)

/-- Another definition in the place of a known one. -/
theorem changes_insertDefinition {name : ResourceName} {d : Definition}
    (h : g.definitions.find? name = some d) :
    ∃ rest : Transaction, g.changes.Perm (Core.definitionChanges d ++ rest) ∧
      ∀ d', (changes { g with definitions := g.definitions.insert name d' }).Perm
        (Core.definitionChanges d' ++ rest) := by
  obtain ⟨others, hold, hnew⟩ := SortedMap.exists_values_insert h
  have hvalues (d' : Definition) (m : DefinitionMap) (hm : m.values.Perm (d' :: others)) :=
    hm.flatMap_right Core.definitionChanges
  refine ⟨_, perm_under _ (perm_under _ (perm_over _ (hvalues d _ hold))), fun d' => ?_⟩
  exact perm_under _ (perm_under _ (perm_over _ (hvalues d' _ (hnew d'))))

end Graph

end StorageCluster
