import StorageCluster.Store.Load

/-!
# Core objects

The object graph of a controller together with the store that backs it. An operation first checks
the graph, then commits its rows, and changes the graph only when the store accepted them.
-/
namespace StorageCluster

/-- The parts of the core objects that are locked each on its own. -/
inductive Lock
  | definitions
  | groups
  | nodes
  | pools
  | settings
  deriving DecidableEq, Repr, Inhabited

namespace Lock

/-- In the order in which locks are taken. -/
def all : List Lock := [.definitions, .groups, .nodes, .pools, .settings]

def label : Lock → String
  | .definitions => "RSC_DFN_MAP"
  | .groups => "RSC_GRP_MAP"
  | .nodes => "NODES_MAP"
  | .pools => "STOR_POOL_DFN_MAP"
  | .settings => "CTRL_CONFIG"

end Lock

structure Core where
  graph : Graph := {}
  props : Props := .empty
  store : Store
  deriving DecidableEq

namespace Core

/-- Commit changes and, if the store accepts them, update the graph. -/
def persist (c : Core) (changes : Transaction) (update : Graph → Graph) :
    Core × Except Fault Unit :=
  match c.store.commit changes with
  | (store, .ok ()) => ({ c with store, graph := update c.graph }, .ok ())
  | (store, .error fault) => ({ c with store }, .error fault)

/-- The first of the nodes that is not known. -/
def unknownNode? (c : Core) (nodes : List NodeName) : Option NodeName :=
  nodes.find? fun name => !c.graph.nodes.contains name

def createNode (c : Core) (n : Node) : Core × Except Fault Unit :=
  if c.graph.nodes.contains n.name then
    (c, .error (.configuration ("node '" ++ n.name.display ++ "' already exists")))
  else c.persist [Change.ofNew n] fun g => g.setNode n

def createConnection (c : Core) (n : Connection) : Core × Except Fault Unit :=
  match c.unknownNode? [n.source, n.target] with
  | some name => (c, .error (.nodeNotFound name.display))
  | none => c.persist [Change.ofNew n] fun g => g.setConnection n

def createGroup (c : Core) (r : Group) : Core × Except Fault Unit :=
  if c.graph.groups.contains r.name then
    (c, .error (.configuration ("resource group '" ++ r.name.display ++ "' already exists")))
  else c.persist [Change.ofNew r] fun g => g.setGroup r

def createPool (c : Core) (p : Pool) : Core × Except Fault Unit :=
  match c.unknownNode? [p.node] with
  | some name => (c, .error (.nodeNotFound name.display))
  | none => c.persist [Change.ofNew p] fun g => g.setPool p

/-- A definition is stored with its volume definitions, resources, volumes and snapshots. -/
def definitionChanges (d : Definition) : Transaction :=
  Change.ofNew d :: d.volumes.values.map (fun v => Change.ofNew (NamedVolumeDefinition.mk d.name v))
    ++ d.resources.values.flatMap Resource.changes ++ d.snapshots.values.map Change.ofNew

def createDefinition (c : Core) (d : Definition) : Core × Except Fault Unit :=
  if c.graph.definitions.contains d.name then
    (c, .error (.configuration ("resource definition '" ++ d.name.display ++ "' already exists")))
  else if !c.graph.groups.contains d.group then (c, .error (.groupNotFound d.group.display))
  else match c.unknownNode? (d.resources.values.map (·.node)) with
    | some name => (c, .error (.nodeNotFound name.display))
    | none => c.persist (definitionChanges d) fun g => g.setDefinition d

/-- Flags to clear go first, so a flag in both sets ends up set. -/
def updateNodeFlags (c : Core) (name : NodeName) (set clear : NodeFlags) :
    Core × Except Fault NodeFlags :=
  match c.graph.nodes.find? name with
  | none => (c, .error (.nodeNotFound name.display))
  | some n =>
    let flags := (n.flags.without clear).union set
    let (c, result) := c.persist [Change.ofColumn n Column.flags flags.toColumn] fun g =>
      { g with nodes := g.nodes.modify name fun n => { n with flags } }
    (c, result.map fun _ => flags)

/-- The connection status is of the moment and not stored. -/
def setConnectionStatus (c : Core) (name : NodeName) (status : ConnectionStatus) :
    Core × Except Fault Unit :=
  if c.graph.nodes.contains name then
    ({ c with graph := { c.graph with
        nodes := c.graph.nodes.modify name fun n => { n with status } } }, .ok ())
  else (c, .error (.nodeNotFound name.display))

/-- The resources deployed on a node, by definition. -/
def resourcesOn (c : Core) (node : NodeName) : List Resource :=
  c.graph.definitions.values.filterMap fun d => d.resource? node

def definitionsOn (c : Core) (node : NodeName) : List ResourceName :=
  (c.graph.definitions.values.filter fun d => d.resources.contains node).map (·.name)

/-- Load the graph from the store; on a fault the present one stays. -/
def reload (c : Core) : Core × Except Fault Graph.Summary :=
  match Graph.load c.store with
  | .ok (graph, summary) => ({ c with graph }, .ok summary)
  | .error fault => (c, .error fault)

end Core

end StorageCluster
