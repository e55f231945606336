import StorageCluster.Node
import StorageCluster.Resource

/-!
# The object graph

All objects that a controller knows, by name: nodes and the connections between them, resource
groups, resource definitions and storage pools.
-/
namespace StorageCluster

abbrev NodeMap := SortedMap NodeName Node
abbrev DefinitionMap := SortedMap ResourceName Definition

structure Graph where
  nodes : NodeMap := .empty
  connections : SortedMap (NodeName × NodeName) Connection := .empty
  groups : SortedMap GroupName Group := .empty
  definitions : DefinitionMap := .empty
  pools : SortedMap (NodeName × PoolName) Pool := .empty
  deriving DecidableEq

namespace Graph

def setNode (g : Graph) (n : Node) : Graph := { g with nodes := g.nodes.insert n.name n }

def setConnection (g : Graph) (c : Connection) : Graph :=
  { g with connections := g.connections.insert (c.source, c.target) c }

def setGroup (g : Graph) (r : Group) : Graph := { g with groups := g.groups.insert r.name r }

def setDefinition (g : Graph) (d : Definition) : Graph :=
  { g with definitions := g.definitions.insert d.name d }

def setPool (g : Graph) (p : Pool) : Graph :=
  { g with pools := g.pools.insert (p.node, p.name) p }

end Graph

end StorageCluster
