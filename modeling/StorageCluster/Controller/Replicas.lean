import StorageCluster.Graph
import StorageCluster.Text.Blank

/-!
# Counting replicas

How many replicas of a resource definition there are, and how many there have to be: the minimum
that is configured, but never more than the group places.
-/
namespace StorageCluster

structure ReplicaCounts where
  diskfulConnected : Nat
  placeCount : Nat
  minimum : Nat
  current : Nat
  deriving DecidableEq, Repr

def ReplicaCounts.deficit (c : ReplicaCounts) : Nat := c.minimum - c.current

/-- A configured minimum that is not a number does not count. -/
def configuredMinimum? (containers : List Props) : Option Nat := do
  let text ← Props.firstOf containers Props.minReplicaCountKey (some Props.drbdOptions)
  match Numeral.readDecimal UInt32.size (Blank.trim text) with
  | .ok n => some n
  | .error _ => none

def minReplicaCount (containers : List Props) (placeCount : Nat) : Nat :=
  min ((configuredMinimum? containers).getD placeCount) placeCount

namespace Resource

/-- A diskful DRBD replica that is to stay, on a known node that is not evicted. -/
def countsAsReplica (r : Resource) (nodes : NodeMap) : Bool :=
  !r.flags.intersects (ResourceFlags.delete.union ResourceFlags.tieBreaker) &&
    !r.isDiskless && r.hasLayer .drbd &&
    (nodes.find? r.node).any fun n => !n.isEvicted

def isDiskfulConnected (r : Resource) (nodes : NodeMap) : Bool :=
  !r.isDiskless && (nodes.find? r.node).any Node.isConnected

end Resource

def Definition.countReplicas (d : Definition) (group : Group) (nodes : NodeMap)
    (controllerProps : Props) : ReplicaCounts where
  diskfulConnected := (d.resources.values.filter (·.isDiskfulConnected nodes)).length
  placeCount := group.replicaCount
  minimum := minReplicaCount [d.props, group.props, controllerProps] group.replicaCount
  current := (d.resources.values.filter (·.countsAsReplica nodes)).length

end StorageCluster
