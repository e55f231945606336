import StorageCluster.Fault
import StorageCluster.Filter
import StorageCluster.Flags
import StorageCluster.Props
import StorageCluster.Uuid

/-!
# Storage pools, resource groups and resource definitions

A resource definition is deployed as one resource on each of its nodes. It defines volumes, and
every resource holds its volumes in storage pools of its node. Its group says how replicas are
placed.
-/
namespace StorageCluster

structure Pool where
  uuid : Uuid
  name : PoolName
  node : NodeName
  provider : Provider
  freeBytes : UInt64
  totalBytes : UInt64
  props : Props := .empty
  deriving DecidableEq

namespace Pool

/-- A new pool is wholly free. -/
def new (uuid : Uuid) (name : PoolName) (node : NodeName) (provider : Provider)
    (totalBytes : UInt64) : Pool :=
  { uuid, name, node, provider, freeBytes := totalBytes, totalBytes }

def isDiskless (p : Pool) : Bool := p.provider == .diskless

end Pool

structure Group where
  uuid : Uuid
  name : GroupName
  description : Option String := none
  props : Props := .empty
  autoPlace : Filter := {}
  deriving DecidableEq

def Group.replicaCount (g : Group) : Nat := g.autoPlace.count

structure VolumeDefinition where
  uuid : Uuid
  number : UInt32
  sizeBytes : UInt64
  props : Props := .empty
  deriving DecidableEq

structure Volume where
  uuid : Uuid
  number : UInt32
  pool : PoolName
  sizeBytes : UInt64
  props : Props := .empty
  deriving DecidableEq

structure Resource where
  uuid : Uuid
  name : ResourceName
  node : NodeName
  flags : ResourceFlags := .none
  layerStack : List LayerKind
  volumes : SortedMap UInt32 Volume := .empty
  props : Props := .empty
  deriving DecidableEq

namespace Resource

def isDeleted (r : Resource) : Bool := r.flags.contains ResourceFlags.delete

def isDiskless (r : Resource) : Bool := r.flags.intersects ResourceFlags.diskless

def isTieBreaker (r : Resource) : Bool := r.flags.contains ResourceFlags.tieBreaker

def hasLayer (r : Resource) (kind : LayerKind) : Bool := r.layerStack.contains kind

def markDeleted (r : Resource) : Resource :=
  { r with flags := r.flags.union ResourceFlags.delete }

end Resource

structure Snapshot where
  uuid : Uuid
  name : SnapshotName
  resource : ResourceName
  node : NodeName
  flags : SnapshotFlags := .none
  layerStack : List LayerKind := []
  deriving DecidableEq

structure Definition where
  uuid : Uuid
  name : ResourceName
  group : GroupName
  flags : DefinitionFlags := .none
  props : Props := .empty
  layerStack : List LayerKind := [.drbd, .storage]
  volumes : SortedMap UInt32 VolumeDefinition := .empty
  resources : SortedMap NodeName Resource := .empty
  snapshots : SortedMap (SnapshotName × NodeName) Snapshot := .empty
  deriving DecidableEq

/-- Why a resource cannot join a definition. -/
inductive DeploymentFault
  | foreign (resource definition : ResourceName)
  | alreadyDeployed (definition : ResourceName) (node : NodeName)

def DeploymentFault.toFault : DeploymentFault → Fault
  | .foreign resource definition => .internal ("resource '" ++ resource.display ++
      "' does not belong to definition '" ++ definition.display ++ "'")
  | .alreadyDeployed definition node => .rejected
      { code := Code.resourceExists, message := "Resource '" ++ definition.display ++
          "' already exists on node '" ++ node.display ++ "'" }

namespace Definition

def resource? (d : Definition) (node : NodeName) : Option Resource := d.resources.find? node

def addVolume (d : Definition) (v : VolumeDefinition) : Definition :=
  { d with volumes := d.volumes.insert v.number v }

def addResource (d : Definition) (r : Resource) : Except DeploymentFault Definition :=
  if r.name != d.name then .error (.foreign r.name d.name)
  else if d.resources.contains r.node then .error (.alreadyDeployed d.name r.node)
  else .ok { d with resources := d.resources.insert r.node r }

def addSnapshot (d : Definition) (s : Snapshot) : Definition :=
  { d with snapshots := d.snapshots.insert (s.name, s.node) s }

/-- Apply `f` to the resource on a node, if there is one. -/
def modifyResource (d : Definition) (node : NodeName) (f : Resource → Resource) : Definition :=
  { d with resources := d.resources.modify node f }

def totalSize (d : Definition) : UInt64 :=
  (d.volumes.values.map (·.sizeBytes)).foldl (· + ·) 0

end Definition

end StorageCluster
