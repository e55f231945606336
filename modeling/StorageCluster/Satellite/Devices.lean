import StorageCluster.Satellite.Handler

/-!
# The devices of a satellite

What the built-in layers remember: DRBD minors, opened encrypted devices, and the volumes that take
space in storage pools. Layers that only rehearse keep a record of the calls made on them.
-/
namespace StorageCluster

structure DrbdState where
  minors : SortedMap ResourceName Nat := .empty
  batch : NameSet .resource := .empty
  deriving DecidableEq

structure LuksState where
  masterKey : Option String := none
  opened : NameSet .resource := .empty
  deriving DecidableEq

structure PoolSpace where
  total : Nat
  free : Nat
  deriving DecidableEq

structure StorageState where
  pools : SortedMap PoolName PoolSpace := .empty
  volumes : SortedMap (ResourceName × UInt32) (PoolName × Nat) := .empty
  preparedPools : NameSet .pool := .empty
  deriving DecidableEq

/-- A call on a rehearsing layer. -/
inductive LayerCall
  | prepare (resources : List ResourceName) (snapshots : List SnapshotName)
  | process (resource : ResourceName)
  | clear
  deriving DecidableEq

structure Devices where
  drbd : DrbdState := {}
  luks : LuksState := {}
  storage : StorageState := {}
  /-- Calls on rehearsing layers, each with the place of its layer. -/
  calls : List (Nat × LayerCall) := []
  deriving DecidableEq

namespace StorageState

/-- Pools of the given capacities, all free. -/
def ofCapacities (pools : List (PoolName × Nat)) : StorageState where
  pools := .ofList (pools.map fun p => (p.1, ⟨p.2, p.2⟩))

end StorageState

end StorageCluster
