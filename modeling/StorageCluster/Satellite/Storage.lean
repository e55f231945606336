import StorageCluster.Satellite.Devices

/-!
# The storage layer

Volumes take space in the storage pools of the node. A volume that is there already is left alone, a
new one needs enough free space, and deleting a resource gives back the space of all its volumes.
-/
namespace StorageCluster

namespace StorageState

/-- A pool that takes back space is never freer than it is large. -/
def PoolSpace.giveBack (size : Nat) (s : PoolSpace) : PoolSpace :=
  { s with free := min (s.free + size) s.total }

def volumesOf (s : StorageState) (name : ResourceName) :
    List ((ResourceName × UInt32) × (PoolName × Nat)) :=
  s.volumes.entries.filter fun e => e.1.1 == name

/-- Delete all volumes of a resource. -/
def release (s : StorageState) (name : ResourceName) : StorageState :=
  (s.volumesOf name).foldl (fun s e =>
    { s with
      volumes := s.volumes.erase e.1
      pools := s.pools.modify e.2.1 (PoolSpace.giveBack e.2.2) }) s

def poolGone (pool : PoolName) : Fault := .volumeLayer
  { message := "Storage pool '" ++ pool.display ++ "' disappeared" }

def notEnoughSpace (name : ResourceName) (v : Volume) (space : PoolSpace) : Fault := .storage
  { message := "Not enough free space in storage pool '" ++ v.pool.display ++ "' for volume " ++
      toString v.number.toNat ++ " of '" ++ name.display ++ "'"
    cause := some (toString v.sizeBytes.toNat ++ " bytes requested, " ++ toString space.free ++
      " bytes free")
    details := some ("Pool capacity: " ++ toString space.total ++ " bytes") }

/-- Create one volume of a resource, unless it is there. -/
def addVolume (s : StorageState) (name : ResourceName) (v : Volume) :
    Except Fault StorageState :=
  let size := v.sizeBytes.toNat
  if s.volumes.contains (name, v.number) then .ok s
  else match s.pools.find? v.pool with
    | none => .error (poolGone v.pool)
    | some space =>
      if space.free < size then .error (notEnoughSpace name v space)
      else .ok { s with
        pools := s.pools.insert v.pool { space with free := space.free - size }
        volumes := s.volumes.insert (name, v.number) (v.pool, size) }

/-- Volumes created before one fails stay. -/
def addVolumes (s : StorageState) (name : ResourceName) :
    List Volume → StorageState × Except Fault Unit
  | [] => (s, .ok ())
  | v :: rest =>
    match s.addVolume name v with
    | .ok s => s.addVolumes name rest
    | .error fault => (s, .error fault)

def poolMissing (pool : PoolName) : Fault := .storage
  { message := "Storage pool '" ++ pool.display ++ "' not found on this node"
    correction := some "Create the storage pool or move the volume to an existing pool" }

/-- Pools noted before one is missing stay noted. -/
def preparePools (s : StorageState) : List PoolName → StorageState × Except Fault Unit
  | [] => (s, .ok ())
  | pool :: rest =>
    if s.pools.contains pool then
      { s with preparedPools := s.preparedPools.insert pool () }.preparePools rest
    else (s, .error (poolMissing pool))

end StorageState

namespace Storage

def deleted (name : ResourceName) (count : Nat) : Entry :=
  { code := Code.resource ||| Code.deleted
    message := "Deleted " ++ toString count ++ " volume(s) of '" ++ name.display ++ "'" }

def ready (name : ResourceName) : Entry :=
  { code := Code.resource ||| Code.modified
    message := "Volumes of '" ++ name.display ++ "' ready" }

def prepare (d : Devices) (layers : List LayerResource) (_ : List Snapshot) :
    Devices × Except Fault Unit :=
  let pools := layers.flatMap fun l => l.resource.volumes.values.map (·.pool)
  let (storage, result) := d.storage.preparePools pools
  ({ d with storage }, result)

def addVolumes (r : Resource) : Act Devices Unit := do
  let (storage, result) := (← Act.devices).storage.addVolumes r.name r.volumes.values
  Act.update fun d => { d with storage }
  match result with
  | .ok () => return ()
  | .error fault => throw fault

def process (l : LayerResource) (_ : Act Devices Unit) : Act Devices Unit := do
  let name := l.resource.name
  if l.resource.isDeleted then
    let count := ((← Act.devices).storage.volumesOf name).length
    Act.update fun d => { d with storage := d.storage.release name }
    Act.report (deleted name count)
  else if l.resource.isDiskless then return ()
  else
    addVolumes l.resource
    Act.report (ready name)

def clearCache (d : Devices) : Devices × Except Fault Unit :=
  ({ d with storage := { d.storage with preparedPools := .empty } }, .ok ())

end Storage

def storageLayer : LayerHandler Devices :=
  { kind := .storage, prepare := Storage.prepare, process := Storage.process,
    clearCache := Storage.clearCache }

end StorageCluster
