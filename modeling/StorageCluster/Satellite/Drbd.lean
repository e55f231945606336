import StorageCluster.Satellite.Devices

/-!
# The DRBD layer

Every live resource holds a minor number from 1000 upwards, the smallest that no other resource
holds. It is released when the resource is deleted. Diskless resources have no layers below.
-/
namespace StorageCluster

namespace DrbdState

def firstMinor : Nat := 1000

/-- The smallest minor not in `taken`. -/
def freeMinor (taken : List Nat) : Nat :=
  (((List.range (taken.length + 1)).map (firstMinor + ·)).find? (· ∉ taken)).getD firstMinor

/-- The minor of a resource, a new one if it has none. -/
def allocate (s : DrbdState) (name : ResourceName) : Nat × DrbdState :=
  match s.minors.find? name with
  | some minor => (minor, s)
  | none =>
    let minor := freeMinor s.minors.values
    (minor, { s with minors := s.minors.insert name minor })

def release (s : DrbdState) (name : ResourceName) : DrbdState :=
  { s with minors := s.minors.erase name }

end DrbdState

namespace Drbd

def adjusted (name : ResourceName) (minor : Nat) : Entry :=
  { code := Code.resource ||| Code.modified
    message := "DRBD resource '" ++ name.display ++ "' adjusted (minor " ++ toString minor ++ ")" }

def shutDown (name : ResourceName) : Entry :=
  { code := Code.resource ||| Code.deleted
    message := "DRBD resource '" ++ name.display ++ "' shut down" }

def prepare (d : Devices) (layers : List LayerResource) (_ : List Snapshot) :
    Devices × Except Fault Unit :=
  let batch := layers.foldl (fun batch l => batch.insert l.resource.name ()) d.drbd.batch
  ({ d with drbd := { d.drbd with batch } }, .ok ())

def allocateMinor (name : ResourceName) : Act Devices Nat := do
  let (minor, drbd) := (← Act.devices).drbd.allocate name
  Act.update fun d => { d with drbd }
  return minor

def process (l : LayerResource) (descend : Act Devices Unit) : Act Devices Unit := do
  let name := l.resource.name
  if l.resource.isDeleted then
    if !l.resource.isDiskless then descend
    Act.update fun d => { d with drbd := d.drbd.release name }
    Act.report (shutDown name)
  else
    let minor ← allocateMinor name
    if !l.resource.isDiskless then descend
    Act.report (adjusted name minor)

def clearCache (d : Devices) : Devices × Except Fault Unit :=
  ({ d with drbd := { d.drbd with batch := .empty } }, .ok ())

end Drbd

def drbdLayer : LayerHandler Devices :=
  { kind := .drbd, prepare := Drbd.prepare, process := Drbd.process,
    clearCache := Drbd.clearCache }

end StorageCluster
