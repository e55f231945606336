import StorageCluster.Satellite.Devices

/-!
# Rehearsing layers

A layer whose answers are laid down in advance, for trying out a stack without devices. It records
the calls made on it.
-/
namespace StorageCluster

structure Rehearsal where
  kind : LayerKind
  prepareFault : Option Fault := none
  /-- Resources, by the spelling of their name, that fail to be processed. -/
  processFaults : List (String × Fault) := []
  clearFault : Option Fault := none
  emitted : Report := []
  isLeaf : Bool := false

namespace Rehearsal

def answer : Option Fault → Except Fault Unit
  | some fault => .error fault
  | none => .ok ()

def record (place : Nat) (call : LayerCall) (d : Devices) : Devices :=
  { d with calls := d.calls ++ [(place, call)] }

def process (place : Nat) (r : Rehearsal) (l : LayerResource) (descend : Act Devices Unit) :
    Act Devices Unit := do
  Act.update (record place (.process l.resource.name))
  match r.processFaults.lookup l.resource.name.display with
  | some fault => throw fault
  | none =>
    r.emitted.forM Act.report
    if !r.isLeaf then descend

/-- The handler at a place among the rehearsing layers of its satellite. -/
def handler (place : Nat) (r : Rehearsal) : LayerHandler Devices where
  kind := r.kind
  prepare d layers snapshots :=
    (record place (.prepare (layers.map (·.resource.name)) (snapshots.map (·.name))) d,
      answer r.prepareFault)
  process := process place r
  clearCache d := (record place .clear d, answer r.clearFault)

end Rehearsal

end StorageCluster
