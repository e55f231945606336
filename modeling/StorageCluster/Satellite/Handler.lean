import StorageCluster.Satellite.Arena
import StorageCluster.Satellite.Stack

/-!
# Layer handlers

A handler works on the layers of one kind. It is prepared with all of its layers in a batch, then
processes them one by one, and clears what it cached afterwards. While it processes a layer it may
descend into the layers below, and into those only. Handlers share the state `δ` of the devices.
-/
namespace StorageCluster

/-- Work on devices that reports entries and may fail. -/
abbrev Act (δ : Type) := ExceptT Fault (StateM (δ × Report))

namespace Act

variable {δ : Type}

def report (e : Entry) : Act δ Unit := modify fun s => (s.1, s.2 ++ [e])

def devices : Act δ δ := do return (← get).1

def update (f : δ → δ) : Act δ Unit := modify fun s => (f s.1, s.2)

end Act

structure LayerHandler (δ : Type) where
  kind : LayerKind
  prepare : δ → List LayerResource → List Snapshot → δ × Except Fault Unit
  process : LayerResource → (descend : Act δ Unit) → Act δ Unit
  clearCache : δ → δ × Except Fault Unit

/-- At most one handler for each kind of layer. -/
abbrev Registry (δ : Type) := SortedMap LayerKind (LayerHandler δ)

namespace Registry

variable {δ : Type}

/-- A later handler of the same kind takes the place of the earlier one. -/
def register (r : Registry δ) (h : LayerHandler δ) : Registry δ := r.insert h.kind h

def label : LayerKind → String
  | .drbd => "Drbd"
  | .luks => "Luks"
  | .nvme => "Nvme"
  | .storage => "Storage"

def describe (r : Registry δ) : String :=
  "LayerRegistry \x7b layers: [" ++ ", ".intercalate (r.keys.map label) ++ "] \x7d"

end Registry

/-- Process a layer, where `fuel` bounds how many layers lie below each other. -/
def processLayer {δ : Type} (registry : Registry δ) (arena : Arena) :
    Nat → LayerId → Act δ Unit
  | 0, id => throw (ArenaFault.endless id).toFault
  | fuel + 1, id =>
    match arena.get? id with
    | none => throw (ArenaFault.unknown id).toFault
    | some layer =>
      match registry.find? layer.kind with
      | none => throw (.layerStack ("No device layer registered for " ++ layer.kind.name))
      | some handler =>
        handler.process layer (layer.children.forM (processLayer registry arena fuel))

/-- A chain is never longer than its arena. -/
def processTree {δ : Type} (registry : Registry δ) (arena : Arena) (id : LayerId) :
    Act δ Unit :=
  processLayer registry arena (arena.size + 1) id

/-- Process the layers right below a layer. -/
def processChildren {δ : Type} (registry : Registry δ) (arena : Arena) (id : LayerId) :
    Act δ Unit :=
  match arena.get? id with
  | none => throw (ArenaFault.unknown id).toFault
  | some layer => layer.children.forM (processTree registry arena)

end StorageCluster
