import StorageCluster.Fault
import StorageCluster.Resource

/-!
# The layer arena

The layers of all resources of a batch, each with its parent and children, in the order in which
they were inserted. A parent has to be there before its children.
-/
namespace StorageCluster

/-- The place of a layer in its arena. -/
structure LayerId where
  index : Nat
  deriving DecidableEq, Inhabited

def LayerId.toText (id : LayerId) : String := "#" ++ toString id.index

structure LayerResource where
  id : LayerId
  kind : LayerKind
  resource : Resource
  parent : Option LayerId := none
  children : List LayerId := []
  snapshots : List Snapshot := []
  deriving DecidableEq

def LayerResource.isRoot (l : LayerResource) : Bool := l.parent.isNone

structure Arena where
  layers : List LayerResource
  deriving DecidableEq

/-- Faults of the arena itself. -/
inductive ArenaFault
  | missingParent (parent : LayerId) (resource : ResourceName)
  | unknown (id : LayerId)
  | endless (id : LayerId)
  deriving DecidableEq

def ArenaFault.message : ArenaFault → String
  | .missingParent parent resource => "Parent layer resource " ++ parent.toText ++ " of " ++
      resource.display ++ " does not exist"
  | .unknown id => "Unknown layer resource " ++ id.toText
  | .endless id => "Parent chain of layer resource " ++ id.toText ++ " does not terminate"

def ArenaFault.toFault (f : ArenaFault) : Fault := .implementation f.message

namespace Arena

def empty : Arena := ⟨[]⟩

def get? (a : Arena) (id : LayerId) : Option LayerResource := a.layers[id.index]?

/-- Like `get?`, with the fault of an identifier from elsewhere. -/
def layer (a : Arena) (id : LayerId) : Except ArenaFault LayerResource :=
  match a.get? id with
  | some l => .ok l
  | none => .error (.unknown id)

def size (a : Arena) : Nat := a.layers.length

def adopt (child : LayerId) (l : LayerResource) : LayerResource :=
  { l with children := l.children ++ [child] }

def insert (a : Arena) (kind : LayerKind) (resource : Resource) (parent : Option LayerId) :
    Except ArenaFault (Arena × LayerId) :=
  let id : LayerId := ⟨a.size⟩
  let layer : LayerResource := { id, kind, resource, parent }
  match parent with
  | none => .ok (⟨a.layers ++ [layer]⟩, id)
  | some p =>
    if p.index < a.size then .ok (⟨a.layers.modify p.index (adopt id) ++ [layer]⟩, id)
    else .error (.missingParent p resource.name)

/-- Walks up at most `fuel` layers. -/
def climb (a : Arena) (start : LayerId) : Nat → LayerId → Except ArenaFault LayerId
  | 0, _ => .error (.endless start)
  | fuel + 1, id =>
    match a.get? id with
    | none => .error (.unknown id)
    | some l =>
      match l.parent with
      | some p => climb a start fuel p
      | none => .ok id

/-- The layer at the top of the chain of parents. -/
def rootOf (a : Arena) (id : LayerId) : Except ArenaFault LayerId :=
  a.climb id (a.size + 1) id

def roots (a : Arena) : List LayerResource := a.layers.filter LayerResource.isRoot

/-- Each layer gets the snapshots of its resource. -/
def withSnapshots (a : Arena) (snapshots : List Snapshot) : Arena :=
  ⟨a.layers.map fun l =>
    { l with snapshots := snapshots.filter fun s => s.resource == l.resource.name }⟩

/-- One layer below the other, starting with a root. -/
def addChain (a : Arena) (resource : Resource) (stack : List LayerKind) :
    Except ArenaFault Arena :=
  Prod.fst <$> stack.foldlM (fun (state : Arena × Option LayerId) kind => do
    let (a, id) ← state.1.insert kind resource state.2
    return (a, some id)) (a, none)

end Arena

end StorageCluster
