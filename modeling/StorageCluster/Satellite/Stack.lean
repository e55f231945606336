import StorageCluster.Fault
import StorageCluster.Layer

/-!
# Layer stacks

A stack lists the layers of a resource from top to bottom. It ends with the storage layer and holds
no layer twice.
-/
namespace StorageCluster

inductive StackFault
  | empty
  | wrongEnd (last : LayerKind)
  | repeated (kind : LayerKind)
  | unknownLayer (text : String)
  | noLayerData (resource : String)
  | unregistered (kind : LayerKind)
  deriving DecidableEq

def StackFault.message : StackFault → String
  | .empty => "empty layer stack"
  | .wrongEnd last => "layer stack must end with " ++ LayerKind.storage.name ++ ", found " ++
      last.name
  | .repeated kind => "layer " ++ kind.name ++ " used twice"
  | .unknownLayer text => "unknown device layer '" ++ text ++ "'"
  | .noLayerData resource => "resource '" ++ resource ++ "' has no layer data"
  | .unregistered kind => "no device layer registered for " ++ kind.name

def StackFault.toFault (f : StackFault) : Fault := .layerStack f.message

/-- The layer that a text names in any case. -/
def LayerKind.parse (text : String) : Except StackFault LayerKind :=
  match LayerKind.all.find? fun kind => sameIgnoringCase kind.name text with
  | some kind => .ok kind
  | none => .error (.unknownLayer text)

namespace Stack

/-- The first layer that stands in the list a second time. -/
def repeated? : List LayerKind → List LayerKind → Option LayerKind
  | _, [] => none
  | seen, kind :: rest => if kind ∈ seen then some kind else repeated? (kind :: seen) rest

def validate (stack : List LayerKind) : Except StackFault Unit :=
  match stack.getLast? with
  | none => .error .empty
  | some last =>
    if last ≠ .storage then .error (.wrongEnd last)
    else match repeated? [] stack with
      | some kind => .error (.repeated kind)
      | none => .ok ()

/-- The stack of resources that came without layer data before there was any. -/
def legacy : List LayerKind := [.drbd, .storage]

end Stack

end StorageCluster
