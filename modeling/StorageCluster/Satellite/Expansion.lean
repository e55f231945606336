import StorageCluster.Satellite.Arena
import StorageCluster.Satellite.Stack

/-!
# Expanding resources into layers

A batch of resources becomes an arena with one chain for each of them. The satellite remembers the
stack of every resource: one that arrives without layer data gets the stack it had last, or, as long
as no full sync was applied, the legacy stack.
-/
namespace StorageCluster

/-- The stacks that resources were last expanded with. -/
structure StackMemory where
  known : SortedMap ResourceName (List LayerKind) := .empty
  legacy : List LayerKind := Stack.legacy
  deriving DecidableEq

structure Expansion where
  arena : Arena := .empty
  failures : List (ResourceName × Entry) := []
  deriving DecidableEq

namespace StackMemory

def stackOf (m : StackMemory) (r : Resource) (fullSync : Bool) :
    Except StackFault (List LayerKind) :=
  if !r.layerStack.isEmpty then .ok r.layerStack
  else match m.known.find? r.name with
    | some stack => .ok stack
    | none => if fullSync then .error (.noLayerData r.name.display) else .ok m.legacy

/-- The arena with the chain of one more resource, and the stack that it was built from. -/
def expandOne (m : StackMemory) (arena : Arena) (fullSync : Bool) (r : Resource) :
    Except Fault (Arena × List LayerKind) := do
  let stack ← (m.stackOf r fullSync).mapError StackFault.toFault
  (Stack.validate stack).mapError StackFault.toFault
  let arena ← (arena.addChain r stack).mapError ArenaFault.toFault
  return (arena, stack)

def expandNext (fullSync : Bool) (state : StackMemory × Expansion) (r : Resource) :
    StackMemory × Expansion :=
  let (m, e) := state
  match m.expandOne e.arena fullSync r with
  | .ok (arena, stack) => ({ m with known := m.known.insert r.name stack }, { e with arena })
  | .error fault =>
    (m, { e with failures := e.failures ++
      [(r.name, fault.toEntry.aboutDefinition r.name.display)] })

def expand (m : StackMemory) (resources : List Resource) (snapshots : List Snapshot)
    (fullSync : Bool) : StackMemory × Expansion :=
  let (m, e) := resources.foldl (expandNext fullSync) (m, {})
  (m, { e with arena := e.arena.withSnapshots snapshots })

/-- Resources that are deleted, or that could not be expanded, are forgotten. -/
def release (m : StackMemory) (e : Expansion) : StackMemory :=
  let deleted := (e.arena.roots.filter fun l => l.resource.isDeleted).map fun l => l.resource.name
  let failed := e.failures.map (·.1)
  { m with known := (deleted ++ failed).foldl SortedMap.erase m.known }

end StackMemory

end StorageCluster
