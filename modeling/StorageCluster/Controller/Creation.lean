import StorageCluster.Controller.Core

/-!
# Creating resources

New resources are added to a draft: a working copy of the definition, the transaction that will
store it and the entries reported so far. Each candidate pool gets a diskful resource; if asked for,
the remaining nodes that are connected and not evicted get diskless ones. A fault leaves in the
draft what was added before it.
-/
namespace StorageCluster

structure Draft where
  definition : Definition
  transaction : Transaction := []
  responses : Report := []
  uuids : Uuid.Supply

structure CreationRequest where
  context : ResponseContext
  pools : List Pool
  disklessOnRemaining : Bool
  layerStack : List LayerKind

/-- Work for the satellites that is put off until the transaction is committed. -/
inductive Task
  | activate (definition : Definition) (created : List NodeName)
  | settled (result : Except Fault Report)

structure Creation where
  draft : Draft
  result : Except Fault (List Task × List NodeName)

/-- The storage layer stands at the end, and only there. -/
def completeStack (requested : List LayerKind) : List LayerKind :=
  requested.filter (· != .storage) ++ [.storage]

namespace Draft

def newResource (d : Draft) (node : NodeName) (layerStack : List LayerKind) : Draft × Resource :=
  let (uuid, uuids) := d.uuids.take
  ({ d with uuids }, { uuid, name := d.definition.name, node, layerStack })

def addVolume (pool : PoolName) (state : Draft × Resource) (v : VolumeDefinition) :
    Draft × Resource :=
  let (uuid, uuids) := state.1.uuids.take
  let volume : Volume := { uuid, number := v.number, pool, sizeBytes := v.sizeBytes }
  ({ state.1 with uuids },
    { state.2 with volumes := state.2.volumes.insert v.number volume })

/-- The transaction stores the resource before the definition takes it. -/
def deploy (d : Draft) (context : ResponseContext) (r : Resource) (message : String) :
    Draft × Except Fault Unit :=
  let d := { d with transaction := d.transaction ++ r.changes }
  match d.definition.addResource r with
  | .error fault => (d, .error fault.toFault)
  | .ok definition =>
    ({ d with definition, responses := d.responses ++ [context.success Code.created message] },
      .ok ())

def diskfulMessage (resource : ResourceName) (node : NodeName) : String :=
  "Resource '" ++ resource.display ++ "' successfully autoplaced on node '" ++ node.display ++ "'"

def disklessMessage (resource : ResourceName) (node : NodeName) : String :=
  "Diskless resource '" ++ resource.display ++ "' created on node '" ++ node.display ++ "'"

def nodeMissing (node : NodeName) : Fault := .rejected
  { code := Code.nodeNotFound, message := "Node '" ++ node.display ++ "' not found" }

def nodeEvicted (node : NodeName) : Fault := .rejected
  { code := Code.notEnoughNodes
    message := "Node '" ++ node.display ++ "' is evicted"
    correction := some "Restore the node before placing resources on it" }

/-- A diskful resource in a pool, with all volumes of the definition. -/
def addDiskful (d : Draft) (context : ResponseContext) (stack : List LayerKind) (nodes : NodeMap)
    (pool : Pool) : Draft × Except Fault NodeName :=
  match nodes.find? pool.node with
  | none => (d, .error (nodeMissing pool.node))
  | some n =>
    if n.isEvicted then (d, .error (nodeEvicted n.name))
    else
      let (d, r) := d.definition.volumes.values.foldl (addVolume pool.name)
        (d.newResource n.name stack)
      let (d, result) := d.deploy context r (diskfulMessage d.definition.name n.name)
      (d, result.map fun _ => n.name)

def addDiskless (d : Draft) (context : ResponseContext) (stack : List LayerKind) (n : Node) :
    Draft × Except Fault NodeName :=
  let (d, r) := d.newResource n.name stack
  let r := { r with flags := r.flags.union ResourceFlags.drbdDiskless }
  let (d, result) := d.deploy context r (disklessMessage d.definition.name n.name)
  (d, result.map fun _ => n.name)

/-- Nodes without a resource of the definition that are connected and not evicted. -/
def wantsDiskless (d : Draft) (n : Node) : Bool :=
  !d.definition.resources.contains n.name && n.isConnected && !n.isEvicted

def addAllDiskful (context : ResponseContext) (stack : List LayerKind) (nodes : NodeMap) :
    Draft → List Pool → Draft × Except Fault (List NodeName)
  | d, [] => (d, .ok [])
  | d, pool :: rest =>
    match d.addDiskful context stack nodes pool with
    | (d, .error fault) => (d, .error fault)
    | (d, .ok node) =>
      let (d, result) := addAllDiskful context stack nodes d rest
      (d, result.map (node :: ·))

def addAllDiskless (context : ResponseContext) (stack : List LayerKind) :
    Draft → List Node → Draft × Except Fault (List NodeName)
  | d, [] => (d, .ok [])
  | d, n :: rest =>
    if d.wantsDiskless n then
      match d.addDiskless context stack n with
      | (d, .error fault) => (d, .error fault)
      | (d, .ok node) =>
        let (d, result) := addAllDiskless context stack d rest
        (d, result.map (node :: ·))
    else addAllDiskless context stack d rest

end Draft

/-- Create the requested resources; the new ones are activated by one push to all satellites. -/
def Core.createResources (c : Core) (request : CreationRequest) (d : Draft) : Creation :=
  let nodes := c.graph.nodes
  let requested :=
    if request.layerStack.isEmpty then d.definition.layerStack else request.layerStack
  let stack := completeStack requested
  match Draft.addAllDiskful request.context stack nodes d request.pools with
  | (d, .error fault) => ⟨d, .error fault⟩
  | (d, .ok diskful) =>
    let remaining := if request.disklessOnRemaining then nodes.values else []
    match Draft.addAllDiskless request.context stack d remaining with
    | (d, .error fault) => ⟨d, .error fault⟩
    | (d, .ok diskless) =>
      let created := diskful ++ diskless
      ⟨d, .ok ([.activate d.definition created], created)⟩

end StorageCluster
