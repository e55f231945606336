import StorageCluster.Graph
import StorageCluster.Store.Engine
import StorageCluster.Store.Record
import StorageCluster.Text.Json.Reader

/-!
# Loading the object graph

The graph is rebuilt from the tables in order, row by row. A row is refused when a column is missing
or malformed, when flags have unknown bits, or when it refers to an object that no row before it
brought in; then nothing is loaded at all. Main definition: `Graph.load`.
-/
namespace StorageCluster

/-- Why a row cannot be loaded. -/
inductive RowFault
  | missingColumn (column : String)
  | badColumn (column : String) (why : String)
  | unknownFlags (owner : String)
  | unknownGroup (name : GroupName)
  | unknownDefinition (name : ResourceName)
  | unknownNode (name : NodeName)
  | unknownPool (pool : PoolName) (node : NodeName)
  | unknownResource (resource : ResourceName) (node : NodeName)
  | misfit (fault : Fault)

def RowFault.message : RowFault → String
  | .missingColumn column => "missing column " ++ column
  | .badColumn column why => "column " ++ column ++ ": " ++ why
  | .unknownFlags owner => "unknown " ++ owner ++ " flags"
  | .unknownGroup name => "unknown resource group '" ++ name.display ++ "'"
  | .unknownDefinition name => "unknown resource definition '" ++ name.display ++ "'"
  | .unknownNode name => "unknown node '" ++ name.display ++ "'"
  | .unknownPool pool node =>
    "unknown storage pool '" ++ pool.display ++ "' on node '" ++ node.display ++ "'"
  | .unknownResource resource node =>
    "unknown resource '" ++ resource.display ++ "' on node '" ++ node.display ++ "'"
  | .misfit fault => fault.message

def RowFault.toFault (table : Table) (key : String) (f : RowFault) : Fault :=
  .databaseLoad table.name ("row '" ++ key ++ "': " ++ f.message)

namespace Row

def text (row : Row) (column : String) : Except RowFault String :=
  match row.find? column with
  | some text => .ok text
  | none => .error (.missingColumn column)

def numberBelow (limit : Nat) (row : Row) (column : String) : Except RowFault Nat := do
  let text ← row.text column
  (Numeral.readDecimal limit text).mapError fun f => .badColumn column f.message

def uint32 (row : Row) (column : String) : Except RowFault UInt32 :=
  UInt32.ofNat <$> numberBelow UInt32.size row column

def uint64 (row : Row) (column : String) : Except RowFault UInt64 :=
  UInt64.ofNat <$> numberBelow UInt64.size row column

def name (row : Row) (kind : NameKind) (column : String) : Except RowFault (Name kind) := do
  let text ← row.text column
  (Name.parse kind text).mapError fun f => .badColumn column f.message

def uuid (row : Row) : Except RowFault Uuid := do
  let text ← row.text Column.uuid
  match Uuid.ofText? text with
  | some id => .ok id
  | none => .error (.badColumn Column.uuid "malformed UUID")

def json {α : Type} (row : Row) (decode : Json → Option α) (column : String) :
    Except RowFault α := do
  let text ← row.text column
  match (Json.read? text).bind decode with
  | some a => .ok a
  | none => .error (.badColumn column "malformed JSON")

def props (row : Row) : Except RowFault Props := row.json Props.ofJson? Column.props

def flags (row : Row) (kind : FlagKind) (owner : String) : Except RowFault (Flags kind) := do
  let bits ← row.uint64 Column.flags
  match Flags.ofKnownBits? bits with
  | some f => .ok f
  | none => .error (.unknownFlags owner)

end Row

namespace Graph

def node (g : Graph) (name : NodeName) : Except RowFault Node :=
  match g.nodes.find? name with
  | some n => .ok n
  | none => .error (.unknownNode name)

def definition (g : Graph) (name : ResourceName) : Except RowFault Definition :=
  match g.definitions.find? name with
  | some d => .ok d
  | none => .error (.unknownDefinition name)

def loadNode (g : Graph) (row : Row) : Except RowFault Graph := do
  let name ← row.name .node Column.nodeName
  let flags ← row.flags .node "node"
  let interfaces ← row.json (Json.list? Interface.ofJson?) Column.interfaces
  let uuid ← row.uuid
  let props ← row.props
  return g.setNode
    { uuid, name, flags, props, interfaces := .ofList (interfaces.map fun i => (i.name, i)) }

def loadGroup (g : Graph) (row : Row) : Except RowFault Graph := do
  let name ← row.name .group Column.groupName
  let autoPlace ← row.json Filter.ofJson? Column.autoPlace
  let uuid ← row.uuid
  let props ← row.props
  return g.setGroup { uuid, name, description := row.find? Column.description, props, autoPlace }

def loadDefinition (g : Graph) (row : Row) : Except RowFault Graph := do
  let name ← row.name .resource Column.resourceName
  let group ← row.name .group Column.groupName
  if !g.groups.contains group then throw (.unknownGroup group)
  let flags ← row.flags .definition "resource definition"
  let layerStack ← row.json LayerKind.stackOfJson? Column.layerStack
  let uuid ← row.uuid
  let props ← row.props
  return g.setDefinition { uuid, name, group, flags, props, layerStack }

def loadVolumeDefinition (g : Graph) (row : Row) : Except RowFault Graph := do
  let resource ← row.name .resource Column.resourceName
  let d ← g.definition resource
  let number ← row.uint32 Column.volumeNumber
  let sizeBytes ← row.uint64 Column.volumeSize
  let uuid ← row.uuid
  let props ← row.props
  return g.setDefinition (d.addVolume { uuid, number, sizeBytes, props })

def loadPool (g : Graph) (row : Row) : Except RowFault Graph := do
  let node ← row.name .node Column.nodeName
  let _ ← g.node node
  let name ← row.name .pool Column.poolName
  let provider ← row.json Provider.ofJson? Column.provider
  let totalBytes ← row.uint64 Column.totalCapacity
  let uuid ← row.uuid
  let freeBytes ← row.uint64 Column.freeCapacity
  let props ← row.props
  return g.setPool { uuid, name, node, provider, freeBytes, totalBytes, props }

def loadResource (g : Graph) (row : Row) : Except RowFault Graph := do
  let node ← row.name .node Column.nodeName
  let name ← row.name .resource Column.resourceName
  let _ ← g.node node
  let d ← g.definition name
  let layerStack ← row.json LayerKind.stackOfJson? Column.layerStack
  let uuid ← row.uuid
  let flags ← row.flags .resource "resource"
  let props ← row.props
  let d ← (d.addResource { uuid, name, node, flags, layerStack, props }).mapError
    fun f => .misfit f.toFault
  return g.setDefinition d

def loadVolume (g : Graph) (row : Row) : Except RowFault Graph := do
  let node ← row.name .node Column.nodeName
  let resource ← row.name .resource Column.resourceName
  let pool ← row.name .pool Column.poolName
  if !g.pools.contains (node, pool) then throw (.unknownPool pool node)
  let some d := g.definitions.find? resource | throw (.unknownResource resource node)
  if !d.resources.contains node then throw (.unknownResource resource node)
  let number ← row.uint32 Column.volumeNumber
  let sizeBytes ← row.uint64 Column.volumeSize
  let uuid ← row.uuid
  let props ← row.props
  let volume : Volume := { uuid, number, pool, sizeBytes, props }
  return g.setDefinition
    (d.modifyResource node fun r => { r with volumes := r.volumes.insert number volume })

def loadSnapshot (g : Graph) (row : Row) : Except RowFault Graph := do
  let node ← row.name .node Column.nodeName
  let resource ← row.name .resource Column.resourceName
  let name ← row.name .snapshot Column.snapshotName
  let _ ← g.node node
  let d ← g.definition resource
  let uuid ← row.uuid
  let flags ← row.flags .snapshot "snapshot"
  let layerStack ← row.json LayerKind.stackOfJson? Column.layerStack
  return g.setDefinition (d.addSnapshot { uuid, name, resource, node, flags, layerStack })

def loadConnection (g : Graph) (row : Row) : Except RowFault Graph := do
  let source ← row.name .node Column.sourceNode
  let target ← row.name .node Column.targetNode
  let _ ← g.node source
  let _ ← g.node target
  let c ← (Connection.between default source target).mapError .misfit
  let uuid ← row.uuid
  let props ← row.props
  return g.setConnection { c with uuid, props }

def loadRow : Table → Graph → Row → Except RowFault Graph
  | .nodes => loadNode
  | .groups => loadGroup
  | .definitions => loadDefinition
  | .volumeDefinitions => loadVolumeDefinition
  | .pools => loadPool
  | .resources => loadResource
  | .volumes => loadVolume
  | .snapshots => loadSnapshot
  | .connections => loadConnection

def loadRows (table : Table) (g : Graph) (rows : Rows) : Except Fault Graph :=
  rows.entries.foldlM (fun g e => (loadRow table g e.2).mapError (RowFault.toFault table e.1)) g

/-- How many rows each table held. -/
abbrev Summary := List (Table × Nat)

def loadTable (store : Store) (state : Graph × Summary) (table : Table) :
    Except Fault (Graph × Summary) := do
  let rows ← store.rows table
  let g ← loadRows table state.1 rows
  return (g, state.2 ++ [(table, rows.size)])

/-- The graph that the rows of a store describe. -/
def load (store : Store) : Except Fault (Graph × Summary) :=
  Table.all.foldlM (loadTable store) ({}, [])

end Graph

end StorageCluster
