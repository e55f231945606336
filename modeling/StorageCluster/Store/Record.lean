import StorageCluster.Format.Node
import StorageCluster.Format.Resource
import StorageCluster.Store.Table

/-!
# Entities as rows

Each kind of entity has a table, a primary key made of upper-case names and volume numbers joined by
colons, and a row. Flags and sizes are decimal numbers, properties, stacks, interfaces and filters
are JSON texts. A transaction gathers changes until they are committed.
-/
namespace StorageCluster

namespace Column

def uuid : String := "UUID"
def nodeName : String := "NODE_NAME"
def sourceNode : String := "NODE_NAME_SRC"
def targetNode : String := "NODE_NAME_DST"
def resourceName : String := "RESOURCE_NAME"
def groupName : String := "RESOURCE_GROUP_NAME"
def poolName : String := "POOL_NAME"
def snapshotName : String := "SNAPSHOT_NAME"
def volumeNumber : String := "VLM_NR"
def volumeSize : String := "VLM_SIZE"
def flags : String := "FLAGS"
def props : String := "PROPS"
def layerStack : String := "LAYER_STACK"
def interfaces : String := "NET_INTERFACES"
def description : String := "DESCRIPTION"
def autoPlace : String := "AUTO_PLACE"
def provider : String := "DRIVER_NAME"
def freeCapacity : String := "FREE_CAPACITY"
def totalCapacity : String := "TOTAL_CAPACITY"

end Column

class Stored (α : Type) where
  table : Table
  key : α → String
  row : α → Row

def compositeKey (parts : List String) : String := ":".intercalate parts

def Flags.toColumn {kind : FlagKind} (f : Flags kind) : String := Numeral.write f.bits.toNat

def Props.toColumn (p : Props) : String := p.toJson.render

def stackColumn (stack : List LayerKind) : String := (LayerKind.stackToJson stack).render

instance : Stored Node where
  table := .nodes
  key n := n.name.value
  row n := .ofList [(Column.uuid, n.uuid.toText), (Column.nodeName, n.name.display),
    (Column.flags, n.flags.toColumn), (Column.props, n.props.toColumn),
    (Column.interfaces, (Json.listOf Interface.toJson n.interfaces.values).render)]

instance : Stored Connection where
  table := .connections
  key c := compositeKey [c.source.value, c.target.value]
  row c := .ofList [(Column.uuid, c.uuid.toText), (Column.sourceNode, c.source.display),
    (Column.targetNode, c.target.display), (Column.props, c.props.toColumn)]

instance : Stored Group where
  table := .groups
  key g := g.name.value
  row g := .ofList ([(Column.uuid, g.uuid.toText), (Column.groupName, g.name.display),
    (Column.props, g.props.toColumn), (Column.autoPlace, g.autoPlace.toJson.render)] ++
    g.description.toList.map fun text => (Column.description, text))

instance : Stored Definition where
  table := .definitions
  key d := d.name.value
  row d := .ofList [(Column.uuid, d.uuid.toText), (Column.resourceName, d.name.display),
    (Column.groupName, d.group.display), (Column.flags, d.flags.toColumn),
    (Column.props, d.props.toColumn), (Column.layerStack, stackColumn d.layerStack)]

/-- A volume definition together with the name of its resource definition. -/
structure NamedVolumeDefinition where
  resource : ResourceName
  volume : VolumeDefinition

instance : Stored NamedVolumeDefinition where
  table := .volumeDefinitions
  key v := compositeKey [v.resource.value, Numeral.write v.volume.number.toNat]
  row v := .ofList [(Column.uuid, v.volume.uuid.toText),
    (Column.resourceName, v.resource.display),
    (Column.volumeNumber, Numeral.write v.volume.number.toNat),
    (Column.volumeSize, Numeral.write v.volume.sizeBytes.toNat),
    (Column.props, v.volume.props.toColumn)]

instance : Stored Pool where
  table := .pools
  key p := compositeKey [p.node.value, p.name.value]
  row p := .ofList [(Column.uuid, p.uuid.toText), (Column.nodeName, p.node.display),
    (Column.poolName, p.name.display), (Column.provider, p.provider.toJson.render),
    (Column.freeCapacity, Numeral.write p.freeBytes.toNat),
    (Column.totalCapacity, Numeral.write p.totalBytes.toNat), (Column.props, p.props.toColumn)]

instance : Stored Resource where
  table := .resources
  key r := compositeKey [r.node.value, r.name.value]
  row r := .ofList [(Column.uuid, r.uuid.toText), (Column.nodeName, r.node.display),
    (Column.resourceName, r.name.display), (Column.flags, r.flags.toColumn),
    (Column.layerStack, stackColumn r.layerStack), (Column.props, r.props.toColumn)]

/-- A volume together with the resource that holds it. -/
structure DeployedVolume where
  resource : Resource
  volume : Volume

instance : Stored DeployedVolume where
  table := .volumes
  key v := compositeKey [v.resource.node.value, v.resource.name.value,
    Numeral.write v.volume.number.toNat]
  row v := .ofList [(Column.uuid, v.volume.uuid.toText),
    (Column.nodeName, v.resource.node.display), (Column.resourceName, v.resource.name.display),
    (Column.volumeNumber, Numeral.write v.volume.number.toNat),
    (Column.poolName, v.volume.pool.display),
    (Column.volumeSize, Numeral.write v.volume.sizeBytes.toNat),
    (Column.props, v.volume.props.toColumn)]

instance : Stored Snapshot where
  table := .snapshots
  key s := compositeKey [s.node.value, s.resource.value, s.name.value]
  row s := .ofList [(Column.uuid, s.uuid.toText), (Column.nodeName, s.node.display),
    (Column.resourceName, s.resource.display), (Column.snapshotName, s.name.display),
    (Column.flags, s.flags.toColumn), (Column.layerStack, stackColumn s.layerStack)]

namespace Change

variable {α : Type} [Stored α]

def ofNew (a : α) : Change := .create (Stored.table α) (Stored.key a) (Stored.row a)

def ofGone (a : α) : Change := .delete (Stored.table α) (Stored.key a)

def ofColumn (a : α) (column value : String) : Change :=
  .update (Stored.table α) (Stored.key a) column value

end Change

/-- Changes that are to be committed together, in order. -/
abbrev Transaction := List Change

/-- The tables that a transaction touches, each once and in table order. -/
def Transaction.tables (t : Transaction) : List Table :=
  Table.all.filter fun table => t.any fun change => change.table == table

/-- A resource is stored with its volumes. -/
def Resource.changes (r : Resource) : Transaction :=
  Change.ofNew r :: r.volumes.values.map fun v => Change.ofNew (DeployedVolume.mk r v)

end StorageCluster
