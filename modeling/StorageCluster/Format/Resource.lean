import StorageCluster.Format.Basic

/-!
# Written form of pools, groups and resource definitions

Volumes are members named by their number in decimal. Snapshots have no text to be named by, so a
definition with snapshots has no written form.
-/
namespace StorageCluster

namespace Pool

def toJson (p : Pool) : Json :=
  .object [("uuid", p.uuid.toJson), ("name", p.name.toJson), ("node_name", p.node.toJson),
    ("provider", p.provider.toJson), ("free_capacity_bytes", Json.uint64 p.freeBytes),
    ("total_capacity_bytes", Json.uint64 p.totalBytes), ("props", p.props.toJson)]

def ofJson? (j : Json) : Option Pool := do
  let [uuid, name, node, provider, free, total, props] ← j.slots?
    ["uuid", "name", "node_name", "provider", "free_capacity_bytes", "total_capacity_bytes",
      "props"] | none
  return {
    uuid := ← uuid.required Uuid.ofJson?
    name := ← name.required Name.ofJson?
    node := ← node.required Name.ofJson?
    provider := ← provider.required Provider.ofJson?
    freeBytes := ← free.required Json.uint64?
    totalBytes := ← total.required Json.uint64?
    props := ← props.required Props.ofJson? }

end Pool

namespace Group

def toJson (g : Group) : Json :=
  .object [("uuid", g.uuid.toJson), ("name", g.name.toJson),
    ("description", Json.nullOr .string g.description), ("props", g.props.toJson),
    ("auto_place", g.autoPlace.toJson)]

def ofJson? (j : Json) : Option Group := do
  let [uuid, name, description, props, place] ←
    j.slots? ["uuid", "name", "description", "props", "auto_place"] | none
  return {
    uuid := ← uuid.required Uuid.ofJson?
    name := ← name.required Name.ofJson?
    description := ← description.optional Json.text?
    props := ← props.required Props.ofJson?
    autoPlace := ← place.required Filter.ofJson? }

end Group

def numberKey (n : UInt32) : String := Numeral.write n.toNat

/-- A map whose keys are written as decimal numbers. -/
def numberedMap? {α : Type} (decode : Json → Option α) (j : Json) : Option (SortedMap UInt32 α) :=
  (Json.numbered? UInt32.size decode j).map fun entries =>
    .ofList (entries.map fun e => (UInt32.ofNat e.1, e.2))

namespace VolumeDefinition

def toJson (v : VolumeDefinition) : Json :=
  .object [("uuid", v.uuid.toJson), ("vlm_nr", Json.uint32 v.number),
    ("size_bytes", Json.uint64 v.sizeBytes), ("props", v.props.toJson)]

def ofJson? (j : Json) : Option VolumeDefinition := do
  let [uuid, number, size, props] ← j.slots? ["uuid", "vlm_nr", "size_bytes", "props"] | none
  return {
    uuid := ← uuid.required Uuid.ofJson?
    number := ← number.required Json.uint32?
    sizeBytes := ← size.required Json.uint64?
    props := ← props.required Props.ofJson? }

end VolumeDefinition

namespace Volume

def toJson (v : Volume) : Json :=
  .object [("uuid", v.uuid.toJson), ("vlm_nr", Json.uint32 v.number),
    ("stor_pool", v.pool.toJson), ("size_bytes", Json.uint64 v.sizeBytes),
    ("props", v.props.toJson)]

def ofJson? (j : Json) : Option Volume := do
  let [uuid, number, pool, size, props] ←
    j.slots? ["uuid", "vlm_nr", "stor_pool", "size_bytes", "props"] | none
  return {
    uuid := ← uuid.required Uuid.ofJson?
    number := ← number.required Json.uint32?
    pool := ← pool.required Name.ofJson?
    sizeBytes := ← size.required Json.uint64?
    props := ← props.required Props.ofJson? }

end Volume

namespace Resource

def toJson (r : Resource) : Json :=
  .object [("uuid", r.uuid.toJson), ("rsc_name", r.name.toJson), ("node_name", r.node.toJson),
    ("flags", r.flags.toJson), ("layer_stack", LayerKind.stackToJson r.layerStack),
    ("volumes", Json.ofSortedMap numberKey Volume.toJson r.volumes), ("props", r.props.toJson)]

def ofJson? (j : Json) : Option Resource := do
  let [uuid, name, node, flags, stack, volumes, props] ← j.slots?
    ["uuid", "rsc_name", "node_name", "flags", "layer_stack", "volumes", "props"] | none
  return {
    uuid := ← uuid.required Uuid.ofJson?
    name := ← name.required Name.ofJson?
    node := ← node.required Name.ofJson?
    flags := ← flags.required Flags.ofJson?
    layerStack := ← stack.required LayerKind.stackOfJson?
    volumes := ← volumes.required (numberedMap? Volume.ofJson?)
    props := ← props.required Props.ofJson? }

end Resource

namespace Snapshot

def toJson (s : Snapshot) : Json :=
  .object [("uuid", s.uuid.toJson), ("name", s.name.toJson), ("rsc_name", s.resource.toJson),
    ("node_name", s.node.toJson), ("flags", s.flags.toJson),
    ("layer_stack", LayerKind.stackToJson s.layerStack)]

def ofJson? (j : Json) : Option Snapshot := do
  let [uuid, name, resource, node, flags, stack] ← j.slots?
    ["uuid", "name", "rsc_name", "node_name", "flags", "layer_stack"] | none
  return {
    uuid := ← uuid.required Uuid.ofJson?
    name := ← name.required Name.ofJson?
    resource := ← resource.required Name.ofJson?
    node := ← node.required Name.ofJson?
    flags := ← flags.required Flags.ofJson?
    layerStack := ← stack.required LayerKind.stackOfJson? }

end Snapshot

namespace Definition

/-- There is no written form of a definition with snapshots. -/
def toJson? (d : Definition) : Option Json :=
  if d.snapshots.isEmpty then
    some (.object [("uuid", d.uuid.toJson), ("name", d.name.toJson),
      ("rsc_grp", d.group.toJson), ("flags", d.flags.toJson), ("props", d.props.toJson),
      ("layer_stack", LayerKind.stackToJson d.layerStack),
      ("volume_definitions", Json.ofSortedMap numberKey VolumeDefinition.toJson d.volumes),
      ("resources", Json.ofSortedMap Name.display Resource.toJson d.resources),
      ("snapshots", .object [])])
  else none

/-- No text names a snapshot within its definition. -/
def snapshotKey? (_ : String) : Option (SnapshotName × NodeName) := none

def ofJson? (j : Json) : Option Definition := do
  let [uuid, name, group, flags, props, stack, volumes, resources, snapshots] ← j.slots?
    ["uuid", "name", "rsc_grp", "flags", "props", "layer_stack", "volume_definitions",
      "resources", "snapshots"] | none
  return {
    uuid := ← uuid.required Uuid.ofJson?
    name := ← name.required Name.ofJson?
    group := ← group.required Name.ofJson?
    flags := ← flags.required Flags.ofJson?
    props := ← props.required Props.ofJson?
    layerStack := ← stack.required LayerKind.stackOfJson?
    volumes := ← volumes.required (numberedMap? VolumeDefinition.ofJson?)
    resources := ← resources.required (Json.sortedMap? (Name.ofText? .node) Resource.ofJson?)
    snapshots := ← snapshots.required (Json.sortedMap? snapshotKey? Snapshot.ofJson?) }

end Definition

end StorageCluster
