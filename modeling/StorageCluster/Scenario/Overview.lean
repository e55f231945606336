import StorageCluster.Controller.Cycle
import StorageCluster.Format.Basic
import StorageCluster.Satellite.Service

/-!
# Overviews

What a scenario tells about entities, entries, faults and what came of them: their fields together
with what follows from them. Words of 64 bits are decimal texts, return codes hexadecimal ones, and
absent parts of an entry are left out.
-/
namespace StorageCluster

namespace Overview

def ofCount (n : Nat) : Json := .natural n

def ofWord (n : UInt64) : Json := .string (toString n.toNat)

def ofTexts (m : SortedMap String String) : Json := Json.ofSortedMap id .string m

def ofName {kind : NameKind} (n : Name kind) : Json := .string n.display

def ofStack (s : List LayerKind) : Json := Json.listOf (fun k => .string k.name) s

def ofFlags {kind : FlagKind} (f : Flags kind) : Json := ofWord f.bits

def ofUuid (id : Uuid) : Json := .string id.toText

def done (_ : Unit) : Json := .string "ok"

end Overview

open Overview

def Entry.overview (e : Entry) : Json :=
  .object ([("code", .string (Code.toText e.code)), ("message", .string e.message)] ++
    ([("cause", e.cause), ("correction", e.correction), ("details", e.details)].filterMap
      fun part => part.2.map fun t => (part.1, .string t)) ++
    if e.refs.isEmpty then [] else [("refs", ofTexts e.refs)])

def Report.overview (r : Report) : Json := Json.listOf Entry.overview r

namespace Fault

/-- The word for a kind of fault. -/
def word : Fault → String
  | .internal _ => "Internal"
  | .implementation _ => "ImplementationError"
  | .configuration _ => "Configuration"
  | .accessDenied _ _ => "AccessDenied"
  | .database _ => "Database"
  | .databaseLoad _ _ => "DatabaseLoad"
  | .storage _ => "Storage"
  | .resourceLayer _ => "ResourceLayer"
  | .volumeLayer _ => "VolumeLayer"
  | .layerStack _ => "LayerStack"
  | .rejected _ => "ApiRc"
  | .invalidName _ => "InvalidName"
  | .invalidProperty _ _ => "InvalidProperty"
  | .nodeNotFound _ => "NodeNotFound"
  | .definitionNotFound _ => "ResourceDefinitionNotFound"
  | .groupNotFound _ => "ResourceGroupNotFound"
  | .resourceNotFound _ _ => "ResourceNotFound"
  | .poolNotFound _ _ => "StorPoolNotFound"
  | .notConnected _ => "SatelliteNotConnected"
  | .timeout _ _ => "SatelliteTimeout"
  | .malformedJson => "JsonParse"
  | .malformedYaml => "YamlParse"
  | .malformedPattern => "Regex"
  | .invalidAddress => "InvalidAddress"
  | .io _ => "Io"

def failureParts (f : LayerFailure) : List (String × Json) :=
  [("cause", f.cause), ("correction", f.correction), ("details", f.details)].map
    fun part => (part.1, Json.nullOr .string part.2)

def overviewParts : Fault → List (String × Json)
  | .rejected e => [("entry", e.overview)]
  | .accessDenied _ code => [("code", .string (Code.toText code))]
  | .storage f | .resourceLayer f | .volumeLayer f => [("failure", .object (failureParts f))]
  | _ => []

def overview (f : Fault) : Json :=
  .object ([("error", .string f.word), ("message", .string f.message)] ++ f.overviewParts)

end Fault

namespace Overview

/-- What came of something that may fail. -/
def outcome {α : Type} (encode : α → Json) : Except Fault α → Json
  | .ok a => encode a
  | .error f => f.overview

end Overview

def Interface.overview (i : Interface) : Json :=
  .object [("name", ofName i.name), ("uuid", ofUuid i.uuid), ("addr", .string i.address.toText),
    ("port", Json.nullOr (fun p => ofCount p.toNat) i.port),
    ("enc", Json.nullOr (Json.word Encryption.names) i.encryption)]

def Node.overview (n : Node) : Json :=
  .object [("name", ofName n.name), ("uuid", ofUuid n.uuid), ("flags", ofFlags n.flags),
    ("props", ofTexts n.props.map), ("ifs", Json.listOf Interface.overview n.interfaces.values),
    ("status", Json.word ConnectionStatus.names n.status), ("connected", .bool n.isConnected),
    ("evicted", .bool n.isEvicted),
    ("stlt_if", Json.nullOr (fun i => ofName i.name) n.satelliteInterface?)]

def Connection.overview (c : Connection) : Json :=
  .object [("source", ofName c.source), ("target", ofName c.target), ("uuid", ofUuid c.uuid),
    ("props", ofTexts c.props.map)]

def Pool.overview (p : Pool) : Json :=
  .object [("name", ofName p.name), ("node", ofName p.node), ("uuid", ofUuid p.uuid),
    ("provider", .string p.provider.name), ("free", ofWord p.freeBytes),
    ("total", ofWord p.totalBytes), ("diskless", .bool p.isDiskless),
    ("props", ofTexts p.props.map)]

def Group.overview (g : Group) : Json :=
  .object [("name", ofName g.name), ("uuid", ofUuid g.uuid),
    ("desc", Json.nullOr .string g.description), ("props", ofTexts g.props.map),
    ("replicas", ofCount g.replicaCount), ("place", g.autoPlace.toJson)]

def Volume.overview (v : Volume) : Json :=
  .object [("nr", Json.uint32 v.number), ("uuid", ofUuid v.uuid), ("pool", ofName v.pool),
    ("size", ofWord v.sizeBytes), ("props", ofTexts v.props.map)]

def VolumeDefinition.overview (v : VolumeDefinition) : Json :=
  .object [("nr", Json.uint32 v.number), ("uuid", ofUuid v.uuid), ("size", ofWord v.sizeBytes),
    ("props", ofTexts v.props.map)]

def Resource.overview (r : Resource) : Json :=
  .object [("name", ofName r.name), ("node", ofName r.node), ("uuid", ofUuid r.uuid),
    ("flags", ofFlags r.flags), ("deleted", .bool r.isDeleted), ("diskless", .bool r.isDiskless),
    ("tie_breaker", .bool r.isTieBreaker), ("stack", ofStack r.layerStack),
    ("props", ofTexts r.props.map), ("vols", Json.listOf Volume.overview r.volumes.values)]

def Snapshot.overview (s : Snapshot) : Json :=
  .object [("name", ofName s.name), ("rsc", ofName s.resource), ("node", ofName s.node),
    ("uuid", ofUuid s.uuid), ("flags", ofFlags s.flags), ("stack", ofStack s.layerStack)]

def Definition.overview (d : Definition) : Json :=
  .object [("name", ofName d.name), ("group", ofName d.group), ("uuid", ofUuid d.uuid),
    ("flags", ofFlags d.flags), ("props", ofTexts d.props.map), ("stack", ofStack d.layerStack),
    ("size", ofWord d.totalSize),
    ("vlms", Json.listOf VolumeDefinition.overview d.volumes.values),
    ("rscs", Json.listOf Resource.overview d.resources.values),
    ("snaps", Json.listOf Snapshot.overview d.snapshots.values)]

/-- All objects together with the properties of the controller. -/
def Graph.overview (g : Graph) (controllerProps : Props) : Json :=
  .object [("nodes", Json.listOf Node.overview g.nodes.values),
    ("conns", Json.listOf Connection.overview g.connections.values),
    ("groups", Json.listOf Group.overview g.groups.values),
    ("dfns", Json.listOf Definition.overview g.definitions.values),
    ("pools", Json.listOf Pool.overview g.pools.values),
    ("ctrl_props", ofTexts controllerProps.map)]

def Graph.Summary.word : Table → String
  | .nodes => "nodes"
  | .groups => "resource_groups"
  | .definitions => "resource_definitions"
  | .volumeDefinitions => "volume_definitions"
  | .pools => "stor_pools"
  | .resources => "resources"
  | .volumes => "volumes"
  | .snapshots => "snapshots"
  | .connections => "node_connections"

def Graph.Summary.overview (s : Graph.Summary) : Json :=
  .object (s.map fun e => (Graph.Summary.word e.1, ofCount e.2))

def Rows.overview (rows : Rows) : Json := Json.ofSortedMap id ofTexts rows

/-- All tables that are not empty. -/
def Store.overview (s : Store) : Except Fault Json := do
  let tables ← Table.all.mapM fun t => do return (t, ← s.rows t)
  return .object ((tables.filter fun t => !t.2.isEmpty).map fun t =>
    (t.1.name, Rows.overview t.2))

def ReplicaCounts.parts (c : ReplicaCounts) : List (String × Json) :=
  [("diskful_connected", ofCount c.diskfulConnected), ("place_count", ofCount c.placeCount),
    ("min", ofCount c.minimum), ("cur", ofCount c.current), ("deficit", ofCount c.deficit)]

def ReconcileMetrics.overview (m : ReconcileMetrics) : Json :=
  .object [("manage_calls", ofCount m.manageCalls), ("converged", ofCount m.converged),
    ("scheduled", ofCount m.scheduled), ("retry_later", ofCount m.retryLater),
    ("needs_diskful", ofCount m.needsDiskful), ("placement_failures", ofCount m.placementFailures),
    ("cycled", .bool m.cycled)]

def DispatchMetrics.overview (m : DispatchMetrics) : Json :=
  .object [("batches", ofCount m.batches), ("resources_processed", ofCount m.resourcesProcessed),
    ("resource_failures", ofCount m.resourceFailures),
    ("prepare_failures", ofCount m.prepareFailures),
    ("cleanup_failures", ofCount m.cleanupFailures), ("fatal_errors", ofCount m.fatalErrors),
    ("dispatched", .bool (m.batches > 0))]

def ManageOutcome.overview : ManageOutcome → Json
  | .notTracked => .string "NotTracked"
  | .needsDiskful => .string "NeedsDiskful"
  | .converged => .string "Converged"
  | .scheduled => .string "Scheduled"
  | .retryLater why => .object [("RetryLater", .string why)]

def CycleReport.overview (r : CycleReport) : Json :=
  .object [("outcomes", Json.ofSortedMap Name.display (Json.listOf ManageOutcome.overview)
      r.outcomes),
    ("responses", Report.overview r.responses), ("run", ofCount r.pipelinesRun),
    ("failed", ofCount r.failures)]

def LayerId.overview (id : LayerId) : Json := ofCount id.index

def LayerResource.overview (l : LayerResource) : Json :=
  .object [("id", .string l.id.toText), ("kind", .string l.kind.name),
    ("rsc", ofName l.resource.name), ("parent", Json.nullOr LayerId.overview l.parent),
    ("root", .bool l.isRoot), ("children", Json.listOf LayerId.overview l.children),
    ("snaps", Json.listOf (fun s => ofName s.name) l.snapshots)]

def Results.pair (n : ResourceName × Report) : Json :=
  .array [ofName n.1, Report.overview n.2]

def DispatchReport.overview (r : DispatchReport) : Json :=
  .object [("processed", Json.listOf ofName r.processed),
    ("failed_prepare", ofStack r.failedPrepare), ("failed_cleanup", ofStack r.failedCleanup),
    ("failing", Json.listOf ofName (r.results.keys.filter r.hasFailures)),
    ("results", Json.listOf Results.pair r.results.entries)]

def Receipt.overview : Receipt → Json
  | .answered r => Report.overview r
  | .unanswered => .null
  | .closed => .string "closed"

end StorageCluster
