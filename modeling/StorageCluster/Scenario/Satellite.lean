import StorageCluster.Satellite.Drbd
import StorageCluster.Satellite.Luks
import StorageCluster.Satellite.Rehearsal
import StorageCluster.Satellite.Storage
import StorageCluster.Scenario.Blueprint
import StorageCluster.Scenario.Overview

/-!
# A satellite in a scenario

A rig is a satellite set up by a scenario: its pools, its layers, real or rehearsing, and what is to
be told about it. Its layers can be driven by whole batches or one handler at a time.
-/
namespace StorageCluster

structure Rig where
  satellite : Satellite Devices
  node : NodeName
  pools : List PoolName
  /-- How many layers rehearse. -/
  rehearsing : Nat := 0
  /-- For each of them, the kind of the layer whose place it took. -/
  replaced : List (Option LayerKind) := []

/-- The memory that a scenario starts with. -/
def Rig.stacks (j : Json) : Except Fault StackMemory := do
  match ← Blueprint.stack? j "legacy" with
  | some legacy => return { legacy }
  | none => return {}

namespace Rig

open Scenario Overview

def builtIn (text : String) : Except Fault (LayerHandler Devices) :=
  match text with
  | "DRBD" => .ok drbdLayer
  | "LUKS" => .ok luksLayer
  | "STORAGE" => .ok storageLayer
  | other => .error (.internal ("unknown layer '" ++ other ++ "'"))

def rehearsal (j : Json) : Except Fault Rehearsal := do
  return {
    kind := ← Blueprint.layer (text j "kind")
    prepareFault := Blueprint.fault? j "prepare"
    processFaults := (members j "process").map fun m => (m.1, Blueprint.fault m.2)
    clearFault := Blueprint.fault? j "clear"
    emitted := Blueprint.report j "emit"
    isLeaf := flag j "leaf" }

def register (rig : Rig) (h : LayerHandler Devices) : Rig :=
  { rig with satellite := { rig.satellite with registry := rig.satellite.registry.register h } }

/-- A built-in layer by its name, or a rehearsing one. -/
def addLayer (rig : Rig) : Json → Except Fault Rig
  | .string t => rig.register <$> builtIn t
  | j => do
    let r ← rehearsal j
    let replaced := (rig.satellite.registry.find? r.kind).map LayerHandler.kind
    return { rig.register (r.handler rig.rehearsing) with
      rehearsing := rig.rehearsing + 1, replaced := rig.replaced ++ [replaced] }

/-- Without a list of layers, the built-in ones are there. -/
def ofJson (node : NodeName) (j : Json) : Except Fault Rig := do
  let pools ← (items j "pools").mapM fun p => do
    return (← Name.parse .pool (text p "name"), number p "size")
  let memory ← Rig.stacks j
  let devices : Devices :=
    { luks := { masterKey := text? j "master_key" }, storage := .ofCapacities pools }
  let layers := (items? j "layers").getD (["DRBD", "LUKS", "STORAGE"].map .string)
  layers.foldlM addLayer
    { satellite := { registry := .empty, devices, memory }, node, pools := pools.map (·.1) }

def callOverview : LayerCall → Json
  | .prepare resources snapshots =>
    .array [.string "prepare", Json.listOf ofName resources, Json.listOf ofName snapshots]
  | .process resource => .array [.string "process", ofName resource]
  | .clear => .array [.string "clear"]

def callsAt (rig : Rig) (place : Nat) : Json :=
  Json.listOf callOverview
    ((rig.satellite.devices.calls.filter fun c => c.1 == place).map (·.2))

def poolOverview (rig : Rig) (pool : PoolName) : Json :=
  match rig.satellite.devices.storage.pools.find? pool with
  | some space => .array [ofName pool, .string (toString space.free),
      .string (toString space.total)]
  | none => .array [ofName pool]

def knownOverview (m : StackMemory) : Json := Json.ofSortedMap Name.value ofStack m.known

/-- The state of the satellite, and the calls on its rehearsing layers that were not told yet. -/
def overview (rig : Rig) : Json :=
  let s := rig.satellite
  let d := s.devices
  .object [("minors", Json.ofSortedMap Name.value ofCount d.drbd.minors),
    ("open", Json.listOf (fun n => .string n.value) d.luks.opened.keys),
    ("pools", Json.listOf rig.poolOverview rig.pools),
    ("volumes", ofCount d.storage.volumes.size),
    ("prepared_pools", ofCount d.storage.preparedPools.size),
    ("batch", ofCount d.drbd.batch.size), ("known", knownOverview s.memory),
    ("full_sync", .bool s.fullSync), ("metrics", s.metrics.overview),
    ("log", Json.listOf rig.callsAt (List.range rig.rehearsing))]

def forgetCalls (s : Satellite Devices) : Satellite Devices :=
  { s with devices := { s.devices with calls := [] } }

def resources (j : Json) : Except Fault (List Resource) :=
  Build.alone ((items j "resources").mapM (Blueprint.resource ""))

def snapshots (j : Json) : Except Fault (List Snapshot) :=
  Build.alone ((items j "snapshots").mapM (Blueprint.snapshot ""))

def delivery (j : Json) : Except Fault Delivery := do
  return { isFullSync := flag j "full", resources := ← resources j, snapshots := ← snapshots j }

/-- Whoever sent the message may be gone before it is answered. -/
def handledOverview (gone : Bool) (r : Except Fault Report) : Json :=
  let handled := outcome (fun _ => done ()) r
  if gone then handled
  else .object [("handled", handled), ("reply", match r with
    | .ok report => Report.overview report
    | .error _ => .null)]

def collected (j : Json) : Except Fault Json := do
  let notified ← (items j "items").mapM fun i => do
    return (← Name.parse .resource (text i "rsc"), Blueprint.report i "entries")
  let wanted ← Name.parse .resource (text j "get")
  let results := Results.ofNotifications notified
  return .object [("len", ofCount results.size), ("empty", .bool results.isEmpty),
    ("get", Json.nullOr Report.overview (results.find? wanted)),
    ("combined", Report.overview results.combined)]

def kindsOverview (rig : Rig) : Json :=
  let registry := rig.satellite.registry
  .object [("kinds", ofStack registry.keys),
    ("contains", Json.listOf (fun k => .bool (registry.contains k)) LayerKind.all),
    ("debug", .string registry.describe),
    ("replaced", Json.listOf (Json.nullOr fun k => .string k.name) rig.replaced),
    ("node", ofName rig.node)]

def unknownStep (j : Json) : Fault := .internal ("unknown step '" ++ text j "do" ++ "'")

/-- A step of a satellite; a fault ends the scenario. -/
def act (rig : Rig) (j : Json) : Except Fault (Satellite Devices × Json) := do
  let s := rig.satellite
  match text j "do" with
  | "dispatch" =>
    let d := s.dispatch (← resources j) (← snapshots j)
    return (d.satellite, .object [("report", outcome DispatchReport.overview d.result),
      ("notified", Json.listOf Results.pair d.notified)])
  | "apply" =>
    let (s, r) := s.handle (← delivery j)
    return (s, outcome Report.overview r)
  | "message" =>
    let (s, r) := s.handle (← delivery j)
    return (s, handledOverview (flag j "gone") r)
  | "serve" =>
    let (s, receipts, ended) := s.serve (← (items j "messages").mapM delivery)
    return (s, .object [("replies", Json.listOf Receipt.overview receipts),
      ("ended", outcome done ended)])
  | "collect" => return (s, ← collected j)
  | "key" =>
    let luks := { s.devices.luks with masterKey := some (text j "key") }
    return ({ s with devices := { s.devices with luks } }, done ())
  | "sync" => return ({ s with fullSync := true }, done ())
  | "kinds" => return (s, rig.kindsOverview)
  | _ => throw (unknownStep j)

/-- The arena of resources whose stacks are taken as they are. -/
def chained (resources : List Resource) : Except Fault Arena :=
  (resources.foldlM (fun (a : Arena) r => a.addChain r r.layerStack) Arena.empty).mapError
    ArenaFault.toFault

/-- Process a layer and those below; the devices afterwards, and what was reported. -/
def processRoot (registry : Registry Devices) (arena : Arena) (state : Devices × List Json)
    (root : LayerResource) : Devices × List Json :=
  let (result, devices, entries) := (processTree registry arena root.id).run (state.1, [])
  (devices, state.2 ++ [.object [("r", outcome done result),
    ("responses", Report.overview entries)]])

/-- Let the handler of one kind work, if there is one. -/
def withHandler (s : Satellite Devices) (j : Json)
    (work : LayerHandler Devices → Devices × Except Fault Unit) :
    Except Fault (Satellite Devices × Json) := do
  match s.registry.find? (← Blueprint.layer (text j "kind")) with
  | none => return (s, .array [])
  | some handler =>
    let (devices, result) := work handler
    return ({ s with devices }, .array [outcome done result])

/-- A step that drives handlers without the phases of a batch. -/
def actDirectly (rig : Rig) (j : Json) : Except Fault (Satellite Devices × Json) := do
  let s := rig.satellite
  let arena ← chained (← resources j)
  match text j "do" with
  | "process" =>
    let (devices, answers) :=
      arena.roots.foldl (processRoot s.registry arena) (s.devices, [])
    return ({ s with devices }, .array answers)
  | "prepare" => withHandler s j fun handler => handler.prepare s.devices arena.layers []
  | "clear" => withHandler s j fun handler => handler.clearCache s.devices
  | "unknown" =>
    let id : LayerId := ⟨number j "id"⟩
    let (result, devices, _) := (processChildren s.registry arena id).run (s.devices, [])
    return ({ s with devices }, .array
      [outcome LayerResource.overview ((arena.layer id).mapError ArenaFault.toFault),
        outcome done result])
  | _ => throw (unknownStep j)

/-- Perform a step and tell the state after it. -/
def step (act : Rig → Json → Except Fault (Satellite Devices × Json)) (rig : Rig) (j : Json) :
    Except Fault (Rig × Json) := do
  let (satellite, answer) ← act rig j
  let rig := { rig with satellite }
  return ({ rig with satellite := forgetCalls satellite },
    .object [("r", answer), ("state", rig.overview)])

end Rig

end StorageCluster
