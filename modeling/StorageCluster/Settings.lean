import StorageCluster.Format.Basic
import StorageCluster.Satellite.Stack
import StorageCluster.Store.Engine
import StorageCluster.Text.Flow

/-!
# Settings

The settings of the controller and of a satellite, their written form, and the checks they have to
pass when they are loaded. A settings file is a flow document: where a text is expected, a number or
a word without quotes is taken as it is spelled.
-/
namespace StorageCluster

/-- What the program calls itself. -/
def programName : String := "replistor"

def programVersion : String := "0.1.0"

structure PoolSettings where
  name : String
  provider : Provider := .lvm
  capacityBytes : UInt64
  deriving DecidableEq

structure SatelliteSettings where
  nodeName : String := "satellite-1"
  layerStack : List LayerKind := Stack.legacy
  pools : List PoolSettings :=
    [{ name := "DfltStorPool", capacityBytes := 100 * 1024 * 1024 * 1024 }]
  deriving DecidableEq

structure ControllerSettings where
  intervalSeconds : UInt64 := 30
  database : EngineKind := .memory
  timeoutSeconds : UInt64 := 10
  eventCapacity : UInt64 := 256
  satellites : List SatelliteSettings := []
  deriving DecidableEq

/-- How the scalars and records of a settings text are read. -/
structure Dialect where
  text? : Json → Option String
  uint64? : Json → Option UInt64
  slots? : List String → Json → Option (List Json.Slot)
  word? : Json → Option String

namespace Dialect

def json : Dialect :=
  { text? := Json.text?, uint64? := Json.uint64?, slots? := Json.slots?, word? := Json.word? }

/-- A record is written by field names only. -/
def memberSlots? (names : List String) : Json → Option (List Json.Slot)
  | .object members _ => Json.memberSlots names members
  | _ => none

/-- The dialect of settings files. -/
def file : Dialect :=
  { text? := Flow.text?, uint64? := Json.uint64?, slots? := memberSlots?, word? := Flow.text? }

def choice? {α : Type} (d : Dialect) (table : List (String × α)) (j : Json) : Option α :=
  (d.word? j).bind fun word => table.lookup word

end Dialect

namespace PoolSettings

def toJson (p : PoolSettings) : Json :=
  .object [("name", .string p.name), ("provider", p.provider.toJson),
    ("capacityBytes", Json.uint64 p.capacityBytes)]

def decode? (d : Dialect) (j : Json) : Option PoolSettings := do
  let [name, provider, capacity] ← d.slots? ["name", "provider", "capacityBytes"] j | none
  return {
    name := ← name.required d.text?
    provider := ← provider.defaulted .lvm (d.choice? Provider.names)
    capacityBytes := ← capacity.required d.uint64? }

end PoolSettings

namespace SatelliteSettings

def toJson (s : SatelliteSettings) : Json :=
  .object [("nodeName", .string s.nodeName),
    ("defaultLayerStack", LayerKind.stackToJson s.layerStack),
    ("storagePools", Json.listOf PoolSettings.toJson s.pools)]

def decode? (d : Dialect) (j : Json) : Option SatelliteSettings := do
  let [node, stack, pools] ← d.slots? ["nodeName", "defaultLayerStack", "storagePools"] j | none
  let default : SatelliteSettings := {}
  return {
    nodeName := ← node.defaulted default.nodeName d.text?
    layerStack := ← stack.defaulted default.layerStack
      (Json.list? (d.choice? LayerKind.names))
    pools := ← pools.defaulted default.pools (Json.list? (PoolSettings.decode? d)) }

def node (s : SatelliteSettings) : Except Fault NodeName :=
  (Name.parse .node s.nodeName).mapError fun f =>
    .configuration ("invalid node name: " ++ f.message)

/-- Pools by name, added to those before. -/
def addPools (s : SatelliteSettings) (seen : List (PoolName × Provider × UInt64)) :
    List PoolSettings → Except Fault (List (PoolName × Provider × UInt64))
  | [] => .ok seen
  | p :: rest => do
    let name ← (Name.parse .pool p.name).mapError fun f =>
      .configuration ("invalid storage pool on '" ++ s.nodeName ++ "': " ++ f.message)
    if seen.any fun other => other.1 == name then
      throw (.configuration ("storage pool '" ++ p.name ++ "' configured twice on '" ++
        s.nodeName ++ "'"))
    s.addPools (seen ++ [(name, p.provider, p.capacityBytes)]) rest

def storagePools (s : SatelliteSettings) : Except Fault (List (PoolName × Provider × UInt64)) :=
  s.addPools [] s.pools

def validate (s : SatelliteSettings) : Except Fault Unit := do
  let _ ← s.node
  (Stack.validate s.layerStack).mapError fun f =>
    .configuration ("defaultLayerStack of '" ++ s.nodeName ++ "': " ++ f.toFault.message)
  let _ ← s.storagePools
  return ()

end SatelliteSettings

namespace ControllerSettings

def toJson (s : ControllerSettings) : Json :=
  .object [("reconcileIntervalSecs", Json.uint64 s.intervalSeconds),
    ("database", Json.word EngineKind.names s.database),
    ("satelliteTimeoutSecs", Json.uint64 s.timeoutSeconds),
    ("eventCapacity", Json.uint64 s.eventCapacity),
    ("satellites", Json.listOf SatelliteSettings.toJson s.satellites)]

def decode? (d : Dialect) (j : Json) : Option ControllerSettings := do
  let [interval, database, timeout, capacity, satellites] ←
    d.slots? ["reconcileIntervalSecs", "database", "satelliteTimeoutSecs", "eventCapacity",
      "satellites"] j | none
  return {
    intervalSeconds := ← interval.defaulted 30 d.uint64?
    database := ← database.defaulted .memory (d.choice? EngineKind.names)
    timeoutSeconds := ← timeout.defaulted 10 d.uint64?
    eventCapacity := ← capacity.defaulted 256 d.uint64?
    satellites := ← satellites.defaulted [] (Json.list? (SatelliteSettings.decode? d)) }

def requirePositive (name : String) (n : UInt64) : Except Fault Unit :=
  if n = 0 then .error (.configuration (name ++ " must be greater than zero")) else .ok ()

/-- Each satellite is valid and none has the name of one before. -/
def validateSatellites : List NodeName → List SatelliteSettings → Except Fault Unit
  | _, [] => .ok ()
  | seen, s :: rest => do
    s.validate
    let node ← s.node
    if seen.contains node then
      throw (.configuration ("satellite '" ++ s.nodeName ++ "' configured twice"))
    validateSatellites (node :: seen) rest

def validate (s : ControllerSettings) : Except Fault Unit := do
  requirePositive "reconcileIntervalSecs" s.intervalSeconds
  requirePositive "satelliteTimeoutSecs" s.timeoutSeconds
  requirePositive "eventCapacity" s.eventCapacity
  validateSatellites [] s.satellites

end ControllerSettings

/-- Settings from the text of a file, decoded and checked. -/
def loadSettings {α : Type} (decode : Dialect → Json → Option α) (validate : α → Except Fault Unit)
    (text : String) : Except Fault α := do
  match (Flow.read? text).bind (decode .file) with
  | none => throw .malformedYaml
  | some settings =>
    validate settings
    return settings

/-- The fault of a settings file that is not there. -/
def settingsFileMissing (path : String) : Fault :=
  .configuration ("Cannot read " ++ path ++ ": No such file or directory (os error 2)")

end StorageCluster
