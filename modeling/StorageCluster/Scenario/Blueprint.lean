import StorageCluster.Access
import StorageCluster.Format.Basic
import StorageCluster.Satellite.Stack
import StorageCluster.Scenario.Field

/-!
# Blueprints

How a scenario describes entities, entries and faults. An entity without an identifier gets a new
one; otherwise only names have to be given.
-/
namespace StorageCluster

/-- Building with a supply of identifiers. -/
abbrev Build := StateT Uuid.Supply (Except Fault)

/-- Build one thing on its own. -/
def Build.alone {α : Type} (b : Build α) : Except Fault α := (b.run ⟨0⟩).map (·.1)

namespace Blueprint

open Scenario

def uuid (j : Json) : Build Uuid := fun supply =>
  match (text? j "uuid").bind Uuid.ofText? with
  | some id => .ok (id, supply)
  | none => .ok supply.take

def name (kind : NameKind) (t : String) : Build (Name kind) := liftM (Name.parse kind t)

def layer (t : String) : Except Fault LayerKind :=
  (LayerKind.parse t).mapError StackFault.toFault

def stack (j : Json) (field : String) : Except Fault (List LayerKind) :=
  (texts j field).mapM layer

def stack? (j : Json) (field : String) : Except Fault (Option (List LayerKind)) :=
  match items? j field with
  | some _ => some <$> stack j field
  | none => .ok none

/-- A placement filter in its written form. -/
def filter (j : Json) (field : String) : Except Fault Filter :=
  match Filter.ofJson? (written j field) with
  | some f => .ok f
  | none => .error .malformedJson

/-- Only an interface with a port is for the satellite, plain unless said otherwise. -/
def interface (j : Json) : Build Interface := do
  let name ← name .interface (text j "name")
  let some address := Address.ofText? (text j "addr") | throw .invalidAddress
  let uuid ← uuid j
  let port := (word64? j "port").map fun p => UInt16.ofNat p.toNat
  let encryption := (Encryption.names.lookup (text j "enc")).getD .plain
  return { uuid, name, address, port, encryption := port.map fun _ => encryption }

def status (j : Json) : ConnectionStatus :=
  (ConnectionStatus.names.lookup (text j "status")).getD .offline

def addInterface (n : Node) (j : Json) : Build Node := do
  let i ← interface j
  liftM (n.addInterface i)

def node (j : Json) : Build Node := do
  let name ← name .node (text j "name")
  let uuid ← uuid j
  let n : Node :=
    { uuid, name, flags := ⟨word64 j "flags"⟩, props := props j "props", status := status j }
  (items j "ifs").foldlM addInterface n

def connection (j : Json) : Build Connection := do
  let a ← name .node (text j "a")
  let b ← name .node (text j "b")
  let uuid ← uuid j
  let c ← liftM (Connection.between uuid a b)
  return { c with props := props j "props" }

def provider (j : Json) : Except Fault Provider :=
  match text? j "provider" with
  | none => .ok .lvm
  | some t =>
    match Provider.names.lookup t with
    | some p => .ok p
    | none => .error .malformedJson

def pool (j : Json) : Build Pool := do
  let name ← name .pool (text j "name")
  let node ← Blueprint.name .node (text j "node")
  let provider ← liftM (provider j)
  let uuid ← uuid j
  let p := Pool.new uuid name node provider (word64 j "total")
  return { p with freeBytes := (word64? j "free").getD p.freeBytes, props := props j "props" }

def group (j : Json) : Build Group := do
  let name ← name .group (text j "name")
  let uuid ← uuid j
  let autoPlace ← liftM (filter j "place")
  return { uuid, name, description := text? j "desc", props := props j "props", autoPlace }

def volumeDefinition (j : Json) : Build VolumeDefinition := do
  let uuid ← uuid j
  return { uuid, number := UInt32.ofNat (number j "nr"), sizeBytes := word64 j "size",
           props := props j "props" }

def volume (j : Json) : Build Volume := do
  let pool ← name .pool (text j "pool")
  let uuid ← uuid j
  return { uuid, number := UInt32.ofNat (number j "nr"), pool, sizeBytes := word64 j "size",
           props := props j "props" }

/-- Inside a definition, a resource has its name. -/
def resource (owner : String) (j : Json) : Build Resource := do
  let name ← name .resource ((text? j "name").getD owner)
  let node ← Blueprint.name .node (text j "node")
  let layerStack ← liftM (stack j "stack")
  let uuid ← uuid j
  let volumes ← (items j "vols").mapM volume
  return { uuid, name, node, flags := ⟨word64 j "flags"⟩, layerStack, props := props j "props",
           volumes := .ofList (volumes.map fun v => (v.number, v)) }

def snapshot (owner : String) (j : Json) : Build Snapshot := do
  let name ← name .snapshot (text j "name")
  let resource ← Blueprint.name .resource ((text? j "rsc").getD owner)
  let node ← Blueprint.name .node (text j "node")
  let layerStack ← liftM (stack j "stack")
  let uuid ← uuid j
  return { uuid, name, resource, node, flags := ⟨word64 j "flags"⟩, layerStack }

def addVolume (d : Definition) (j : Json) : Build Definition := do
  return d.addVolume (← volumeDefinition j)

def addResource (d : Definition) (j : Json) : Build Definition := do
  let r ← resource d.name.display j
  liftM ((d.addResource r).mapError DeploymentFault.toFault)

def addSnapshot (d : Definition) (j : Json) : Build Definition := do
  return d.addSnapshot (← snapshot d.name.display j)

def definition (j : Json) : Build Definition := do
  let name ← name .resource (text j "name")
  let group ← Blueprint.name .group (text j "group")
  let uuid ← uuid j
  let stack ← liftM (stack? j "stack")
  let d : Definition :=
    { uuid, name, group, flags := ⟨word64 j "flags"⟩, props := props j "props" }
  let d := { d with layerStack := stack.getD d.layerStack }
  let d ← (items j "vlms").foldlM addVolume d
  let d ← (items j "rscs").foldlM addResource d
  (items j "snaps").foldlM addSnapshot d

def entry (j : Json) : Entry where
  code := word64 j "code"
  message := text j "message"
  cause := text? j "cause"
  correction := text? j "correction"
  details := text? j "details"
  refs := textMap (object j "refs")

def report (j : Json) (field : String) : Report := (items j field).map entry

def layerFailure (j : Json) : LayerFailure where
  message := text j "text"
  cause := text? j "cause"
  correction := text? j "correction"
  details := text? j "details"

/-- A fault by the word for its kind. -/
def fault (j : Json) : Fault :=
  let t := text j "text"
  match text j "kind" with
  | "ImplementationError" => .implementation t
  | "Configuration" => .configuration t
  | "AccessDenied" => .accessDenied t (word64 j "code")
  | "Database" => .database t
  | "DatabaseLoad" => .databaseLoad (text j "table") t
  | "Storage" => .storage (layerFailure j)
  | "ResourceLayer" => .resourceLayer (layerFailure j)
  | "VolumeLayer" => .volumeLayer (layerFailure j)
  | "LayerStack" => .layerStack t
  | "ApiRc" => .rejected (entry (object j "entry"))
  | "InvalidName" => .invalidName t
  | "InvalidProperty" => .invalidProperty (text j "key") t
  | "NodeNotFound" => .nodeNotFound (text j "name")
  | "ResourceDefinitionNotFound" => .definitionNotFound (text j "name")
  | "ResourceGroupNotFound" => .groupNotFound (text j "name")
  | "ResourceNotFound" => .resourceNotFound (text j "name") (text j "node")
  | "StorPoolNotFound" => .poolNotFound (text j "name") (text j "node")
  | "SatelliteNotConnected" => .notConnected (text j "node")
  | "SatelliteTimeout" => .timeout (text j "node") ⟨number j "nanos"⟩
  | "JsonParse" => .malformedJson
  | "YamlParse" => .malformedYaml
  | "Regex" => .malformedPattern
  | "InvalidAddress" => .invalidAddress
  | "Io" => .io t
  | _ => .internal t

def fault? (j : Json) (field : String) : Option Fault := (object? j field).map fault

/-- The report or the fault that somebody is to answer. -/
def answer (j : Json) : Except Fault Report :=
  match fault? j "err" with
  | some f => .error f
  | none => .ok (report j "rc")

/-- Who is asking: the system itself unless said otherwise. -/
def accessContext (j : Json) (field : String) : AccessContext :=
  match field? j field with
  | some (.string "public") => .anyone
  | some (.object members _) =>
    let who : Json := .object members
    ⟨text who "identity", (Role.names.lookup (text who "role")).getD .anyone⟩
  | _ => .system

/-- Without rules all is granted. -/
def accessPolicy (j : Json) : Except Fault AccessPolicy :=
  match items? j "rules" with
  | none => .ok .permissive
  | some rules =>
    match rules.mapM AccessRule.ofJson? with
    | some rules => .ok (.ofRules rules)
    | none => .error .malformedJson

end Blueprint

end StorageCluster
