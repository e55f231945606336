import StorageCluster.Controller.Cycle

/-!
# Primary requests

The satellite that first asks for it is granted the primary role of a resource; the claim is kept
as a property of the definition. Requests with an outdated uuid, from nodes without the resource or
after another node was granted the role are rejected.
-/
namespace StorageCluster

structure PrimaryRequest where
  resource : ResourceName
  uuid : Uuid
  alreadyInitialized : Bool
  deriving DecidableEq

/-- Why a request is rejected. -/
inductive Rejection
  | definitionMissing (resource : ResourceName)
  | outdated (resource : ResourceName) (node : NodeName)
  | notDeployed (resource : ResourceName) (node : NodeName)
  | alreadySet (resource : ResourceName) (holder : String)
  deriving DecidableEq

def Rejection.message : Rejection → String
  | .definitionMissing resource =>
    "Resource definition '" ++ resource.display ++ "' not found"
  | .outdated resource node => "Resource '" ++ resource.display ++ "' on node '" ++
      node.display ++ "' has a different uuid"
  | .notDeployed resource node => "Resource '" ++ resource.display ++
      "' is not deployed on node '" ++ node.display ++ "'"
  | .alreadySet resource holder => "Primary of resource '" ++ resource.display ++
      "' is already set on node '" ++ holder ++ "'"

inductive PrimaryResponse
  | granted (skipInitialSync : Bool)
  | rejected (reason : String)
  deriving DecidableEq

namespace PrimaryRequest

def toJson (r : PrimaryRequest) : Json :=
  .object [("rscName", r.resource.toJson), ("rscUuid", r.uuid.toJson),
    ("alreadyInitialized", .bool r.alreadyInitialized)]

def ofJson? (j : Json) : Option PrimaryRequest := do
  let [resource, uuid, initialized] ←
    j.slots? ["rscName", "rscUuid", "alreadyInitialized"] | none
  return {
    resource := ← resource.required Name.ofJson?
    uuid := ← uuid.required Uuid.ofJson?
    alreadyInitialized := ← initialized.required Json.bool? }

end PrimaryRequest

namespace PrimaryResponse

def isGranted : PrimaryResponse → Bool
  | .granted _ => true
  | .rejected _ => false

def toJson : PrimaryResponse → Json
  | .granted skip => .object [("result", .string "granted"), ("skip_initial_sync", .bool skip)]
  | .rejected reason => .object [("result", .string "rejected"), ("reason", .string reason)]

def variant? (word : String) : Option (Bool × List String) :=
  match word with
  | "granted" => some (true, ["skip_initial_sync"])
  | "rejected" => some (false, ["reason"])
  | _ => none

def ofJson? (j : Json) : Option PrimaryResponse :=
  if !j.isBufferable 127 then none
  else match j.taggedSlots? "result" variant? with
    | some (true, [skip]) => (skip.required Json.bool?).map .granted
    | some (false, [reason]) => (reason.required Json.text?).map .rejected
    | _ => none

end PrimaryResponse

/-- What a request means for a definition: nothing new for the node that holds the role already. -/
inductive Claim
  | renewed
  | fresh

namespace Definition

/-- A claim needs the present uuid of the resource, and that no other node holds the role. -/
def claimPrimary (d : Definition) (node : NodeName) (request : PrimaryRequest) :
    Except Rejection Claim :=
  match d.resource? node with
  | none => .error (.notDeployed request.resource node)
  | some r =>
    if r.uuid ≠ request.uuid then .error (.outdated request.resource node)
    else match d.props.get? Props.primarySetOnKey none with
      | none => .ok .fresh
      | some holder =>
        if sameIgnoringCase holder node.display then .ok .renewed
        else .error (.alreadySet request.resource holder)

def setPrimary (d : Definition) (node : NodeName) : Definition :=
  { d with props := d.props.set Props.primarySetOnKey none node.display }

end Definition

namespace Controller

variable {σ : Type}

/-- Store a fresh claim and tell all satellites; what they answer does not matter. -/
def grantPrimary (team : Collaborators σ) (c : Controller σ) (name : ResourceName)
    (d : Definition) : Controller σ × Except Fault Unit :=
  let (core, result) := c.core.persist [Change.ofColumn d Column.props d.props.toColumn] fun g =>
    { g with definitions := g.definitions.insert name d }
  let c := { c with core }
  match result with
  | .error fault => (c, .error fault)
  | .ok () => ((c.push team d allNodes).1, .ok ())

def handlePrimary (team : Collaborators σ) (c : Controller σ) (who : AccessContext)
    (node : NodeName) (request : PrimaryRequest) :
    Controller σ × Except Fault PrimaryResponse :=
  let name := request.resource
  match team.access.require who .resource name.display .use with
  | .error fault => (c, .error fault)
  | .ok () =>
    match c.core.graph.definitions.find? name with
    | none => (c, .ok (.rejected (Rejection.definitionMissing name).message))
    | some d =>
      match d.claimPrimary node request with
      | .error rejection => (c, .ok (.rejected rejection.message))
      | .ok .renewed => (c, .ok (.granted request.alreadyInitialized))
      | .ok .fresh =>
        let (c, result) := c.grantPrimary team name (d.setPrimary node)
        (c, result.map fun _ => .granted request.alreadyInitialized)

end Controller

end StorageCluster
