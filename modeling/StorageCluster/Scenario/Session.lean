import StorageCluster.Controller.Loop
import StorageCluster.Controller.Peers
import StorageCluster.Controller.Primary
import StorageCluster.Scenario.Expression.Reader
import StorageCluster.Scenario.Satellite

/-!
# A cluster in a scenario

A session is a controller with its fleet, set up by a scenario: who is granted access, who finds
places, what satellites answer, and which helpers join the reconciler. It remembers what has been
told of the pushes and of the requests for places.
-/
namespace StorageCluster

structure Session where
  controller : Controller Fleet
  team : Collaborators Fleet
  helpers : List (Helper Fleet)
  intervalMillis : Nat
  /-- Pipelines that wait to be run. -/
  kept : List Pipeline := []
  /-- Every resource name met so far. -/
  seen : NameSet .resource := .empty
  /-- The satellites that were set up, as they were at first. -/
  rigs : SortedMap NodeName Rig := .empty
  toldPushes : Nat := 0
  toldRequests : Nat := 0

namespace Session

open Scenario Overview

def core (s : Session) : Core := s.controller.core

def graph (s : Session) : Graph := s.controller.core.graph

def fleet (s : Session) : Fleet := s.controller.satellites

def setGraph (s : Session) (graph : Graph) : Session :=
  { s with controller := { s.controller with core := { s.core with graph } } }

def setFleet (s : Session) (satellites : Fleet) : Session :=
  { s with controller := { s.controller with satellites } }

def note (s : Session) (name : ResourceName) : Session :=
  { s with seen := s.seen.insert name () }

/-! ## Setting up -/

def script (j : Json) : Script where
  fault := Blueprint.fault? j "fail"
  answers := (members j "nodes").map fun m => (m.1, Blueprint.answer m.2)

def rehearsedHelper (j : Json) : RehearsedHelper where
  entries := Blueprint.report j "entries"
  pipelines := (items j "pipelines").map Blueprint.answer
  fault := Blueprint.fault? j "err"

abbrev Placing := Core → PlacementRequest → Definition → Except Fault (Option (List Pool))

def searching : Placing := fun core request d =>
  core.graph.place Expression.engine request.filter d request.sizeBytes

/-- Places are searched for, unless the answer is laid down. -/
def placing (j : Json) : Except Fault Placing := do
  match field? j "placement" with
  | none => return searching
  | some (.array pools) =>
    let pools ← Build.alone (pools.mapM Blueprint.pool)
    return fun _ _ _ => .ok (some pools)
  | some other =>
    match Blueprint.fault? other "err" with
    | some f => return fun _ _ _ => .error f
    | none => return fun _ _ _ => .ok none

def creating (j : Json) : Core → CreationRequest → Draft → Creation :=
  match Blueprint.fault? j "creator_err" with
  | some f => fun _ _ draft => ⟨draft, .error f⟩
  | none => Core.createResources

def engine (j : Json) : EngineKind := (EngineKind.names.lookup (text j "engine")).getD .memory

def ofJson (j : Json) : Except Fault Session := do
  let access ← Blueprint.accessPolicy j
  let place ← placing j
  let team : Collaborators Fleet := { access, place, create := creating j, push := Fleet.push,
                                      rest := Fleet.catchUp }
  let rehearsed := (object? j "helper").map fun h =>
    RehearsedHelper.manage ((membersOf h).map fun m => (m.1, rehearsedHelper m.2))
  let fleet : Fleet :=
    { script := script (object j "script"), usesPeers := flag j "peer",
      timeoutMillis := numberOr 10000 j "timeout_ms" }
  return {
    controller := { core := { store := .new (engine j) }, satellites := fleet,
                    events := .ofCapacity (numberOr 256 j "events") }
    team
    helpers := Controller.manage team :: rehearsed.toList
    intervalMillis := numberOr 30000 j "interval_ms" }

/-! ## Telling the state -/

def placedText (r : Resource) : String :=
  r.node.display ++ "=" ++ toString r.flags.bits.toNat

def definitionText (d : Definition) : String :=
  ",".intercalate (d.resources.values.map placedText)

def pushOverview (p : PushRecord) : Json :=
  .array [ofName p.resource, Json.listOf (fun r => .string (placedText r)) p.sent]

def requestOverview (r : PlacementRequest) : Json :=
  .object [("filter", r.filter.toJson), ("size", ofWord r.sizeBytes)]

def unlessEmpty {α : Type} (name : String) (encode : α → Json) (xs : List α) :
    List (String × Json) :=
  if xs.isEmpty then [] else [(name, Json.listOf encode xs)]

/-- What is deployed where, what is tracked, and the pushes and requests that were not told yet. -/
def overview (s : Session) : Json :=
  let t := s.controller.tracking
  let deployed := s.graph.definitions.values.map fun d =>
    (d.name.display, Json.string (definitionText d))
  let tracked := if t.needsReconciliation.isEmpty then []
    else [("tracked", Json.listOf ofName (s.seen.keys.filter t.isTracked))]
  .object ([("rscs", .object deployed)] ++ tracked ++
    unlessEmpty "needs_diskful" ofName (s.seen.keys.filter t.lacksDiskful) ++
    unlessEmpty "pushes" pushOverview (s.fleet.pushes.drop s.toldPushes) ++
    unlessEmpty "asked" requestOverview (s.controller.asked.drop s.toldRequests))

/-- All pushes and requests so far have been told. -/
def told (s : Session) : Session :=
  { s with toldPushes := s.fleet.pushes.length, toldRequests := s.controller.asked.length }

/-! ## Performing a step -/

/-- A fault is the answer of the step. -/
def conclude {α : Type} (s : Session) (encode : α → Json)
    (r : Controller Fleet × Except Fault α) : Session × Json :=
  ({ s with controller := r.1 }, outcome encode r.2)

def concludeCore {α : Type} (s : Session) (encode : α → Json) (r : Core × Except Fault α) :
    Session × Json :=
  s.conclude encode ({ s.controller with core := r.1 }, r.2)

/-- Go on with something that may have failed. -/
def andThen {α : Type} (s : Session) (r : Except Fault α) (next : α → Session × Json) :
    Session × Json :=
  match r with
  | .ok a => next a
  | .error f => (s, f.overview)

/-- Build something with the identifiers of the session. -/
def build {α : Type} (s : Session) (b : Build α) (next : Session → α → Session × Json) :
    Session × Json :=
  s.andThen (b.run s.controller.uuids) fun (a, uuids) =>
    next { s with controller := { s.controller with uuids } } a

def withNode (s : Session) (j : Json) (next : NodeName → Session × Json) : Session × Json :=
  s.andThen (Name.parse .node (text j "node")) next

def withGroupName (s : Session) (j : Json) (next : GroupName → Session × Json) :
    Session × Json :=
  s.andThen (Name.parse .group (text j "group")) next

def withResource (s : Session) (j : Json) (next : ResourceName → Session × Json) :
    Session × Json :=
  s.andThen (Name.parse .resource (text j "rsc")) next

def orUnknown {α : Type} (what : String) (a : Option α) : Except Fault α :=
  match a with
  | some a => .ok a
  | none => .error (.internal ("unknown " ++ what))

def withDefinition (s : Session) (j : Json) (next : Definition → Session × Json) :
    Session × Json :=
  s.withResource j fun name =>
    s.andThen (orUnknown "definition" (s.graph.definitions.find? name)) next

def withGroup (s : Session) (name : GroupName) (next : Group → Session × Json) :
    Session × Json :=
  s.andThen (orUnknown "group" (s.graph.groups.find? name)) next

end Session

end StorageCluster
