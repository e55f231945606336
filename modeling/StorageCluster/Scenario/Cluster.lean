import StorageCluster.Scenario.Session

/-!
# The steps of a cluster

What can happen to a cluster in a scenario. Every step has an answer; a step that fails answers with
its fault and the session goes on.
-/
namespace StorageCluster.Session

open Scenario Overview

/-- Run pipelines one after another. -/
def drive (team : Collaborators Fleet) (c : Controller Fleet) (pipelines : List Pipeline) :
    Controller Fleet × List Json :=
  pipelines.foldl (fun state p =>
    let (c, report) := state.1.runPipeline team p
    (c, state.2 ++ [outcome Report.overview report])) (c, [])

/-- The parts of an answer that tell how far a creation got. -/
def draftParts (d : Draft) : List (String × Json) :=
  [("responses", Report.overview d.responses), ("ops", ofCount d.transaction.length)]

/-- Store what was created, then activate it. -/
def finishCreation (s : Session) (draft : Draft) (tasks : List Task) (created : List NodeName) :
    Session × Json :=
  let (core, result) := s.core.persist draft.transaction fun g => g.setDefinition draft.definition
  let s := { s with controller := { s.controller with core } }
  s.andThen result fun _ =>
    let (controller, activated) := drive s.team s.controller (tasks.map fun t => { tasks := [t] })
    ({ s with controller }, .object ([("created_on", Json.listOf ofName created),
      ("tables", Json.listOf (fun t => .string t.name) (Transaction.tables draft.transaction)),
      ("activated", .array activated), ("dfn", draft.definition.overview)] ++ draftParts draft))

def operation (j : Json) : Operation :=
  match text? j "operation" with
  | none | some "Create" => .create
  | some "Modify" => .modify
  | some _ => .delete

def create (s : Session) (j : Json) : Session × Json :=
  s.withDefinition j fun definition =>
  s.build ((items j "pools").mapM Blueprint.pool) fun s pools =>
  s.andThen (Blueprint.stack j "stack") fun layerStack =>
    let objectMask := (word64? j "mask").getD Code.resource
    let request : CreationRequest :=
      { context := { operation := operation j, objectMask }, pools,
        disklessOnRemaining := flag j "diskless", layerStack }
    let creation := s.core.createResources request { definition, uuids := s.controller.uuids }
    let s := { s with controller := { s.controller with uuids := creation.draft.uuids } }
    match creation.result with
    | .error f => (s, .object (("failed", f.overview) :: draftParts creation.draft))
    | .ok (tasks, created) => s.finishCreation creation.draft tasks created

def primary (s : Session) (j : Json) : Session × Json :=
  s.withNode j fun node => s.withResource j fun resource =>
  s.build (Blueprint.uuid j) fun s uuid =>
    s.conclude (fun answer => .object [("granted", .bool answer.isGranted),
        ("json", .string answer.toJson.render)])
      (s.controller.handlePrimary s.team (Blueprint.accessContext j "ctx") node
        { resource, uuid, alreadyInitialized := flag j "init" })

def manage (s : Session) (j : Json) : Session × Json :=
  s.withResource j fun name =>
    let managed := s.controller.manage s.team { name }
    let pipelines := managed.context.pipelines
    ({ s with controller := managed.controller, kept := s.kept ++ pipelines },
      outcome (fun o => .object [("outcome", o.overview),
        ("responses", Report.overview managed.context.responses),
        ("pipelines", ofCount pipelines.length)]) managed.outcome)

def event (j : Json) : Except Fault TopologyEvent :=
  match TopologyEvent.ofJson? (written j "event") with
  | some e => .ok e
  | none => .error .malformedJson

def occurrence (j : Json) : Except Fault Occurrence := do
  match text j "do" with
  | "evict" => return .evict (← Name.parse .node (text j "node"))
  | "restore" => return .restore (← Name.parse .node (text j "node"))
  | "connect" =>
    return .connect (← Name.parse .node (text j "node")) (Blueprint.status j)
  | "mark" => return .mark (← Name.parse .resource (text j "rsc"))
  | _ => return .publish (← event j)

/-- What cannot be read happens as a fault. -/
def timedOccurrence (j : Json) : Nat × Occurrence :=
  (number j "at_ms", match occurrence j with
    | .ok o => o
    | .error f => .fault f)

def occurrenceOverview : OccurrenceResult → Json
  | .done | .marked _ => done ()
  | .failed f => f.overview
  | .received n => ofCount n

def noteMarked (s : Session) (o : Nat × Occurrence) : Session :=
  match o.2 with
  | .mark name => s.note name
  | _ => s

/-- Let the loop run for some time. -/
def runLoop (s : Session) (j : Json) : Session × Json :=
  let ahead := (items j "events").map timedOccurrence
  let (controller, results) :=
    s.controller.runLoop s.team s.helpers s.intervalMillis (number j "for_ms") ahead
  (ahead.foldl noteMarked { s with controller },
    .object [("events", Json.listOf occurrenceOverview results),
      ("metrics", controller.metrics.overview)])

/-- What stands in for the satellite of a node, if anything. -/
def standIn? (j : Json) : Option Link :=
  match text j "mode" with
  | "silent" => some .silent
  | "drop" => some .dropping
  | "closed" => some .closed
  | _ => none

def registerSatellite (s : Session) (j : Json) : Session × Json :=
  s.withNode j fun node => s.andThen (Rig.ofJson node j) fun rig =>
    let s := match standIn? j with
      | some link => s.setFleet (s.fleet.register node link)
      | none =>
        { s with rigs := s.rigs.insert node rig }.setFleet (s.fleet.serve node rig.satellite)
    (s, ofCount s.fleet.links.size)

/-- The state of the last satellite that was set up for a node. -/
def satelliteState (s : Session) (j : Json) : Session × Json :=
  s.withNode j fun node =>
    match s.rigs.find? node, s.fleet.stations.find? node with
    | some rig, some station =>
      let told := { station with satellite := Rig.forgetCalls station.satellite }
      (s.setFleet (s.fleet.setStation node told),
        { rig with satellite := station.satellite }.overview)
    | _, _ => (s, (Fault.internal "unknown satellite").overview)

/-- Push a definition, to all of its nodes or only to those that are named. -/
def update (s : Session) (j : Json) : Session × Json :=
  s.withDefinition j fun d =>
    let allow (node : NodeName) : Bool := match items? j "only" with
      | none => true
      | some _ => (texts j "only").any fun t => sameIgnoringCase t node.display
    let (c, _, answer) := s.controller.push s.team d allow
    s.conclude (Json.listOf fun r =>
      .array [ofName r.node, outcome Report.overview r.result]) (c, answer)

/-- Load the graph from the store, and keep it if asked to. -/
def reload (s : Session) (j : Json) : Session × Json :=
  s.andThen (Graph.load s.core.store) fun (graph, summary) =>
    (if flag j "keep" then s.setGraph graph else s,
      .object [("summary", summary.overview), ("core", graph.overview .empty)])

/-- Search places, whatever was laid down about them. -/
def select (s : Session) (j : Json) : Session × Json :=
  s.withDefinition j fun d => s.andThen (Blueprint.filter j "filter") fun filter =>
    let size := (word64? j "size").getD d.totalSize
    let place (p : Pool) : Json := .string (p.node.display ++ "/" ++ p.name.display)
    (s, outcome (Json.nullOr (Json.listOf place)) (s.graph.place Expression.engine filter d size))

def setNodeProps (s : Session) (j : Json) : Session × Json :=
  s.withNode j fun name => s.andThen (orUnknown "node" (s.graph.nodes.find? name)) fun n =>
    (s.setGraph (s.graph.setNode { n with props := props j "props" }), done ())

def setPlacement (s : Session) (j : Json) : Session × Json :=
  s.withGroupName j fun name => s.withGroup name fun g =>
  s.andThen (Blueprint.filter j "place") fun autoPlace =>
    (s.setGraph (s.graph.setGroup { g with autoPlace }), done ())

def setControllerProp (s : Session) (j : Json) : Session × Json :=
  let (key, space) := (text j "key", text? j "ns")
  let props := s.core.props.set key space (text j "value")
  s.concludeCore (Json.nullOr .string)
    ({ s.core with props }, .ok (s.core.props.get? key space))

def counts (s : Session) (j : Json) : Session × Json :=
  s.withDefinition j fun d => s.withGroup d.group fun g =>
    let counts := d.countReplicas g s.graph.nodes s.core.props
    (s, .array (counts.parts.map (·.2)))

/-- Steps that change or show the objects of the controller. -/
def actOnCore (s : Session) (j : Json) : Option (Session × Json) :=
  match text j "do" with
  | "create_node" => some <|
    s.build (Blueprint.node j) fun s n => s.concludeCore done (s.core.createNode n)
  | "create_conn" => some <|
    s.build (Blueprint.connection j) fun s c => s.concludeCore done (s.core.createConnection c)
  | "create_group" => some <|
    s.build (Blueprint.group j) fun s g => s.concludeCore done (s.core.createGroup g)
  | "create_dfn" => some <|
    s.build (Blueprint.definition j) fun s d => s.concludeCore done (s.core.createDefinition d)
  | "create_pool" => some <|
    s.build (Blueprint.pool j) fun s p => s.concludeCore done (s.core.createPool p)
  | "node_flags" => some <| s.withNode j fun node => s.concludeCore ofFlags
      (s.core.updateNodeFlags node ⟨word64 j "set"⟩ ⟨word64 j "clear"⟩)
  | "node_props" => some (s.setNodeProps j)
  | "on_node" => some <| s.withNode j fun node =>
    (s, Json.listOf ofName (s.core.definitionsOn node))
  | "ctrl_prop" => some (s.setControllerProp j)
  | "set_place" => some (s.setPlacement j)
  | "remove_group" => some <| s.withGroupName j fun name =>
    (s.setGraph { s.graph with groups := s.graph.groups.erase name },
      .bool (s.graph.groups.contains name))
  | "remove_dfn" => some <| s.withResource j fun name =>
    (s.setGraph { s.graph with definitions := s.graph.definitions.erase name },
      .bool (s.graph.definitions.contains name))
  | "remove_node" => some <| s.withNode j fun name =>
    (s.setGraph { s.graph with nodes := s.graph.nodes.erase name },
      .bool (s.graph.nodes.contains name))
  | "fail_commits" =>
    let store := { s.core.store with outage := number j "count" }
    some (s.concludeCore done ({ s.core with store }, .ok ()))
  | "db" => some (s, outcome id s.core.store.overview)
  | "dump" => some (s, s.graph.overview s.core.props)
  | "reload" => some (s.reload j)
  | "counts" => some (s.counts j)
  | "select" => some (s.select j)
  | "create" => some (s.create j)
  | _ => none

/-- Steps that reconcile replicas. -/
def actOnReplicas (s : Session) (j : Json) : Option (Session × Json) :=
  match text j "do" with
  | "evict" => some <| s.withNode j fun node =>
    s.conclude done (s.controller.evictNode node)
  | "restore" => some <| s.withNode j fun node =>
    s.conclude done (s.controller.restoreNode node)
  | "connect" => some <| s.withNode j fun node =>
    s.conclude done (s.controller.setConnectionStatus node (Blueprint.status j))
  | "event" => some <| s.andThen (event j) fun e =>
    let (c, n) := s.controller.handleEvent e
    s.conclude ofCount (c, .ok n)
  | "publish" => some <| s.andThen (event j) fun e =>
    let (c, n) := s.controller.publish e
    s.conclude ofCount (c, .ok n)
  | "mark" => some <| s.withResource j fun name =>
    let (c, n) := s.controller.mark name
    (s.note name).conclude ofCount (c, .ok n)
  | "manage" => some (s.manage j)
  | "drive" =>
    let (controller, answers) := drive s.team s.controller s.kept
    some ({ s with controller, kept := [] }, .array answers)
  | "cycle" =>
    let (c, report) := s.controller.runCycle s.team s.helpers
    some (s.conclude CycleReport.overview (c, .ok report))
  | "run" => some (s.runLoop j)
  | "metrics" => some (s, s.controller.metrics.overview)
  | "primary" => some (s.primary j)
  | _ => none

/-- Steps that deal with satellites. -/
def actOnFleet (s : Session) (j : Json) : Option (Session × Json) :=
  match text j "do" with
  | "script" => some (s.setFleet { s.fleet with script := script (object j "set") }, done ())
  | "satellite" => some (s.registerSatellite j)
  | "unregister" => some <| s.withNode j fun node =>
    let fleet := s.fleet.unregister node
    (s.setFleet fleet, .array [.bool (s.fleet.links.contains node), ofCount fleet.links.size])
  | "full_sync" => some <| s.withNode j fun node =>
    let (fleet, answer) := s.fleet.fullSync s.core node
    (s.setFleet fleet, outcome Report.overview answer)
  | "update" => some (s.update j)
  | "sat_state" => some (s.satelliteState j)
  | _ => none

def act (s : Session) (j : Json) : Session × Json :=
  (s.actOnCore j <|> s.actOnReplicas j <|> s.actOnFleet j).getD
    (s, (Rig.unknownStep j).overview)

/-- Perform a step and tell the state after it, unless the step is to be quiet and succeeded. -/
def step (s : Session) (j : Json) : Session × Json :=
  let (s, answer) := s.act j
  let s := s.graph.definitions.values.foldl (fun s d => s.note d.name) s
  if flag j "q" && (field? answer "error").isNone then (s, .object [("r", answer)])
  else (s.told, .object [("r", answer), ("state", s.overview)])

end StorageCluster.Session
