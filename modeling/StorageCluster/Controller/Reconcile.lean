import StorageCluster.Controller.Placement
import StorageCluster.Controller.Replicas
import StorageCluster.Controller.State

/-!
# Reconciling replicas

A tracked definition that has lost replicas to evicted nodes gets new ones. Resources on evicted
nodes are marked deleted and the new resources created in one transaction; what is left to do at the
satellites is put off in a pipeline. A definition stays tracked until it has converged, or until
its pipeline has come through.
-/
namespace StorageCluster

inductive ManageOutcome
  | notTracked
  | needsDiskful
  | converged
  | retryLater (why : String)
  | scheduled
  deriving DecidableEq

/-- Tasks run first, all of them; if none fails, the satellites learn which nodes were evicted, and
the definition is tracked no longer. -/
structure Pipeline where
  tasks : List Task
  eviction : Option (ResourceName × List NodeName) := none

/-- What helpers gather while they manage one definition. -/
structure ManageContext where
  name : ResourceName
  responses : Report := []
  pipelines : List Pipeline := []

structure Managed (σ : Type) where
  controller : Controller σ
  context : ManageContext
  outcome : Except Fault ManageOutcome

/-- How far a placement of replacements got. -/
inductive PlacementStep
  | satisfied
  | noCandidate
  | created (tasks : List Task) (evicted : List NodeName)

structure Replaced (σ : Type) where
  controller : Controller σ
  responses : Report
  step : Except Fault PlacementStep

namespace Definition

/-- The nodes of resources that are on an evicted node. -/
def evictedNodes (d : Definition) (nodes : NodeMap) : List NodeName :=
  (d.resources.values.filter fun r => (nodes.find? r.node).any Node.isEvicted).map (·.node)

/-- Mark a resource deleted, unless it is. -/
def tombstone (state : Definition × Transaction) (node : NodeName) : Definition × Transaction :=
  let (d, changes) := state
  match d.resource? node with
  | none => state
  | some r =>
    if r.isDeleted then state
    else (d.modifyResource node Resource.markDeleted,
      changes ++ [Change.ofColumn r Column.flags r.markDeleted.flags.toColumn])

end Definition

namespace Controller

variable {σ : Type}

def accessFault (name : ResourceName) : Fault :=
  .accessDenied ("accessing flags or properties of resource definition '" ++ name.display ++ "'")
    Code.deniedDefinition

def requireAccess (team : Collaborators σ) (name : ResourceName) (access : AccessType) :
    Except Fault Unit :=
  (team.access.require .system .definition name.display access).mapError
    fun _ => accessFault name

/-- Replica counts of a definition and the placement policy of its group. -/
def assess (team : Collaborators σ) (c : Controller σ) (d : Definition) :
    Except Fault (ReplicaCounts × Filter) := do
  requireAccess team d.name .view
  match c.core.graph.groups.find? d.group with
  | none => throw (.groupNotFound d.group.display)
  | some group =>
    return (d.countReplicas group c.core.graph.nodes c.core.props, group.autoPlace)

/-- What is asked of the placement: as many diskful DRBD replicas as are missing, away from the
present ones, and otherwise what the policy says. -/
def replacementFilter (name : ResourceName) (deficit : Nat) (policy : Filter) : Filter :=
  Filter.merge { placeCount := some (UInt32.ofNat deficit), avoidResources := [name],
                 layerStack := [.drbd] } policy

def replacementContext : ResponseContext :=
  { operation := .delete, objectMask := Code.resource }

/-- Create replacements in the pools that were found, and commit them. -/
def createReplacements (team : Collaborators σ) (c : Controller σ) (responses : Report)
    (name : ResourceName) (filter : Filter) (evicted : List NodeName) (pools : List Pool)
    (working : Definition) (changes : Transaction) : Replaced σ :=
  let creation := team.create c.core
    { context := replacementContext, pools, disklessOnRemaining := filter.wantsDiskless,
      layerStack := filter.layerStack }
    { definition := working, transaction := changes, responses, uuids := c.uuids }
  let c := { c with uuids := creation.draft.uuids }
  match creation.result with
  | .error fault => ⟨c, creation.draft.responses, .error fault⟩
  | .ok (tasks, _) =>
    let (core, result) := c.core.persist creation.draft.transaction fun g =>
      { g with definitions := g.definitions.insert name creation.draft.definition }
    ⟨{ c with core }, creation.draft.responses, result.map fun _ => .created tasks evicted⟩

/-- Find places for what `d` lacks, and use them. -/
def replaceMissing (team : Collaborators σ) (c : Controller σ) (responses : Report)
    (name : ResourceName) (d : Definition) (deficit : Nat) (policy : Filter) : Replaced σ :=
  let evicted := d.evictedNodes c.core.graph.nodes
  let (working, changes) := evicted.foldl Definition.tombstone (d, [])
  let filter := replacementFilter name deficit policy
  let request : PlacementRequest := { filter, sizeBytes := working.totalSize }
  let c := { c with asked := c.asked ++ [request] }
  match team.place c.core request working with
  | .error fault => ⟨c, responses, .error fault⟩
  | .ok none => ⟨c, responses, .ok .noCandidate⟩
  | .ok (some pools) =>
    createReplacements team c responses name filter evicted pools working changes

def placeReplacements (team : Collaborators σ) (c : Controller σ) (responses : Report)
    (name : ResourceName) : Replaced σ :=
  match c.core.graph.definitions.find? name with
  | none => ⟨c, responses, .ok .satisfied⟩
  | some d =>
    match assess team c d with
    | .error fault => ⟨c, responses, .error fault⟩
    | .ok (counts, policy) =>
      if counts.deficit = 0 then ⟨c, responses, .ok .satisfied⟩
      else match requireAccess team name .change with
        | .error fault => ⟨c, responses, .error fault⟩
        | .ok () => replaceMissing team c responses name d counts.deficit policy

def converge (c : Controller σ) (name : ResourceName) : Controller σ :=
  (c.mapTracking (·.release name)).mapMetrics ReconcileMetrics.recordConverged

/-- A definition without connected diskful replica is reported once. -/
def noteNeedsDiskful (c : Controller σ) (name : ResourceName) : Controller σ :=
  if c.tracking.lacksDiskful name then c
  else
    (c.mapTracking fun t => { t with needsDiskful := t.needsDiskful.insert name () }).mapMetrics
      ReconcileMetrics.recordNeedsDiskful

/-- How `manage` ends once replacements were tried. -/
def concludeReplacement (context : ManageContext) (r : Replaced σ) : Managed σ :=
  let c := r.controller
  let context := { context with responses := r.responses }
  match r.step with
  | .ok .satisfied => ⟨c.converge context.name, context, .ok .converged⟩
  | .ok .noCandidate =>
    ⟨(c.mapMetrics ReconcileMetrics.recordPlacementFailure).mapMetrics
        ReconcileMetrics.recordRetryLater, context, .ok (.retryLater "no placement candidate")⟩
  | .ok (.created tasks evicted) =>
    let pipeline : Pipeline := { tasks, eviction := some (context.name, evicted) }
    ⟨c.mapMetrics ReconcileMetrics.recordScheduled,
      { context with pipelines := context.pipelines ++ [pipeline] }, .ok .scheduled⟩
  | .error (.rejected entry) =>
    ⟨c.mapMetrics ReconcileMetrics.recordRetryLater, context, .ok (.retryLater entry.message)⟩
  | .error fault => ⟨c, context, .error fault⟩

/-- Bring the replicas of one definition in order. -/
def manage (team : Collaborators σ) (c : Controller σ) (context : ManageContext) : Managed σ :=
  let name := context.name
  if !c.tracking.isTracked name then ⟨c, context, .ok .notTracked⟩
  else
    let c := c.mapMetrics ReconcileMetrics.recordManage
    match c.core.graph.definitions.find? name with
    | none => ⟨c.mapTracking (·.release name), context, .ok .notTracked⟩
    | some d =>
      match assess team c d with
      | .error fault => ⟨c, context, .error fault⟩
      | .ok (counts, _) =>
        if counts.diskfulConnected = 0 then
          ⟨c.noteNeedsDiskful name, context, .ok .needsDiskful⟩
        else
          let c := c.mapTracking fun t => { t with needsDiskful := t.needsDiskful.erase name }
          if counts.minimum ≤ counts.current then ⟨c.converge name, context, .ok .converged⟩
          else concludeReplacement context (placeReplacements team c context.responses name)

end Controller

end StorageCluster
