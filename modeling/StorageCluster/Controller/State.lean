import StorageCluster.Access
import StorageCluster.Controller.Creation
import StorageCluster.Controller.Event
import StorageCluster.Controller.Push
import StorageCluster.Metrics

/-!
# The controller

The state of a controller over the state `σ` of its satellites, and the collaborators that it works
with: who decides about access, who finds places for replicas, who creates resources and who brings
changes to the satellites.
-/
namespace StorageCluster

/-- Definitions that wait for reconciliation, and those among them that have no connected diskful
replica. -/
structure Tracking where
  needsReconciliation : NameSet .resource := .empty
  needsDiskful : NameSet .resource := .empty
  deriving DecidableEq

namespace Tracking

def mark (t : Tracking) (name : ResourceName) : Tracking :=
  { t with needsReconciliation := t.needsReconciliation.insert name () }

def release (t : Tracking) (name : ResourceName) : Tracking :=
  { needsReconciliation := t.needsReconciliation.erase name
    needsDiskful := t.needsDiskful.erase name }

def isTracked (t : Tracking) (name : ResourceName) : Bool := t.needsReconciliation.contains name

def lacksDiskful (t : Tracking) (name : ResourceName) : Bool := t.needsDiskful.contains name

end Tracking

/-- A request for places, as it was put. -/
structure PlacementRequest where
  filter : Filter
  sizeBytes : UInt64
  deriving DecidableEq

structure Controller (σ : Type) where
  core : Core
  satellites : σ
  tracking : Tracking := {}
  metrics : ReconcileMetrics := {}
  events : Channel
  uuids : Uuid.Supply := ⟨0⟩
  /-- Every request for places so far. -/
  asked : List PlacementRequest := []

/-- What a push did: the satellites afterwards, the milliseconds it waited for one of them (`none`
when it did not wait at all), and the answers in the order of the nodes. -/
structure Pushed (σ : Type) where
  satellites : σ
  waited : Option Nat
  answer : Except Fault (List NodeResponse)

structure Collaborators (σ : Type) where
  access : AccessPolicy
  place : Core → PlacementRequest → Definition → Except Fault (Option (List Pool))
  create : Core → CreationRequest → Draft → Creation
  push : σ → Core → Definition → (NodeName → Bool) → Pushed σ
  /-- What the satellites do on their own while the controller is idle. -/
  rest : σ → σ

namespace Controller

variable {σ : Type}

/-- Push a definition to the satellites that the filter lets pass. -/
def push (team : Collaborators σ) (c : Controller σ) (d : Definition)
    (allow : NodeName → Bool) : Controller σ × Option Nat × Except Fault (List NodeResponse) :=
  let p := team.push c.satellites c.core d allow
  ({ c with satellites := p.satellites }, p.waited, p.answer)

/-- Nothing is left to do for the controller at this time. -/
def idle (team : Collaborators σ) (c : Controller σ) : Controller σ :=
  { c with satellites := team.rest c.satellites }

def mapTracking (c : Controller σ) (f : Tracking → Tracking) : Controller σ :=
  { c with tracking := f c.tracking }

def mapMetrics (c : Controller σ) (f : ReconcileMetrics → ReconcileMetrics) : Controller σ :=
  { c with metrics := f c.metrics }

/-- Send an event; the number of its receivers. -/
def publish (c : Controller σ) (e : TopologyEvent) : Controller σ × Nat :=
  ({ c with events := c.events.send e }, c.events.receivers)

def setNodeFlags (c : Controller σ) (node : NodeName) (set clear : NodeFlags)
    (e : TopologyEvent) : Controller σ × Except Fault Unit :=
  let (core, result) := c.core.updateNodeFlags node set clear
  let c := { c with core }
  match result with
  | .ok _ => ((c.publish e).1, .ok ())
  | .error fault => (c, .error fault)

def evictNode (c : Controller σ) (node : NodeName) : Controller σ × Except Fault Unit :=
  c.setNodeFlags node NodeFlags.evicted .none (.nodeEvicted node)

def restoreNode (c : Controller σ) (node : NodeName) : Controller σ × Except Fault Unit :=
  c.setNodeFlags node .none NodeFlags.evicted (.nodeRestored node)

def setConnectionStatus (c : Controller σ) (node : NodeName) (status : ConnectionStatus) :
    Controller σ × Except Fault Unit :=
  match c.core.setConnectionStatus node status with
  | (core, .ok ()) => (({ c with core }.publish (.connectionChanged node status)).1, .ok ())
  | (core, .error fault) => ({ c with core }, .error fault)

/-- Mark every definition with a resource on the node; how many there are. -/
def handleEvent (c : Controller σ) (e : TopologyEvent) : Controller σ × Nat :=
  let resources := c.core.resourcesOn e.node
  (c.mapTracking fun t => resources.foldl (fun t r => t.mark r.name) t, resources.length)

end Controller

end StorageCluster
