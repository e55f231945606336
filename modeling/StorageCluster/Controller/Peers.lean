import StorageCluster.Controller.State
import StorageCluster.Satellite.Devices
import StorageCluster.Satellite.Service

/-!
# Satellites as peers

Satellites that registered with the controller. A push sends each connected and registered node its
own resource and the snapshots on it; a node that is not connected, not registered or no longer
served cannot be reached, and one that does not answer runs into the timeout.

In a fleet, satellites or stand-ins for them are at the other end. Without any time to wait, every
message that can be sent times out, and the satellite applies it when the controller is idle.
Instead of peers, a fleet may have answers laid down in advance.
-/
namespace StorageCluster

/-- What came back for a message. -/
inductive Reply
  | report (r : Report)
  | lost
  | timedOut

/-- Peers, whatever they do with the messages they get. -/
structure Peers (σ : Type) where
  isRegistered : NodeName → Bool
  timeout : Duration
  /-- Send a message to a node that is registered; the reply, and the milliseconds it was waited
  for, if at all. -/
  exchange : σ → NodeName → Delivery → σ × Option Nat × Reply

namespace Peers

variable {σ : Type}

def outcome (p : Peers σ) (node : NodeName) : Reply → Except Fault Report
  | .report r => .ok r
  | .lost => .error (.notConnected node.display)
  | .timedOut => .error (.timeout node.display p.timeout)

/-- Send a message to a node, if it is registered. -/
def send (p : Peers σ) (s : σ) (node : NodeName) (m : Delivery) :
    σ × Option Nat × Except Fault Report :=
  if p.isRegistered node then
    let (s, wait, reply) := p.exchange s node m
    (s, wait, p.outcome node reply)
  else (s, none, p.outcome node .lost)

/-- The message for one node of a definition. -/
def deliveryFor (d : Definition) (r : Resource) : Delivery where
  isFullSync := false
  resources := [r]
  snapshots := d.snapshots.values.filter fun s => s.node == r.node

def isConnected (nodes : SortedMap NodeName Node) (node : NodeName) : Bool :=
  nodes.values.any fun n => n.isConnected && n.name == node

def longer : Option Nat → Option Nat → Option Nat
  | none, w => w
  | w, none => w
  | some a, some b => some (max a b)

def applyOn (p : Peers σ) (nodes : SortedMap NodeName Node) (d : Definition)
    (state : σ × Option Nat × List NodeResponse) (r : Resource) :
    σ × Option Nat × List NodeResponse :=
  let (s, waited, responses) := state
  let (s, wait, result) :=
    if isConnected nodes r.node then p.send s r.node (deliveryFor d r)
    else (s, none, p.outcome r.node .lost)
  (s, longer waited wait, responses ++ [NodeResponse.mk r.node result])

/-- The resources of a definition on the nodes that the filter lets pass. -/
def targets (d : Definition) (allow : NodeName → Bool) : List Resource :=
  d.resources.values.filter fun r => allow r.node

/-- Bring a definition to the satellites of the nodes that the filter lets pass. -/
def push (p : Peers σ) (s : σ) (core : Core) (d : Definition) (allow : NodeName → Bool) :
    Pushed σ :=
  let (s, waited, responses) := (targets d allow).foldl (p.applyOn core.graph.nodes d) (s, none, [])
  ⟨s, waited, .ok responses⟩

end Peers

/-- What is at the other end of a peer's channel: the satellite of the node, or a stand-in. -/
inductive Link
  | served
  | silent
  | dropping
  | closed
  deriving DecidableEq

/-- The satellite of a node, whether or not it is registered, and the messages that wait for it. -/
structure Station where
  satellite : Satellite Devices
  waiting : List Delivery := []
  hasEnded : Bool := false

namespace Station

/-- A defect ends the satellite's service, and its reply is lost. -/
def deliver (s : Station) (m : Delivery) : Station × Reply :=
  if s.hasEnded then (s, .lost)
  else
    match s.satellite.handle m with
    | (satellite, .ok report) => ({ s with satellite }, .report report)
    | (satellite, .error _) => ({ s with satellite, hasEnded := true }, .lost)

/-- Apply the messages that wait; nobody hears of the replies. -/
def catchUp (s : Station) : Station :=
  s.waiting.foldl (fun s m => (s.deliver m).1) { s with waiting := [] }

end Station

/-- Answers laid down in advance: a fault of every push, and the answers of nodes by spelling. -/
structure Script where
  fault : Option Fault := none
  answers : List (String × Except Fault Report) := []

/-- A push as it was made: the resource, and its resources that the filter let pass. -/
structure PushRecord where
  resource : ResourceName
  sent : List Resource

structure Fleet where
  script : Script := {}
  /-- Without peers the script answers. -/
  usesPeers : Bool := false
  links : SortedMap NodeName Link := .empty
  stations : SortedMap NodeName Station := .empty
  timeoutMillis : Nat := 10000
  pushes : List PushRecord := []

namespace Fleet

def register (f : Fleet) (node : NodeName) (link : Link) : Fleet :=
  { f with links := f.links.insert node link }

/-- Set up the satellite of a node and register it. -/
def serve (f : Fleet) (node : NodeName) (satellite : Satellite Devices) : Fleet :=
  { f.register node .served with stations := f.stations.insert node { satellite } }

def unregister (f : Fleet) (node : NodeName) : Fleet := { f with links := f.links.erase node }

/-- What the satellites do while the controller is idle. -/
def catchUp (f : Fleet) : Fleet :=
  { f with stations := f.stations.map fun _ s => s.catchUp }

def scripted (s : Script) (r : Resource) : NodeResponse :=
  ⟨r.node, (s.answers.lookup r.node.display).getD (.ok [])⟩

def setStation (f : Fleet) (node : NodeName) (s : Station) : Fleet :=
  { f with stations := f.stations.insert node s }

/-- Send a message over a link; the reply, and the milliseconds it was waited for, if at all. -/
def sendOver (f : Fleet) (node : NodeName) (m : Delivery) : Link → Fleet × Option Nat × Reply
  | .closed => (f, none, .lost)
  | .silent => (f, some f.timeoutMillis, .timedOut)
  | .dropping => (f, some 0, .lost)
  | .served =>
    match f.stations.find? node with
    | none => (f, none, .lost)
    | some s =>
      let (after, reply) := s.deliver m
      (f.setStation node after, if s.hasEnded then none else some 0, reply)

/-- Put a message in a link's channel without waiting for the reply. -/
def post (f : Fleet) (node : NodeName) (m : Delivery) : Link → Fleet × Reply
  | .closed => (f, .lost)
  | .silent | .dropping => (f, .timedOut)
  | .served =>
    match f.stations.find? node with
    | none => (f, .lost)
    | some s =>
      if s.hasEnded then (f, .lost)
      else (f.setStation node { s with waiting := s.waiting ++ [m] }, .timedOut)

/-- Send a message to a node that is registered. -/
def exchange (f : Fleet) (node : NodeName) (m : Delivery) : Fleet × Option Nat × Reply :=
  match f.links.find? node with
  | none => (f, none, .lost)
  | some link =>
    if f.timeoutMillis = 0 then
      let (f, reply) := f.post node m link
      (f, none, reply)
    else f.sendOver node m link

def peers (f : Fleet) : Peers Fleet where
  isRegistered := f.links.contains
  timeout := .ofMillis f.timeoutMillis
  exchange := exchange

/-- Bring a definition to the satellites of the nodes that the filter lets pass. -/
def push (f : Fleet) (core : Core) (d : Definition) (allow : NodeName → Bool) : Pushed Fleet :=
  match f.script.fault with
  | some fault => ⟨f, none, .error fault⟩
  | none =>
    let sent := Peers.targets d allow
    let f := { f with pushes := f.pushes ++ [PushRecord.mk d.name sent] }
    if f.usesPeers then f.peers.push f core d allow
    else ⟨f, none, .ok (sent.map (scripted f.script))⟩

/-- The message with everything that is deployed on a node. -/
def fullSyncFor (core : Core) (node : NodeName) : Delivery where
  isFullSync := true
  resources := core.resourcesOn node
  snapshots := (core.graph.definitions.values.flatMap (·.snapshots.values)).filter
    fun s => s.node == node

def fullSync (f : Fleet) (core : Core) (node : NodeName) : Fleet × Except Fault Report :=
  let (f, _, result) := f.peers.send f node (fullSyncFor core node)
  (f, result)

end Fleet

end StorageCluster
