import StorageCluster.Format.Node

/-!
# Topology events

Changes of the cluster that a controller reacts to, and the channel they travel through. The channel
keeps a limited number of events for its receiver; when more are sent, the oldest are dropped and
the receiver is told so once before it gets those that were kept.
-/
namespace StorageCluster

inductive TopologyEvent
  | nodeEvicted (node : NodeName)
  | nodeRestored (node : NodeName)
  | connectionChanged (node : NodeName) (status : ConnectionStatus)
  deriving DecidableEq

namespace TopologyEvent

def node : TopologyEvent → NodeName
  | .nodeEvicted node => node
  | .nodeRestored node => node
  | .connectionChanged node _ => node

/-- The variants by the word that names them, with their fields. -/
inductive Variant
  | evicted
  | restored
  | connection

def variant? (word : String) : Option (Variant × List String) :=
  match word with
  | "nodeEvicted" => some (.evicted, ["node"])
  | "nodeRestored" => some (.restored, ["node"])
  | "nodeConnectionChanged" => some (.connection, ["node", "status"])
  | _ => none

def toJson : TopologyEvent → Json
  | .nodeEvicted node => .object [("type", .string "nodeEvicted"), ("node", node.toJson)]
  | .nodeRestored node => .object [("type", .string "nodeRestored"), ("node", node.toJson)]
  | .connectionChanged node status =>
    .object [("type", .string "nodeConnectionChanged"), ("node", node.toJson),
      ("status", Json.word ConnectionStatus.names status)]

/-- Inside a buffered record, the word of a choice may also hold an empty object. -/
def bufferedStatus? : Json → Option ConnectionStatus
  | .object [(word, .object [])] => ConnectionStatus.names.lookup word
  | j => j.choice? ConnectionStatus.names

def ofJson? (j : Json) : Option TopologyEvent :=
  if !j.isBufferable 127 then none
  else match j.taggedSlots? "type" variant? with
    | some (.evicted, [node]) => (node.required Name.ofJson?).map .nodeEvicted
    | some (.restored, [node]) => (node.required Name.ofJson?).map .nodeRestored
    | some (.connection, [node, status]) => do
      return .connectionChanged (← node.required Name.ofJson?) (← status.required bufferedStatus?)
    | _ => none

end TopologyEvent

/-- The next power of two, at least one. -/
def nextPowerOfTwo (n : Nat) : Nat := if n ≤ 1 then 1 else Nat.pow 2 ((n - 1).log2 + 1)

/-- A channel with room for `capacity` events, and what waits in it for its receiver. -/
structure Channel where
  capacity : Nat
  listening : Bool := false
  pending : List TopologyEvent := []
  dropped : Nat := 0
  deriving DecidableEq

/-- What a receiver gets. -/
inductive Received
  | nothing
  | event (e : TopologyEvent)
  | lagged (count : Nat)
  deriving DecidableEq

namespace Channel

/-- Room is made in powers of two. -/
def ofCapacity (capacity : Nat) : Channel := { capacity := nextPowerOfTwo capacity }

/-- A new receiver sees only what is sent from now on. -/
def subscribe (c : Channel) : Channel := { c with listening := true, pending := [], dropped := 0 }

def unsubscribe (c : Channel) : Channel :=
  { c with listening := false, pending := [], dropped := 0 }

def receivers (c : Channel) : Nat := c.listening.toNat

def send (c : Channel) (e : TopologyEvent) : Channel :=
  if !c.listening then c
  else if c.pending.length < c.capacity then { c with pending := c.pending ++ [e] }
  else { c with pending := c.pending.drop 1 ++ [e], dropped := c.dropped + 1 }

def receive (c : Channel) : Channel × Received :=
  match c.dropped, c.pending with
  | n + 1, _ => ({ c with dropped := 0 }, .lagged (n + 1))
  | 0, e :: rest => ({ c with pending := rest }, .event e)
  | 0, [] => (c, .nothing)

end Channel

end StorageCluster
