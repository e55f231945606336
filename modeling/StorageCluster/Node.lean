import StorageCluster.Address
import StorageCluster.Fault
import StorageCluster.Flags
import StorageCluster.Props
import StorageCluster.Uuid

/-!
# Nodes

A node has network interfaces, flags and a connection. Two different nodes may be joined by a
connection of their own, whose ends are kept in the order of their names.
-/
namespace StorageCluster

inductive ConnectionStatus
  | offline
  | connecting
  | connected
  | authenticated
  deriving DecidableEq, Repr, Inhabited

def ConnectionStatus.names : List (String × ConnectionStatus) :=
  [("Offline", .offline), ("Connecting", .connecting), ("Connected", .connected),
    ("Authenticated", .authenticated)]

inductive Encryption
  | plain
  | ssl
  deriving DecidableEq, Repr, Inhabited

def Encryption.names : List (String × Encryption) := [("plain", .plain), ("ssl", .ssl)]

structure Interface where
  uuid : Uuid
  name : InterfaceName
  address : Address
  port : Option UInt16 := none
  encryption : Option Encryption := none
  deriving DecidableEq

structure Node where
  uuid : Uuid
  name : NodeName
  flags : NodeFlags := .none
  props : Props := .empty
  interfaces : SortedMap InterfaceName Interface := .empty
  status : ConnectionStatus := .offline
  deriving DecidableEq

namespace Node

def isConnected (n : Node) : Bool := n.status == .connected || n.status == .authenticated

def isEvicted (n : Node) : Bool := n.flags.contains NodeFlags.evicted

def addInterface (n : Node) (i : Interface) : Except Fault Node :=
  if n.interfaces.contains i.name then
    .error (.configuration ("network interface '" ++ i.name.display ++
      "' already exists on node '" ++ n.name.display ++ "'"))
  else .ok { n with interfaces := n.interfaces.insert i.name i }

/-- The first interface with a port for the satellite. -/
def satelliteInterface? (n : Node) : Option Interface :=
  n.interfaces.values.find? fun i => i.port.isSome

end Node

structure Connection where
  uuid : Uuid
  source : NodeName
  target : NodeName
  props : Props := .empty
  deriving DecidableEq

namespace Connection

def between (uuid : Uuid) (a b : NodeName) : Except Fault Connection :=
  match compare a b with
  | .eq => .error (.configuration ("node connection requires two distinct nodes, got '" ++
      a.display ++ "' twice"))
  | .lt => .ok { uuid, source := a, target := b }
  | .gt => .ok { uuid, source := b, target := a }

def involves (c : Connection) (node : NodeName) : Bool := c.source == node || c.target == node

def otherEnd? (c : Connection) (node : NodeName) : Option NodeName :=
  if c.source == node then some c.target
  else if c.target == node then some c.source
  else none

end Connection

end StorageCluster
