import StorageCluster.Format.Basic

/-!
# Written form of nodes and connections

The connection status of a node is of the moment and not written. Reading a connection takes its
ends as they are.
-/
namespace StorageCluster

namespace Interface

def toJson (i : Interface) : Json :=
  .object [("uuid", i.uuid.toJson), ("name", i.name.toJson), ("address", i.address.toJson),
    ("stlt_port", Json.nullOr (fun p => .natural p.toNat) i.port),
    ("stlt_encryption", Json.nullOr (Json.word Encryption.names) i.encryption)]

def ofJson? (j : Json) : Option Interface := do
  let [uuid, name, address, port, encryption] ←
    j.slots? ["uuid", "name", "address", "stlt_port", "stlt_encryption"] | none
  return {
    uuid := ← uuid.required Uuid.ofJson?
    name := ← name.required Name.ofJson?
    address := ← address.required Address.ofJson?
    port := ← port.optional Json.uint16?
    encryption := ← encryption.optional (Json.choice? Encryption.names) }

end Interface

namespace Node

def toJson (n : Node) : Json :=
  .object [("uuid", n.uuid.toJson), ("name", n.name.toJson), ("flags", n.flags.toJson),
    ("props", n.props.toJson),
    ("net_interfaces", Json.ofSortedMap Name.display Interface.toJson n.interfaces)]

def ofJson? (j : Json) : Option Node := do
  let [uuid, name, flags, props, interfaces] ←
    j.slots? ["uuid", "name", "flags", "props", "net_interfaces"] | none
  return {
    uuid := ← uuid.required Uuid.ofJson?
    name := ← name.required Name.ofJson?
    flags := ← flags.required Flags.ofJson?
    props := ← props.required Props.ofJson?
    interfaces := ← interfaces.required
      (Json.sortedMap? (Name.ofText? .interface) Interface.ofJson?) }

end Node

namespace Connection

def toJson (c : Connection) : Json :=
  .object [("uuid", c.uuid.toJson), ("source", c.source.toJson), ("target", c.target.toJson),
    ("props", c.props.toJson)]

def ofJson? (j : Json) : Option Connection := do
  let [uuid, source, target, props] ← j.slots? ["uuid", "source", "target", "props"] | none
  return {
    uuid := ← uuid.required Uuid.ofJson?
    source := ← source.required Name.ofJson?
    target := ← target.required Name.ofJson?
    props := ← props.required Props.ofJson? }

end Connection

end StorageCluster
