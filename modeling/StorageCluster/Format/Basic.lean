import StorageCluster.Access
import StorageCluster.Node
import StorageCluster.Resource
import StorageCluster.Text.Json.Decode

/-!
# Written form of the parts of entities

Names, flags and identifiers are written as strings, choices as words, properties as a record with
the one field `map`. Every `toJson` has an `ofJson?` beside it.
-/
namespace StorageCluster

namespace Json

def nullOr {α : Type} (encode : α → Json) : Option α → Json
  | none => .null
  | some a => encode a

def listOf {α : Type} (encode : α → Json) (xs : List α) : Json := .array (xs.map encode)

def word {α : Type} [DecidableEq α] (table : List (String × α)) (a : α) : Json :=
  match table.find? fun entry => entry.2 = a with
  | some (name, _) => .string name
  | none => .null

def uint64 (n : UInt64) : Json := .natural n.toNat

def uint32 (n : UInt32) : Json := .natural n.toNat

/-- A map written as an object; later members win, the first spelling of a name stays. -/
def sortedMap? {κ α : Type} [Ord κ] [Std.TransOrd κ] (key : String → Option κ)
    (decode : Json → Option α) (j : Json) : Option (SortedMap κ α) :=
  (pairs? key decode j).map SortedMap.ofList

def ofSortedMap {κ α : Type} [Ord κ] (key : κ → String) (encode : α → Json)
    (m : SortedMap κ α) : Json :=
  .object (m.entries.map fun e => (key e.1, encode e.2))

end Json

namespace Name

variable {kind : NameKind}

def toJson (name : Name kind) : Json := .string name.display

def ofJson? (j : Json) : Option (Name kind) := j.text?.bind (ofText? kind)

end Name

namespace Uuid

def toJson (id : Uuid) : Json := .string id.toText

def ofJson? (j : Json) : Option Uuid := j.text?.bind ofText?

end Uuid

namespace Address

def toJson (a : Address) : Json := .string a.toText

def ofJson? (j : Json) : Option Address := j.text?.bind ofText?

end Address

namespace Flags

variable {kind : FlagKind}

def toJson (f : Flags kind) : Json := .string f.toText

def ofJson? (j : Json) : Option (Flags kind) := j.text?.bind ofText?

end Flags

namespace Props

def toJson (p : Props) : Json := .object [("map", Json.ofSortedMap id .string p.map)]

def ofJson? (j : Json) : Option Props := do
  let [map] ← j.slots? ["map"] | none
  let map ← map.required (Json.sortedMap? some Json.text?)
  return ⟨map⟩

end Props

namespace LayerKind

def toJson (k : LayerKind) : Json := .string k.name

def ofJson? (j : Json) : Option LayerKind := j.choice? names

def stackToJson (stack : List LayerKind) : Json := Json.listOf toJson stack

def stackOfJson? (j : Json) : Option (List LayerKind) := j.list? ofJson?

end LayerKind

namespace Provider

def toJson (p : Provider) : Json := .string p.name

def ofJson? (j : Json) : Option Provider := j.choice? names

end Provider

namespace Filter

def fields : List String :=
  ["placeCount", "nodeNameList", "storPoolNameList", "doNotPlaceWithRscList",
    "doNotPlaceWithRscRegex", "replicasOnSameList", "replicasOnDifferentList", "layerStack",
    "providerList", "disklessOnRemaining"]

def toJson (f : Filter) : Json :=
  .object (fields.zip [Json.nullOr Json.uint32 f.placeCount, Json.listOf Name.toJson f.nodes,
    Json.listOf Name.toJson f.pools, Json.listOf Name.toJson f.avoidResources,
    Json.nullOr .string f.avoidPattern, Json.listOf .string f.sameProps,
    Json.listOf .string f.differentProps, LayerKind.stackToJson f.layerStack,
    Json.listOf Provider.toJson f.providers, Json.nullOr .bool f.disklessOnRemaining])

/-- Every field may be left out. -/
def ofJson? (j : Json) : Option Filter := do
  let [count, nodes, pools, avoid, pattern, same, different, stack, providers, diskless] ←
    j.slots? fields | none
  return {
    placeCount := ← count.defaulted none (Json.nullable? Json.uint32?)
    nodes := ← nodes.defaulted [] (Json.list? Name.ofJson?)
    pools := ← pools.defaulted [] (Json.list? Name.ofJson?)
    avoidResources := ← avoid.defaulted [] (Json.list? Name.ofJson?)
    avoidPattern := ← pattern.defaulted none (Json.nullable? Json.text?)
    sameProps := ← same.defaulted [] (Json.list? Json.text?)
    differentProps := ← different.defaulted [] (Json.list? Json.text?)
    layerStack := ← stack.defaulted [] LayerKind.stackOfJson?
    providers := ← providers.defaulted [] (Json.list? Provider.ofJson?)
    disklessOnRemaining := ← diskless.defaulted none (Json.nullable? Json.bool?) }

end Filter

namespace AccessContext

def toJson (c : AccessContext) : Json :=
  .object [("identity", .string c.identity), ("role", Json.word Role.names c.role)]

def ofJson? (j : Json) : Option AccessContext := do
  let [identity, role] ← j.slots? ["identity", "role"] | none
  return ⟨← identity.required Json.text?, ← role.required (Json.choice? Role.names)⟩

end AccessContext

namespace AccessRule

def toJson (r : AccessRule) : Json :=
  .object [("identity", .string r.identity), ("kind", Json.word ObjectKind.names r.kind),
    ("object_name", Json.nullOr .string r.objectName),
    ("max_access", Json.nullOr (Json.word AccessType.names) r.maxAccess)]

def ofJson? (j : Json) : Option AccessRule := do
  let [identity, kind, name, access] ←
    j.slots? ["identity", "kind", "object_name", "max_access"] | none
  return {
    identity := ← identity.required Json.text?
    kind := ← kind.required (Json.choice? ObjectKind.names)
    objectName := ← name.optional Json.text?
    maxAccess := ← access.optional (Json.choice? AccessType.names) }

end AccessRule

end StorageCluster
