import StorageCluster.Fault
import StorageCluster.Resource

/-!
# Pushing to satellites

A push sends a resource definition to the satellites of its nodes; each node answers for itself. The
answers are combined into one report, in which every node is named: with one text if it is listed,
with another if it is not, and with a warning if it cannot be reached.
-/
namespace StorageCluster

structure NodeResponse where
  node : NodeName
  result : Except Fault Report

/-- Every place in a text where `mark` stands in braces gives way to `value`. -/
def substitute (mark : Char) (value : List Char) : List Char → List Char
  | a :: b :: c :: rest =>
    if a = '\x7b' ∧ b = mark ∧ c = '\x7d' then value ++ substitute mark value rest
    else a :: substitute mark value (b :: c :: rest)
  | cs => cs

/-- A text about a resource (`1`) on a node (`0`). -/
def fillTemplate (template : String) (node : NodeName) (resource : ResourceName) : String :=
  String.ofList (substitute '1' resource.display.toList
    (substitute '0' node.display.toList template.toList))

namespace NodeResponse

def answered (template : String) (node : NodeName) (resource : ResourceName) : Entry :=
  { code := Code.resource ||| Code.modified
    message := fillTemplate template node resource : Entry }.withRef "Node" node.display
    |>.aboutDefinition resource.display

def unreachable (node : NodeName) (resource : ResourceName) : Entry :=
  { code := Code.notConnectedWarning
    message := "No connection to satellite '" ++ node.display ++ "'"
    details := some ("The changes for resource '" ++ resource.display ++
      "' will be applied when the satellite reconnects") : Entry }.withRef "Node" node.display

def failed (node : NodeName) (fault : Fault) : Entry := fault.toEntry.withRef "Node" node.display

/-- The entries for one response. -/
def entries (resource : ResourceName) (listed : List NodeName) (listedText otherText : String)
    (r : NodeResponse) : Report :=
  match r.result with
  | .ok report =>
    report ++ [answered (if listed.contains r.node then listedText else otherText) r.node resource]
  | .error (.notConnected _) => [unreachable r.node resource]
  | .error fault => [failed r.node fault]

end NodeResponse

def combineResponses (resource : ResourceName) (listed : List NodeName)
    (listedText otherText : String) (responses : List NodeResponse) : Report :=
  responses.flatMap (NodeResponse.entries resource listed listedText otherText)

end StorageCluster
