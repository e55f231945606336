import StorageCluster.SortedMap
import StorageCluster.Text.Numeral

/-!
# Return codes

Every operation reports a list of entries. The code of an entry is a word whose two highest bits
give its severity; other bits name the operation and the kind of object, and the rest the outcome.
-/
namespace StorageCluster

namespace Code

def severityMask : UInt64 := 0xC000000000000000
def error : UInt64 := 0xC000000000000000
def warning : UInt64 := 0x8000000000000000

def create : UInt64 := 0x4000000
def modify : UInt64 := 0x8000000
def delete : UInt64 := 0xC000000

def resource : UInt64 := 0x2400000

def created : UInt64 := 1
def modified : UInt64 := 3
def deleted : UInt64 := 4

def notConnectedWarning : UInt64 := warning ||| 1

def database : UInt64 := error ||| 7
def deniedNode : UInt64 := error ||| 11
def deniedDefinition : UInt64 := error ||| 12
def deniedResource : UInt64 := error ||| 13
def nodeNotFound : UInt64 := error ||| 100
def definitionNotFound : UInt64 := error ||| 101
def resourceNotFound : UInt64 := error ||| 102
def poolNotFound : UInt64 := error ||| 103
def resourceExists : UInt64 := error ||| 200
def notEnoughNodes : UInt64 := error ||| 300
def notConnected : UInt64 := error ||| 301
def invalidLayerStack : UInt64 := error ||| 400
def layerPrepare : UInt64 := error ||| 500
def layerCleanup : UInt64 := error ||| 501
def storageLayer : UInt64 := error ||| 510
def resourceLayer : UInt64 := error ||| 511
def volumeLayer : UInt64 := error ||| 512
def unknown : UInt64 := error ||| 0xFFFF

/-- Sixteen hexadecimal digits behind `0x`. -/
def toText (code : UInt64) : String := "0x" ++ Numeral.writeHex 16 code.toNat

end Code

structure Entry where
  code : UInt64
  message : String
  cause : Option String := none
  correction : Option String := none
  details : Option String := none
  refs : SortedMap String String := .empty
  deriving DecidableEq, Inhabited

namespace Entry

def withRef (e : Entry) (key value : String) : Entry :=
  { e with refs := e.refs.insert key value }

/-- An entry about one resource definition. -/
def aboutDefinition (e : Entry) (name : String) : Entry := e.withRef "RscDfn" name

def severity (e : Entry) : UInt64 := e.code &&& Code.severityMask

def isError (e : Entry) : Bool := e.severity == Code.error

def isWarning (e : Entry) : Bool := e.severity == Code.warning

def toText (e : Entry) : String := e.message ++ " (rc=" ++ Code.toText e.code ++ ")"

end Entry

abbrev Report := List Entry

def Report.hasErrors (r : Report) : Bool := r.any Entry.isError

inductive Operation
  | create
  | modify
  | delete
  deriving DecidableEq, Repr, Inhabited

namespace Operation

def mask : Operation → UInt64
  | .create => Code.create
  | .modify => Code.modify
  | .delete => Code.delete

def names : List (String × Operation) :=
  [("Create", .create), ("Modify", .modify), ("Delete", .delete)]

end Operation

/-- What the entries of one operation have in common. -/
structure ResponseContext where
  operation : Operation
  objectMask : UInt64
  refs : SortedMap String String := .empty

def ResponseContext.success (c : ResponseContext) (code : UInt64) (message : String) : Entry :=
  { code := c.operation.mask ||| c.objectMask ||| code, message, refs := c.refs }

end StorageCluster
