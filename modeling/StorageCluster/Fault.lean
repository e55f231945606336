import StorageCluster.Name
import StorageCluster.ReturnCode
import StorageCluster.Text.Duration

/-!
# Faults

What can go wrong in the cluster. A fault has a message and a return code, says what a caller that
retries should do, and whether it points at a defect of the program or its store (`isDefect`) rather
than at the resource that was worked on.
-/
namespace StorageCluster

/-- What a device layer says about a failure. -/
structure LayerFailure where
  message : String
  cause : Option String := none
  correction : Option String := none
  details : Option String := none
  deriving DecidableEq, Inhabited

inductive Fault
  | internal (text : String)
  | implementation (text : String)
  | configuration (text : String)
  | accessDenied (operation : String) (code : UInt64)
  | database (text : String)
  | databaseLoad (table : String) (reason : String)
  | storage (failure : LayerFailure)
  | resourceLayer (failure : LayerFailure)
  | volumeLayer (failure : LayerFailure)
  | layerStack (text : String)
  | rejected (entry : Entry)
  | invalidName (text : String)
  | invalidProperty (key : String) (reason : String)
  | nodeNotFound (name : String)
  | definitionNotFound (name : String)
  | groupNotFound (name : String)
  | resourceNotFound (resource : String) (node : String)
  | poolNotFound (pool : String) (node : String)
  | notConnected (node : String)
  | timeout (node : String) (after : Duration)
  | malformedJson
  | malformedYaml
  | malformedPattern
  | invalidAddress
  | io (text : String)
  deriving DecidableEq, Inhabited

/-- What a caller should do about a fault. -/
inductive Retry
  | backoff
  | after (seconds : Nat)
  | never
  deriving DecidableEq, Repr

namespace Fault

def message : Fault → String
  | .internal text => "Internal error: " ++ text
  | .implementation text => "Implementation error: " ++ text
  | .configuration text => "Configuration error: " ++ text
  | .accessDenied operation _ => "Access denied: " ++ operation
  | .database text => "Database error: " ++ text
  | .databaseLoad table reason => "Database load failed for table " ++ table ++ ": " ++ reason
  | .storage f => "Storage error: " ++ f.message
  | .resourceLayer f => "Resource layer error: " ++ f.message
  | .volumeLayer f => "Volume layer error: " ++ f.message
  | .layerStack text => "Invalid layer stack: " ++ text
  | .rejected entry => "API call rejected: " ++ entry.toText
  | .invalidName text => "Invalid name: " ++ text
  | .invalidProperty key reason => "Invalid property " ++ key ++ ": " ++ reason
  | .nodeNotFound name => "Node not found: " ++ name
  | .definitionNotFound name => "Resource definition not found: " ++ name
  | .groupNotFound name => "Resource group not found: " ++ name
  | .resourceNotFound resource node => "Resource not found: " ++ resource ++ " on node " ++ node
  | .poolNotFound pool node => "Storage pool not found: " ++ pool ++ " on node " ++ node
  | .notConnected node => "Satellite not connected: " ++ node
  | .timeout node after => "Satellite response timeout: " ++ node ++ " after " ++ after.toText
  | .malformedJson => "JSON parse error: malformed text"
  | .malformedYaml => "YAML parse error: malformed text"
  | .malformedPattern => "Regex error: malformed pattern"
  | .invalidAddress => "Invalid IP address: invalid IP address syntax"
  | .io text => "IO error: " ++ text

/-- Validation errors and defects are not retried; device trouble waits longest. -/
def retry : Fault → Retry
  | .rejected _ => .after 10
  | .storage _ | .resourceLayer _ | .volumeLayer _ => .after 60
  | .configuration _ | .invalidName _ | .invalidProperty _ _ | .invalidAddress | .layerStack _
  | .accessDenied _ _ | .implementation _ | .databaseLoad _ _ => .never
  | _ => .backoff

def isRetryable (f : Fault) : Bool := f.retry != .never

def isTransient : Fault → Bool
  | .database _ | .notConnected _ | .timeout _ _ => true
  | _ => false

/-- Faults that a device layer never raises about a resource. -/
def isDefect : Fault → Bool
  | .accessDenied _ _ | .database _ | .databaseLoad _ _ | .implementation _ => true
  | _ => false

def layerFailure? : Fault → Option LayerFailure
  | .storage f | .resourceLayer f | .volumeLayer f => some f
  | _ => none

def layerEntry (code : UInt64) (f : LayerFailure) : Entry :=
  { code, message := f.message, cause := f.cause, correction := f.correction,
    details := f.details }

def code : Fault → UInt64
  | .rejected entry => entry.code
  | .storage _ => Code.storageLayer
  | .resourceLayer _ => Code.resourceLayer
  | .volumeLayer _ => Code.volumeLayer
  | .layerStack _ => Code.invalidLayerStack
  | .accessDenied _ code => code
  | .database _ | .databaseLoad _ _ => Code.database
  | .nodeNotFound _ => Code.nodeNotFound
  | .definitionNotFound _ => Code.definitionNotFound
  | .resourceNotFound _ _ => Code.resourceNotFound
  | .poolNotFound _ _ => Code.poolNotFound
  | .notConnected _ | .timeout _ _ => Code.notConnected
  | _ => Code.unknown

/-- A rejection is its own entry, a layer failure keeps its parts, all else is told by message. -/
def toEntry (f : Fault) : Entry :=
  match f with
  | .rejected entry => entry
  | .storage failure | .resourceLayer failure | .volumeLayer failure => layerEntry f.code failure
  | _ => { code := f.code, message := f.message }

end Fault

def NameFault.toFault (f : NameFault) : Fault := .invalidName f.message

/-- The name a text spells, or why it is none. -/
def Name.parse (kind : NameKind) (text : String) : Except Fault (Name kind) :=
  (Name.ofText kind text).mapError NameFault.toFault

end StorageCluster
