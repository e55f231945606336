import StorageCluster.Metrics
import StorageCluster.Satellite.Expansion
import StorageCluster.Satellite.Handler

/-!
# Dispatching a batch

A satellite works on a batch of resources in three phases: every layer kind is prepared, then every
resource whose layers all prepared is processed from its root down, then the caches of the prepared
layers are cleared. A fault about a layer or a resource is reported with the resources it touches;
a defect aborts the batch, and then nobody is notified.
-/
namespace StorageCluster

abbrev Results := SortedMap ResourceName Report

structure DispatchReport where
  results : Results := .empty
  processed : List ResourceName := []
  failedPrepare : List LayerKind := []
  failedCleanup : List LayerKind := []
  deriving DecidableEq

def DispatchReport.hasFailures (r : DispatchReport) (name : ResourceName) : Bool :=
  (r.results.find? name).any Report.hasErrors

/-- A satellite with its layer handlers, over the state `δ` of its devices. -/
structure Satellite (δ : Type) where
  registry : Registry δ
  devices : δ
  memory : StackMemory := {}
  fullSync : Bool := false
  metrics : DispatchMetrics := {}

/-- A batch under way: what changed so far, and the first defect met. -/
structure Batch (δ : Type) where
  devices : δ
  metrics : DispatchMetrics
  report : DispatchReport := {}
  prepared : List LayerKind := []
  blocked : List LayerId := []
  defect : Option Fault := none

namespace Results

def add (r : Results) (name : ResourceName) (entries : Report) : Results :=
  r.upsert name fun old => old.getD [] ++ entries

end Results

/-- The layers of a kind that occur in an arena. -/
def Arena.ofKind (a : Arena) (kind : LayerKind) : List LayerResource :=
  a.layers.filter fun l => l.kind == kind

def Arena.kinds (a : Arena) : List LayerKind :=
  LayerKind.all.filter fun kind => a.layers.any fun l => l.kind == kind

/-- The first snapshot of each name and resource. -/
def distinctSnapshots : List Snapshot → List Snapshot → List Snapshot
  | _, [] => []
  | seen, s :: rest =>
    if seen.any fun t => t.resource == s.resource && t.name == s.name then
      distinctSnapshots seen rest
    else s :: distinctSnapshots (s :: seen) rest

namespace Batch

variable {δ : Type}

def addEntries (b : Batch δ) (name : ResourceName) (entries : Report) : Batch δ :=
  { b with report := { b.report with results := Results.add b.report.results name entries } }

def noteDefect (b : Batch δ) (fault : Fault) : Batch δ :=
  { b with defect := b.defect <|> some fault }

def layerEntry (code : UInt64) (message : String) (fault : Fault) (name : ResourceName) : Entry :=
  { code, message, cause := some fault.message : Entry }.aboutDefinition name.display

def prepareEntry (kind : LayerKind) (fault : Fault) (name : ResourceName) : Entry :=
  let code := match fault with
    | .layerStack _ => Code.invalidLayerStack
    | _ => Code.layerPrepare
  layerEntry code ("Preparing layer " ++ kind.name ++ " failed for resource '" ++ name.display ++
    "'") fault name

def cleanupEntry (kind : LayerKind) (fault : Fault) (name : ResourceName) : Entry :=
  layerEntry Code.layerCleanup ("Cleaning up layer " ++ kind.name ++ " failed for resource '" ++
    name.display ++ "'") fault name

def appliedEntry (name : ResourceName) : Entry :=
  { code := Code.resource ||| Code.modified
    message := "Resource '" ++ name.display ++ "' applied" : Entry }.aboutDefinition name.display

def prepareKind (registry : Registry δ) (members : List LayerResource) (kind : LayerKind)
    (devices : δ) : δ × Except Fault Unit :=
  match registry.find? kind with
  | some handler =>
    handler.prepare devices members (distinctSnapshots [] (members.flatMap (·.snapshots)))
  | none => (devices, .error (StackFault.unregistered kind).toFault)

/-- A resource with a layer that is not prepared is blocked as a whole. -/
def block (arena : Arena) (kind : LayerKind) (fault : Fault) (b : Batch δ) (l : LayerResource) :
    Batch δ :=
  let b := b.addEntries l.resource.name [prepareEntry kind fault l.resource.name]
  { b with blocked := b.blocked ++ (arena.rootOf l.id).toOption.toList }

/-- Once a defect is met no further layer is prepared. -/
def prepareStep (registry : Registry δ) (arena : Arena) (b : Batch δ) (kind : LayerKind) :
    Batch δ :=
  if b.defect.isSome then b
  else
    let members := arena.ofKind kind
    let (devices, outcome) := prepareKind registry members kind b.devices
    let b := { b with devices }
    match outcome with
    | .ok () => { b with prepared := b.prepared ++ [kind] }
    | .error fault =>
      if fault.isDefect then b.noteDefect fault
      else
        let b := { b with
          metrics := b.metrics.recordPrepareFailure
          report := { b.report with failedPrepare := b.report.failedPrepare ++ [kind] } }
        members.foldl (block arena kind fault) b

def processRoot (registry : Registry δ) (arena : Arena) (root : LayerResource) (devices : δ) :
    δ × Report × Except Fault Unit :=
  match registry.find? root.kind with
  | none => (devices, [], .error (StackFault.unregistered root.kind).toFault)
  | some _ =>
    let (outcome, devices, entries) := (processTree registry arena root.id).run (devices, [])
    (devices, entries, outcome)

def processStep (registry : Registry δ) (arena : Arena) (b : Batch δ) (root : LayerResource) :
    Batch δ :=
  let name := root.resource.name
  let (devices, entries, outcome) := processRoot registry arena root b.devices
  let b := { b with devices }.addEntries name entries
  let b := { b with report := { b.report with processed := b.report.processed ++ [name] } }
  match outcome with
  | .ok () =>
    { b with metrics := b.metrics.recordProcessed false }.addEntries name [appliedEntry name]
  | .error fault =>
    if fault.isDefect then b.noteDefect fault
    else { b with metrics := b.metrics.recordProcessed true }.addEntries name
      [fault.toEntry.aboutDefinition name.display]

def cleanupStep (registry : Registry δ) (arena : Arena) (b : Batch δ) (kind : LayerKind) :
    Batch δ :=
  match registry.find? kind with
  | none => b
  | some handler =>
    let (devices, outcome) := handler.clearCache b.devices
    let b := { b with devices }
    match outcome with
    | .ok () => b
    | .error fault =>
      if fault.isDefect then b.noteDefect fault
      else
        let b := { b with
          metrics := b.metrics.recordCleanupFailure
          report := { b.report with failedCleanup := b.report.failedCleanup ++ [kind] } }
        (arena.ofKind kind).foldl (fun b l =>
          b.addEntries l.resource.name [cleanupEntry kind fault l.resource.name]) b

/-- The roots that are processed: none after a defect, and none that is blocked. -/
def runnable (arena : Arena) (b : Batch δ) : List LayerResource :=
  if b.defect.isSome then [] else arena.roots.filter fun l => !b.blocked.contains l.id

/-- All three phases. -/
def run (registry : Registry δ) (e : Expansion) (b : Batch δ) : Batch δ :=
  let b := e.failures.foldl (fun b f => b.addEntries f.1 [f.2]) b
  let b := e.arena.kinds.foldl (prepareStep registry e.arena) b
  let b := (b.runnable e.arena).foldl (processStep registry e.arena) b
  b.prepared.foldl (cleanupStep registry e.arena) b

end Batch

/-- What came of a batch: the satellite afterwards, who was notified of what, and the report. -/
structure Dispatched (δ : Type) where
  satellite : Satellite δ
  notified : List (ResourceName × Report)
  result : Except Fault DispatchReport

namespace Satellite

variable {δ : Type}

def dispatch (s : Satellite δ) (resources : List Resource) (snapshots : List Snapshot) :
    Dispatched δ :=
  let (memory, expansion) := s.memory.expand resources snapshots s.fullSync
  let start : Batch δ := { devices := s.devices, metrics := s.metrics.recordBatch }
  let b := start.run s.registry expansion
  let after := { s with devices := b.devices, memory := memory.release expansion }
  match b.defect with
  | some fault =>
    { satellite := { after with metrics := b.metrics.recordFatal }, notified := [],
      result := .error fault }
  | none =>
    { satellite := { after with metrics := b.metrics }, notified := b.report.results.entries,
      result := .ok b.report }

end Satellite

end StorageCluster
