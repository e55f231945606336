import StorageCluster.Text.Json.Decode

/-!
# Metrics

Counters of the reconciliation on the controller and of the dispatching on a satellite, and the
written form of a snapshot of them: one number for each field.
-/
namespace StorageCluster

structure ReconcileMetrics where
  manageCalls : Nat := 0
  converged : Nat := 0
  scheduled : Nat := 0
  retryLater : Nat := 0
  needsDiskful : Nat := 0
  placementFailures : Nat := 0
  cycled : Bool := false
  deriving DecidableEq, Inhabited

structure DispatchMetrics where
  batches : Nat := 0
  resourcesProcessed : Nat := 0
  resourceFailures : Nat := 0
  prepareFailures : Nat := 0
  cleanupFailures : Nat := 0
  fatalErrors : Nat := 0
  deriving DecidableEq, Inhabited

namespace ReconcileMetrics

def recordManage (m : ReconcileMetrics) : ReconcileMetrics :=
  { m with manageCalls := m.manageCalls + 1 }

def recordConverged (m : ReconcileMetrics) : ReconcileMetrics :=
  { m with converged := m.converged + 1 }

def recordScheduled (m : ReconcileMetrics) : ReconcileMetrics :=
  { m with scheduled := m.scheduled + 1 }

def recordRetryLater (m : ReconcileMetrics) : ReconcileMetrics :=
  { m with retryLater := m.retryLater + 1 }

def recordNeedsDiskful (m : ReconcileMetrics) : ReconcileMetrics :=
  { m with needsDiskful := m.needsDiskful + 1 }

def recordPlacementFailure (m : ReconcileMetrics) : ReconcileMetrics :=
  { m with placementFailures := m.placementFailures + 1 }

def recordCycle (m : ReconcileMetrics) : ReconcileMetrics := { m with cycled := true }

def snapshotFields : List String :=
  ["manage_calls", "converged", "scheduled", "retry_later", "needs_diskful",
    "placement_failures", "last_cycle_ms"]

end ReconcileMetrics

namespace DispatchMetrics

def recordBatch (m : DispatchMetrics) : DispatchMetrics := { m with batches := m.batches + 1 }

def recordProcessed (m : DispatchMetrics) (failed : Bool) : DispatchMetrics :=
  { m with
    resourcesProcessed := m.resourcesProcessed + 1
    resourceFailures := m.resourceFailures + failed.toNat }

def recordPrepareFailure (m : DispatchMetrics) : DispatchMetrics :=
  { m with prepareFailures := m.prepareFailures + 1 }

def recordCleanupFailure (m : DispatchMetrics) : DispatchMetrics :=
  { m with cleanupFailures := m.cleanupFailures + 1 }

def recordFatal (m : DispatchMetrics) : DispatchMetrics :=
  { m with fatalErrors := m.fatalErrors + 1 }

def snapshotFields : List String :=
  ["batches", "resources_processed", "resource_failures", "prepare_failures",
    "cleanup_failures", "fatal_errors", "last_dispatch_ms"]

end DispatchMetrics

/-- The numbers of a snapshot, one for each of `fields`. -/
structure MetricsSnapshot (fields : List String) where
  numbers : List UInt64

namespace MetricsSnapshot

variable {fields : List String}

def toJson (s : MetricsSnapshot fields) : Json :=
  .object (fields.zip (s.numbers.map fun n => .natural n.toNat))

def ofJson? (j : Json) : Option (MetricsSnapshot fields) := do
  let slots ← j.slots? fields
  let numbers ← slots.mapM (Json.Slot.required Json.uint64?)
  return ⟨numbers⟩

end MetricsSnapshot

end StorageCluster
