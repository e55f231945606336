import StorageCluster.Satellite.Dispatch

/-!
# The satellite service

The service applies the batches that the controller sends and answers each with all entries of its
resources. A full sync tells it that every resource has layer data from now on. A defect ends the
service: the message that met it and all later ones go unanswered.
-/
namespace StorageCluster

/-- What a sink gathers: all entries of each resource. -/
def Results.ofNotifications (notified : List (ResourceName × Report)) : Results :=
  notified.foldl (fun r n => Results.add r n.1 n.2) .empty

def Results.combined (r : Results) : Report := r.values.flatten

/-- A message from the controller. -/
structure Delivery where
  isFullSync : Bool
  resources : List Resource
  snapshots : List Snapshot
  deriving DecidableEq

/-- How a message fares at a satellite. -/
inductive Receipt
  | answered (report : Report)
  | unanswered
  | closed
  deriving DecidableEq

namespace Satellite

variable {δ : Type}

def handle (s : Satellite δ) (m : Delivery) : Satellite δ × Except Fault Report :=
  let d := s.dispatch m.resources m.snapshots
  match d.result with
  | .error fault => (d.satellite, .error fault)
  | .ok _ =>
    ({ d.satellite with fullSync := d.satellite.fullSync || m.isFullSync },
      .ok (Results.ofNotifications d.notified).combined)

/-- Messages are handled one by one until a defect ends the loop. -/
def serve (s : Satellite δ) : List Delivery → Satellite δ × List Receipt × Except Fault Unit
  | [] => (s, [], .ok ())
  | m :: rest =>
    match s.handle m with
    | (s, .error fault) => (s, .unanswered :: rest.map fun _ => .closed, .error fault)
    | (s, .ok report) =>
      let (s, receipts, ended) := s.serve rest
      (s, .answered report :: receipts, ended)

end Satellite

end StorageCluster
