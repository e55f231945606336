import StorageCluster.Controller.Cycle

/-!
# The scheduler's loop

The loop listens for topology events and ticks at a fixed interval; both lead to a cycle. When
events were dropped, every node counts as restored, and the next tick or event brings the cycle.
Time is virtual: it moves on only when nothing can run, and only waiting for a satellite takes any.
Meanwhile, things happen outside the loop at times laid down in advance.
-/
namespace StorageCluster

/-- What happens outside the loop. -/
inductive Occurrence
  | evict (node : NodeName)
  | restore (node : NodeName)
  | connect (node : NodeName) (status : ConnectionStatus)
  | mark (resource : ResourceName)
  | publish (event : TopologyEvent)
  | fault (f : Fault)

/-- What came of it. -/
inductive OccurrenceResult
  | done
  | failed (f : Fault)
  | marked (count : Nat)
  | received (count : Nat)

namespace Controller

variable {σ : Type}

def ofUnit (c : Controller σ × Except Fault Unit) : Controller σ × OccurrenceResult :=
  match c with
  | (c, .ok ()) => (c, .done)
  | (c, .error f) => (c, .failed f)

/-- Track a definition; how many are tracked then. -/
def mark (c : Controller σ) (name : ResourceName) : Controller σ × Nat :=
  let c := c.mapTracking (·.mark name)
  (c, c.tracking.needsReconciliation.size)

def occur (c : Controller σ) : Occurrence → Controller σ × OccurrenceResult
  | .evict node => ofUnit (c.evictNode node)
  | .restore node => ofUnit (c.restoreNode node)
  | .connect node status => ofUnit (c.setConnectionStatus node status)
  | .mark name =>
    let (c, count) := c.mark name
    (c, .marked count)
  | .publish event =>
    let (c, count) := c.publish event
    (c, .received count)
  | .fault f => (c, .failed f)

/-- After events were dropped, all nodes count as restored. -/
def handleLag (c : Controller σ) : Controller σ :=
  c.core.graph.nodes.keys.foldl (fun c node => (c.handleEvent (.nodeRestored node)).1) c

end Controller

/-- A loop under way, at a time in milliseconds. -/
structure LoopState (σ : Type) where
  controller : Controller σ
  now : Nat := 0
  nextTick : Nat := 0
  ahead : List (Nat × Occurrence)
  results : List OccurrenceResult := []

namespace LoopState

variable {σ : Type}

/-- Let happen what is due by now. -/
def catchUp : Nat → LoopState σ → LoopState σ
  | 0, s => s
  | fuel + 1, s =>
    match s.ahead with
    | (due, o) :: rest =>
      if due ≤ s.now then
        let (controller, result) := s.controller.occur o
        catchUp fuel { s with controller, ahead := rest, results := s.results ++ [result] }
      else s
    | [] => s

def settle (s : LoopState σ) : LoopState σ := catchUp s.ahead.length s

/-- Run the pipelines of a cycle; what happens outside while one waits comes before the next. -/
def drainConvoy (team : Collaborators σ) : Nat → LoopState σ → Convoy → LoopState σ
  | 0, s, _ => s
  | fuel + 1, s, v =>
    if v.waiting.isEmpty then s
    else
      let (controller, v, waited) := Controller.convoyStep team s.controller v
      drainConvoy team fuel ({ s with controller, now := s.now + waited }.settle) v

def cycle (team : Collaborators σ) (helpers : List (Helper σ)) (s : LoopState σ) :
    LoopState σ :=
  let (controller, plan) := Controller.planCycle helpers s.controller
  let convoy := Controller.CyclePlan.convoy plan
  let s := drainConvoy team convoy.turns { s with controller } convoy
  { s with controller := s.controller.mapMetrics ReconcileMetrics.recordCycle }

/-- A tick that comes more than five milliseconds late puts off all later ones. -/
def tickAfter (interval : Nat) (s : LoopState σ) : Nat :=
  if s.now > s.nextTick + 5 then s.now + interval else s.nextTick + interval

/-- When something happens next. -/
def nextTime (horizon : Nat) (s : LoopState σ) : Nat :=
  match s.ahead with
  | (due, _) :: _ => min horizon (min s.nextTick due)
  | [] => min horizon s.nextTick

def step (team : Collaborators σ) (helpers : List (Helper σ)) (interval horizon : Nat)
    (s : LoopState σ) : LoopState σ :=
  if s.nextTick ≤ s.now then
    cycle team helpers { s with nextTick := tickAfter interval s }
  else
    let (events, received) := s.controller.events.receive
    let c := { s.controller with events }
    match received with
    | .event e => cycle team helpers { s with controller := (c.handleEvent e).1 }
    | .lagged _ => { s with controller := c.handleLag }
    | .nothing =>
      { s with controller := s.controller.idle team, now := max s.now (nextTime horizon s) }

def go (team : Collaborators σ) (helpers : List (Helper σ)) (interval horizon : Nat) :
    Nat → LoopState σ → LoopState σ
  | 0, s => s
  | fuel + 1, s =>
    let s := s.settle
    if horizon ≤ s.now then s
    else go team helpers interval horizon fuel (step team helpers interval horizon s)

end LoopState

/-- Run the loop for some milliseconds; what came of the occurrences, in order. -/
def Controller.runLoop {σ : Type} (team : Collaborators σ) (helpers : List (Helper σ))
    (interval horizon : Nat) (ahead : List (Nat × Occurrence)) (c : Controller σ) :
    Controller σ × List OccurrenceResult :=
  let c := c.idle team
  let start : LoopState σ := { controller := { c with events := c.events.subscribe }, ahead }
  let fuel := 2 * horizon + 4 * ahead.length + 4
  let s := LoopState.go team helpers interval horizon fuel start
  ({ s.controller with events := s.controller.events.unsubscribe }, s.results)

end StorageCluster
