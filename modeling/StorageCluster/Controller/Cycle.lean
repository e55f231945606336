import StorageCluster.Controller.Reconcile

/-!
# Reconcile cycles

In a cycle every definition is managed by all helpers, then the pipelines they left are run. Only
one push is under way at a time, first come first served: until some push has to wait for a
satellite, a pipeline runs through on its own; from then on pipelines take turns.
-/
namespace StorageCluster

/-- Somebody who manages definitions; the reconciler is the first of them. -/
abbrev Helper (σ : Type) := Controller σ → ManageContext → Managed σ

structure CycleReport where
  outcomes : SortedMap ResourceName (List ManageOutcome) := .empty
  responses : Report := []
  pipelinesRun : Nat := 0
  failures : Nat := 0
  deriving DecidableEq

/-- A pipeline under way: what is left, and what came of the tasks so far. -/
structure Job where
  place : Nat
  tasks : List Task
  eviction : Option (ResourceName × List NodeName)
  report : Except Fault Report := .ok []

/-- Jobs in the order of their turns, and the results by place. -/
structure Convoy where
  waiting : List Job
  contended : Bool := false
  results : SortedMap Nat (Except Fault Report) := .empty

namespace Controller

variable {σ : Type}

/-- Nobody is left out. -/
def allNodes : NodeName → Bool := fun _ => true

def runTask (team : Collaborators σ) (c : Controller σ) : Task →
    Controller σ × Option Nat × Except Fault Report
  | .settled result => (c, none, result)
  | .activate d created =>
    let (c, waited, answer) := c.push team d allNodes
    (c, waited, answer.map (combineResponses d.name created
      "Created resource \x7b1\x7d on \x7b0\x7d" "Added peer(s) to resource \x7b1\x7d on \x7b0\x7d"))

def evictionNotice (evicted : List NodeName) : String :=
  "Notified \x7b0\x7d about evicting resource \x7b1\x7d from node(s) [" ++
    ", ".intercalate (evicted.map Name.display) ++ "]"

/-- Tell all satellites of a definition about the evicted nodes. -/
def runEviction (team : Collaborators σ) (c : Controller σ) (name : ResourceName)
    (evicted : List NodeName) : Controller σ × Option Nat × Except Fault Report :=
  match c.core.graph.definitions.find? name with
  | none => (c, none, .ok [])
  | some d =>
    let (c, waited, answer) := c.push team d allNodes
    (c, waited, answer.map (combineResponses name evicted
      "Resource \x7b1\x7d was evicted from \x7b0\x7d" (evictionNotice evicted)))

/-- The first failure stays, later entries are added to a success. -/
def joinReports : Except Fault Report → Except Fault Report → Except Fault Report
  | .error fault, _ => .error fault
  | .ok _, .error fault => .error fault
  | .ok first, .ok second => .ok (first ++ second)

/-- One turn of a job: its next task or, after those, its eviction notice. -/
structure Turn (σ : Type) where
  controller : Controller σ
  waited : Option Nat
  next : Job ⊕ Except Fault Report

def takeTurn (team : Collaborators σ) (c : Controller σ) (j : Job) : Turn σ :=
  match j.tasks with
  | task :: rest =>
    let (c, waited, result) := runTask team c task
    let j := { j with tasks := rest, report := joinReports j.report result }
    match rest, j.report, j.eviction with
    | [], .error fault, _ => ⟨c, waited, .inr (.error fault)⟩
    | [], .ok report, none => ⟨c, waited, .inr (.ok report)⟩
    | _, _, _ => ⟨c, waited, .inl j⟩
  | [] =>
    match j.report, j.eviction with
    | .ok _, some (name, evicted) =>
      let (c, waited, result) := runEviction team c name evicted
      match joinReports j.report result with
      | .ok report => ⟨c.mapTracking (·.release name), waited, .inr (.ok report)⟩
      | .error fault => ⟨c, waited, .inr (.error fault)⟩
    | report, _ => ⟨c, none, .inr report⟩

/-- One turn of the job in front; the milliseconds it waited. -/
def convoyStep (team : Collaborators σ) (c : Controller σ) (v : Convoy) :
    Controller σ × Convoy × Nat :=
  match v.waiting with
  | [] => (c, v, 0)
  | j :: rest =>
    let turn := takeTurn team c j
    let contended := v.contended || turn.waited.isSome
    let v := match turn.next with
      | .inr result =>
        { v with waiting := rest, contended, results := v.results.insert j.place result }
      | .inl j => { v with waiting := if contended then rest ++ [j] else j :: rest, contended }
    (turn.controller, v, turn.waited.getD 0)

def runConvoy (team : Collaborators σ) : Nat → Controller σ → Convoy → Controller σ × Convoy
  | 0, c, v => (c, v)
  | fuel + 1, c, v =>
    if v.waiting.isEmpty then (c, v)
    else
      let (c, v, _) := convoyStep team c v
      runConvoy team fuel c v

end Controller

namespace Convoy

def ofPipelines (pipelines : List Pipeline) : Convoy where
  waiting := pipelines.zipIdx.map fun (p, place) =>
    { place, tasks := p.tasks, eviction := p.eviction }

/-- How many turns are left at most. -/
def turns (v : Convoy) : Nat := v.waiting.foldr (fun j n => j.tasks.length + 1 + n) 0

end Convoy

/-- The managing half of a cycle: the report so far, and the pipelines to run. -/
structure CyclePlan where
  report : CycleReport := {}
  pipelines : List (ResourceName × Pipeline) := []

namespace Controller

variable {σ : Type}

/-- Run one pipeline to its end. -/
def runPipeline (team : Collaborators σ) (c : Controller σ) (p : Pipeline) :
    Controller σ × Except Fault Report :=
  let v := Convoy.ofPipelines [p]
  let (c, v) := runConvoy team v.turns c v
  (c, (v.results.find? 0).getD (.ok []))

/-- A helper's answer, or the entry that tells of its fault. -/
def consult (helper : Helper σ)
    (state : Controller σ × ManageContext × List ManageOutcome × Report) :
    Controller σ × ManageContext × List ManageOutcome × Report :=
  let (c, context, outcomes, faults) := state
  let managed := helper c context
  match managed.outcome with
  | .ok outcome => (managed.controller, managed.context, outcomes ++ [outcome], faults)
  | .error fault =>
    (managed.controller, managed.context, outcomes,
      faults ++ [fault.toEntry.aboutDefinition context.name.display])

/-- All helpers manage one definition. -/
def manageAll (helpers : List (Helper σ)) (state : Controller σ × CyclePlan)
    (name : ResourceName) : Controller σ × CyclePlan :=
  let (c, plan) := state
  let (c, context, outcomes, faults) :=
    helpers.foldl (fun s helper => consult helper s) (c, { name }, [], [])
  (c, { report := { plan.report with
          outcomes := plan.report.outcomes.insert name outcomes
          responses := plan.report.responses ++ faults ++ context.responses }
        pipelines := plan.pipelines ++ context.pipelines.map fun p => (name, p) })

def planCycle (helpers : List (Helper σ)) (c : Controller σ) : Controller σ × CyclePlan :=
  c.core.graph.definitions.keys.foldl (manageAll helpers) (c, {})

def addResult (results : SortedMap Nat (Except Fault Report)) (r : CycleReport)
    (entry : (ResourceName × Pipeline) × Nat) : CycleReport :=
  match results.find? entry.2 with
  | some (.ok report) => { r with responses := r.responses ++ report }
  | some (.error fault) =>
    { r with
      failures := r.failures + 1
      responses := r.responses ++ [fault.toEntry.aboutDefinition entry.1.1.display] }
  | none => r

/-- The report of a cycle once its pipelines have run. -/
def CyclePlan.conclude (plan : CyclePlan) (v : Convoy) : CycleReport :=
  plan.pipelines.zipIdx.foldl (addResult v.results)
    { plan.report with pipelinesRun := plan.pipelines.length }

def CyclePlan.convoy (plan : CyclePlan) : Convoy := .ofPipelines (plan.pipelines.map (·.2))

def runCycle (team : Collaborators σ) (helpers : List (Helper σ)) (c : Controller σ) :
    Controller σ × CycleReport :=
  let (c, plan) := planCycle helpers c
  let convoy := CyclePlan.convoy plan
  let (c, v) := runConvoy team convoy.turns c convoy
  (c.mapMetrics ReconcileMetrics.recordCycle, CyclePlan.conclude plan v)

end Controller

/-- A helper with answers laid down in advance for some definitions, by spelling of their name. -/
structure RehearsedHelper where
  entries : Report := []
  pipelines : List (Except Fault Report) := []
  fault : Option Fault := none

def RehearsedHelper.manage {σ : Type} (script : List (String × RehearsedHelper)) : Helper σ :=
  fun c context =>
    match script.lookup context.name.display with
    | none => ⟨c, context, .ok .notTracked⟩
    | some r =>
      let context := { context with
        responses := context.responses ++ r.entries
        pipelines := context.pipelines ++ r.pipelines.map fun p => { tasks := [.settled p] } }
      match r.fault with
      | some fault => ⟨c, context, .error fault⟩
      | none => ⟨c, context, .ok (.retryLater "scripted")⟩

end StorageCluster
