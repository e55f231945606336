import Mathlib.Data.List.Pairwise
import Mathlib.Tactic.Common
import StorageCluster.Controller.Reconcile

/-!
# The exits of a reconciliation

`manage` and the placement of replacements inside it end in a handful of ways. `ManageExit` and
`PlacementExit` list them with all that is known there; what holds of a reconciliation is proved
exit by exit, and the functions are not opened again.
-/
namespace StorageCluster

/-- A definition with its resources on evicted nodes marked deleted, and the changes for it. -/
def Definition.tombstoned (d : Definition) (nodes : NodeMap) : Definition × Transaction :=
  (d.evictedNodes nodes).foldl Definition.tombstone (d, [])

namespace Controller

variable {σ : Type} {team : Collaborators σ} {c : Controller σ} {responses : Report}
  {name : ResourceName} {context : ManageContext}

/-- What is asked of the placement for a definition `d` that lacks replicas. -/
def replacementRequest (c : Controller σ) (name : ResourceName) (d : Definition) (deficit : Nat)
    (policy : Filter) : PlacementRequest where
  filter := replacementFilter name deficit policy
  sizeBytes := (d.tombstoned c.core.graph.nodes).1.totalSize

/-- A definition has a connected diskful replica when it is managed. -/
def diskfulAgain (c : Controller σ) (name : ResourceName) : Controller σ :=
  (c.mapMetrics ReconcileMetrics.recordManage).mapTracking fun t =>
    { t with needsDiskful := t.needsDiskful.erase name }

/-- The controller remembers a request. -/
def note (c : Controller σ) (request : PlacementRequest) : Controller σ :=
  { c with asked := c.asked ++ [request] }

/-- The controller after a creation, whose transaction left the core as given. -/
def afterCreation (c : Controller σ) (creation : Creation) (core : Core) : Controller σ :=
  { c with uuids := creation.draft.uuids, core }

/-- The graph in which a definition is exchanged for the one of a draft. -/
def replaceDefinition (name : ResourceName) (creation : Creation) (g : Graph) : Graph :=
  { g with definitions := g.definitions.insert name creation.draft.definition }

/-- Definitions are assessed by the policy of their group. -/
theorem assess_ok {d : Definition} {counts : ReplicaCounts} {policy : Filter}
    (h : assess team c d = .ok (counts, policy)) :
    ∃ group, c.core.graph.groups.find? d.group = some group ∧
      counts = d.countReplicas group c.core.graph.nodes c.core.props ∧
      policy = group.autoPlace := by
  unfold assess at h
  cases ha : requireAccess team d.name .view with
  | error fault =>
    rw [ha] at h
    cases h
  | ok =>
    simp only [ha, bind, Except.bind] at h
    split at h
    next => cases h
    next group hg =>
      cases h
      exact ⟨group, hg, rfl, rfl⟩

/-- What was found out up to the choice of pools for replacements. -/
structure Search (team : Collaborators σ) (c : Controller σ) (name : ResourceName) where
  definition : Definition
  counts : ReplicaCounts
  policy : Filter
  pools : List Pool
  found : c.core.graph.definitions.find? name = some definition
  assessed : assess team c definition = .ok (counts, policy)
  lacking : 0 < counts.deficit
  placed : team.place c.core (c.replacementRequest name definition counts.deficit policy)
    (definition.tombstoned c.core.graph.nodes).1 = .ok (some pools)

namespace Search

def filter (s : Search team c name) : Filter :=
  replacementFilter name s.counts.deficit s.policy

/-- The controller that remembers the request. -/
def asking (s : Search team c name) : Controller σ :=
  c.note (c.replacementRequest name s.definition s.counts.deficit s.policy)

def evicted (s : Search team c name) : List NodeName :=
  s.definition.evictedNodes c.core.graph.nodes

def request (s : Search team c name) : CreationRequest where
  context := replacementContext
  pools := s.pools
  disklessOnRemaining := s.filter.wantsDiskless
  layerStack := s.filter.layerStack

/-- What the creator starts from. -/
def draft (s : Search team c name) (responses : Report) : Draft where
  definition := (s.definition.tombstoned c.core.graph.nodes).1
  transaction := (s.definition.tombstoned c.core.graph.nodes).2
  responses := responses
  uuids := c.uuids

def creation (s : Search team c name) (responses : Report) : Creation :=
  team.create c.core s.request (s.draft responses)

end Search

/-- How the placement of replacements ends. -/
inductive PlacementExit (team : Collaborators σ) (c : Controller σ) (responses : Report)
    (name : ResourceName) : Replaced σ → Prop
  | vanished (h : c.core.graph.definitions.find? name = none) :
    PlacementExit team c responses name ⟨c, responses, .ok .satisfied⟩
  | faulty (fault : Fault) : PlacementExit team c responses name ⟨c, responses, .error fault⟩
  | satisfied {d : Definition} {counts : ReplicaCounts} {policy : Filter}
    (found : c.core.graph.definitions.find? name = some d)
    (assessed : assess team c d = .ok (counts, policy)) (enough : counts.deficit = 0) :
    PlacementExit team c responses name ⟨c, responses, .ok .satisfied⟩
  | noSearch (request : PlacementRequest) (fault : Fault) :
    PlacementExit team c responses name ⟨c.note request, responses, .error fault⟩
  | noCandidate (request : PlacementRequest) :
    PlacementExit team c responses name ⟨c.note request, responses, .ok .noCandidate⟩
  | refusedCreation (s : Search team c name) (fault : Fault)
    (refused : (s.creation responses).result = .error fault) :
    PlacementExit team c responses name
      ⟨s.asking.afterCreation (s.creation responses) c.core,
        (s.creation responses).draft.responses, .error fault⟩
  | refusedCommit (s : Search team c name) (store : Store) (fault : Fault)
    (refused : c.core.store.commit (s.creation responses).draft.transaction =
      (store, .error fault)) :
    PlacementExit team c responses name
      ⟨s.asking.afterCreation (s.creation responses) { c.core with store },
        (s.creation responses).draft.responses, .error fault⟩
  | created (s : Search team c name) (store : Store) (tasks : List Task) (nodes : List NodeName)
    (result : (s.creation responses).result = .ok (tasks, nodes))
    (committed : c.core.store.commit (s.creation responses).draft.transaction =
      (store, .ok ())) :
    PlacementExit team c responses name
      ⟨s.asking.afterCreation (s.creation responses)
          { c.core with
            store, graph := replaceDefinition name (s.creation responses) c.core.graph },
        (s.creation responses).draft.responses, .ok (.created tasks s.evicted)⟩

theorem createReplacements_exit (s : Search team c name) (responses : Report) :
    PlacementExit team c responses name
      (createReplacements team s.asking responses name s.filter s.evicted s.pools
        (s.definition.tombstoned c.core.graph.nodes).1
        (s.definition.tombstoned c.core.graph.nodes).2) := by
  have hcreation : team.create s.asking.core s.request
      { definition := (s.definition.tombstoned c.core.graph.nodes).1
        transaction := (s.definition.tombstoned c.core.graph.nodes).2
        responses, uuids := s.asking.uuids } = s.creation responses := rfl
  have hcore : s.asking.core = c.core := rfl
  unfold Search.request at hcreation
  unfold createReplacements
  dsimp only
  rw [hcreation, hcore]
  cases hr : (s.creation responses).result with
  | error fault => exact .refusedCreation s fault hr
  | ok made =>
    obtain ⟨tasks, nodes⟩ := made
    rcases hc : c.core.store.commit (s.creation responses).draft.transaction with ⟨store, _ | _⟩
    · simp only [Core.persist, hc]
      exact .refusedCommit s store _ hc
    · simp only [Core.persist, hc]
      exact .created s store tasks nodes hr hc

theorem replaceMissing_exit {d : Definition} {counts : ReplicaCounts} {policy : Filter}
    (found : c.core.graph.definitions.find? name = some d)
    (assessed : assess team c d = .ok (counts, policy)) (lacking : 0 < counts.deficit)
    (responses : Report) :
    PlacementExit team c responses name
      (replaceMissing team c responses name d counts.deficit policy) := by
  let request := c.replacementRequest name d counts.deficit policy
  unfold replaceMissing
  dsimp only
  split
  next fault _ => exact .noSearch request fault
  next _ => exact .noCandidate request
  next pools placed =>
    exact createReplacements_exit ⟨d, counts, policy, pools, found, assessed, lacking, placed⟩
      responses

theorem placeReplacements_exit (team : Collaborators σ) (c : Controller σ) (responses : Report)
    (name : ResourceName) :
    PlacementExit team c responses name (placeReplacements team c responses name) := by
  unfold placeReplacements
  split
  next hd => exact .vanished hd
  next d hd =>
    split
    next fault _ => exact .faulty fault
    next counts policy ha =>
      split
      next hz => exact .satisfied hd ha hz
      next hz =>
        split
        next fault _ => exact .faulty fault
        next => exact replaceMissing_exit hd ha (Nat.pos_of_ne_zero hz) responses

/-- How `manage` ends. -/
inductive ManageExit (team : Collaborators σ) (c : Controller σ) (context : ManageContext) :
    Managed σ → Prop
  | untracked (h : c.tracking.isTracked context.name = false) :
    ManageExit team c context ⟨c, context, .ok .notTracked⟩
  | vanished (tracked : c.tracking.isTracked context.name = true)
    (h : c.core.graph.definitions.find? context.name = none) :
    ManageExit team c context
      ⟨(c.mapMetrics ReconcileMetrics.recordManage).mapTracking (·.release context.name),
        context, .ok .notTracked⟩
  | faulty (tracked : c.tracking.isTracked context.name = true) {d : Definition} (fault : Fault)
    (found : c.core.graph.definitions.find? context.name = some d)
    (assessed : assess team c d = .error fault) :
    ManageExit team c context
      ⟨c.mapMetrics ReconcileMetrics.recordManage, context, .error fault⟩
  | needsDiskful (tracked : c.tracking.isTracked context.name = true) {d : Definition}
    {counts : ReplicaCounts} {policy : Filter}
    (found : c.core.graph.definitions.find? context.name = some d)
    (assessed : assess team c d = .ok (counts, policy)) (none : counts.diskfulConnected = 0) :
    ManageExit team c context
      ⟨(c.mapMetrics ReconcileMetrics.recordManage).noteNeedsDiskful context.name, context,
        .ok .needsDiskful⟩
  | converged (tracked : c.tracking.isTracked context.name = true) {d : Definition}
    {counts : ReplicaCounts} {policy : Filter}
    (found : c.core.graph.definitions.find? context.name = some d)
    (assessed : assess team c d = .ok (counts, policy)) (some : counts.diskfulConnected ≠ 0)
    (enough : counts.deficit = 0) :
    ManageExit team c context
      ⟨(c.diskfulAgain context.name).converge context.name, context, .ok .converged⟩
  | replacing (tracked : c.tracking.isTracked context.name = true) {d : Definition}
    {counts : ReplicaCounts} {policy : Filter}
    (found : c.core.graph.definitions.find? context.name = some d)
    (assessed : assess team c d = .ok (counts, policy)) (some : counts.diskfulConnected ≠ 0)
    (lacking : 0 < counts.deficit) :
    ManageExit team c context
      (concludeReplacement context
        (placeReplacements team (c.diskfulAgain context.name) context.responses context.name))

theorem manage_exit (team : Collaborators σ) (c : Controller σ) (context : ManageContext) :
    ManageExit team c context (manage team c context) := by
  unfold manage
  dsimp only
  split
  next hu => exact .untracked (by simpa using hu)
  next hu =>
    have ht : c.tracking.isTracked context.name = true := by simpa using hu
    split
    next hd => exact .vanished ht hd
    next d hd =>
      split
      next fault ha => exact .faulty ht fault hd ha
      next counts policy ha =>
        split
        next hz => exact .needsDiskful ht hd ha hz
        next hz =>
          split
          next hle =>
            have he : counts.deficit = 0 := Nat.sub_eq_zero_of_le hle
            exact .converged ht hd ha hz he
          next hlt =>
            have hl : 0 < counts.deficit := Nat.sub_pos_of_lt (Nat.lt_of_not_le hlt)
            exact .replacing ht hd ha hz hl

theorem step_of_scheduled {r : Replaced σ}
    (h : (concludeReplacement context r).outcome = .ok .scheduled) :
    ∃ tasks evicted, r.step = .ok (.created tasks evicted) := by
  unfold concludeReplacement at h
  split at h
  · cases h
  · cases h
  next tasks evicted hs => exact ⟨tasks, evicted, hs⟩
  · cases h
  · cases h

/-- A reconciliation that schedules replacements has found pools, created resources in them and
committed them. The definition is the one of the draft, and nothing else in the graph has
changed. -/
theorem manage_scheduled (h : (manage team c context).outcome = .ok .scheduled) :
    ∃ (s : Search team (c.diskfulAgain context.name) context.name) (store : Store)
      (tasks : List Task) (nodes : List NodeName),
      (s.creation context.responses).result = .ok (tasks, nodes) ∧
        c.core.store.commit (s.creation context.responses).draft.transaction = (store, .ok ()) ∧
        (manage team c context).controller.core =
          { c.core with
            store
            graph := replaceDefinition context.name (s.creation context.responses) c.core.graph } ∧
        (manage team c context).context.pipelines =
          context.pipelines ++ [{ tasks, eviction := some (context.name, s.evicted) }] := by
  have he := manage_exit team c context
  revert he h
  generalize manage team c context = m
  intro h he
  cases he with
  | untracked | vanished | faulty | needsDiskful | converged => cases h
  | replacing =>
    obtain ⟨tasks, evicted, hs⟩ := step_of_scheduled h
    have hp := placeReplacements_exit team (c.diskfulAgain context.name) context.responses
      context.name
    revert hp hs
    generalize placeReplacements team (c.diskfulAgain context.name) context.responses
      context.name = r
    intro hs hp
    cases hp with
    | vanished | faulty | satisfied | noSearch | noCandidate | refusedCreation | refusedCommit =>
      cases hs
    | created s store tasks nodes result committed =>
      exact ⟨s, store, tasks, nodes, result, committed, rfl, rfl⟩

end Controller

end StorageCluster
