import StorageCluster.Proofs.Controller.Exits
import StorageCluster.Proofs.Store.Engines

/-!
# Reconciliations that leave no trace

Only a reconciliation that schedules replacements changes what the controller knows and stores.
However else it ends, after a creation that failed half way or a commit that was refused, the graph
and the tables are the ones from before, no pipeline waits, and the definition stays tracked unless
it has converged.
-/
namespace StorageCluster

/-- The graph, the properties and the tables of a core are the ones from before. -/
structure Core.Untouched (before after : Core) : Prop where
  graph : after.graph = before.graph
  props : after.props = before.props
  engine : after.store.engine = before.store.engine

namespace Core.Untouched

theorem refl (c : Core) : Untouched c c := ⟨rfl, rfl, rfl⟩

theorem rows {before after : Core} (h : Untouched before after) (table : Table) :
    after.store.rows table = before.store.rows table := by
  simp only [Store.rows, h.engine]

end Core.Untouched

namespace Controller

variable {σ : Type} {team : Collaborators σ} {c : Controller σ} {responses : Report}
  {name : ResourceName} {context : ManageContext}

/-- Placing replacements changes the core only when they are created. -/
theorem PlacementExit.untouched {r : Replaced σ} (h : PlacementExit team c responses name r)
    (hr : ∀ tasks evicted, r.step ≠ .ok (.created tasks evicted)) :
    c.core.Untouched r.controller.core := by
  cases h with
  | vanished | faulty | satisfied | noSearch | noCandidate | refusedCreation => exact .refl _
  | refusedCommit s store fault refused =>
    exact ⟨rfl, rfl, Store.engine_of_refused refused⟩
  | created s store tasks => exact absurd rfl (hr tasks s.evicted)

theorem PlacementExit.tracking {r : Replaced σ} (h : PlacementExit team c responses name r) :
    r.controller.tracking = c.tracking := by
  cases h <;> rfl

/-- Whatever came of placing replacements, concluding it leaves the core alone. -/
theorem concludeReplacement_core (context : ManageContext) (r : Replaced σ) :
    (concludeReplacement context r).controller.core = r.controller.core := by
  unfold concludeReplacement
  split <;> rfl

theorem concludeReplacement_pipelines {r : Replaced σ}
    (h : (concludeReplacement context r).outcome ≠ .ok .scheduled) :
    (concludeReplacement context r).context.pipelines = context.pipelines := by
  unfold concludeReplacement at h ⊢
  split at h
  · rfl
  · rfl
  · exact absurd rfl h
  · rfl
  · rfl

theorem concludeReplacement_scheduled {r : Replaced σ} {tasks : List Task}
    {evicted : List NodeName} (h : r.step = .ok (.created tasks evicted)) :
    (concludeReplacement context r).outcome = .ok .scheduled := by
  simp only [concludeReplacement, h]

theorem concludeReplacement_tracking {r : Replaced σ}
    (h : (concludeReplacement context r).outcome ≠ .ok .converged) :
    (concludeReplacement context r).controller.tracking = r.controller.tracking := by
  unfold concludeReplacement at h ⊢
  split at h
  · exact absurd rfl h
  · rfl
  · rfl
  · rfl
  · rfl

theorem ManageExit.untouched {m : Managed σ} (h : ManageExit team c context m)
    (hm : m.outcome ≠ .ok .scheduled) : c.core.Untouched m.controller.core := by
  cases h with
  | untracked | vanished | faulty | converged => exact .refl _
  | needsDiskful =>
    unfold noteNeedsDiskful
    split <;> exact .refl _
  | replacing =>
    rw [concludeReplacement_core]
    refine (placeReplacements_exit team (c.diskfulAgain context.name) _ _).untouched ?_
    exact fun tasks evicted hs => hm (concludeReplacement_scheduled hs)

theorem ManageExit.pipelines {m : Managed σ} (h : ManageExit team c context m)
    (hm : m.outcome ≠ .ok .scheduled) : m.context.pipelines = context.pipelines := by
  cases h with
  | untracked | vanished | faulty | needsDiskful | converged => rfl
  | replacing => exact concludeReplacement_pipelines hm

/-- A definition that exists stays tracked until it has converged. -/
theorem ManageExit.needsReconciliation {m : Managed σ} (h : ManageExit team c context m)
    (hm : m.outcome ≠ .ok .converged)
    (hd : c.core.graph.definitions.contains context.name = true) :
    m.controller.tracking.needsReconciliation = c.tracking.needsReconciliation := by
  cases h with
  | untracked | faulty => rfl
  | vanished tracked hv => simp [SortedMap.contains, hv] at hd
  | needsDiskful =>
    unfold noteNeedsDiskful
    split <;> rfl
  | converged => exact absurd rfl hm
  | replacing =>
    rw [concludeReplacement_tracking hm, (placeReplacements_exit team _ _ _).tracking]
    rfl

/-- A reconciliation that schedules nothing leaves no trace: the graph and every table are as
before, no pipeline waits, and a definition that exists is tracked as before unless it has
converged. -/
theorem manage_leaves_no_trace (team : Collaborators σ) (c : Controller σ)
    (context : ManageContext) (h : (manage team c context).outcome ≠ .ok .scheduled) :
    let m := manage team c context
    m.controller.core.graph = c.core.graph ∧
      (∀ table, m.controller.core.store.rows table = c.core.store.rows table) ∧
      m.context.pipelines = context.pipelines ∧
      (m.outcome ≠ .ok .converged → c.core.graph.definitions.contains context.name = true →
        m.controller.tracking.needsReconciliation = c.tracking.needsReconciliation) := by
  have he := manage_exit team c context
  have hu := he.untouched h
  exact ⟨hu.graph, hu.rows, he.pipelines h, fun hc hd => he.needsReconciliation hc hd⟩

end Controller

/-! A small cluster: node `alpha` is evicted but still connected, node `bravo` has room for replicas
of `r0`, and node `charlie` has none. -/
namespace Sample

def alpha : NodeName := ⟨"alpha", by decide⟩
def bravo : NodeName := ⟨"bravo", by decide⟩
def charlie : NodeName := ⟨"charlie", by decide⟩
def r0 : ResourceName := ⟨"r0", by decide⟩
def dflt : GroupName := ⟨"dflt", by decide⟩
def pool1 : PoolName := ⟨"pool1", by decide⟩

def node (name : NodeName) : Node := { uuid := default, name, status := .connected }

def resource (node : NodeName) : Resource :=
  { uuid := default, name := r0, node, layerStack := [.drbd, .storage] }

def definition (holders : List NodeName) : Definition :=
  { uuid := default, name := r0, group := dflt
    volumes := .ofList [(0, { uuid := default, number := 0, sizeBytes := 4 })]
    resources := .ofList (holders.map fun node => (node, resource node)) }

def group (count : UInt32) : Group :=
  { uuid := default, name := dflt, autoPlace := { placeCount := some count } }

/-- `r0` lies on some nodes and is to have as many replicas as there are. -/
def core (holders : List NodeName) : Core :=
  let c : Core := { store := .new .memory }
  let c := [alpha, bravo, charlie].foldl (fun c name => (c.createNode (node name)).1) c
  let c := (c.createPool (.new default pool1 bravo .lvm 16)).1
  let c := (c.createGroup (group (UInt32.ofNat holders.length))).1
  let c := (c.createDefinition (definition holders)).1
  (c.updateNodeFlags alpha NodeFlags.evicted .none).1

def controller (holders : List NodeName) : Controller Unit where
  core := core holders
  satellites := ()
  tracking := Tracking.mark {} r0
  events := .ofCapacity 1

/-- An engine that reads no patterns but how a name has to begin. -/
def initials : PatternEngine where
  compile text :=
    match text.toList with
    | '^' :: initial =>
      if initial.all Char.isAlphanum then some ⟨fun name => initial.isPrefixOf name.toList⟩
      else none
    | _ => none

/-- Everything is granted, places are searched for, and satellites are content. -/
def team : Collaborators Unit where
  access := .permissive
  place core request d := core.graph.place initials request.filter d request.sizeBytes
  create := Core.createResources
  push s _ _ _ := ⟨s, none, .ok []⟩
  rest := id

/-- The creator adds what it should and then changes its mind. -/
def wavering : Collaborators Unit :=
  { team with create := fun core request draft =>
      ⟨(core.createResources request draft).draft, .error (Draft.nodeMissing bravo)⟩ }

end Sample

open Sample in
theorem manage_wavering_leaves_no_trace :
    let c := controller [alpha]
    let m := Controller.manage wavering c { name := r0 }
    m.outcome ≠ .ok .scheduled ∧ m.controller.core.graph = c.core.graph ∧
      (∀ table, m.controller.core.store.rows table = c.core.store.rows table) ∧
      m.context.pipelines = [] ∧
      (m.outcome ≠ .ok .converged → c.core.graph.definitions.contains r0 = true →
        m.controller.tracking.needsReconciliation = c.tracking.needsReconciliation) := by
  intro c m
  have h : m.outcome ≠ .ok .scheduled := by decide +kernel
  exact ⟨h, Controller.manage_leaves_no_trace wavering c { name := r0 } h⟩

end StorageCluster
