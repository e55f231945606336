import StorageCluster.Proofs.Controller.Cycles
import StorageCluster.Proofs.Controller.Upkeep

/-!
# Recovery after a restart

Whatever a controller has done since it started on an empty store, a fresh core that loads the store
gets the graph of the running one, with all nodes offline. Operations may fail, reconciliations and
primary requests may come in any order and commits may be refused; definitions must be settled when
they are created.
-/
namespace StorageCluster

/-- The definition with its snapshots filed under their names as they spell them. -/
def Definition.refiled (d : Definition) : Definition :=
  { d with snapshots := .ofList (d.snapshots.values.map fun s => ((s.name, s.node), s)) }

namespace Graph

variable {g : Graph}

def refiled (g : Graph) : Graph := { g with definitions := g.definitions.map fun _ d => d.refiled }

theorem refiled_eq_self
    (h : ∀ d ∈ g.definitions.values, d.snapshots.Spelled fun s => (s.name, s.node)) :
    g.refiled = g := by
  have hdefinitions : (g.definitions.map fun _ d => d.refiled) = g.definitions := by
    refine SortedMap.map_eq_self fun e he => ?_
    rw [Definition.refiled, (h e.2 (List.mem_map.2 ⟨e, he, rfl⟩)).ofList (.refl _)]
  rw [refiled, hdefinitions]

theorem Settled.grounded (h : g.Settled) (hg : g.Storable) : g.Grounded := by
  constructor
  · intro v hv
    obtain ⟨d, hd, hvd⟩ := List.mem_flatMap.1 hv
    obtain ⟨r, hr, hvr⟩ := List.mem_flatMap.1 hvd
    obtain ⟨w, hw, rfl⟩ := List.mem_map.1 hvr
    exact (h d hd).pools r hr w hw
  · intro s hs
    obtain ⟨d, hd, hsd⟩ := List.mem_flatMap.1 hs
    obtain ⟨hname, hnode⟩ := (h d hd).snapshots s hsd
    refine ⟨hnode, ?_⟩
    rw [SortedMap.contains_congr hname]
    exact SortedMap.contains_of_find? (hg.definitions.find? hd)

/-- Snapshots of a settled graph stay with the definitions that they are filed in. -/
theorem Settled.stored_eq (h : g.Settled) (hg : g.Storable) : g.stored = g.offline.refiled := by
  have hown : ∀ d ∈ g.definitions.values, ∀ s ∈ d.snapshots.values,
      compare s.resource d.name = .eq := fun d hd s hs => ((h d hd).snapshots s hs).1
  have hdefinitions : (g.definitions.map fun _ d => { d with snapshots := g.snapshotsOf d.name }) =
      g.definitions.map fun _ d => d.refiled := by
    refine SortedMap.map_congr fun e he => ?_
    have hsnapshots := hg.definitions.filed.filter_flatMap_values hown he
    have hname : e.1 = e.2.name := hg.definitions e he
    rw [hname] at hsnapshots
    rw [snapshotsOf, snapshots, hsnapshots, Definition.refiled]
  rw [stored, hdefinitions]
  rfl

end Graph

/-- A core whose store restores its graph. -/
structure Core.Sound (c : Core) : Prop where
  backed : c.Backed
  settled : c.graph.Settled

namespace Core.Sound

variable {c c' : Core}

theorem start {c : Core} {kind : EngineKind} (hgraph : c.graph = {})
    (hengine : c.store.engine = .new kind) : c.Sound := by
  refine ⟨.start hgraph hengine, ?_⟩
  rw [hgraph]
  intro d hd
  cases hd

theorem step (h : c.Sound) (hstep : Step Definition.Settled c c') : c'.Sound := by
  refine ⟨h.backed.step hstep, ?_⟩
  cases hstep with
  | untouched hu =>
    rw [hu.graph]
    exact h.settled
  | moved move committed => exact move.settled h.settled

theorem load (h : c.Sound) :
    Graph.load c.store = .ok (c.graph.offline.refiled, c.graph.census) := by
  refine (h.backed.load_iff _).2 ⟨h.settled.grounded h.backed.storable, ?_⟩
  rw [h.settled.stored_eq h.backed.storable]

end Core.Sound

namespace Controller

variable {σ : Type} {team : Collaborators σ} {engine : PatternEngine}
  {accept : Definition → Graph → Prop} {c : Controller σ}

theorem setNodeFlags_step (hb : c.core.Backed) (node : NodeName) {set : NodeFlags}
    (hset : set.IsKnown) (clear : NodeFlags) (e : TopologyEvent) :
    Core.Step accept c.core (c.setNodeFlags node set clear e).1.core := by
  have hstep : Core.Step accept c.core (c.core.updateNodeFlags node set clear).1 :=
    Core.updateNodeFlags_step hb node clear fun _ _ => hset
  unfold setNodeFlags
  dsimp only
  split
  · exact hstep
  · exact hstep

theorem occur_step (hb : c.core.Backed) (o : Occurrence) :
    Core.Step accept c.core (c.occur o).1.core := by
  cases o with
  | evict node =>
    rw [occur, ofUnit_fst]
    exact setNodeFlags_step hb node (by decide) _ _
  | restore node =>
    rw [occur, ofUnit_fst]
    exact setNodeFlags_step hb node Flags.isKnown_none _ _
  | connect node status =>
    have hstep : Core.Step accept c.core (c.core.setConnectionStatus node status).1 :=
      Core.setConnectionStatus_step node status
    rw [occur, ofUnit_fst]
    unfold setConnectionStatus
    split
    next hs =>
      rw [hs] at hstep
      exact hstep
    next hs =>
      rw [hs] at hstep
      exact hstep
  | mark | publish | fault => exact .untouched (.refl _)

/-- Reconciliations, and whatever happens outside, keep a core sound. -/
theorem kept_sound (hteam : team.BuiltIn engine) : Kept [manage team] Core.Sound := by
  constructor
  case managed =>
    intro helper hm c context hc
    obtain rfl : helper = manage team := List.mem_singleton.1 hm
    exact hc.step (manage_step hteam hc.backed)
  case occurred =>
    intro c o hc
    exact hc.step (occur_step hc.backed o)

/-- What a controller can be asked for, and what can happen to it. -/
inductive Request
  | perform (o : Core.Operation)
  | primary (who : AccessContext) (node : NodeName) (request : PrimaryRequest)
  | occur (o : Occurrence)
  | event (e : TopologyEvent)
  | cycle
  | loop (interval horizon : Nat) (ahead : List (Nat × Occurrence))
  | outage (commits : Nat)

def serve (team : Collaborators σ) (c : Controller σ) : Request → Controller σ
  | .perform o => { c with core := (c.core.perform o).1 }
  | .primary who node request => (c.handlePrimary team who node request).1
  | .occur o => (c.occur o).1
  | .event e => (c.handleEvent e).1
  | .cycle => (runCycle team [manage team] c).1
  | .loop interval horizon ahead => (runLoop team [manage team] interval horizon ahead c).1
  | .outage commits => { c with core.store.outage := commits }

/-- Operations that come through have well-formed arguments, and definitions that are created are
settled then. -/
def Request.Fits (c : Controller σ) : Request → Prop
  | .perform o => (c.core.perform o).2 = .ok () →
      o.WellFormed ∧ ∀ d, o = .createDefinition d → d.Settled c.core.graph
  | _ => True

theorem serve_sound (hteam : team.BuiltIn engine) (hc : c.core.Sound) (r : Request)
    (hr : r.Fits c) :
    (c.serve team r).core.Sound := by
  cases r with
  | perform o =>
    exact hc.step (Core.perform_step hc.backed o (fun hok => (hr hok).1)
      fun d hd hok => (hr hok).2 d hd)
  | primary who node request => exact hc.step (handlePrimary_step team c who node request)
  | occur o => exact hc.step (occur_step hc.backed o)
  | event e => exact hc
  | cycle => exact runCycle_keeps (kept_sound hteam).managed hc
  | loop interval horizon ahead => exact runLoop_keeps (kept_sound hteam) interval horizon ahead hc
  | outage commits => exact hc.step (.untouched ⟨rfl, rfl, rfl⟩)

/-- A controller after requests on an empty store, some of which may have failed. -/
inductive Reached (team : Collaborators σ) (kind : EngineKind) : Controller σ → Prop
  | start {c : Controller σ} (graph : c.core.graph = {})
    (engine : c.core.store.engine = .new kind) : Reached team kind c
  | next {c : Controller σ} (before : Reached team kind c) (r : Request) (fits : r.Fits c) :
    Reached team kind (c.serve team r)

theorem Reached.perform {kind : EngineKind} (h : Reached team kind c) (o : Core.Operation)
    (ho : o.WellFormed) (hd : ∀ d, o = .createDefinition d → d.Settled c.core.graph) :
    Reached team kind (c.serve team (.perform o)) :=
  h.next (.perform o) fun _ => ⟨ho, hd⟩

theorem Reached.sound {kind : EngineKind} (hteam : team.BuiltIn engine) (h : Reached team kind c) :
    c.core.Sound := by
  induction h with
  | start graph engine => exact .start graph engine
  | next _ r fits ih => exact serve_sound hteam ih r fits

/-- A fresh core that loads the store gets the graph of the running controller with all nodes
offline. All that may differ is how the key of a snapshot is spelled, where one snapshot was added
twice in different case: it is filed under its own spelling then, and found under the same names as
before. -/
theorem Reached.reload_restores {kind : EngineKind} (hteam : team.BuiltIn engine)
    (h : Reached team kind c) :
    let g := c.core.graph
    let fresh : Core := { store := c.core.store }
    fresh.reload = ({ fresh with graph := g.offline.refiled }, .ok g.census) ∧
      (∀ d ∈ g.definitions.values, ∀ key,
        d.refiled.snapshots.find? key = d.snapshots.find? key) ∧
      ((∀ d ∈ g.definitions.values, d.snapshots.Spelled fun s => (s.name, s.node)) →
        g.offline.refiled = g.offline) := by
  intro g fresh
  have hsound : c.core.Sound := h.sound hteam
  refine ⟨?_, fun d hd key => ?_, fun hspelled => ?_⟩
  · rw [Core.reload, hsound.load]
  · exact (hsound.backed.storable.definition d hd).1.snapshots.find?_ofList key
  · exact Graph.refiled_eq_self (show ∀ d ∈ g.offline.definitions.values, _ from hspelled)

/-- Unless a snapshot was added twice in different case, the store mirrors the graph. -/
theorem Reached.mirrored {kind : EngineKind} (hteam : team.BuiltIn engine) (h : Reached team kind c)
    (hspelled : ∀ d ∈ c.core.graph.definitions.values,
      d.snapshots.Spelled fun s => (s.name, s.node)) : c.core.Mirrored := by
  have hrefiled : c.core.graph.offline.refiled = c.core.graph.offline :=
    Graph.refiled_eq_self (show ∀ d ∈ c.core.graph.offline.definitions.values, _ from hspelled)
  refine ⟨_, (h.sound hteam).load, ?_⟩
  rw [hrefiled, Graph.offline_offline]

end Controller

namespace Sample

def snap1 : SnapshotName := ⟨"snap1", by decide⟩

/-- `r0` on `alpha`, with a volume in `pool1` and a snapshot of it. -/
def marked : Definition :=
  (filled pool1).addSnapshot { uuid := default, name := snap1, resource := r0, node := alpha }

def idle : Controller Unit where
  core := { store := .new .memory }
  satellites := ()
  events := .ofCapacity 1

/-- `r0` is granted a primary, loses `alpha` while the store is away for a moment, and is replaced
on `bravo`. -/
def history : List Controller.Request :=
  [.perform (.createNode (node alpha)), .perform (.createNode (node bravo)),
    .perform (.createPool (.new default pool1 alpha .lvm 16)),
    .perform (.createPool (.new default pool1 bravo .lvm 16)),
    .perform (.createGroup (group 1)), .perform (.createDefinition marked),
    .primary .system alpha { resource := r0, uuid := default, alreadyInitialized := false },
    .outage 1, .occur (.evict alpha), .occur (.evict alpha), .event (.nodeEvicted alpha), .cycle]

theorem marked_settled {g : Graph} (hpool : g.pools.contains (alpha, pool1) = true)
    (hnode : g.nodes.contains alpha = true) : marked.Settled g := by
  constructor
  · intro r hr v hv
    obtain rfl : r = holding pool1 := List.mem_singleton.1 hr
    rw [List.mem_singleton.1 hv]
    exact hpool
  · intro s hs
    rw [List.mem_singleton.1 hs]
    exact ⟨Std.ReflCmp.compare_self, hnode⟩

theorem history_reached :
    Controller.Reached team .memory (history.foldl (Controller.serve team) idle) := by
  have hnodes : Controller.Reached team .memory
      ((history.take 2).foldl (Controller.serve team) idle) :=
    .perform (.perform (.start rfl rfl) (.createNode (node alpha)) (node_storable alpha) nofun)
      (.createNode (node bravo)) (node_storable bravo) nofun
  have hprepared : Controller.Reached team .memory
      ((history.take 5).foldl (Controller.serve team) idle) :=
    .perform
      (.perform (.perform hnodes (.createPool _) trivial nofun) (.createPool _) trivial nofun)
      (.createGroup (group 1)) trivial nofun
  have hdefined : Controller.Reached team .memory
      ((history.take 6).foldl (Controller.serve team) idle) := by
    refine .perform hprepared (.createDefinition marked) ?_ ?_
    · exact (filled_storable pool1).addSnapshot Flags.isKnown_none
    · rintro d ⟨⟩
      exact marked_settled (by decide +kernel) (by decide +kernel)
  have hgranted := hdefined.next (.primary .system alpha
    { resource := r0, uuid := default, alreadyInitialized := false }) trivial
  have hevicted := ((hgranted.next (.outage 1) trivial).next (.occur (.evict alpha)) trivial).next
    (.occur (.evict alpha)) trivial
  exact (hevicted.next (.event (.nodeEvicted alpha)) trivial).next .cycle trivial

theorem history_replaced :
    ((history.foldl (Controller.serve team) idle).core.graph.definitions.find? r0).any
      (fun d => d.resources.contains bravo) = true := by
  decide +kernel

theorem history_spelled :
    ∀ d ∈ (history.foldl (Controller.serve team) idle).core.graph.definitions.values,
      ∀ e ∈ d.snapshots.entries, e.1 = (e.2.name, e.2.node) := by
  decide +kernel

end Sample

open Sample in
/-- After the replacement on `bravo`, nothing of `r0` is lost in a restart. -/
theorem history_restored :
    let c := history.foldl (Controller.serve team) idle
    let fresh : Core := { store := c.core.store }
    Controller.Reached team .memory c ∧ team.BuiltIn initials ∧
      (c.core.graph.definitions.find? r0).any (fun d => d.resources.contains bravo) = true ∧
      fresh.reload = ({ fresh with graph := c.core.graph.offline }, .ok c.core.graph.census) := by
  have hteam : team.BuiltIn initials := ⟨rfl, rfl⟩
  have hload (c : Controller Unit) (hc : Controller.Reached team .memory c)
      (hspelled : ∀ d ∈ c.core.graph.definitions.values,
        ∀ e ∈ d.snapshots.entries, e.1 = (e.2.name, e.2.node)) :
      Core.reload { store := c.core.store } =
        ({ store := c.core.store, graph := c.core.graph.offline }, .ok c.core.graph.census) := by
    obtain ⟨hreload, _, hexact⟩ := hc.reload_restores hteam
    rwa [hexact hspelled] at hreload
  exact ⟨history_reached, hteam, history_replaced, hload _ history_reached history_spelled⟩

end StorageCluster
