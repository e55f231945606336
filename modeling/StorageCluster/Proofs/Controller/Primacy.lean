import StorageCluster.Proofs.Controller.Announcements
import StorageCluster.Proofs.Controller.Claims
import StorageCluster.Proofs.Controller.Recovery
import StorageCluster.Proofs.Store.Restoring

/-!
# One primary for each resource

Nothing but the first grant changes who holds the primary role of a resource: operations leave
definitions alone that are there, reconciliations replace resources only, and a restart reads
properties back as they were stored. So whoever was granted the role once keeps it for good, and no
other node is ever granted it. Main result: `Later.grants_one_node`.
-/
namespace StorageCluster

namespace Core

variable {c c' : Core}

theorem persist_keeps_holders {t : Transaction} {update : Graph → Graph}
    (h : c.graph.KeepsHolders (update c.graph)) :
    c.graph.KeepsHolders (c.persist t update).1.graph := by
  unfold persist
  split
  · exact h
  · exact .refl _

theorem createDefinition_keeps_holders (c : Core) (d : Definition) :
    c.graph.KeepsHolders (c.createDefinition d).1.graph := by
  unfold createDefinition
  split
  · exact .refl _
  next hfree =>
    split
    · exact .refl _
    · split
      · exact .refl _
      · refine persist_keeps_holders (.insert fun holder hh => ?_)
        obtain ⟨old, hold, _⟩ := Option.bind_eq_some_iff.1 hh
        exact absurd (SortedMap.contains_of_find? hold) hfree

theorem updateNodeFlags_keeps_holders (c : Core) (name : NodeName) (set clear : NodeFlags) :
    c.graph.KeepsHolders (c.updateNodeFlags name set clear).1.graph := by
  unfold updateNodeFlags
  split
  · exact .refl _
  · exact persist_keeps_holders (.of_definitions rfl)

/-- An operation leaves the definitions alone that are there. -/
theorem perform_keeps_holders (c : Core) (o : Operation) :
    c.graph.KeepsHolders (c.perform o).1.graph := by
  cases o with
  | createNode | createConnection | createGroup | createPool =>
    simp only [perform, createNode, createConnection, createGroup, createPool]
    split
    · exact .refl _
    · exact persist_keeps_holders (.of_definitions rfl)
  | createDefinition d => exact c.createDefinition_keeps_holders d
  | updateNodeFlags name set clear => exact c.updateNodeFlags_keeps_holders name set clear

/-- A core that was loaded is backed by the store that it was loaded from. -/
theorem Backed.reloaded (h : c.Backed) {counts : Graph.Summary}
    (loaded : Graph.load c.store = .ok (c'.graph, counts))
    (engine : c'.store.engine = c.store.engine) : c'.Backed := by
  obtain ⟨hgrounded, hgraph⟩ := (h.load_iff _).1 loaded
  obtain ⟨m, hs, hm⟩ := h.holds
  have hstored : c'.graph = c.graph.stored := congrArg Prod.fst hgraph
  constructor
  · rw [hstored]
    exact Store.Holds.of_engine ⟨m, hs, Graph.holds_stored h.storable hm hgrounded⟩ engine
  · rw [hstored]
    exact h.storable.stored

theorem Backed.keeps_holders_of_load (h : c.Backed) {counts : Graph.Summary}
    (loaded : Graph.load c.store = .ok (c'.graph, counts)) :
    c.graph.KeepsHolders c'.graph := by
  have hstored : c'.graph = c.graph.stored := congrArg Prod.fst ((h.load_iff _).1 loaded).2
  intro name holder hh
  obtain ⟨d, hd, hget⟩ := Option.bind_eq_some_iff.1 hh
  rw [hstored, Graph.holder?, Graph.stored, SortedMap.find?_map_values, hd]
  exact hget

/-- A backed core in which the claims of an earlier graph stand. -/
structure Follows (g : Graph) (c : Core) : Prop where
  backed : c.Backed
  holders : g.KeepsHolders c.graph

theorem Follows.step {g : Graph} (h : Follows g c) (hstep : Step (fun _ _ => True) c c')
    (hkeeps : c.graph.KeepsHolders c'.graph) : Follows g c' :=
  ⟨h.backed.step hstep, h.holders.trans hkeeps⟩

end Core

namespace Controller

variable {σ : Type} {team : Collaborators σ} {engine : PatternEngine} {c c' : Controller σ}

theorem manage_keeps_holders (hteam : team.BuiltIn engine) (c : Controller σ)
    (context : ManageContext) :
    c.core.graph.KeepsHolders (manage team c context).controller.core.graph := by
  by_cases hs : (manage team c context).outcome = .ok .scheduled
  · obtain ⟨s, after, tasks, created, diskful, diskless, ha, hcreated, _, hgraph⟩ :=
      manage_grows hteam.create hs
    have hprops : after.props = s.definition.props := by
      rw [ha, hcreated.grows.frame, Search.draft, Definition.tombstoned_definition]
    rw [hgraph]
    refine .insert fun holder hh => ?_
    rw [hprops, ← hh]
    exact (Graph.holder?_of_find? s.found).symm
  · exact .of_definitions (by rw [((manage_exit team c context).untouched hs).graph])

theorem occur_keeps_holders (c : Controller σ) (o : Occurrence) :
    c.core.graph.KeepsHolders (c.occur o).1.core.graph := by
  cases c.occur_happening o with
  | quiet graph | sent _ graph => exact .of_definitions (by rw [graph])
  | changed _ change => exact .of_definitions change.definitions

/-- Reconciliations, and whatever happens outside, keep claims. -/
theorem kept_follows (hteam : team.BuiltIn engine) (g : Graph) :
    Kept [manage team] (Core.Follows g) := by
  constructor
  case managed =>
    intro helper hm c context hc
    obtain rfl : helper = manage team := List.mem_singleton.1 hm
    exact hc.step (manage_step hteam hc.backed) (manage_keeps_holders hteam c context)
  case occurred =>
    intro c o hc
    exact hc.step (occur_step hc.backed o) (c.occur_keeps_holders o)

theorem serve_follows (hteam : team.BuiltIn engine) {g : Graph} (hc : Core.Follows g c.core)
    (r : Request)
    (hr : ∀ o, r = .perform o → (c.core.perform o).2 = .ok () → o.WellFormed) :
    Core.Follows g (c.serve team r).core := by
  cases r with
  | perform o =>
    exact hc.step (Core.perform_step hc.backed o (hr o rfl) fun _ _ _ => trivial)
      (c.core.perform_keeps_holders o)
  | primary who node request =>
    exact hc.step (handlePrimary_step team c who node request)
      (handlePrimary_keeps_holders team c who node request)
  | occur o => exact (kept_follows hteam g).occurred c o hc
  | event e => exact hc
  | cycle => exact runCycle_keeps (kept_follows hteam g).managed hc
  | loop interval horizon ahead =>
    exact runLoop_keeps (kept_follows hteam g) interval horizon ahead hc
  | outage commits => exact hc.step (.untouched ⟨rfl, rfl, rfl⟩) (.refl _)

/-- A controller after requests and restarts. A restart keeps nothing but what can be loaded from
the store. -/
inductive Later (team : Collaborators σ) (c : Controller σ) : Controller σ → Prop
  | now : Later team c c
  | served {c' : Controller σ} (before : Later team c c') (r : Request)
    (wellFormed : ∀ o, r = .perform o → (c'.core.perform o).2 = .ok () → o.WellFormed) :
    Later team c (c'.serve team r)
  | restarted {c' fresh : Controller σ} (before : Later team c c') {counts : Graph.Summary}
    (engine : fresh.core.store.engine = c'.core.store.engine)
    (loaded : Graph.load c'.core.store = .ok (fresh.core.graph, counts)) : Later team c fresh

theorem Later.follows (hteam : team.BuiltIn engine) (hc : c.core.Backed) (h : Later team c c') :
    Core.Follows c.core.graph c'.core := by
  induction h with
  | now => exact ⟨hc, .refl _⟩
  | served _ r wellFormed ih => exact serve_follows hteam ih r wellFormed
  | restarted _ engine loaded ih =>
    have hkeeps := ih.backed.keeps_holders_of_load loaded
    exact ⟨ih.backed.reloaded loaded engine, ih.holders.trans hkeeps⟩

/-- At most one node is ever granted the primary role of a resource. Whatever has happened, a
request is granted exactly when access is allowed, the resource of the node has the uuid, and the
role is the node's own or is free, as long as the store takes the claim. The first grant pushes the
definition once; every other request leaves the graph, the tables and the satellites as they were.
After a grant the role is held in memory and in the store by the node that was granted it, whatever
happens then and however often the controller starts again: no request changes anything any more,
and all that are granted are of that node. -/
theorem Later.grants_one_node (hteam : team.BuiltIn engine) {first : Controller σ}
    (hb : first.core.Backed) (h : Later team first c) (who : AccessContext) (node : NodeName)
    (request : PrimaryRequest) :
    let name := request.resource
    let after := (c.handlePrimary team who node request).1
    let answer := (c.handlePrimary team who node request).2
    (IsGrant answer ↔ Entitled team c who node request ∧
      (c.core.graph.holder? name = none ∧ c.core.store.outage = 0 ∨
        ∃ holder, c.core.graph.holder? name = some holder ∧
          sameIgnoringCase holder node.display = true)) ∧
    (IsGrant answer → c.core.graph.holder? name = none →
      ∃ d, after.core.graph.definitions.find? name = some d ∧
        d.props.get? Props.primarySetOnKey none = some node.display ∧
        after.satellites = (team.push c.satellites after.core d allNodes).satellites) ∧
    (¬ (IsGrant answer ∧ c.core.graph.holder? name = none) →
      c.core.Untouched after.core ∧ after = { c with core := after.core }) ∧
    (IsGrant answer → ∃ holder, sameIgnoringCase holder node.display = true ∧
      ∀ c', Later team after c' → c'.core.Claimed name holder ∧
        ∀ who' node' request', compare request'.resource name = .eq →
          (c'.handlePrimary team who' node' request').1 = c' ∧
            (IsGrant (c'.handlePrimary team who' node' request').2 → (node' == node) = true)) := by
  intro name after answer
  have hc : c.core.Backed := (h.follows hteam hb).backed
  have hafter : after.core.Backed := by
    have hstep : Core.Step (fun _ _ => True) c.core _ := handlePrimary_step team c who node request
    exact hc.step hstep
  refine ⟨isGrant_iff hc, handlePrimary_first, handlePrimary_untouched, fun hgrant => ?_⟩
  obtain ⟨holder, hheld, hsame⟩ := holder?_of_isGrant hgrant
  refine ⟨holder, hsame, fun c' hlater => ?_⟩
  have hfollows := hlater.follows hteam hafter
  have hholder := hfollows.holders name holder hheld
  refine ⟨hfollows.backed.claimed hholder, fun who' node' request' hname => ?_⟩
  rw [← Graph.holder?_congr hname] at hholder
  obtain ⟨hkept, hown⟩ := handlePrimary_of_holder hholder
  refine ⟨hkept, fun hgrant' => ?_⟩
  have hsame' := hown hgrant'
  rw [sameIgnoringCase, beq_iff_eq] at hsame hsame'
  exact (Name.beq_iff _ _).2 (hsame'.symm.trans hsame)

end Controller

namespace Sample

/-- `r0` on `alpha`, before anybody has asked for the primary role. -/
def unclaimed : Controller Unit := (history.take 6).foldl (Controller.serve team) idle

def claim : PrimaryRequest := { resource := r0, uuid := default, alreadyInitialized := false }

theorem unclaimed_later : Controller.Later team idle unclaimed := by
  have hserve {c : Controller Unit} (hc : Controller.Later team idle c) (o : Core.Operation)
      (ho : o.WellFormed) : Controller.Later team idle (c.serve team (.perform o)) :=
    hc.served _ fun o' h _ => by
      cases h
      exact ho
  have hnodes := hserve (hserve .now (.createNode (node alpha)) (node_storable alpha))
    (.createNode (node bravo)) (node_storable bravo)
  have hpools := hserve (hserve hnodes (.createPool (.new default pool1 alpha .lvm 16)) trivial)
    (.createPool (.new default pool1 bravo .lvm 16)) trivial
  exact hserve (hserve hpools (.createGroup (group 1)) trivial) (.createDefinition marked)
    ((filled_storable pool1).addSnapshot Flags.isKnown_none)

theorem alpha_granted : Controller.IsGrant (unclaimed.handlePrimary team .system alpha claim).2 :=
  ⟨false, by decide +kernel⟩

/-- After the grant to `alpha` and the replacement of `r0` on `bravo`. -/
def replaced : Controller Unit := history.foldl (Controller.serve team) idle

def restarted : Controller Unit := { idle with core := replaced.core.reload.1 }

theorem replaced_later :
    Controller.Later team (unclaimed.handlePrimary team .system alpha claim).1 replaced :=
  ((((Controller.Later.now.served (.outage 1) nofun).served (.occur (.evict alpha)) nofun).served
    (.occur (.evict alpha)) nofun).served (.event (.nodeEvicted alpha)) nofun).served .cycle nofun

theorem restarted_later :
    Controller.Later team (unclaimed.handlePrimary team .system alpha claim).1 restarted := by
  have hload : Graph.load replaced.core.store =
      .ok (replaced.core.graph.offline.refiled, replaced.core.graph.census) :=
    (history_reached.sound ⟨rfl, rfl⟩).load
  have hcore : restarted.core =
      { replaced.core with graph := replaced.core.graph.offline.refiled } := by
    rw [restarted, Core.reload, hload]
  have hengine : restarted.core.store.engine = replaced.core.store.engine := by rw [hcore]
  have hloaded : Graph.load replaced.core.store =
      .ok (restarted.core.graph, replaced.core.graph.census) := by rwa [hcore]
  exact replaced_later.restarted hengine hloaded

end Sample

open Sample in
/-- `alpha` is granted the primary role, and keeps it when `r0` has been replaced on `bravo` and the
controller has started again. -/
theorem grants_one_node_in_history :
    Controller.IsGrant (unclaimed.handlePrimary team .system alpha claim).2 ∧
      (replaced.core.graph.definitions.find? r0).any (fun d => d.resources.contains bravo) = true ∧
      replaced.core.Claimed r0 "alpha" ∧ restarted.core.Claimed r0 "alpha" ∧
      ∀ who request, compare request.resource r0 = .eq →
        ¬ Controller.IsGrant (restarted.handlePrimary team who bravo request).2 := by
  have hidle : idle.core.Backed :=
    .start rfl (show idle.core.store.engine = Engine.new .memory from rfl)
  obtain ⟨_, _, _, hgranted⟩ := Controller.Later.grants_one_node ⟨rfl, rfl⟩ hidle unclaimed_later
    .system alpha claim
  obtain ⟨holder, _, hlater⟩ := hgranted alpha_granted
  have hclaimed : replaced.core.Claimed r0 holder := (hlater replaced replaced_later).1
  have hholder : replaced.core.graph.holder? r0 = some "alpha" := by decide +kernel
  obtain rfl : holder = "alpha" := Option.some.inj (hclaimed.known.symm.trans hholder)
  obtain ⟨hkept, hothers⟩ := hlater restarted restarted_later
  refine ⟨alpha_granted, history_replaced, hclaimed, hkept, fun who request hname hbravo => ?_⟩
  have hsame : (bravo == alpha) = true := (hothers who bravo request hname).2 hbravo
  exact absurd hsame (by decide)

end StorageCluster
