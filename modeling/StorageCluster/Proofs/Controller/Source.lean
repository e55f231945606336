import StorageCluster.Proofs.Controller.Atomicity
import StorageCluster.Proofs.Controller.Growth
import StorageCluster.Proofs.Controller.Tombstones

/-!
# What replacements can be filled from

New replicas are empty. They need a replica from before that stays, is diskful and sits on a
connected node. A connected diskful replica is asked for before replacements are placed, but one on
an evicted node is deleted with them, and one that is already deleted is counted too.
-/
namespace StorageCluster

/-- A replica that new ones can be filled from. -/
def Resource.isSource (r : Resource) (nodes : NodeMap) : Bool :=
  !r.isDeleted && r.isDiskfulConnected nodes

theorem Resource.isSource_markDeleted (r : Resource) (nodes : NodeMap) :
    r.markDeleted.isSource nodes = false := by
  simp [isSource, r.isDeleted_markDeleted]

/-- A resource that was there before can fill the new ones. -/
def Definition.KeepsSource (before after : Definition) (nodes : NodeMap) : Prop :=
  ∃ node r, before.resources.contains node = true ∧ after.resource? node = some r ∧
    r.isSource nodes = true

namespace Definition.KeepsSource

theorem iff_any (before after : Definition) (nodes : NodeMap) :
    (after.resources.entries.any fun e => before.resources.contains e.1 && e.2.isSource nodes) =
      true ↔ KeepsSource before after nodes := by
  simp only [List.any_eq_true, Bool.and_eq_true]
  constructor
  · rintro ⟨e, he, hc, hs⟩
    exact ⟨e.1, e.2, hc, SortedMap.find?_of_mem he, hs⟩
  · rintro ⟨node, r, hc, hr, hs⟩
    obtain ⟨key, hk, hn⟩ := SortedMap.mem_of_lookup hr
    exact ⟨(key, r), hk, by rw [← hc, SortedMap.contains_congr hn], hs⟩

instance (before after : Definition) (nodes : NodeMap) :
    Decidable (KeepsSource before after nodes) :=
  decidable_of_iff _ (iff_any before after nodes)

/-- What was there stays, except that resources on evicted nodes are marked deleted. -/
theorem iff_of_grows {before after : Definition} {news : List Resource} {nodes : NodeMap}
    (h : (before.tombstoned nodes).1.Grows news after) :
    KeepsSource before after nodes ↔ ∃ node r, before.resource? node = some r ∧
      r.isSource nodes = true ∧ before.losesReplicaOn nodes node = false := by
  have hold {node : NodeName} (hc : before.resources.contains node = true) :
      after.resource? node = (before.resource? node).map fun r =>
        if before.losesReplicaOn nodes node then r.markDeleted else r := by
    rw [← before.tombstoned_resource? nodes node]
    exact h.resource?_of_contains (by rw [before.tombstoned_contains, hc])
  constructor
  · rintro ⟨node, r, hc, hr, hs⟩
    rw [hold hc] at hr
    obtain ⟨old, ho, rfl⟩ := Option.map_eq_some_iff.1 hr
    cases hl : before.losesReplicaOn nodes node with
    | true => simp [hl, Resource.isSource_markDeleted] at hs
    | false =>
      simp only [hl, Bool.false_eq_true, if_false] at hs
      exact ⟨node, old, ho, hs, hl⟩
  · rintro ⟨node, r, hr, hs, hl⟩
    have hc : before.resources.contains node = true := SortedMap.contains_of_find? hr
    refine ⟨node, r, hc, ?_, hs⟩
    simp [hold hc, hr, hl]

end Definition.KeepsSource

namespace Controller

variable {σ : Type} {team : Collaborators σ} {c : Controller σ} {context : ManageContext}

/-- With the creator of the core, the definition that a scheduled replacement commits has grown from
the one with tombstones. -/
theorem manage_grows (hcreate : team.create = Core.createResources)
    (h : (manage team c context).outcome = .ok .scheduled) :
    ∃ (s : Search team (c.diskfulAgain context.name) context.name) (after : Definition)
      (tasks : List Task) (created : List NodeName) (diskful diskless : List Resource),
      after = (c.core.createResources s.request (s.draft context.responses)).draft.definition ∧
        c.core.Created s.request (s.draft context.responses) tasks created diskful diskless ∧
        (manage team c context).controller.core.props = c.core.props ∧
        (manage team c context).controller.core.graph =
          { c.core.graph with
            definitions := c.core.graph.definitions.insert context.name after } := by
  obtain ⟨s, store, tasks, created, hr, _, hm, _⟩ := manage_scheduled h
  have hc : s.creation context.responses =
      c.core.createResources s.request (s.draft context.responses) := by
    simp only [Search.creation, hcreate]
    rfl
  rw [hc] at hr
  obtain ⟨diskful, diskless, hd⟩ := Core.createResources_ok hr
  refine ⟨s, _, tasks, created, diskful, diskless, rfl, hd, ?_, ?_⟩
  · rw [hm]
  · rw [hm, ← hc]
    rfl

/-- A scheduled replacement leaves a source for the new replicas exactly when one of the sources
there were was not on an evicted node. -/
theorem manage_keeps_source_iff (hcreate : team.create = Core.createResources)
    (h : (manage team c context).outcome = .ok .scheduled) :
    let nodes := c.core.graph.nodes
    let m := manage team c context
    ∃ before after, c.core.graph.definitions.find? context.name = some before ∧
      m.controller.core.graph.definitions.find? context.name = some after ∧
      m.controller.core.graph.nodes = nodes ∧
      (before.KeepsSource after nodes ↔ ∃ node r, before.resource? node = some r ∧
        r.isSource nodes = true ∧ before.losesReplicaOn nodes node = false) := by
  intro nodes m
  obtain ⟨s, after, tasks, created, diskful, diskless, ha, hd, _, hg⟩ := manage_grows hcreate h
  have hgrows : (s.definition.tombstoned nodes).1.Grows (diskful ++ diskless) after := by
    rw [ha]
    exact hd.grows
  refine ⟨s.definition, after, s.found, ?_, ?_, Definition.KeepsSource.iff_of_grows hgrows⟩
  · simp only [m, hg, SortedMap.find?_insert_self]
  · simp only [m, hg, nodes]

end Controller

open Sample in
/-- Of two replicas the one that is not on the evicted node is a source for the third. -/
theorem manage_keeps_charlie_as_source :
    let c := controller [alpha, charlie]
    let m := Controller.manage team c { name := r0 }
    m.outcome = .ok .scheduled ∧
      ∃ before after, c.core.graph.definitions.find? r0 = some before ∧
        m.controller.core.graph.definitions.find? r0 = some after ∧
        m.controller.core.graph.nodes = c.core.graph.nodes ∧
        (before.KeepsSource after c.core.graph.nodes ↔
          ∃ node r, before.resource? node = some r ∧ r.isSource c.core.graph.nodes = true ∧
            before.losesReplicaOn c.core.graph.nodes node = false) := by
  intro c m
  have h : m.outcome = .ok .scheduled := by decide +kernel
  exact ⟨h, Controller.manage_keeps_source_iff rfl h⟩

open Sample in
/-- The only replica is on the evicted node and still connected: it is deleted, and the replica
that replaces it has no source. -/
theorem manage_deletes_only_source :
    let c := controller [alpha]
    let m := Controller.manage team c { name := r0 }
    m.outcome = .ok .scheduled ∧
      ∃ before ∈ c.core.graph.definitions.find? r0,
        ∃ after ∈ m.controller.core.graph.definitions.find? r0,
          ¬ before.KeepsSource after m.controller.core.graph.nodes := by
  decide +kernel

end StorageCluster
