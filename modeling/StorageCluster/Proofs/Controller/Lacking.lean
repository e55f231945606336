import StorageCluster.Proofs.Controller.Tracking
import StorageCluster.Proofs.Store.Contents

/-!
# Definitions that lack replicas

A definition lacks replicas when it has a resource on an evicted node and fewer replicas than it
needs. Only a change of a node that it has a resource on can bring that about: a reconciliation that
schedules replacements makes up for all that was lacking, and one that takes the definition out of
the queue has found that nothing was.
-/
namespace StorageCluster

/-- Objects are filed under their names, and resources bear the name of their definition. -/
structure Graph.Proper (g : Graph) : Prop where
  wellFiled : g.WellFiled
  named : ∀ name d, g.definitions.find? name = some d →
    ∀ node r, d.resource? node = some r → compare name r.name = .eq

/-- A graph that can be stored is proper, as every graph of a controller is that has started on an
empty store. -/
theorem Graph.Storable.proper {g : Graph} (h : g.Storable) : g.Proper := by
  have heach (name : ResourceName) (d : Definition)
      (hd : g.definitions.find? name = some d) : d.Storable :=
    (h.definition d (SortedMap.mem_values.2 ⟨name, hd⟩)).1
  constructor
  case wellFiled =>
    exact
      { nodes := h.nodes.filed
        connections := h.connections.filed
        groups := h.groups.filed
        pools := h.pools.filed
        definitions := h.definitions.filed
        each := fun name d hd =>
          ⟨(heach name d hd).volumes.filed, (heach name d hd).resources.filed⟩ }
  case named =>
    intro name d hd node r hr
    have hr' : r ∈ d.resources.values := SortedMap.mem_values.2 ⟨node, hr⟩
    have hname := ((heach name d hd).resource r hr').name
    exact Std.TransCmp.eq_trans (h.definitions.filed name d hd) (Std.OrientedCmp.eq_symm hname)

/-- The node may have changed, and nothing else. -/
structure Graph.NodeChange (node : NodeName) (g g' : Graph) : Prop where
  definitions : g'.definitions = g.definitions
  groups : g'.groups = g.groups
  nodes : ∀ other, compare other node ≠ .eq → g'.nodes.find? other = g.nodes.find? other

theorem Definition.countReplicas_of_change {d : Definition} (hd : d.WellFiled) {node : NodeName}
    {nodes nodes' : NodeMap} (hfree : d.resource? node = none)
    (hsame : ∀ other, compare other node ≠ .eq → nodes'.find? other = nodes.find? other)
    (group : Group) (props : Props) :
    d.countReplicas group nodes' props = d.countReplicas group nodes props := by
  have haway : ∀ r ∈ d.resources.values, nodes'.find? r.node = nodes.find? r.node := by
    intro r hr
    obtain ⟨key, hkey⟩ := SortedMap.mem_values.1 hr
    refine hsame r.node fun hnode => ?_
    have hsame : compare key node = .eq := Std.TransCmp.eq_trans (hd.resources key r hkey) hnode
    have hfound : d.resource? node = some r := (SortedMap.find?_congr hsame _).symm.trans hkey
    rw [hfree] at hfound
    cases hfound
  have hconnected : d.resources.values.filter (·.isDiskfulConnected nodes') =
      d.resources.values.filter (·.isDiskfulConnected nodes) :=
    List.filter_congr fun r hr => by rw [Resource.isDiskfulConnected, haway r hr]; rfl
  have hcurrent : d.resources.values.filter (·.countsAsReplica nodes') =
      d.resources.values.filter (·.countsAsReplica nodes) :=
    List.filter_congr fun r hr => by rw [Resource.countsAsReplica, haway r hr]; rfl
  simp only [countReplicas, hconnected, hcurrent]

namespace Core

variable {c c' : Core} {name other : ResourceName} {node : NodeName}

/-- A definition has a resource on the node. -/
def Hosts (c : Core) (name : ResourceName) (node : NodeName) : Prop :=
  ∃ d r, c.graph.definitions.find? name = some d ∧ d.resource? node = some r

/-- A definition has a resource on an evicted node and too few replicas. -/
structure Lacks (c : Core) (name : ResourceName) : Prop where
  evicted : ∃ node, c.Hosts name node ∧ (c.graph.nodes.find? node).any Node.isEvicted = true
  short : ∃ counts, c.counts? name = some counts ∧ 0 < counts.deficit

theorem Hosts.congr (h : compare name other = .eq) (hh : c.Hosts name node) :
    c.Hosts other node := by
  obtain ⟨d, r, hd, hr⟩ := hh
  exact ⟨d, r, (SortedMap.find?_congr h _).symm.trans hd, hr⟩

theorem Hosts.of_eq (hh : c.Hosts name node)
    (h : c'.graph.definitions.find? name = c.graph.definitions.find? name) :
    c'.Hosts name node := by
  obtain ⟨d, r, hd, hr⟩ := hh
  exact ⟨d, r, h.trans hd, hr⟩

namespace Lacks

theorem congr (h : compare name other = .eq) (hl : c.Lacks name) : c.Lacks other := by
  obtain ⟨⟨node, hhosts, hevicted⟩, counts, hcounts, hshort⟩ := hl
  exact ⟨⟨node, hhosts.congr h, hevicted⟩, counts, (counts?_congr h c).symm.trans hcounts, hshort⟩

theorem of_sameFor (h : SameFor name c c') (hl : c'.Lacks name) : c.Lacks name := by
  obtain ⟨⟨node, hhosts, hevicted⟩, counts, hcounts, hshort⟩ := hl
  rw [h.nodes] at hevicted
  exact ⟨⟨node, hhosts.of_eq h.definition.symm, hevicted⟩, counts, h.counts?.symm.trans hcounts,
    hshort⟩

theorem not_whole (hl : c.Lacks name) : ¬ c.Whole name := by
  rintro ⟨counts, hcounts, _, henough⟩
  obtain ⟨others, hothers, hshort⟩ := hl.short
  rw [hcounts] at hothers
  cases hothers
  omega

/-- A change of a node matters only to definitions with a resource on it. -/
theorem of_nodeChange (hg : c.graph.WellFiled) (h : c.graph.NodeChange node c'.graph)
    (hprops : c'.props = c.props) (hfree : ¬ c.Hosts name node) (hl : c'.Lacks name) :
    c.Lacks name := by
  obtain ⟨⟨place, hhosts, hevicted⟩, counts, hcounts, hshort⟩ := hl
  obtain ⟨d, r, hd, hr⟩ := hhosts
  rw [h.definitions] at hd
  have hnone : d.resource? node = none := by
    by_contra hsome
    obtain ⟨r', hr'⟩ := Option.ne_none_iff_exists'.1 hsome
    exact hfree ⟨d, r', hd, hr'⟩
  have hplace : compare place node ≠ .eq := by
    intro hsame
    rw [Definition.resource?, SortedMap.find?_congr hsame] at hr
    exact absurd (hr.symm.trans hnone) (by simp)
  refine ⟨⟨place, ⟨d, r, hd, hr⟩, ?_⟩, counts, ?_, hshort⟩
  · rwa [h.nodes place hplace] at hevicted
  · rw [← hcounts]
    simp only [counts?, h.definitions, h.groups, hprops, hd]
    refine congrArg (Option.map · _) (funext fun group => ?_)
    exact (Definition.countReplicas_of_change (hg.each name d hd) hnone h.nodes group _).symm

end Lacks

end Core

namespace Controller

variable {σ : Type} {team : Collaborators σ} {engine : PatternEngine} {c c' : Controller σ}
  {name other : ResourceName} {context : ManageContext}

/-- A scheduled replacement has made up for everything that was lacking. -/
theorem not_lacks_of_scheduled (hteam : team.BuiltIn engine) (hw : c.core.graph.WellFiled)
    (h : (manage team c context).outcome = .ok .scheduled) :
    ¬ (manage team c context).controller.core.Lacks context.name := by
  obtain ⟨s, after, tasks, created, diskful, diskless, ha, hcreated, hprops, hgraph⟩ :=
    manage_grows hteam.create h
  obtain ⟨group, hgroup, hcounts, _⟩ := assess_ok s.assessed
  have hw' : (c.diskfulAgain context.name).core.graph.WellFiled := hw
  obtain ⟨hcurrent, _⟩ := s.counts_after hteam hw' hcreated ha hcounts
  have hsame : after.group = s.definition.group := by
    rw [(s.replenished hteam hw' hcreated ha).frame]
  have hgroup' : c.core.graph.groups.find? s.definition.group = some group := hgroup
  intro hlacks
  obtain ⟨counts, hc, hshort⟩ := hlacks.short
  simp only [Core.counts?, hgraph, SortedMap.find?_insert_self, hsame, hgroup', hprops,
    Option.map_some, Option.some.injEq] at hc
  have hclosed : counts.current = counts.minimum := by
    rw [← hc]
    exact hcurrent
  unfold ReplicaCounts.deficit at hshort
  omega

/-- Resources that are created bear the name of the definition; those that were there keep it. -/
theorem Search.named (hg : c.core.graph.Proper) (s : Search team c name) {responses : Report}
    {tasks : List Task} {created : List NodeName} {diskful diskless : List Resource}
    (h : c.core.Created s.request (s.draft responses) tasks created diskful diskless)
    {after : Definition}
    (ha : after = (c.core.createResources s.request (s.draft responses)).draft.definition)
    {r : Resource} (hr : r ∈ after.resources.values) : compare name r.name = .eq := by
  have hdefinition : compare name s.definition.name = .eq :=
    hg.wellFiled.definitions name s.definition s.found
  have hdraft : (s.draft responses).definition.name = s.definition.name := by
    rw [Search.draft, Definition.tombstoned_definition]
  rw [ha] at hr
  rcases List.mem_append.1 (h.grows.values_perm.mem_iff.1 hr) with hnew | hold
  · have hname : r.name = (s.draft responses).definition.name := by
      rcases List.mem_append.1 hnew with hr | hr
      · obtain ⟨pool, _, hin⟩ := exists_of_forall₂ h.inPools hr
        exact hin.name
      · obtain ⟨_, n, _, hon⟩ := h.onNodes r hr
        exact hon.name
    rw [hname, hdraft]
    exact hdefinition
  · obtain ⟨node, hnode⟩ := SortedMap.mem_values.1 hold
    have hkept := s.definition.tombstoned_resource? c.core.graph.nodes node
    obtain ⟨old, hfound, rfl⟩ := Option.map_eq_some_iff.1 (hkept.symm.trans hnode)
    have hnamed := hg.named name s.definition s.found node old hfound
    split
    · exact hnamed
    · exact hnamed

theorem manage_proper (hteam : team.BuiltIn engine) (hg : c.core.graph.Proper) :
    (manage team c context).controller.core.graph.Proper := by
  refine ⟨manage_wellFiled hteam hg.wellFiled, ?_⟩
  by_cases hs : (manage team c context).outcome = .ok .scheduled
  · obtain ⟨s, after, tasks, created, diskful, diskless, ha, hcreated, _, hgraph⟩ :=
      manage_grows hteam.create hs
    have hg' : (c.diskfulAgain context.name).core.graph.Proper := hg
    rw [hgraph]
    intro name d hd node r hr
    rw [SortedMap.find?_insert] at hd
    split at hd
    next hname =>
      obtain rfl := Option.some.inj hd
      refine Std.TransCmp.eq_trans hname ?_
      exact s.named hg' hcreated ha (SortedMap.mem_values.2 ⟨node, hr⟩)
    next => exact hg.named name d hd node r hr
  · rw [((manage_exit team c context).untouched hs).graph]
    exact hg.named

/-- What is taken out of the queue does not lack replicas. -/
theorem QueueStep.isTracked_or (h : QueueStep c name c') (ht : c.tracking.isTracked other = true) :
    c'.tracking.isTracked other = true ∨ ¬ c.core.Lacks other := by
  cases h with
  | kept tracking | noted _ _ tracking | eased tracking =>
    rw [tracking]
    exact .inl ht
  | released why tracking =>
    rw [tracking, Tracking.isTracked_release, ht, Bool.and_true, bne_iff_ne]
    by_cases hname : compare other name = .eq
    · refine .inr fun hlacks => ?_
      have hlacks' := hlacks.congr hname
      rcases why with hnone | hwhole
      · obtain ⟨⟨_, ⟨d, _, hd, _⟩, _⟩, _⟩ := hlacks'
        rw [hnone] at hd
        cases hd
      · exact hlacks'.not_whole hwhole
    · exact .inl hname

end Controller

end StorageCluster
