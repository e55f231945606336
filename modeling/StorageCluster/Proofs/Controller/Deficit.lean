import StorageCluster.Proofs.Controller.Counting
import StorageCluster.Proofs.Controller.Selection
import StorageCluster.Proofs.Controller.Source

/-!
# A scheduled replacement closes the deficit

Counting, tombstones, placement and creation have to agree on what a replica is. When a replacement
is scheduled, the definition gets as many new replicas as it lacked, no other object changes, and
managing the definition again schedules nothing.
-/
namespace StorageCluster

/-- Places are searched for among the pools of the core, whatever engine reads the patterns, and the
core creates resources. -/
structure Collaborators.BuiltIn {σ : Type} (engine : PatternEngine) (team : Collaborators σ) :
    Prop where
  place : team.place = fun core request d =>
    core.graph.place engine request.filter d request.sizeBytes
  create : team.create = Core.createResources

/-- Two graphs differ at most in one definition. -/
structure Graph.SameExcept (name : ResourceName) (g g' : Graph) : Prop where
  nodes : g'.nodes = g.nodes
  connections : g'.connections = g.connections
  groups : g'.groups = g.groups
  pools : g'.pools = g.pools
  definitions : ∀ other, compare other name ≠ .eq →
    g'.definitions.find? other = g.definitions.find? other

theorem Graph.sameExcept_insert (g : Graph) (name : ResourceName) (d : Definition) :
    g.SameExcept name { g with definitions := g.definitions.insert name d } := by
  refine ⟨rfl, rfl, rfl, rfl, ?_⟩
  intro other ho
  rw [SortedMap.find?_insert, if_neg ho]

namespace Definition

/-- The resources on nodes that held none before. -/
def newcomers (before after : Definition) : List Resource :=
  (after.resources.filter fun node _ => !before.resources.contains node).values

/-- What a replacement makes of a definition that lacks replicas. -/
structure Replenished (before after : Definition) (g : Graph) (deficit : Nat) (filter : Filter) :
    Prop where
  frame : after = { before with resources := after.resources }
  old : ∀ node r, before.resource? node = some r → after.resource? node =
    some (if (g.nodes.find? r.node).any Node.isEvicted then r.markDeleted else r)
  many : ((before.newcomers after).filter fun r => !r.isDiskless && !r.isDeleted).length = deficit
  apart : (before.newcomers after).Pairwise fun a b => compare a.node b.node ≠ .eq
  free : ∀ r ∈ before.newcomers after, before.resources.contains r.node = false
  diskful : ∀ r ∈ before.newcomers after, r.isDiskless = false → r.isDeleted = false ∧
    ∃ pool ∈ g.pools.values, compare pool.node r.node = .eq ∧ r.Fills before pool.name
  diskless : ∀ r ∈ before.newcomers after, r.isDiskless = true → filter.wantsDiskless = true

theorem newcomers_perm {before after : Definition} {news : List Resource} {nodes : NodeMap}
    (h : (before.tombstoned nodes).1.Grows news after) : (before.newcomers after).Perm news := by
  have hnews : (news.map fun r => (r.node, r)).filter
      (fun e => !before.resources.contains e.1) = news.map fun r => (r.node, r) := by
    refine List.filter_eq_self.2 ?_
    intro e he
    obtain ⟨r, hr, rfl⟩ := List.mem_map.1 he
    have hf := h.free hr
    rw [tombstoned_contains] at hf
    simp [hf]
  have hold : (before.tombstoned nodes).1.resources.entries.filter
      (fun e => !before.resources.contains e.1) = [] := by
    refine List.filter_eq_nil_iff.2 ?_
    intro e he
    have hc := SortedMap.contains_of_find? (SortedMap.find?_of_mem he)
    rw [tombstoned_contains] at hc
    simp [hc]
  have hp := h.entries_perm.filter fun e => !before.resources.contains e.1
  rw [List.filter_append, hnews, hold, List.append_nil] at hp
  have hv := hp.map Prod.snd
  simpa [newcomers, SortedMap.filter, SortedMap.values, Function.comp_def] using hv

end Definition

namespace Controller

variable {σ : Type} {team : Collaborators σ} {engine : PatternEngine} {c : Controller σ}
  {context : ManageContext} {d : Definition}

/-- A definition with enough replicas is not given more. -/
theorem not_scheduled_of_enough {group : Group}
    (hd : c.core.graph.definitions.find? context.name = some d)
    (hg : c.core.graph.groups.find? d.group = some group)
    (henough : (d.countReplicas group c.core.graph.nodes c.core.props).deficit = 0) :
    (manage team c context).outcome ≠ .ok .scheduled := by
  intro h
  obtain ⟨s, _⟩ := manage_scheduled h
  have hs : s.definition = d := Option.some.inj (s.found.symm.trans hd)
  obtain ⟨group', hg', hc, _⟩ := assess_ok s.assessed
  have hgroup : group' = group := by
    rw [hs] at hg'
    exact Option.some.inj (hg'.symm.trans hg)
  have hl := s.lacking
  rw [hc, hs, hgroup] at hl
  exact absurd henough (Nat.ne_of_gt hl)

theorem replacementFilter_count {name : ResourceName} {deficit : Nat} {policy : Filter}
    (h : deficit < UInt32.size) : (replacementFilter name deficit policy).count = deficit :=
  UInt32.toNat_ofNat_of_lt' h

namespace Search

variable {name : ResourceName}

/-- The search asked for as many pools as replicas were lacking, and found them. -/
theorem pools_suit (hteam : team.BuiltIn engine) (s : Search team c name) :
    s.pools.length = s.counts.deficit ∧ ∀ p ∈ s.pools, c.core.graph.Suits s.filter
      (s.definition.tombstoned c.core.graph.nodes).1
      (s.definition.tombstoned c.core.graph.nodes).1.totalSize p := by
  have hp := s.placed
  rw [hteam.place] at hp
  obtain ⟨hl, _, hs⟩ := Graph.place_some hp
  obtain ⟨group, _, hc, _⟩ := assess_ok s.assessed
  have hd : s.counts.deficit < UInt32.size := by
    rw [hc]
    exact s.definition.deficit_lt group c.core.graph.nodes c.core.props
  exact ⟨hl.trans (replacementFilter_count hd), hs⟩

theorem drbd_mem_stackFor (s : Search team c name) (d : Definition) :
    LayerKind.drbd ∈ s.request.stackFor d := by
  have hr : s.request.layerStack = [.drbd] := rfl
  simp [CreationRequest.stackFor, hr, completeStack]

/-- A resource that is created in a pool lies on its node and fills it. -/
theorem fills_of_diskfulIn (hw : c.core.graph.WellFiled) (s : Search team c name)
    {responses : Report} {stack : List LayerKind} {pool : Pool} {r : Resource}
    (hin : (s.draft responses).definition.DiskfulIn stack c.core.graph.nodes pool r) :
    compare pool.node r.node = .eq ∧ r.Fills s.definition pool.name := by
  obtain ⟨n, hn, _, hname⟩ := hin.host
  have hdef : s.definition.WellFiled := hw.each name s.definition s.found
  have hfills := hin.volumes (hdef.tombstoned c.core.graph.nodes).volumes
  rw [Search.draft, Definition.tombstoned_definition] at hfills
  refine ⟨?_, hfills⟩
  rw [hname]
  exact hw.nodes pool.node n hn

/-- The creator of the core adds diskful resources in pools of the graph, and diskless ones only if
they are asked for. -/
theorem news (hteam : team.BuiltIn engine) (hw : c.core.graph.WellFiled) (s : Search team c name)
    {responses : Report} {tasks : List Task} {created : List NodeName}
    {diskful diskless : List Resource}
    (h : c.core.Created s.request (s.draft responses) tasks created diskful diskless) :
    (∀ r ∈ diskful, r.isDiskless = false ∧ r.isDeleted = false ∧
        r.countsAsReplica c.core.graph.nodes = true ∧
        ∃ pool ∈ c.core.graph.pools.values, compare pool.node r.node = .eq ∧
          r.Fills s.definition pool.name) ∧
      ∀ r ∈ diskless, r.isDiskless = true ∧ s.filter.wantsDiskless = true ∧
        r.countsAsReplica c.core.graph.nodes = false := by
  constructor
  · intro r hr
    obtain ⟨pool, hp, hin⟩ := exists_of_forall₂ h.inPools hr
    have hsuits := (s.pools_suit hteam).2 pool hp
    exact ⟨hin.isDiskless, hin.isDeleted, hin.countsAsReplica (s.drbd_mem_stackFor _) hw.nodes,
      pool, hsuits.known, s.fills_of_diskfulIn hw hin⟩
  · intro r hr
    obtain ⟨hwants, n, _, hon⟩ := h.onNodes r hr
    exact ⟨hon.isDiskless, hwants, hon.countsAsReplica⟩

theorem newcomers_perm (s : Search team c name) {responses : Report} {tasks : List Task}
    {created : List NodeName} {diskful diskless : List Resource} {after : Definition}
    (h : c.core.Created s.request (s.draft responses) tasks created diskful diskless)
    (ha : after = (c.core.createResources s.request (s.draft responses)).draft.definition) :
    (s.definition.newcomers after).Perm (diskful ++ diskless) := by
  subst ha
  exact Definition.newcomers_perm h.grows

/-- What the creator of the core adds for a search makes up for what is lacking. -/
theorem replenished (hteam : team.BuiltIn engine) (hw : c.core.graph.WellFiled)
    (s : Search team c name)
    {responses : Report} {tasks : List Task} {created : List NodeName}
    {diskful diskless : List Resource} {after : Definition}
    (h : c.core.Created s.request (s.draft responses) tasks created diskful diskless)
    (ha : after = (c.core.createResources s.request (s.draft responses)).draft.definition) :
    s.definition.Replenished after c.core.graph s.counts.deficit s.filter := by
  have hdef : s.definition.WellFiled := hw.each name s.definition s.found
  have hg : (s.definition.tombstoned c.core.graph.nodes).1.Grows (diskful ++ diskless) after := by
    rw [ha]
    exact h.grows
  have hp := s.newcomers_perm h ha
  obtain ⟨hfull, hless⟩ := s.news hteam hw h
  have hmem {r : Resource} (hr : r ∈ s.definition.newcomers after) : r ∈ diskful ∨ r ∈ diskless :=
    List.mem_append.1 (hp.mem_iff.1 hr)
  constructor
  case frame =>
    have hf := hg.frame
    rw [Definition.tombstoned_definition] at hf
    exact hf
  case old =>
    intro node r hr
    have hc : s.definition.resources.contains node = true := SortedMap.contains_of_find? hr
    have hc' := s.definition.tombstoned_contains c.core.graph.nodes node
    rw [hg.resource?_of_contains (hc'.trans hc), Definition.tombstoned_resource?, hr,
      hdef.losesReplicaOn_eq hr]
    rfl
  case many =>
    have hlen : diskful.length = s.counts.deficit :=
      h.inPools.length_eq.symm.trans (s.pools_suit hteam).1
    have h1 : diskful.filter (fun r => !r.isDiskless && !r.isDeleted) = diskful :=
      List.filter_eq_self.2 fun r hr => by simp [(hfull r hr).1, (hfull r hr).2.1]
    have h2 : diskless.filter (fun r => !r.isDiskless && !r.isDeleted) = [] :=
      List.filter_eq_nil_iff.2 fun r hr => by simp [(hless r hr).1]
    rw [(hp.filter _).length_eq, List.filter_append, h1, h2, List.append_nil, hlen]
  case apart => exact (SortedMap.apart_perm Resource.node hp).2 hg.apart
  case free =>
    intro r hr
    rw [← s.definition.tombstoned_contains c.core.graph.nodes]
    exact hg.free (hp.mem_iff.1 hr)
  case diskful =>
    intro r hr hd
    rcases hmem hr with hr | hr
    · exact ⟨(hfull r hr).2.1, (hfull r hr).2.2.2⟩
    · simp [(hless r hr).1] at hd
  case diskless =>
    intro r hr hd
    rcases hmem hr with hr | hr
    · simp [(hfull r hr).1] at hd
    · exact (hless r hr).2.1

/-- With the new replicas there are as many as there have to be. -/
theorem counts_after (hteam : team.BuiltIn engine) (hw : c.core.graph.WellFiled)
    (s : Search team c name)
    {responses : Report} {tasks : List Task} {created : List NodeName}
    {diskful diskless : List Resource} {after : Definition}
    (h : c.core.Created s.request (s.draft responses) tasks created diskful diskless)
    (ha : after = (c.core.createResources s.request (s.draft responses)).draft.definition)
    {group : Group}
    (hc : s.counts = s.definition.countReplicas group c.core.graph.nodes c.core.props) :
    let again := after.countReplicas group c.core.graph.nodes c.core.props
    again.current = again.minimum ∧ again.minimum = s.counts.minimum := by
  intro again
  have hdef : s.definition.WellFiled := hw.each name s.definition s.found
  have hg : (s.definition.tombstoned c.core.graph.nodes).1.Grows (diskful ++ diskless) after := by
    rw [ha]
    exact h.grows
  obtain ⟨hfull, hless⟩ := s.news hteam hw h
  have hmin : again.minimum = s.counts.minimum := by
    have hprops : after.props = s.definition.props := by
      rw [(s.replenished hteam hw h ha).frame]
    simp only [again, hc, Definition.countReplicas, hprops]
  have hold : s.counts.current =
      replicaCount c.core.graph.nodes s.definition.resources.values := by
    rw [hc, Definition.current_eq]
  have hcur : again.current = s.counts.deficit + s.counts.current := by
    have hlen : diskful.length = s.counts.deficit :=
      h.inPools.length_eq.symm.trans (s.pools_suit hteam).1
    rw [Definition.current_eq, hg.replicaCount (fun r hr => (hfull r hr).2.2.1)
      (fun r hr => (hless r hr).2.2), hdef.replicaCount_tombstoned, hlen, hold]
  have hl := s.lacking
  refine ⟨?_, hmin⟩
  rw [hcur, hmin]
  unfold ReplicaCounts.deficit at hl ⊢
  omega

end Search

/-- A replacement closes the deficit of `before`: `after` has as many more diskful replicas as were
lacking and has lost only what lies on evicted nodes, nothing else in the graph changes, and as long
as nodes, groups and properties stay as they are no further replacement is scheduled for it. -/
structure ClosesDeficit (c c' : Core) (name : ResourceName) (before after : Definition)
    (group : Group) (counts again : ReplicaCounts) : Prop where
  found : c.graph.definitions.find? name = some before
  governed : c.graph.groups.find? before.group = some group
  counted : counts = before.countReplicas group c.graph.nodes c.props
  lacking : 0 < counts.deficit
  replenished : before.Replenished after c.graph counts.deficit
    (replacementFilter name counts.deficit group.autoPlace)
  recounted : again = after.countReplicas group c'.graph.nodes c'.props
  enough : again.current = again.minimum
  minimum : again.minimum = counts.minimum
  stored : c'.graph.definitions.find? name = some after
  others : c.graph.SameExcept name c'.graph
  props : c'.props = c.props
  once : ∀ {σ : Type} (team : Collaborators σ) (later : Controller σ) (context : ManageContext),
    later.core.graph.definitions.find? context.name = some after →
    later.core.graph.nodes = c.graph.nodes → later.core.graph.groups = c.graph.groups →
    later.core.props = c.props → (manage team later context).outcome ≠ .ok .scheduled

/-- What the creator of the core makes of a search closes the deficit once it is in the graph. -/
theorem Search.closesDeficit (hteam : team.BuiltIn engine) (hw : c.core.graph.WellFiled)
    {name : ResourceName} (s : Search team c name) {responses : Report} {tasks : List Task}
    {created : List NodeName} {diskful diskless : List Resource} {after : Definition}
    (h : c.core.Created s.request (s.draft responses) tasks created diskful diskless)
    (ha : after = (c.core.createResources s.request (s.draft responses)).draft.definition)
    {c' : Core} (hprops : c'.props = c.core.props) (hgraph : c'.graph =
      { c.core.graph with definitions := c.core.graph.definitions.insert name after }) :
    ∃ group, ClosesDeficit c.core c' name s.definition after group s.counts
      (after.countReplicas group c'.graph.nodes c'.props) := by
  obtain ⟨group, hgroup, hcounts, hpolicy⟩ := assess_ok s.assessed
  have hfilter : s.filter = replacementFilter name s.counts.deficit group.autoPlace := by
    rw [Search.filter, hpolicy]
  have hrep := s.replenished hteam hw h ha
  have hsame : after.group = s.definition.group := by rw [hrep.frame]
  have hnodes : c'.graph.nodes = c.core.graph.nodes := by rw [hgraph]
  obtain ⟨henough, hminimum⟩ := s.counts_after hteam hw h ha hcounts
  rw [hfilter] at hrep
  rw [← hnodes, ← hprops] at henough hminimum
  refine ⟨group, ?_⟩
  constructor
  case found => exact s.found
  case governed => exact hgroup
  case counted => exact hcounts
  case lacking => exact s.lacking
  case replenished => exact hrep
  case recounted => rfl
  case enough => exact henough
  case minimum => exact hminimum
  case stored =>
    rw [hgraph]
    exact SortedMap.find?_insert_self ..
  case others =>
    rw [hgraph]
    exact c.core.graph.sameExcept_insert name after
  case props => exact hprops
  case once =>
    intro _ _ later context hd hn hgr hp
    have hg : later.core.graph.groups.find? after.group = some group := by
      rw [hgr, hsame]
      exact hgroup
    have hnone :
        (after.countReplicas group later.core.graph.nodes later.core.props).deficit = 0 := by
      rw [hn, hp, ← hnodes, ← hprops, ReplicaCounts.deficit]
      exact Nat.sub_eq_zero_of_le (Nat.le_of_eq henough.symm)
    exact not_scheduled_of_enough hd hg hnone

/-- A scheduled replacement closes the deficit of its definition, whenever all objects of the graph
are filed under their own names. -/
theorem manage_closes_deficit (hteam : team.BuiltIn engine) (hw : c.core.graph.WellFiled)
    (h : (manage team c context).outcome = .ok .scheduled) :
    ∃ (before after : Definition) (group : Group) (counts again : ReplicaCounts),
      ClosesDeficit c.core (manage team c context).controller.core context.name before after group
        counts again := by
  obtain ⟨s, after, tasks, created, diskful, diskless, ha, hcreated, hprops, hgraph⟩ :=
    manage_grows hteam.create h
  have hw' : (c.diskfulAgain context.name).core.graph.WellFiled := hw
  obtain ⟨group, hcloses⟩ := s.closesDeficit hteam hw' hcreated ha hprops hgraph
  exact ⟨s.definition, after, group, s.counts, _, hcloses⟩

/-- So it does whenever the store mirrors the graph. -/
theorem closesDeficit_of_mirrored (hteam : team.BuiltIn engine) (hmirrored : c.core.Mirrored)
    (h : (manage team c context).outcome = .ok .scheduled) :
    ∃ (before after : Definition) (group : Group) (counts again : ReplicaCounts),
      ClosesDeficit c.core (manage team c context).controller.core context.name before after group
        counts again := by
  obtain ⟨s, after, tasks, created, diskful, diskless, ha, hcreated, hprops, hgraph⟩ :=
    manage_grows hteam.create h
  have hw' : (c.diskfulAgain context.name).core.graph.WellFiled := hmirrored.wellFiled
  obtain ⟨group, hcloses⟩ := s.closesDeficit hteam hw' hcreated ha hprops hgraph
  exact ⟨s.definition, after, group, s.counts, _, hcloses⟩

/-- Reconciliations keep the graph well filed. -/
theorem manage_wellFiled (hteam : team.BuiltIn engine) (hw : c.core.graph.WellFiled) :
    (manage team c context).controller.core.graph.WellFiled := by
  by_cases h : (manage team c context).outcome = .ok .scheduled
  · obtain ⟨s, after, tasks, created, diskful, diskless, ha, hcreated, _, hgraph⟩ :=
      manage_grows hteam.create h
    have hdef : s.definition.WellFiled := hw.each context.name s.definition s.found
    have hg : (s.definition.tombstoned c.core.graph.nodes).1.Grows (diskful ++ diskless) after := by
      rw [ha]
      exact hcreated.grows
    have hname : after.name = s.definition.name := by
      rw [hg.frame, Definition.tombstoned_definition]
    rw [hgraph]
    refine hw.insertDefinition ?_ (hg.wellFiled (hdef.tombstoned c.core.graph.nodes))
    rw [hname]
    exact hw.definitions context.name s.definition s.found
  · rw [((manage_exit team c context).untouched h).graph]
    exact hw

end Controller

namespace Sample

theorem definition_wellFiled (holders : List NodeName) : (definition holders).WellFiled := by
  constructor
  · exact .ofList (by decide)
  · refine .ofList ?_
    intro e he
    obtain ⟨node, _, rfl⟩ := List.mem_map.1 he
    exact Std.ReflCmp.compare_self

theorem foldl_createNode_wellFiled (names : List NodeName) {c : Core} (hc : c.graph.WellFiled) :
    (names.foldl (fun c name => (c.createNode (node name)).1) c).graph.WellFiled :=
  List.foldlRecOn names _ (motive := fun c => Graph.WellFiled (Core.graph c)) hc
    fun _ hc name _ => Core.createNode_wellFiled hc (node name)

theorem core_wellFiled (holders : List NodeName) : (core holders).graph.WellFiled := by
  have h := foldl_createNode_wellFiled [alpha, bravo, charlie] (c := { store := .new .memory })
    .empty
  have hpool := Core.createPool_wellFiled h (.new default pool1 bravo .lvm 16)
  have hgroup := Core.createGroup_wellFiled hpool (group (UInt32.ofNat holders.length))
  have hdefinition := Core.createDefinition_wellFiled hgroup (definition_wellFiled holders)
  unfold core
  dsimp only
  exact Core.updateNodeFlags_wellFiled hdefinition alpha NodeFlags.evicted .none

end Sample

open Sample in
/-- `r0` has lost one of two replicas and gets it back. -/
theorem manage_closes_deficit_of_r0 :
    let c := controller [alpha, charlie]
    let m := Controller.manage team c { name := r0 }
    m.outcome = .ok .scheduled ∧
      ∃ (before after : Definition) (group : Group) (counts again : ReplicaCounts),
        before.Replenished after c.core.graph counts.deficit
            (Controller.replacementFilter r0 counts.deficit group.autoPlace) ∧
          m.controller.core.graph.definitions.find? r0 = some after ∧
          again = after.countReplicas group m.controller.core.graph.nodes
            m.controller.core.props ∧
          again.current = again.minimum ∧
          (Controller.manage team m.controller { name := r0 }).outcome ≠ .ok .scheduled := by
  have h : (Controller.manage team (controller [alpha, charlie]) { name := r0 }).outcome =
      .ok .scheduled := by decide +kernel
  obtain ⟨before, after, group, counts, again, _, _, _, _, hr, ha, hcur, _, hd, hg, hp, hagain⟩ :=
    Controller.manage_closes_deficit ⟨rfl, rfl⟩ (core_wellFiled [alpha, charlie]) h
  have hstays := hagain team _ { name := r0 } hd hg.nodes hg.groups hp
  exact ⟨h, before, after, group, counts, again, hr, hd, ha, hcur, hstays⟩

end StorageCluster
