import StorageCluster.Proofs.Name
import StorageCluster.Proofs.Store.Contents

/-!
# Integrity of a loaded graph

Whatever rows a store holds, each row that is loaded leaves a graph in which all that is referred to
is known: what a row adds finds what it needs among the rows before it, and no row takes away what
others need. Main result: `Core.reload_consistent`.
-/
namespace StorageCluster

open SortedMap (forall_empty forall_insert)

/-! ## Consistent graphs -/

/-- A resource of a definition on a known node, with volumes in pools of that node. -/
structure Resource.Consistent (r : Resource) (owner : ResourceName) (g : Graph) : Prop where
  name : compare r.name owner = .eq
  node : g.nodes.contains r.node = true
  flags : r.flags.IsKnown
  volumes : r.volumes.Filed (·.number)
  pools : ∀ v ∈ r.volumes.values, g.pools.contains (r.node, v.pool) = true

/-- A snapshot of a definition on a known node. -/
structure Snapshot.Consistent (s : Snapshot) (owner : ResourceName) (g : Graph) : Prop where
  resource : compare s.resource owner = .eq
  node : g.nodes.contains s.node = true
  flags : s.flags.IsKnown

structure Definition.Consistent (d : Definition) (g : Graph) : Prop where
  group : g.groups.contains d.group = true
  flags : d.flags.IsKnown
  filed : d.WellFiled
  resource : ∀ r ∈ d.resources.values, r.Consistent d.name g
  snapshots : d.snapshots.Filed fun s => (s.name, s.node)
  snapshot : ∀ s ∈ d.snapshots.values, s.Consistent d.name g

/-- Every object is filed under its own name, and all that it refers to is known. -/
structure Graph.Consistent (g : Graph) : Prop where
  filed : g.WellFiled
  node : ∀ n ∈ g.nodes.values, n.flags.IsKnown
  definition : ∀ d ∈ g.definitions.values, d.Consistent g
  pool : ∀ p ∈ g.pools.values, g.nodes.contains p.node = true
  connection : ∀ c ∈ g.connections.values, c.Anchored g

variable {g g' : Graph} {d : Definition}

theorem Resource.Consistent.insertVolume {r : Resource} {owner : ResourceName}
    (h : r.Consistent owner g) {v : Volume} (hpool : g.pools.contains (r.node, v.pool) = true) :
    Resource.Consistent { r with volumes := r.volumes.insert v.number v } owner g where
  name := h.name
  node := h.node
  flags := h.flags
  volumes := h.volumes.insert Std.ReflCmp.compare_self
  pools := forall_insert hpool h.pools

namespace Definition.Consistent

theorem mono (h : d.Consistent g) (hg : g.Within g') : d.Consistent g' where
  group := hg.groups _ h.group
  flags := h.flags
  filed := h.filed
  resource r hr :=
    have hr := h.resource r hr
    ⟨hr.name, hg.nodes _ hr.node, hr.flags, hr.volumes, fun v hv => hg.pools _ (hr.pools v hv)⟩
  snapshots := h.snapshots
  snapshot s hs :=
    have hs := h.snapshot s hs
    ⟨hs.resource, hg.nodes _ hs.node, hs.flags⟩

theorem addVolume (h : d.Consistent g) (v : VolumeDefinition) : (d.addVolume v).Consistent g :=
  { h with filed := h.filed.addVolume v }

theorem addResource (h : d.Consistent g) {r : Resource} (hnode : g.nodes.contains r.node = true)
    (hflags : r.flags.IsKnown) (hempty : r.volumes = .empty) :
    Ensures (fun d => d.Consistent g) (d.addResource r) := by
  intro added hadded
  have hfiled := h.filed.addResource r added hadded
  obtain ⟨hname, _, rfl⟩ := Definition.addResource_ok_iff.1 hadded
  have hr : r.Consistent d.name g := by
    refine ⟨hname, hnode, hflags, ?_, ?_⟩
    · rw [hempty]
      exact .empty _
    · rw [hempty]
      exact forall_empty
  exact { h with filed := hfiled, resource := forall_insert hr h.resource }

theorem addSnapshot (h : d.Consistent g) {s : Snapshot} (hs : s.Consistent d.name g) :
    (d.addSnapshot s).Consistent g where
  group := h.group
  flags := h.flags
  filed := ⟨h.filed.volumes, h.filed.resources⟩
  resource := h.resource
  snapshots := h.snapshots.insert Std.ReflCmp.compare_self
  snapshot := forall_insert hs h.snapshot

/-- A volume may be put in a pool of the node of its resource. -/
theorem insertVolume (h : d.Consistent g) {node : NodeName} {v : Volume}
    (hpool : g.pools.contains (node, v.pool) = true) :
    (d.modifyResource node fun r =>
      { r with volumes := r.volumes.insert v.number v }).Consistent g := by
  have hchanged (r : Resource) (hr : compare node r.node = .eq) (hc : r.Consistent d.name g) :
      Resource.Consistent { r with volumes := r.volumes.insert v.number v } d.name g := by
    have hsame : compare (node, v.pool) (r.node, v.pool) = .eq :=
      (pair_compare_eq_iff _ _).2 ⟨hr, Std.ReflCmp.compare_self⟩
    rw [SortedMap.contains_congr hsame] at hpool
    exact hc.insertVolume hpool
  have hresource := h.filed.resources.forall_modify (p := (·.Consistent d.name g)) hchanged
    h.resource
  exact ⟨h.group, h.flags, h.filed.modifyResource node fun _ => rfl, hresource, h.snapshots,
    h.snapshot⟩

end Definition.Consistent

namespace Graph.Consistent

theorem empty : Consistent {} :=
  ⟨.empty, forall_empty, forall_empty, forall_empty, forall_empty⟩

/-- What there was stays consistent when more is known. -/
theorem mono (h : g.Consistent) (hg : g.Within g') :
    (∀ d ∈ g.definitions.values, d.Consistent g') ∧
      (∀ p ∈ g.pools.values, g'.nodes.contains p.node = true) ∧
        ∀ c ∈ g.connections.values, c.Anchored g' :=
  ⟨fun d hd => (h.definition d hd).mono hg, fun p hp => hg.nodes _ (h.pool p hp),
    fun c hc => hg.connection (h.connection c hc)⟩

theorem setNode (h : g.Consistent) {n : Node} (hn : n.flags.IsKnown) :
    (g.setNode n).Consistent := by
  obtain ⟨hdefinition, hpool, hconnection⟩ := h.mono (.setNode g n)
  exact ⟨h.filed.setNode n, forall_insert hn h.node, hdefinition, hpool, hconnection⟩

theorem setConnection (h : g.Consistent) {c : Connection} (hc : c.Anchored g) :
    (g.setConnection c).Consistent := by
  have hg := Graph.Within.setConnection g c
  obtain ⟨hdefinition, hpool, hconnection⟩ := h.mono hg
  exact ⟨h.filed.setConnection c, h.node, hdefinition, hpool,
    forall_insert (hg.connection hc) hconnection⟩

theorem setGroup (h : g.Consistent) (r : Group) : (g.setGroup r).Consistent := by
  obtain ⟨hdefinition, hpool, hconnection⟩ := h.mono (.setGroup g r)
  exact ⟨h.filed.setGroup r, h.node, hdefinition, hpool, hconnection⟩

theorem setDefinition (h : g.Consistent) (hd : d.Consistent g) :
    (g.setDefinition d).Consistent := by
  have hg := Graph.Within.setDefinition g d
  obtain ⟨hdefinition, hpool, hconnection⟩ := h.mono hg
  exact ⟨h.filed.setDefinition hd.filed, h.node, forall_insert (hd.mono hg) hdefinition, hpool,
    hconnection⟩

theorem setPool (h : g.Consistent) {p : Pool} (hp : g.nodes.contains p.node = true) :
    (g.setPool p).Consistent := by
  obtain ⟨hdefinition, hpool, hconnection⟩ := h.mono (.setPool g p)
  exact ⟨h.filed.setPool p, h.node, hdefinition, forall_insert hp hpool, hconnection⟩

end Graph.Consistent

/-! ## Loading -/

theorem Flags.isKnown_of_read {kind : FlagKind} {f : Flags kind}
    (h : ∃ bits, ofKnownBits? bits = some f) : f.IsKnown := by
  obtain ⟨bits, hread⟩ := h
  unfold ofKnownBits? at hread
  split at hread
  next hknown =>
    cases hread
    exact hknown
  next => cases hread

namespace Graph

/-- A row leaves a consistent graph consistent. -/
theorem Consistent.gains (h : g.Consistent) (hg : g.Gains g') : g'.Consistent := by
  have hdefinition {name : ResourceName} {d : Definition} (hd : g.definitions.find? name = some d) :
      d.Consistent g := h.definition d (SortedMap.mem_values.2 ⟨name, hd⟩)
  cases hg with
  | node hflags => exact h.setNode (Flags.isKnown_of_read hflags)
  | group r => exact h.setGroup r
  | @definition d hgroup hflags hvolumes hresources hsnapshots =>
    refine h.setDefinition ⟨hgroup, Flags.isKnown_of_read hflags, ⟨?_, ?_⟩, ?_, ?_, ?_⟩
    · exact hvolumes ▸ .empty _
    · exact hresources ▸ .empty _
    · exact hresources ▸ forall_empty
    · exact hsnapshots ▸ .empty _
    · exact hsnapshots ▸ forall_empty
  | volumeDefinition hd v => exact h.setDefinition ((hdefinition hd).addVolume v)
  | pool hnode => exact h.setPool hnode
  | resource hd hnode hflags hvolumes hadded =>
    have hadd := (hdefinition hd).addResource hnode (Flags.isKnown_of_read hflags) hvolumes
    exact h.setDefinition (hadd _ hadded)
  | volume hd hpool => exact h.setDefinition ((hdefinition hd).insertVolume hpool)
  | @snapshot d s hd hnode hflags =>
    have hs : s.Consistent d.name g :=
      ⟨h.filed.definitions _ _ hd, hnode, Flags.isKnown_of_read hflags⟩
    exact h.setDefinition ((hdefinition hd).addSnapshot hs)
  | connection hsource htarget hordered => exact h.setConnection ⟨hsource, htarget, hordered⟩

theorem load_consistent (store : Store) :
    Ensures (fun loaded => loaded.1.Consistent) (load store) :=
  load_keeps (fun _ _ h hg => h.gains hg) .empty store

end Graph

/-- Whatever its store holds, a core that is loaded keeps its graph and reports a fault, or gets a
consistent graph. -/
theorem Core.reload_consistent (c : Core) :
    (∃ fault, c.reload = (c, .error fault)) ∨
      ∃ graph summary, c.reload = ({ c with graph }, .ok summary) ∧ graph.Consistent := by
  unfold reload
  split
  next graph summary hload =>
    exact .inr ⟨graph, summary, rfl, Graph.load_consistent c.store (graph, summary) hload⟩
  next fault _ => exact .inl ⟨fault, rfl⟩

end StorageCluster
