import StorageCluster.Proofs.Name
import StorageCluster.Proofs.Store.Amendments

/-!
# Graphs are loaded

Tables are loaded one after another; for each of them a lemma says when its rows can be loaded and
what they add to the graph. Only volumes and snapshots can be refused. Main result: `load_iff`, by
which a graph is read back as it was stored, just if it is grounded.
-/
namespace StorageCluster

namespace Graph

theorem contains_offline (g : Graph) (name : NodeName) :
    g.offline.nodes.contains name = g.nodes.contains name :=
  SortedMap.contains_map g.nodes _ name

section Tables

variable {g s : Graph} {m : MemoryStore} (hg : g.Storable) (hm : m.Holds g.changes)

include hm

/-- The rows of a table are those of the graph. -/
theorem entries_perm (table : Table) : (m.rows table).entries.Perm (g.records table) :=
  changes_records g table ▸ hm table

theorem size_rows (table : Table) : (m.rows table).size = (g.records table).length :=
  (entries_perm hm table).length_eq

/-- One more table of a store that shows the rows of a graph. -/
theorem foldlM_loadTable_iff {store : Store} (hstore : store.engine.Shows m) {table : Table}
    {next : Graph} {p : Prop}
    (hload : ∀ x, loadRows table s (m.rows table) = .ok x ↔ p ∧ x = next) (counts : Summary)
    (tables : List Table) (loaded : Graph × Summary) :
    (table :: tables).foldlM (loadTable store) (s, counts) = .ok loaded ↔
      p ∧ tables.foldlM (loadTable store)
        (next, counts ++ [(table, (g.records table).length)]) = .ok loaded := by
  rw [List.foldlM_cons, loadTable, Store.rows, hstore.rows table, ← size_rows hm]
  simp [bind_ok_iff, hload, pure, Except.pure, and_assoc]

/-- One more table, all of whose rows can be loaded. -/
theorem foldlM_loadTable_all {store : Store} (hstore : store.engine.Shows m) {table : Table}
    {next : Graph} (hload : ∀ x, loadRows table s (m.rows table) = .ok x ↔ x = next)
    (counts : Summary) (tables : List Table) (loaded : Graph × Summary) :
    (table :: tables).foldlM (loadTable store) (s, counts) = .ok loaded ↔
      tables.foldlM (loadTable store)
        (next, counts ++ [(table, (g.records table).length)]) = .ok loaded := by
  have h := foldlM_loadTable_iff (p := True) hm hstore (by simpa using hload) counts tables loaded
  simpa using h

include hg

theorem loadRows_nodes (hs : s.nodes = .empty) (loaded : Graph) :
    loadRows .nodes s (m.rows .nodes) = .ok loaded ↔
      loaded = { s with nodes := g.offline.nodes } := by
  have h := loadRows_gather .nodes hg.nodes (fun n => ({ n with status := .offline } : Node))
    (fun nodes => { s with nodes }) (fun n hn _ => loadNode_row _ (hg.node n hn))
    (entries_perm hm .nodes) loaded
  rwa [← hs] at h

theorem loadRows_groups (hs : s.groups = .empty) (loaded : Graph) :
    loadRows .groups s (m.rows .groups) = .ok loaded ↔
      loaded = { s with groups := g.groups } := by
  have h := loadRows_collect .groups hg.groups (fun groups => { s with groups })
    (fun r _ _ => loadGroup_row _ r) (entries_perm hm .groups) loaded
  rwa [← hs] at h

theorem loadRows_definitions (hs : s.definitions = .empty) (hgroups : s.groups = g.groups)
    (loaded : Graph) :
    loadRows .definitions s (m.rows .definitions) = .ok loaded ↔
      loaded = { s with definitions := g.definitions.map fun _ d => bare d } := by
  have h := loadRows_gather .definitions hg.definitions bare
    (fun definitions => { s with definitions })
    (fun d hd _ => loadDefinition_row _ (hg.definition d hd).1.flags
      (hgroups ▸ (hg.definition d hd).2.group)) (entries_perm hm .definitions) loaded
  rwa [← hs] at h

theorem loadRows_pools (hs : s.pools = .empty) (hnodes : s.nodes = g.offline.nodes)
    (loaded : Graph) :
    loadRows .pools s (m.rows .pools) = .ok loaded ↔ loaded = { s with pools := g.pools } := by
  have h := loadRows_collect .pools hg.pools (fun pools => { s with pools })
    (fun p hp _ => loadPool_row _ p (by
      rw [hnodes, contains_offline]
      exact hg.pool p hp)) (entries_perm hm .pools) loaded
  rwa [← hs] at h

theorem loadRows_connections (hs : s.connections = .empty) (hnodes : s.nodes = g.offline.nodes)
    (loaded : Graph) :
    loadRows .connections s (m.rows .connections) = .ok loaded ↔
      loaded = { s with connections := g.connections } := by
  have hnode {name : NodeName} (h : g.nodes.contains name = true) :
      s.nodes.contains name = true := by
    rwa [hnodes, contains_offline]
  have h := loadRows_collect .connections hg.connections (fun connections => { s with connections })
    (fun c hc _ => loadConnection_row _ (hnode (hg.connection c hc).source)
      (hnode (hg.connection c hc).target) (hg.connection c hc).ordered)
    (entries_perm hm .connections) loaded
  rwa [← hs] at h

theorem loadRows_volumeDefinitions (hs : s.definitions = g.definitions.map fun _ d => bare d)
    (loaded : Graph) :
    loadRows .volumeDefinitions s (m.rows .volumeDefinitions) = .ok loaded ↔
      loaded = { s with definitions := g.definitions.map fun _ d => withVolumes d } := by
  have h := (volumeDefinitionAmendment s).loadRows_belongings hg.definitions
    (show ∀ d, (bare d).name = d.name from fun _ => rfl) ?owner
    (fun d hd _ hitems => amend_volumeDefinitions s (hg.definition d hd).1.volumes hitems)
    (entries_perm hm .volumeDefinitions) ?known loaded
  case owner =>
    intro d _ v hv
    obtain ⟨w, _, rfl⟩ := List.mem_map.1 hv
    exact Std.ReflCmp.compare_self
  case known =>
    intro items hperm _ v hv
    obtain ⟨d, hd, hvd⟩ := List.mem_flatMap.1 (hperm.mem_iff.1 hv)
    obtain ⟨w, _, rfl⟩ := List.mem_map.1 hvd
    rw [SortedMap.contains_map]
    exact SortedMap.contains_of_find? (hg.definitions.find? hd)
  rw [← hs] at h
  simpa [volumeDefinitionAmendment] using h

theorem loadRows_resources (hs : s.definitions = g.definitions.map fun _ d => withVolumes d)
    (hnodes : s.nodes = g.offline.nodes) (loaded : Graph) :
    loadRows .resources s (m.rows .resources) = .ok loaded ↔
      loaded = { s with definitions := g.definitions.map fun _ d => withResources d } := by
  have h := (resourceAmendment s).loadRows_belongings hg.definitions
    (show ∀ d, (withVolumes d).name = d.name from fun _ => rfl)
    (fun d hd r hr => ((hg.definition d hd).1.resource r hr).name)
    (fun d hd _ hitems => amend_resources s (hg.definition d hd).1.resources hitems)
    (entries_perm hm .resources) ?joins loaded
  case joins =>
    intro items hperm hrows
    refine ⟨fun r hr => ?_, ?_⟩
    · obtain ⟨d, hd, hrd⟩ := List.mem_flatMap.1 (hperm.mem_iff.1 hr)
      obtain ⟨hstorable, hanchored⟩ := hg.definition d hd
      have hname := (hstorable.resource r hrd).name
      refine ⟨(hstorable.resource r hrd).flags, ?_, ?_, ?_⟩
      · rw [hnodes, contains_offline]
        exact hanchored.nodes r hrd
      · rw [SortedMap.contains_map, SortedMap.contains_congr hname]
        exact SortedMap.contains_of_find? (hg.definitions.find? hd)
      · intro e he
        rw [SortedMap.find?_map_values] at he
        obtain ⟨old, _, rfl⟩ := Option.map_eq_some_iff.1 he
        rfl
    · have hkeys := (m.rows .resources).keys_pairwise
      rw [SortedMap.keys, hrows, List.map_map] at hkeys
      refine (List.pairwise_map.1 hkeys).imp fun hab hname hnode => hab ?_
      rw [Std.compare_eq_iff_eq]
      exact congrArg₂ (fun node name => compositeKey [node, name])
        ((Name.compare_eq_iff _ _).1 hnode) ((Name.compare_eq_iff _ _).1 hname)
  rw [← hs] at h
  simpa [resourceAmendment] using h

theorem loadRows_volumes (hs : s.definitions = g.definitions.map fun _ d => withResources d)
    (hpools : s.pools = g.pools) (loaded : Graph) :
    loadRows .volumes s (m.rows .volumes) = .ok loaded ↔
      (∀ v ∈ g.deployedVolumes, g.HasPoolOf v) ∧
        loaded = { s with definitions := g.definitions.map fun _ d => withoutSnapshots d } := by
  have h := (volumeAmendment s).loadRows_belongings hg.definitions
    (show ∀ d, (withResources d).name = d.name from fun _ => rfl) ?owner
    (fun d hd _ hitems => amend_volumes s (hg.definition d hd).1 hitems)
    (entries_perm hm .volumes) ?deployed loaded
  case owner =>
    intro d hd v hv
    obtain ⟨r, hr, hvr⟩ := List.mem_flatMap.1 hv
    obtain ⟨w, _, rfl⟩ := List.mem_map.1 hvr
    exact ((hg.definition d hd).1.resource r hr).name
  case deployed =>
    intro items hperm _ v hv
    obtain ⟨d, hd, hvd⟩ := List.mem_flatMap.1 (hperm.mem_iff.1 hv)
    obtain ⟨r, hr, hvr⟩ := List.mem_flatMap.1 hvd
    obtain ⟨w, _, rfl⟩ := List.mem_map.1 hvr
    have hstorable := (hg.definition d hd).1
    refine ⟨withResources d, ?_, ?_⟩
    · rw [SortedMap.find?_map_values, SortedMap.find?_congr (hstorable.resource r hr).name,
        hg.definitions.find? hd]
      rfl
    · rw [withResources, SortedMap.contains_map]
      exact SortedMap.contains_of_find? (hstorable.resources.find? hr)
  rw [← hs] at h
  have hok : (∀ v ∈ g.deployedVolumes, g.HasPoolOf v) ↔
      ∀ v ∈ g.deployedVolumes, (volumeAmendment s).ok v := by
    simp only [volumeAmendment, HasPoolOf, hpools]
  rw [hok]
  exact h

theorem loadRows_snapshots (hs : s.definitions = g.definitions.map fun _ d => withoutSnapshots d)
    (hnodes : s.nodes = g.offline.nodes) (loaded : Graph) :
    loadRows .snapshots s (m.rows .snapshots) = .ok loaded ↔
      (∀ s ∈ g.snapshots, g.HasOwnerOf s) ∧
        loaded = { s with definitions := g.stored.definitions } := by
  let t := snapshotAmendment s g.definitions
  obtain ⟨items, hperm, hrows⟩ : ∃ items : List Snapshot, items.Perm g.snapshots ∧
      (m.rows .snapshots).entries = items.map Stored.record :=
    exists_perm_of_perm_map (entries_perm hm .snapshots)
  have hkeys := (m.rows .snapshots).keys_pairwise
  rw [SortedMap.keys, hrows, List.map_map] at hkeys
  have hflags : ∀ s ∈ items, s.flags.IsKnown := by
    intro s hs
    obtain ⟨d, hd, hsd⟩ := List.mem_flatMap.1 (hperm.mem_iff.1 hs)
    exact (hg.definition d hd).1.snapshot s hsd
  have hfiled : (g.definitions.map fun _ d => withoutSnapshots d).Filed (·.name) :=
    (hg.definitions.map fun _ _ => rfl).filed
  have h := t.loadRows_iff hrows hfiled ⟨hflags, fun _ => SortedMap.contains_map ..⟩ loaded
  have hok : (∀ s ∈ g.snapshots, g.HasOwnerOf s) ↔ ∀ s ∈ items, t.ok s := by
    simp only [t, snapshotAmendment, HasOwnerOf, hnodes, contains_offline, hperm.mem_iff]
  have hmap : ((g.definitions.map fun _ d => withoutSnapshots d).map fun name d =>
      t.amend (items.filter fun s => compare (t.owner s) name == .eq) d) =
        g.definitions.map fun _ d => { d with snapshots := g.snapshotsOf d.name } := by
    rw [SortedMap.map_map]
    refine SortedMap.map_congr fun e he => ?_
    have hsame : g.snapshotsOf e.1 = SortedMap.ofList
        ((items.filter fun s => compare s.resource e.1 == .eq).map
          fun s => ((s.name, s.node), s)) :=
      SortedMap.ofList_congr ((hperm.symm.filter _).map _) (snapshots_apart e.1 hkeys)
    have hname : e.1 = e.2.name := hg.definitions e he
    rw [amend_snapshots, ← hname, hsame]
    rfl
  rw [hmap, ← hs] at h
  rw [hok]
  exact h

/-- A graph is read back just if it is grounded, and then as it was stored. -/
theorem load_iff {store : Store} (hstore : store.engine.Shows m) (loaded : Graph × Summary) :
    load store = .ok loaded ↔ g.Grounded ∧ loaded = (g.stored, g.census) := by
  have hnodes := loadRows_nodes (s := {}) hg hm rfl
  have hgroups := loadRows_groups (s := { nodes := g.offline.nodes }) hg hm rfl
  let base : Graph := { nodes := g.offline.nodes, groups := g.groups }
  let define (f : Definition → Definition) : DefinitionMap := g.definitions.map fun _ d => f d
  have hdefinitions := loadRows_definitions (s := base) hg hm rfl rfl
  have hvolumeDefinitions :=
    loadRows_volumeDefinitions (s := { base with definitions := define bare }) hg hm rfl
  have hpools :=
    loadRows_pools (s := { base with definitions := define withVolumes }) hg hm rfl rfl
  let filled : Graph := { base with pools := g.pools }
  have hresources :=
    loadRows_resources (s := { filled with definitions := define withVolumes }) hg hm rfl rfl
  have hvolumes :=
    loadRows_volumes (s := { filled with definitions := define withResources }) hg hm rfl rfl
  have hsnapshots :=
    loadRows_snapshots (s := { filled with definitions := define withoutSnapshots }) hg hm rfl rfl
  have hconnections :=
    loadRows_connections (s := { filled with definitions := g.stored.definitions }) hg hm rfl rfl
  rw [load, Table.all, foldlM_loadTable_all hm hstore hnodes,
    foldlM_loadTable_all hm hstore hgroups, foldlM_loadTable_all hm hstore hdefinitions,
    foldlM_loadTable_all hm hstore hvolumeDefinitions, foldlM_loadTable_all hm hstore hpools,
    foldlM_loadTable_all hm hstore hresources, foldlM_loadTable_iff hm hstore hvolumes,
    foldlM_loadTable_iff hm hstore hsnapshots, foldlM_loadTable_all hm hstore hconnections]
  have hcensus : g.census = Table.all.map fun table => (table, (g.records table).length) := by
    simp [census, Table.all, records, SortedMap.size, SortedMap.values]
  rw [Grounded, and_assoc, hcensus, List.foldlM_nil, eq_comm (a := loaded)]
  refine and_congr_right fun _ => and_congr_right fun _ => ?_
  exact Iff.of_eq (Except.ok.injEq ..)

end Tables

end Graph

end StorageCluster
