import Mathlib.Data.List.Perm.Basic
import StorageCluster.Proofs.Name
import StorageCluster.Proofs.Store.Contents

/-!
# Loading the rows of one table

The rows of a table are loaded one by one, in the order of their keys; what they come to does not
depend on that order. Rows of five tables are gathered in a map of the graph (`loadRows_gather`).
Rows of the others amend the definitions that are there (`Amendment`).
-/
namespace StorageCluster

/-- A reordering of what was made from items is made from a reordering of the items. -/
theorem exists_perm_of_perm_map {α β : Type} {f : α → β} {xs : List α} {ys : List β}
    (h : ys.Perm (xs.map f)) : ∃ xs' : List α, xs'.Perm xs ∧ ys = xs'.map f := by
  have hmade : (xs.map f).Forall₂ (fun y x => y = f x) xs :=
    List.forall₂_map_left_iff.2 (List.forall₂_same.2 fun _ _ => rfl)
  obtain ⟨xs', hys, hperm⟩ := List.perm_comp_forall₂ h hmade
  refine ⟨xs', hperm, ?_⟩
  clear h hmade hperm
  induction hys with
  | nil => rfl
  | cons hy _ ih => rw [hy, ih, List.map_cons]

theorem mapError_ok_iff {ε ε' α : Type} {f : ε → ε'} {x : Except ε α} {a : α} :
    x.mapError f = .ok a ↔ x = .ok a := by
  cases x <;> simp [Except.mapError]

namespace Graph

/-- A table whose rows are gathered in one map of the graph. `into` is the graph around the map. -/
theorem loadRows_gather {α β κ : Type} [Stored α] [Ord κ] [Std.TransOrd κ] (table : Table)
    {own : α → κ} {objects : SortedMap κ α} (hown : objects.Spelled own) (f : α → β)
    (into : SortedMap κ β → Graph)
    (hload : ∀ a ∈ objects.values, ∀ built, loadRow table (into built) (Stored.row a) =
      .ok (into (built.insert (own a) (f a))))
    {rows : Rows} (hrows : rows.entries.Perm (objects.values.map Stored.record)) (loaded : Graph) :
    loadRows table (into .empty) rows = .ok loaded ↔
      loaded = into (objects.map fun _ a => f a) := by
  obtain ⟨items, hperm, hrows⟩ := exists_perm_of_perm_map hrows
  have hfold (items : List α) (hitems : ∀ a ∈ items, a ∈ objects.values) (built : SortedMap κ β) :
      items.foldlM (fun g a =>
          (loadRow table g (Stored.row a)).mapError (RowFault.toFault table (Stored.key a)))
        (into built) =
      .ok (into (items.foldl (fun built a => built.insert (own a) (f a)) built)) := by
    induction items generalizing built with
    | nil => rfl
    | cons a rest ih =>
      obtain ⟨ha, hrest⟩ := List.forall_mem_cons.1 hitems
      rw [List.foldlM_cons, hload a ha built]
      exact ih hrest _
  have hmap : items.foldl (fun built a => built.insert (own a) (f a)) .empty =
      objects.map fun _ a => f a := by
    rw [← hown.ofList_map f hperm, SortedMap.ofList, List.foldl_map]
  have hload := hfold items (fun a ha => hperm.mem_iff.1 ha) .empty
  rw [hmap] at hload
  rw [loadRows, hrows, List.foldlM_map]
  constructor
  · intro h
    rw [← Except.ok.injEq, ← h]
    exact hload
  · rintro rfl
    exact hload

/-- A table whose rows are gathered as they are. -/
theorem loadRows_collect {α κ : Type} [Stored α] [Ord κ] [Std.TransOrd κ] (table : Table)
    {own : α → κ} {objects : SortedMap κ α} (hown : objects.Spelled own)
    (into : SortedMap κ α → Graph)
    (hload : ∀ a ∈ objects.values, ∀ built, loadRow table (into built) (Stored.row a) =
      .ok (into (built.insert (own a) a)))
    {rows : Rows} (hrows : rows.entries.Perm (objects.values.map Stored.record)) (loaded : Graph) :
    loadRows table (into .empty) rows = .ok loaded ↔ loaded = into objects := by
  have h := loadRows_gather table hown (fun a => a) into hload hrows loaded
  have hsame : (objects.map fun _ a => a) = objects := SortedMap.map_eq_self fun _ _ => rfl
  rwa [hsame] at h

/-- A table whose rows change definitions that are there already. `into` is the graph around the
definitions, `Inv` says what holds while the entities in a list are still to be loaded, and `ok`
which of them can be. -/
structure Amendment (β : Type) [Stored β] (table : Table) where
  owner : β → ResourceName
  change : β → Definition → Definition
  ok : β → Prop
  into : DefinitionMap → Graph
  Inv : DefinitionMap → List β → Prop
  name : ∀ b d, (change b d).name = d.name
  keep : ∀ definitions b rest, Inv definitions (b :: rest) →
    Inv (definitions.modify (owner b) (change b)) rest
  load : ∀ definitions b rest, definitions.Filed (·.name) → Inv definitions (b :: rest) →
    ∀ loaded, loadRow table (into definitions) (Stored.row b) = .ok loaded ↔
      ok b ∧ loaded = into (definitions.modify (owner b) (change b))

namespace Amendment

variable {β : Type} [Stored β] {table : Table} (t : Amendment β table)

/-- Changes that are made to one definition. -/
def amend (items : List β) (d : Definition) : Definition :=
  items.foldl (fun d b => t.change b d) d

/-- Every definition comes through the changes that are meant for it. -/
theorem loadRows_iff {rows : Rows} {items : List β}
    (hrows : rows.entries = items.map Stored.record) {definitions : DefinitionMap}
    (hfiled : definitions.Filed (·.name)) (hinv : t.Inv definitions items) (loaded : Graph) :
    loadRows table (t.into definitions) rows = .ok loaded ↔ (∀ b ∈ items, t.ok b) ∧
      loaded = t.into (definitions.map fun name d =>
        t.amend (items.filter fun b => compare (t.owner b) name == .eq) d) := by
  simp only [amend]
  rw [← SortedMap.foldl_modify t.owner t.change, loadRows, hrows, List.foldlM_map]
  clear hrows
  induction items generalizing definitions with
  | nil => simp [pure, Except.pure, eq_comm]
  | cons b rest ih =>
    have hload := t.load definitions b rest hfiled hinv
    have hnext := ih (hfiled.modify (t.name b) (t.owner b)) (t.keep definitions b rest hinv)
    rw [List.foldlM_cons, bind_ok_iff, List.foldl_cons, List.forall_mem_cons, and_assoc, ← hnext]
    constructor
    · rintro ⟨mid, hmid, hrest⟩
      obtain ⟨hok, rfl⟩ := (hload mid).1 (mapError_ok_iff.1 hmid)
      exact ⟨hok, hrest⟩
    · rintro ⟨hok, hrest⟩
      exact ⟨_, mapError_ok_iff.2 ((hload _).2 ⟨hok, rfl⟩), hrest⟩

/-- Each definition is made complete by what belongs to it, in any order. -/
theorem loadRows_belongings {all : DefinitionMap} (hall : all.Spelled (·.name))
    {belongings : Definition → List β} {before after : Definition → Definition}
    (hbefore : ∀ d, (before d).name = d.name)
    (howner : ∀ d ∈ all.values, ∀ b ∈ belongings d, compare (t.owner b) d.name = .eq)
    (hafter : ∀ d ∈ all.values, ∀ items : List β, items.Perm (belongings d) →
      t.amend items (before d) = after d)
    {rows : Rows} (hrows : rows.entries.Perm ((all.values.flatMap belongings).map Stored.record))
    (hinv : ∀ items : List β, items.Perm (all.values.flatMap belongings) →
      rows.entries = items.map Stored.record → t.Inv (all.map fun _ d => before d) items)
    (loaded : Graph) :
    loadRows table (t.into (all.map fun _ d => before d)) rows = .ok loaded ↔
      (∀ b ∈ all.values.flatMap belongings, t.ok b) ∧
        loaded = t.into (all.map fun _ d => after d) := by
  obtain ⟨items, hperm, hitems⟩ := exists_perm_of_perm_map hrows
  have hfiled : (all.map fun _ d => before d).Filed (·.name) :=
    (hall.map fun e _ => hbefore e.2).filed
  have hmap : ((all.map fun _ d => before d).map fun name d =>
      t.amend (items.filter fun b => compare (t.owner b) name == .eq) d) =
        all.map fun _ d => after d := by
    rw [SortedMap.map_map]
    refine SortedMap.map_congr fun e he => ?_
    have hown := hall.filed.filter_flatMap_values howner he
    refine hafter e.2 (List.mem_map.2 ⟨e, he, rfl⟩) _ ?_
    exact (hperm.filter _).trans (.of_eq hown)
  rw [t.loadRows_iff hitems hfiled (hinv items hperm hitems), hmap]
  simp only [hperm.mem_iff]

end Amendment

/-- A changed definition takes the place of the present one. -/
theorem insert_changed {definitions : DefinitionMap} (hfiled : definitions.Filed (·.name))
    {name : ResourceName} {d : Definition} (hd : definitions.find? name = some d)
    (f : Definition → Definition) :
    definitions.insert d.name (f d) = definitions.modify name f := by
  have hname : compare name d.name = .eq := hfiled name d hd
  have hown : definitions.find? d.name = some d := SortedMap.find?_congr hname definitions ▸ hd
  rw [SortedMap.insert_eq_modify hown f, SortedMap.modify_congr hname]

def volumeDefinitionAmendment (s : Graph) :
    Amendment NamedVolumeDefinition .volumeDefinitions where
  owner v := v.resource
  change v d := d.addVolume v.volume
  ok _ := True
  into definitions := { s with definitions }
  Inv definitions rest := ∀ v ∈ rest, definitions.contains v.resource = true
  name _ _ := rfl
  keep definitions b rest hknown v hv := by
    rw [SortedMap.contains_modify]
    exact hknown v (List.mem_cons_of_mem b hv)
  load definitions v rest hfiled hknown loaded := by
    obtain ⟨d, hd⟩ := Option.isSome_iff_exists.1 (hknown v List.mem_cons_self)
    have hrow := loadVolumeDefinition_row { s with definitions } v hd
    have hset : definitions.insert d.name (d.addVolume v.volume) =
        definitions.modify v.resource (·.addVolume v.volume) :=
      insert_changed hfiled hd (·.addVolume v.volume)
    rw [loadRow, hrow, Except.ok.injEq, eq_comm, ← hset, true_and]
    rfl

/-- A definition with its volume definitions. -/
def withVolumes (d : Definition) : Definition := { bare d with volumes := d.volumes }

/-- The volume definitions of a definition are put back into it. -/
theorem amend_volumeDefinitions (s : Graph) {d : Definition} (h : d.volumes.Spelled (·.number))
    {items : List NamedVolumeDefinition} (hitems : items.Perm d.namedVolumes) :
    (volumeDefinitionAmendment s).amend items (bare d) = withVolumes d := by
  have hvalues : (items.map NamedVolumeDefinition.volume).Perm d.volumes.values := by
    have hp := hitems.map NamedVolumeDefinition.volume
    simpa [Definition.namedVolumes, Function.comp_def] using hp
  have hvolumes : items.foldl (fun volumes v => volumes.insert v.volume.number v.volume) .empty =
      d.volumes := by
    rw [← h.ofList hvalues, SortedMap.ofList, List.map_map, List.foldl_map]
    rfl
  rw [withVolumes, ← hvolumes]
  refine List.foldl_hom (fun volumes => { bare d with volumes }) ?_
  intros
  rfl

/-- A resource before its volumes are loaded. -/
def bareResource (r : Resource) : Resource := { r with volumes := .empty }

/-- A resource that can join its definition. -/
structure Joins (s : Graph) (definitions : DefinitionMap) (r : Resource) : Prop where
  flags : r.flags.IsKnown
  node : s.nodes.contains r.node = true
  owner : definitions.contains r.name = true
  free : ∀ d, definitions.find? r.name = some d → d.resources.contains r.node = false

/-- Resources are of different definitions or on different nodes. -/
def Apart (a b : Resource) : Prop := compare a.name b.name = .eq → compare a.node b.node ≠ .eq

def resourceAmendment (s : Graph) : Amendment Resource .resources where
  owner r := r.name
  change r d := { d with resources := d.resources.insert r.node (bareResource r) }
  ok _ := True
  into definitions := { s with definitions }
  Inv definitions rest := (∀ r ∈ rest, Joins s definitions r) ∧ rest.Pairwise Apart
  name _ _ := rfl
  keep definitions b rest hinv := by
    obtain ⟨hjoins, hapart⟩ := hinv
    obtain ⟨hb, hrest⟩ := List.pairwise_cons.1 hapart
    refine ⟨fun r hr => ?_, hrest⟩
    obtain ⟨hflags, hnode, howner, hfree⟩ := hjoins r (List.mem_cons_of_mem b hr)
    refine ⟨hflags, hnode, by rwa [SortedMap.contains_modify], fun d hd => ?_⟩
    rw [SortedMap.find?_modify] at hd
    split at hd
    next hc =>
      obtain ⟨old, ho, rfl⟩ := Option.map_eq_some_iff.1 hd
      have hne : compare r.node b.node ≠ .eq := fun he =>
        hb r hr (Std.OrientedCmp.eq_symm hc) (Std.OrientedCmp.eq_symm he)
      simp [SortedMap.contains_insert, hne, hfree old ho]
    next => exact hfree d hd
  load definitions r rest hfiled hinv loaded := by
    obtain ⟨hflags, hnode, howner, hfree⟩ := hinv.1 r List.mem_cons_self
    obtain ⟨d, hd⟩ := Option.isSome_iff_exists.1 howner
    have hrow := loadResource_row { s with definitions } hflags hnode hd (hfiled r.name d hd)
      (hfree d hd)
    have hset := insert_changed hfiled hd fun d =>
      { d with resources := d.resources.insert r.node (bareResource r) }
    rw [loadRow, hrow, Except.ok.injEq, eq_comm, ← hset, true_and]
    rfl

/-- A definition with its volume definitions and with resources that have no volumes yet. -/
def withResources (d : Definition) : Definition :=
  { withVolumes d with resources := d.resources.map fun _ r => bareResource r }

/-- The resources of a definition are put back into it. -/
theorem amend_resources (s : Graph) {d : Definition} (h : d.resources.Spelled (·.node))
    {items : List Resource} (hitems : items.Perm d.resources.values) :
    (resourceAmendment s).amend items (withVolumes d) = withResources d := by
  have hresources : items.foldl (fun resources r => resources.insert r.node (bareResource r))
      .empty = d.resources.map fun _ r => bareResource r := by
    rw [← h.ofList_map bareResource hitems, SortedMap.ofList, List.foldl_map]
  rw [withResources, ← hresources]
  refine List.foldl_hom (fun resources => { withVolumes d with resources }) ?_
  intros
  rfl

/-- A volume is put into a resource. -/
def putVolume (v : Volume) (r : Resource) : Resource :=
  { r with volumes := r.volumes.insert v.number v }

def volumeAmendment (s : Graph) : Amendment DeployedVolume .volumes where
  owner v := v.resource.name
  change v d := d.modifyResource v.resource.node (putVolume v.volume)
  ok v := s.HasPoolOf v
  into definitions := { s with definitions }
  Inv definitions rest := ∀ v ∈ rest, ∃ d, definitions.find? v.resource.name = some d ∧
    d.resources.contains v.resource.node = true
  name _ _ := rfl
  keep definitions b rest hinv v hv := by
    obtain ⟨d, hd, hr⟩ := hinv v (List.mem_cons_of_mem b hv)
    rw [SortedMap.find?_modify, hd]
    split
    next => exact ⟨_, rfl, (SortedMap.contains_modify ..).trans hr⟩
    next => exact ⟨d, rfl, hr⟩
  load definitions v rest hfiled hinv loaded := by
    obtain ⟨d, hd, hr⟩ := hinv v List.mem_cons_self
    have hrow := loadVolume_row_iff { s with definitions } v hd hr loaded
    have hset := insert_changed hfiled hd fun d =>
      d.modifyResource v.resource.node (putVolume v.volume)
    rw [loadRow, hrow, ← hset]
    rfl

/-- The volumes of a resource are put back into it. -/
theorem foldl_putVolume {r : Resource} (h : r.volumes.Spelled (·.number))
    {items : List DeployedVolume}
    (hitems : items.Perm (r.volumes.values.map (DeployedVolume.mk r))) :
    items.foldl (fun r v => putVolume v.volume r) (bareResource r) = r := by
  have hvalues : (items.map DeployedVolume.volume).Perm r.volumes.values := by
    have hp := hitems.map DeployedVolume.volume
    simpa [Function.comp_def] using hp
  have hvolumes : items.foldl (fun volumes v => volumes.insert v.volume.number v.volume) .empty =
      r.volumes := by
    rw [← h.ofList hvalues, SortedMap.ofList, List.map_map, List.foldl_map]
    rfl
  have hfold : items.foldl (fun r v => putVolume v.volume r) (bareResource r) =
      { r with
        volumes := (items.foldl (fun volumes v => volumes.insert v.volume.number v.volume)
          .empty) } := by
    refine List.foldl_hom (fun volumes => { r with volumes }) ?_
    intros
    rfl
  rw [hfold, hvolumes]

/-- A definition with all that belongs to it but its snapshots. -/
def withoutSnapshots (d : Definition) : Definition := { d with snapshots := .empty }

/-- The volumes of a definition are put back into its resources. -/
theorem amend_volumes (s : Graph) {d : Definition} (h : d.Storable) {items : List DeployedVolume}
    (hitems : items.Perm d.deployedVolumes) :
    (volumeAmendment s).amend items (withResources d) = withoutSnapshots d := by
  have hresources : items.foldl
      (fun resources v => resources.modify v.resource.node (putVolume v.volume))
      (d.resources.map fun _ r => bareResource r) = d.resources := by
    rw [SortedMap.foldl_modify (fun v : DeployedVolume => v.resource.node)
      (fun v => putVolume v.volume), SortedMap.map_map]
    refine SortedMap.map_eq_self fun e he => ?_
    have hr : e.2 ∈ d.resources.values := List.mem_map.2 ⟨e, he, rfl⟩
    refine foldl_putVolume (h.resource e.2 hr).volumes ((hitems.filter _).trans (.of_eq ?_))
    refine h.resources.filed.filter_flatMap_values (fun r _ v hv => ?_) he
    obtain ⟨w, _, rfl⟩ := List.mem_map.1 hv
    exact Std.ReflCmp.compare_self
  have hfold : (volumeAmendment s).amend items (withResources d) =
      { withVolumes d with
        resources := (items.foldl
          (fun resources v => resources.modify v.resource.node (putVolume v.volume))
          (d.resources.map fun _ r => bareResource r)) } := by
    refine List.foldl_hom (fun resources => { withVolumes d with resources }) ?_
    intros
    rfl
  rw [hfold, hresources]
  rfl

def snapshotAmendment (s : Graph) (all : DefinitionMap) : Amendment Snapshot .snapshots where
  owner s := s.resource
  change s d := d.addSnapshot s
  ok snapshot := s.nodes.contains snapshot.node = true ∧ all.contains snapshot.resource = true
  into definitions := { s with definitions }
  Inv definitions rest := (∀ s ∈ rest, s.flags.IsKnown) ∧
    ∀ name, definitions.contains name = all.contains name
  name _ _ := rfl
  keep definitions b rest hinv := by
    obtain ⟨hflags, hsame⟩ := hinv
    refine ⟨fun s hs => hflags s (List.mem_cons_of_mem b hs), fun name => ?_⟩
    rw [SortedMap.contains_modify, hsame]
  load definitions b rest hfiled hinv loaded := by
    obtain ⟨hflags, hsame⟩ := hinv
    have hrow := loadSnapshot_row_iff { s with definitions } (hflags b List.mem_cons_self) loaded
    rw [loadRow, hrow, ← hsame, and_assoc]
    refine and_congr_right fun _ => ?_
    cases hd : definitions.find? b.resource with
    | none => simp [SortedMap.contains, hd]
    | some d =>
      have hset := insert_changed hfiled hd (·.addSnapshot b)
      simp only [SortedMap.contains, hd, Option.isSome_some, true_and, Option.some.injEq,
        exists_eq_left', ← hset]
      rfl

/-- Snapshots of one definition have different names or nodes when their keys are different. -/
theorem snapshots_apart {items : List Snapshot} (name : ResourceName)
    (h : (items.map Stored.key).Pairwise fun a b => compare a b ≠ .eq) :
    ((items.filter fun s => compare s.resource name == .eq).map
      fun s => ((s.name, s.node), s)).Pairwise fun a b => compare a.1 b.1 ≠ .eq := by
  refine List.pairwise_map.2 (((List.pairwise_map.1 h).filter _).imp_of_mem ?_)
  intro a b ha hb hkeys he
  obtain ⟨hname, hnode⟩ := (pair_compare_eq_iff _ _).1 he
  have hresource : compare a.resource b.resource = .eq := by
    have ha' : compare a.resource name = .eq := by simpa using (List.mem_filter.1 ha).2
    have hb' : compare b.resource name = .eq := by simpa using (List.mem_filter.1 hb).2
    exact Std.TransCmp.eq_trans ha' (Std.OrientedCmp.eq_symm hb')
  apply hkeys
  rw [Name.compare_eq_iff] at hname hnode hresource
  rw [Std.compare_eq_iff_eq]
  simp only [Stored.key, hname, hnode, hresource]

/-- The snapshots that name a definition are put back into it. -/
theorem amend_snapshots (s : Graph) (all : DefinitionMap) (d : Definition)
    (items : List Snapshot) :
    (snapshotAmendment s all).amend items (withoutSnapshots d) =
      { d with snapshots := .ofList (items.map fun s => ((s.name, s.node), s)) } := by
  rw [SortedMap.ofList, List.foldl_map]
  refine List.foldl_hom (fun snapshots => { d with snapshots }) ?_
  intros
  rfl

end Graph

end StorageCluster
