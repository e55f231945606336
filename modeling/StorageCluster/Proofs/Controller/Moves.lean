import StorageCluster.Proofs.Controller.Tombstones
import StorageCluster.Proofs.Store.Contents

/-!
# Moves of a graph

What an operation that came through has done to the graph is a move, together with the changes that
were committed for it. A move brings the rows of one graph to those of the next and keeps the graph
storable. Which definitions are accepted is left open: operations take any, but only settled ones,
whose volumes and snapshots refer to what is there, keep a graph settled.
-/
namespace StorageCluster

namespace Flags

variable {kind : FlagKind} {a b : Flags kind}

theorem isKnown_none : (none : Flags kind).IsKnown := UInt64.zero_and

theorem IsKnown.union (ha : a.IsKnown) (hb : b.IsKnown) : (a.union b).IsKnown := by
  unfold IsKnown at ha hb ⊢
  rw [Flags.union, ← UInt64.toNat_inj, UInt64.toNat_and, UInt64.toNat_or,
    Nat.and_or_distrib_right, ← UInt64.toNat_and, ← UInt64.toNat_and, ha, hb]
  rfl

theorem IsKnown.without (ha : a.IsKnown) (b : Flags kind) : (a.without b).IsKnown := by
  unfold IsKnown at ha ⊢
  rw [Flags.without, UInt64.and_assoc, UInt64.and_comm (~~~b.bits), ← UInt64.and_assoc, ha,
    UInt64.zero_and]

end Flags

/-- The volumes of a definition lie in known pools, and its snapshots are its own and on known
nodes. -/
structure Definition.Settled (d : Definition) (g : Graph) : Prop where
  pools : ∀ r ∈ d.resources.values, ∀ v ∈ r.volumes.values,
    g.pools.contains (r.node, v.pool) = true
  snapshots : ∀ s ∈ d.snapshots.values,
    compare s.resource d.name = .eq ∧ g.nodes.contains s.node = true

def Graph.Settled (g : Graph) : Prop := ∀ d ∈ g.definitions.values, d.Settled g

theorem Graph.Within.settled {g g' : Graph} {d : Definition} (h : g.Within g')
    (hd : d.Settled g) : d.Settled g' :=
  ⟨fun r hr v hv => h.pools _ (hd.pools r hr v hv),
    fun s hs => ⟨(hd.snapshots s hs).1, h.nodes _ (hd.snapshots s hs).2⟩⟩

/-! ## Reworked definitions -/

namespace Resource

variable {r : Resource}

theorem Storable.markDeleted {owner : ResourceName} (h : r.Storable owner) :
    r.markDeleted.Storable owner :=
  ⟨h.name, h.flags.union (by decide), h.volumes⟩

theorem changes_isNew (r : Resource) : ∀ change ∈ r.changes, change.IsNew := by
  simp only [changes, List.mem_cons, List.mem_map]
  rintro change (rfl | ⟨v, _, rfl⟩)
  · exact Change.ofNew_isNew r
  · exact Change.ofNew_isNew _

theorem changes_flat (r : Resource) : ∀ change ∈ r.changes, change.Flat := by
  simp only [changes, List.mem_cons, List.mem_map]
  rintro change (rfl | ⟨v, _, rfl⟩)
  · exact Change.ofNew_flat r
  · exact Change.ofNew_flat _

/-- A resource that can join a definition in a graph. -/
structure Fits (r : Resource) (owner : ResourceName) (g : Graph) : Prop where
  storable : r.Storable owner
  node : g.nodes.contains r.node = true
  pools : ∀ v ∈ r.volumes.values, g.pools.contains (r.node, v.pool) = true

end Resource

namespace Definition

variable {g : Graph} {d e : Definition} {t : Transaction}

/-- Resources of a definition are marked deleted and others join it, with the changes for it. -/
inductive Rework (g : Graph) (d : Definition) : Transaction → Definition → Prop
  | start : Rework g d [] d
  | mark {t : Transaction} {e : Definition} {node : NodeName} {r : Resource}
    (before : Rework g d t e) (found : e.resource? node = some r) :
    Rework g d (t ++ [Change.ofColumn r Column.flags r.markDeleted.flags.toColumn])
      (e.modifyResource node Resource.markDeleted)
  | join {t : Transaction} {e : Definition} {r : Resource} (before : Rework g d t e)
    (free : e.resources.contains r.node = false) (fits : r.Fits d.name g) :
    Rework g d (t ++ r.changes) { e with resources := e.resources.insert r.node r }

namespace Rework

theorem frame (h : Rework g d t e) : e = { d with resources := e.resources } := by
  induction h with
  | start => rfl
  | mark _ _ ih =>
    rw [ih]
    rfl
  | join _ _ _ ih => rw [ih]

/-- What marks do not undo and what holds of those that join holds of all resources. -/
theorem forall_resources {p : Resource → Prop} (h : Rework g d t e)
    (hmark : ∀ r, p r → p r.markDeleted) (hfits : ∀ r, r.Fits d.name g → p r)
    (hd : ∀ r ∈ d.resources.values, p r) : ∀ r ∈ e.resources.values, p r := by
  induction h with
  | start => exact hd
  | mark _ _ ih => exact SortedMap.forall_modify _ hmark ih
  | join _ _ fits ih => exact SortedMap.forall_insert (hfits _ fits) ih

theorem spelled (h : Rework g d t e) (hd : d.resources.Spelled (·.node)) :
    e.resources.Spelled (·.node) := by
  induction h with
  | start => exact hd
  | @mark t e node _ _ _ ih =>
    have hnode (r : Resource) : r.markDeleted.node = r.node := rfl
    exact SortedMap.Spelled.modify ih hnode node
  | join _ free _ ih => exact ih.insert_new free

theorem storable (h : Rework g d t e) (hd : d.Storable) : e.Storable := by
  rw [h.frame]
  exact { hd with
    resources := h.spelled hd.resources
    resource := h.forall_resources (p := (·.Storable d.name)) (fun _ hr => hr.markDeleted)
      (fun _ hr => hr.storable) hd.resource }

theorem anchored (h : Rework g d t e) (hd : d.Anchored g) : e.Anchored g := by
  rw [h.frame]
  exact ⟨hd.group, h.forall_resources (p := fun r => g.nodes.contains r.node = true)
    (fun _ hr => hr) (fun _ hr => hr.node) hd.nodes⟩

theorem settled (h : Rework g d t e) (hd : d.Settled g) : e.Settled g := by
  rw [h.frame]
  exact ⟨h.forall_resources
    (p := fun r => ∀ v ∈ r.volumes.values, g.pools.contains (r.node, v.pool) = true)
    (fun _ hr => hr) (fun _ hr => hr.pools) hd.pools, hd.snapshots⟩

theorem brings (h : Rework g d t e) (rest : Transaction) :
    Transaction.Brings t (Core.definitionChanges d ++ rest) (Core.definitionChanges e ++ rest) := by
  induction h with
  | start => exact .nothing _
  | @mark t e node r _ found ih =>
    obtain ⟨others, hold, hnew⟩ := changes_markDeleted found
    have hcolumn : Transaction.Brings
        [Change.ofColumn r Column.flags r.markDeleted.flags.toColumn]
        (Change.ofNew r :: (others ++ rest)) (Change.ofNew r.markDeleted :: (others ++ rest)) :=
      .column (by decide) rfl (r.row_setFlags r.markDeleted.flags)
    exact ih.trans (hcolumn.perm (hold.append_right rest) (hnew.append_right rest).symm)
  | @join t e r _ free _ ih =>
    have hnews : Transaction.Brings r.changes (Core.definitionChanges e ++ rest)
        (r.changes ++ (Core.definitionChanges e ++ rest)) :=
      .news r.changes_isNew r.changes_flat
    refine ih.trans (hnews.perm (.refl _) ?_)
    rw [← List.append_assoc]
    exact ((changes_join free).append_right rest).symm

end Rework

theorem changes_isNew (d : Definition) : ∀ change ∈ Core.definitionChanges d, change.IsNew := by
  simp only [Core.definitionChanges, List.mem_append, List.mem_cons, List.mem_map,
    List.mem_flatMap]
  rintro change (((rfl | ⟨v, _, rfl⟩) | ⟨r, _, hr⟩) | ⟨s, _, rfl⟩)
  · exact Change.ofNew_isNew d
  · exact Change.ofNew_isNew _
  · exact r.changes_isNew change hr
  · exact Change.ofNew_isNew s

theorem changes_flat (d : Definition) : ∀ change ∈ Core.definitionChanges d, change.Flat := by
  simp only [Core.definitionChanges, List.mem_append, List.mem_cons, List.mem_map,
    List.mem_flatMap]
  rintro change (((rfl | ⟨v, _, rfl⟩) | ⟨r, _, hr⟩) | ⟨s, _, rfl⟩)
  · exact Change.ofNew_flat d
  · exact Change.ofNew_flat _
  · exact r.changes_flat change hr
  · exact Change.ofNew_flat s

end Definition

/-! ## Moves -/

namespace Graph

variable {accept : Definition → Graph → Prop} {g g' : Graph} {t : Transaction}

/-- One step of a graph, with the changes that store it. -/
inductive Move (accept : Definition → Graph → Prop) (g : Graph) : Transaction → Graph → Prop
  | node {n : Node} (free : g.nodes.contains n.name = false) (storable : n.Storable) :
    Move accept g [Change.ofNew n] (g.setNode n)
  | connection {c : Connection} (free : g.connections.contains (c.source, c.target) = false)
    (anchored : c.Anchored g) : Move accept g [Change.ofNew c] (g.setConnection c)
  | group {r : Group} (free : g.groups.contains r.name = false) :
    Move accept g [Change.ofNew r] (g.setGroup r)
  | pool {p : Pool} (free : g.pools.contains (p.node, p.name) = false)
    (known : g.nodes.contains p.node = true) : Move accept g [Change.ofNew p] (g.setPool p)
  | definition {d : Definition} (free : g.definitions.contains d.name = false)
    (storable : d.Storable) (anchored : d.Anchored g) (accepted : accept d g) :
    Move accept g (Core.definitionChanges d) (g.setDefinition d)
  | flags {name : NodeName} {n : Node} {flags : NodeFlags} (found : g.nodes.find? name = some n)
    (known : flags.IsKnown) :
    Move accept g [Change.ofColumn n Column.flags flags.toColumn]
      { g with nodes := g.nodes.modify name fun n => { n with flags } }
  | status (name : NodeName) (status : ConnectionStatus) :
    Move accept g [] { g with nodes := g.nodes.modify name fun n => { n with status } }
  | props {name : ResourceName} {d : Definition} {props : Props}
    (found : g.definitions.find? name = some d) :
    Move accept g [Change.ofColumn d Column.props props.toColumn]
      { g with definitions := g.definitions.insert name { d with props } }
  | rework {name : ResourceName} {d d' : Definition} {t : Transaction}
    (found : g.definitions.find? name = some d) (reworked : Definition.Rework g d t d') :
    Move accept g t { g with definitions := g.definitions.insert name d' }

theorem changes_status (g : Graph) (name : NodeName) (status : ConnectionStatus) :
    changes { g with nodes := g.nodes.modify name fun n => { n with status } } = g.changes := by
  have hnodes : (g.nodes.modify name fun n => { n with status }).values.map Change.ofNew =
      g.nodes.values.map Change.ofNew := by
    simp only [SortedMap.values, SortedMap.modify, SortedMap.map, List.map_map]
    refine List.map_congr_left fun e _ => ?_
    dsimp only [Function.comp_apply]
    split
    · rfl
    · rfl
  rw [changes, changes, hnodes]

theorem Storable.modifyNode (hg : g.Storable) (name : NodeName) {f : Node → Node}
    (hname : ∀ n, (f n).name = n.name) (hf : ∀ n, n.Storable → (f n).Storable) :
    Storable { g with nodes := g.nodes.modify name f } := by
  have hnode (other : NodeName) (ho : g.nodes.contains other = true) :
      (g.nodes.modify name f).contains other = true := by
    rwa [SortedMap.contains_modify]
  refine { hg with
    nodes := SortedMap.Spelled.modify hg.nodes hname name
    node := SortedMap.forall_modify name hf hg.node
    definition := fun d hd => ?_
    pool := fun p hp => hnode _ (hg.pool p hp)
    connection := fun c hc => ?_ }
  · obtain ⟨hstorable, hanchored⟩ := hg.definition d hd
    exact ⟨hstorable, hanchored.group, fun r hr => hnode _ (hanchored.nodes r hr)⟩
  · have hanchored := hg.connection c hc
    exact ⟨hnode _ hanchored.source, hnode _ hanchored.target, hanchored.ordered⟩

namespace Move

theorem within (h : g.Move accept t g') : g.Within g' := by
  cases h with
  | node => exact .setNode ..
  | group => exact .setGroup ..
  | pool => exact .setPool ..
  | connection => exact .setConnection ..
  | definition => exact .setDefinition ..
  | props | rework => exact { Within.refl g with }
  | flags | status =>
    refine { Within.refl g with nodes := fun name hn => ?_ }
    rwa [SortedMap.contains_modify]

theorem brings (h : g.Move accept t g') : t.Brings g.changes g'.changes := by
  cases h with
  | @node n free => exact (Transaction.Brings.new n).perm (.refl _) (changes_setNode free).symm
  | @connection c free =>
    exact (Transaction.Brings.new c).perm (.refl _) (changes_setConnection free).symm
  | @group r free => exact (Transaction.Brings.new r).perm (.refl _) (changes_setGroup free).symm
  | @pool p free => exact (Transaction.Brings.new p).perm (.refl _) (changes_setPool free).symm
  | @definition d free =>
    exact (Transaction.Brings.news d.changes_isNew d.changes_flat).perm (.refl _)
      (changes_setDefinition free).symm
  | @flags name n flags found =>
    obtain ⟨rest, hold, hnew⟩ := changes_insertNode found
    have hcolumn : Transaction.Brings [Change.ofColumn n Column.flags flags.toColumn]
        (Change.ofNew n :: rest) (Change.ofNew { n with flags } :: rest) :=
      .column (by decide) rfl (n.row_setFlags flags)
    rw [← SortedMap.insert_eq_modify found fun n => { n with flags }]
    exact hcolumn.perm hold (hnew _).symm
  | status name status =>
    rw [changes_status]
    exact .nothing _
  | @props name d props found =>
    obtain ⟨rest, hold, hnew⟩ := changes_insertDefinition found
    have hcolumn (others : Transaction) :
        Transaction.Brings [Change.ofColumn d Column.props props.toColumn]
          (Change.ofNew d :: others) (Change.ofNew { d with props } :: others) :=
      .column (by decide) rfl (d.row_setProps props)
    exact (hcolumn _).perm hold (hnew { d with props }).symm
  | rework found reworked =>
    obtain ⟨rest, hold, hnew⟩ := changes_insertDefinition found
    exact (reworked.brings rest).perm hold (hnew _).symm

theorem storable (h : g.Move accept t g') (hg : g.Storable) : g'.Storable := by
  have hw : g.Within g' := h.within
  have hdefinition (d : Definition) (hd : d ∈ g.definitions.values) :
      d.Storable ∧ d.Anchored g' :=
    ⟨(hg.definition d hd).1, hw.anchored (hg.definition d hd).2⟩
  have hpool (p : Pool) (hp : p ∈ g.pools.values) : g'.nodes.contains p.node = true :=
    hw.nodes _ (hg.pool p hp)
  have hconnection (c : Connection) (hc : c ∈ g.connections.values) : c.Anchored g' :=
    hw.connection (hg.connection c hc)
  -- the fields that an operation does not touch are those of `g`, read in `g'`
  cases h with
  | @node n free storable =>
    exact { hg with
      nodes := hg.nodes.insert_new free, node := SortedMap.forall_insert storable hg.node
      definition := hdefinition, pool := hpool, connection := hconnection }
  | @connection c free anchored =>
    exact { hg with
      connections := hg.connections.insert_new (v := c) free, definition := hdefinition
      connection := SortedMap.forall_insert (hw.connection anchored) hconnection }
  | group free =>
    exact { hg with
      groups := hg.groups.insert_new free, definition := hdefinition, connection := hconnection }
  | @pool p free known =>
    exact { hg with
      pools := hg.pools.insert_new (v := p) free, definition := hdefinition
      pool := SortedMap.forall_insert known hpool, connection := hconnection }
  | @definition d free storable anchored =>
    exact { hg with
      definitions := hg.definitions.insert_new free, connection := hconnection
      definition := SortedMap.forall_insert ⟨storable, hw.anchored anchored⟩ hdefinition }
  | @flags name n flags found known =>
    have hflags (m : Node) (hm : m.Storable) : ({ m with flags } : Node).Storable :=
      { hm with flags := known }
    exact hg.modifyNode name (fun _ => rfl) hflags
  | status name status => exact hg.modifyNode name (fun _ => rfl) fun _ hm => { hm with }
  | @props name d props found =>
    obtain ⟨hstorable, hanchored⟩ := hdefinition d (SortedMap.mem_values.2 ⟨name, found⟩)
    exact { hg with
      definitions := hg.definitions.insert_old found rfl, connection := hconnection
      definition := SortedMap.forall_insert ⟨{ hstorable with }, { hanchored with }⟩ hdefinition }
  | @rework name d d' t found reworked =>
    obtain ⟨hstorable, hanchored⟩ := hg.definition d (SortedMap.mem_values.2 ⟨name, found⟩)
    have hname : d'.name = d.name := by rw [reworked.frame]
    have hd' : d'.Storable ∧ d'.Anchored _ :=
      ⟨reworked.storable hstorable, hw.anchored (reworked.anchored hanchored)⟩
    exact { hg with
      definitions := hg.definitions.insert_old found hname, connection := hconnection
      definition := SortedMap.forall_insert hd' hdefinition }

end Move

/-- A graph stays settled when all definitions that it takes are. -/
theorem Move.settled (h : g.Move Definition.Settled t g') (hg : g.Settled) : g'.Settled := by
  have hw : g.Within g' := h.within
  have hold (d : Definition) (hd : d ∈ g.definitions.values) : d.Settled g' :=
    hw.settled (hg d hd)
  cases h with
  | node | connection | group | pool | flags | status => exact hold
  | definition free storable anchored accepted =>
    exact SortedMap.forall_insert (hw.settled accepted) hold
  | @props name d props found =>
    have hd := hold d (SortedMap.mem_values.2 ⟨name, found⟩)
    exact SortedMap.forall_insert { hd with } hold
  | rework found reworked =>
    have hd' := reworked.settled (hg _ (SortedMap.mem_values.2 ⟨_, found⟩))
    exact SortedMap.forall_insert (hw.settled hd') hold

end Graph

end StorageCluster
