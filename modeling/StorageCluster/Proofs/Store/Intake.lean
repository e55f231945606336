import StorageCluster.Proofs.SortedMap
import StorageCluster.Store.Load

/-!
# What a row brings in

A row that is loaded adds one object to the graph, and what the object needs was there before. So
what such gains preserve holds of whatever is loaded from a store.
-/
namespace StorageCluster

section Ensures

variable {ε α β : Type} {p q : α → Prop}

/-- The result has the property, if there is a result. -/
def Ensures (p : α → Prop) (x : Except ε α) : Prop := ∀ a, x = .ok a → p a

theorem Ensures.pure {a : α} (h : p a) : Ensures p (Pure.pure a : Except ε α) := by
  intro b hb
  cases hb
  exact h

theorem Ensures.throw (e : ε) : Ensures p (throw e : Except ε α) := by
  intro a ha
  cases ha

theorem Ensures.imp {x : Except ε α} (hpq : ∀ a, p a → q a) (h : Ensures p x) : Ensures q x :=
  fun a ha => hpq a (h a ha)

theorem Ensures.bind {x : Except ε β} {f : β → Except ε α} (h : ∀ b, x = .ok b → Ensures p (f b)) :
    Ensures p (x >>= f) := by
  intro a ha
  cases x with
  | error e => cases ha
  | ok b => exact h b rfl a ha

theorem Ensures.throw_bind (e : ε) (f : β → Except ε α) :
    Ensures p ((MonadExcept.throw e : Except ε β) >>= f) :=
  .bind fun _ h => by cases h

theorem Ensures.mapError {ε' : Type} {x : Except ε α} (h : Ensures p x) (f : ε → ε') :
    Ensures p (x.mapError f) := by
  intro a ha
  cases x with
  | error e => cases ha
  | ok b =>
    cases ha
    exact h _ rfl

theorem Ensures.foldlM {f : α → β → Except ε α} (hf : ∀ a b, p a → Ensures p (f a b))
    (items : List β) {a : α} (h : p a) : Ensures p (items.foldlM f a) := by
  induction items generalizing a with
  | nil => exact .pure h
  | cons b rest ih => exact .bind fun a' ha => ih (hf a b h a' ha)

end Ensures

/-- Flags are read from bits that are all known. -/
theorem Row.flags_ok {row : Row} {kind : FlagKind} {owner : String} {f : Flags kind}
    (h : row.flags kind owner = .ok f) : ∃ bits, Flags.ofKnownBits? bits = some f := by
  have hread : Ensures (fun f => ∃ bits, Flags.ofKnownBits? bits = some f)
      (row.flags kind owner) := by
    unfold Row.flags
    refine .bind fun bits _ => ?_
    split
    next f hf => exact .pure ⟨bits, hf⟩
    next => exact .throw _
  exact hread f h

namespace Graph

variable {g : Graph}

theorem node_ok {name : NodeName} {n : Node} (h : g.node name = .ok n) :
    g.nodes.contains name = true := by
  unfold Graph.node at h
  split at h
  next hn => exact SortedMap.contains_of_find? hn
  next => cases h

theorem definition_ok {name : ResourceName} {d : Definition} (h : g.definition name = .ok d) :
    g.definitions.find? name = some d := by
  unfold Graph.definition at h
  split at h
  next hd =>
    cases h
    exact hd
  next => cases h

/-- A graph and what it may become when a row is loaded. -/
inductive Gains (g : Graph) : Graph → Prop
  | node {n : Node} (hflags : ∃ bits, Flags.ofKnownBits? bits = some n.flags) :
    Gains g (g.setNode n)
  | group (r : Group) : Gains g (g.setGroup r)
  | definition {d : Definition} (hgroup : g.groups.contains d.group = true)
    (hflags : ∃ bits, Flags.ofKnownBits? bits = some d.flags) (hvolumes : d.volumes = .empty)
    (hresources : d.resources = .empty) (hsnapshots : d.snapshots = .empty) :
    Gains g (g.setDefinition d)
  | volumeDefinition {name : ResourceName} {d : Definition}
    (hd : g.definitions.find? name = some d) (v : VolumeDefinition) :
    Gains g (g.setDefinition (d.addVolume v))
  | pool {p : Pool} (hnode : g.nodes.contains p.node = true) : Gains g (g.setPool p)
  | resource {d added : Definition} {r : Resource} (hd : g.definitions.find? r.name = some d)
    (hnode : g.nodes.contains r.node = true)
    (hflags : ∃ bits, Flags.ofKnownBits? bits = some r.flags) (hvolumes : r.volumes = .empty)
    (hadded : d.addResource r = .ok added) : Gains g (g.setDefinition added)
  | volume {name : ResourceName} {d : Definition} {node : NodeName} {v : Volume}
    (hd : g.definitions.find? name = some d) (hpool : g.pools.contains (node, v.pool) = true) :
    Gains g (g.setDefinition
      (d.modifyResource node fun r => { r with volumes := r.volumes.insert v.number v }))
  | snapshot {d : Definition} {s : Snapshot} (hd : g.definitions.find? s.resource = some d)
    (hnode : g.nodes.contains s.node = true)
    (hflags : ∃ bits, Flags.ofKnownBits? bits = some s.flags) :
    Gains g (g.setDefinition (d.addSnapshot s))
  | connection {c : Connection} (hsource : g.nodes.contains c.source = true)
    (htarget : g.nodes.contains c.target = true) (hordered : compare c.source c.target = .lt) :
    Gains g (g.setConnection c)

theorem loadNode_gains (g : Graph) (row : Row) : Ensures g.Gains (g.loadNode row) := by
  unfold loadNode
  refine .bind fun name _ => .bind fun flags hflags => .bind fun interfaces _ => ?_
  exact .bind fun uuid _ => .bind fun props _ => .pure (.node (Row.flags_ok hflags))

theorem loadGroup_gains (g : Graph) (row : Row) : Ensures g.Gains (g.loadGroup row) := by
  unfold loadGroup
  refine .bind fun name _ => .bind fun autoPlace _ => ?_
  exact .bind fun uuid _ => .bind fun props _ => .pure (.group _)

theorem loadDefinition_gains (g : Graph) (row : Row) : Ensures g.Gains (g.loadDefinition row) := by
  unfold loadDefinition
  refine .bind fun name _ => .bind fun group _ => ?_
  split
  · exact .throw_bind _ _
  next hgroup =>
    refine .bind fun flags hflags => .bind fun layerStack _ => ?_
    refine .bind fun uuid _ => .bind fun props _ => .pure ?_
    exact .definition (by simpa using hgroup) (Row.flags_ok hflags) rfl rfl rfl

theorem loadVolumeDefinition_gains (g : Graph) (row : Row) :
    Ensures g.Gains (g.loadVolumeDefinition row) := by
  unfold loadVolumeDefinition
  refine .bind fun resource _ => .bind fun d hd => .bind fun number _ => .bind fun size _ => ?_
  refine .bind fun uuid _ => .bind fun props _ => ?_
  exact .pure (.volumeDefinition (definition_ok hd) _)

theorem loadPool_gains (g : Graph) (row : Row) : Ensures g.Gains (g.loadPool row) := by
  unfold loadPool
  refine .bind fun node _ => .bind fun _ hnode => .bind fun name _ => .bind fun provider _ => ?_
  refine .bind fun total _ => .bind fun uuid _ => .bind fun free _ => .bind fun props _ => ?_
  exact .pure (.pool (node_ok hnode))

theorem loadResource_gains (g : Graph) (row : Row) : Ensures g.Gains (g.loadResource row) := by
  unfold loadResource
  refine .bind fun node _ => .bind fun name _ => .bind fun _ hnode => .bind fun d hd => ?_
  refine .bind fun layerStack _ => .bind fun uuid _ => .bind fun flags hflags => ?_
  refine .bind fun props _ => .bind fun added hadded => .pure ?_
  have hok := Ensures.mapError (fun _ h => h) _ added hadded
  exact .resource (definition_ok hd) (node_ok hnode) (Row.flags_ok hflags) rfl hok

theorem loadVolume_gains (g : Graph) (row : Row) : Ensures g.Gains (g.loadVolume row) := by
  unfold loadVolume
  refine .bind fun node _ => .bind fun resource _ => .bind fun pool _ => ?_
  split
  next d hd =>
    dsimp only
    split
    · exact .throw_bind _ _
    next hpool =>
      split
      · exact .throw_bind _ _
      · refine .bind fun number _ => .bind fun sizeBytes _ => .bind fun uuid _ => ?_
        refine .bind fun props _ => .pure ?_
        have hknown : g.pools.contains (node, pool) = true := by simpa using hpool
        exact .volume (v := { uuid, number, pool, sizeBytes, props }) hd hknown
  next =>
    dsimp only
    split
    · exact .throw_bind _ _
    · exact .throw _

theorem loadSnapshot_gains (g : Graph) (row : Row) : Ensures g.Gains (g.loadSnapshot row) := by
  unfold loadSnapshot
  refine .bind fun node _ => .bind fun resource _ => .bind fun name _ => .bind fun _ hnode => ?_
  refine .bind fun d hd => .bind fun uuid _ => .bind fun flags hflags => ?_
  refine .bind fun layerStack _ => .pure ?_
  exact .snapshot (s := { uuid, name, resource, node, flags, layerStack }) (definition_ok hd)
    (node_ok hnode) (Row.flags_ok hflags)

/-- The ends of a connection are put in order. -/
theorem between_ensures {p : NodeName → Prop} {uuid : Uuid} {a b : NodeName} (ha : p a)
    (hb : p b) : Ensures (fun c => p c.source ∧ p c.target ∧ compare c.source c.target = .lt)
      (Connection.between uuid a b) := by
  intro c hc
  unfold Connection.between at hc
  split at hc
  next => cases hc
  next hlt =>
    cases hc
    exact ⟨ha, hb, hlt⟩
  next hgt =>
    cases hc
    exact ⟨hb, ha, Std.OrientedCmp.gt_iff_lt.1 hgt⟩

theorem loadConnection_gains (g : Graph) (row : Row) : Ensures g.Gains (g.loadConnection row) := by
  unfold loadConnection
  refine .bind fun source _ => .bind fun target _ => .bind fun _ hsource => ?_
  refine .bind fun _ htarget => .bind fun c hc => .bind fun uuid _ => .bind fun props _ => ?_
  obtain ⟨hsource, htarget, hordered⟩ := (between_ensures (p := (g.nodes.contains · = true))
    (node_ok hsource) (node_ok htarget)).mapError _ c hc
  exact .pure (.connection hsource htarget hordered)

theorem loadRow_gains (table : Table) (g : Graph) (row : Row) :
    Ensures g.Gains (loadRow table g row) := by
  cases table with
  | nodes => exact loadNode_gains g row
  | groups => exact loadGroup_gains g row
  | definitions => exact loadDefinition_gains g row
  | volumeDefinitions => exact loadVolumeDefinition_gains g row
  | pools => exact loadPool_gains g row
  | resources => exact loadResource_gains g row
  | volumes => exact loadVolume_gains g row
  | snapshots => exact loadSnapshot_gains g row
  | connections => exact loadConnection_gains g row

section Keeps

variable {p : Graph → Prop} (hp : ∀ g g', p g → Gains g g' → p g')
include hp

theorem loadTable_keeps (store : Store) (state : Graph × Summary) (table : Table)
    (h : p state.1) : Ensures (fun loaded => p loaded.1) (loadTable store state table) := by
  unfold loadTable
  refine .bind fun rows _ => .bind fun loaded hl => .pure ?_
  refine Ensures.foldlM (fun g e hg => ?_) rows.entries h loaded hl
  exact ((loadRow_gains table g e.2).imp fun g' hg' => hp g g' hg hg').mapError _

/-- What holds of the empty graph and is preserved by every row holds of all that is loaded. -/
theorem load_keeps (hempty : p {}) (store : Store) :
    Ensures (fun loaded => p loaded.1) (load store) :=
  .foldlM (fun state table h => loadTable_keeps hp store state table h) Table.all hempty

end Keeps

end Graph

end StorageCluster
