import StorageCluster.Proofs.Controller.Growth
import StorageCluster.Proofs.Controller.Tombstones
import StorageCluster.Proofs.Flags

/-!
# Replicas before and after a replacement

Which resources count as replicas: tombstones never did, since they lie on evicted nodes; a new
diskful resource does, and a new diskless one does not.
-/
namespace StorageCluster

namespace Resource

variable {r : Resource} {nodes : NodeMap}

theorem countsAsReplica_of_isDeleted (h : r.isDeleted = true) :
    r.countsAsReplica nodes = false := by
  have hf : r.flags.intersects (ResourceFlags.delete.union ResourceFlags.tieBreaker) = true := by
    rw [Flags.intersects_union, Bool.or_eq_true]
    exact .inl ((Flags.intersects_eq_contains (i := 0) rfl r.flags).trans h)
  simp [countsAsReplica, hf]

theorem countsAsReplica_of_isEvicted (h : (nodes.find? r.node).any Node.isEvicted = true) :
    r.countsAsReplica nodes = false := by
  obtain ⟨n, hn, he⟩ := Option.any_eq_true _ _ |>.1 h
  simp [countsAsReplica, hn, he]

end Resource

/-- The replicas among some resources. -/
def replicaCount (nodes : NodeMap) (resources : List Resource) : Nat :=
  resources.countP (·.countsAsReplica nodes)

theorem Definition.current_eq (d : Definition) (group : Group) (nodes : NodeMap) (props : Props) :
    (d.countReplicas group nodes props).current = replicaCount nodes d.resources.values :=
  List.countP_eq_length_filter.symm

theorem minReplicaCount_le (containers : List Props) (placeCount : Nat) :
    minReplicaCount containers placeCount ≤ placeCount :=
  Nat.min_le_right _ _

theorem Definition.deficit_lt (d : Definition) (group : Group) (nodes : NodeMap) (props : Props) :
    (d.countReplicas group nodes props).deficit < UInt32.size := by
  have hm : (d.countReplicas group nodes props).minimum ≤ group.replicaCount :=
    minReplicaCount_le [d.props, group.props, props] group.replicaCount
  have hg : group.replicaCount < UInt32.size := UInt32.toNat_lt _
  unfold ReplicaCounts.deficit
  omega

namespace Definition

variable {d : Definition} {nodes : NodeMap}

theorem WellFiled.countsAsReplica_marked (h : d.WellFiled) {e : NodeName × Resource}
    (he : e ∈ d.resources.entries) :
    (marked (d.evictedNodes nodes) e.1 e.2).countsAsReplica nodes =
      e.2.countsAsReplica nodes := by
  have hr : d.resource? e.1 = some e.2 := SortedMap.find?_of_mem he
  have hm : marked (d.evictedNodes nodes) e.1 e.2 =
      if d.losesReplicaOn nodes e.1 then e.2.markDeleted else e.2 := rfl
  rw [hm]
  split
  next hl =>
    rw [h.losesReplicaOn_eq hr] at hl
    rw [Resource.countsAsReplica_of_isDeleted e.2.isDeleted_markDeleted,
      Resource.countsAsReplica_of_isEvicted hl]
  next => rfl

/-- Marking resources on evicted nodes deleted takes no replica away. -/
theorem WellFiled.replicaCount_tombstoned (h : d.WellFiled) :
    replicaCount nodes (d.tombstoned nodes).1.resources.values =
      replicaCount nodes d.resources.values := by
  rw [tombstoned_definition]
  simp only [replicaCount, SortedMap.values, SortedMap.map, List.countP_map]
  refine List.countP_congr fun e he => ?_
  simp only [Function.comp_apply, h.countsAsReplica_marked he]

theorem DiskfulIn.countsAsReplica {stack : List LayerKind} {pool : Pool} {r : Resource}
    (h : d.DiskfulIn stack nodes pool r) (hs : .drbd ∈ stack) (hn : nodes.Filed (·.name)) :
    r.countsAsReplica nodes = true := by
  obtain ⟨n, hp, he, hname⟩ := h.host
  have hfind : nodes.find? r.node = some n := by
    have hc : compare r.node pool.node = .eq := by
      rw [hname]
      exact Std.OrientedCmp.eq_symm (hn pool.node n hp)
    rw [SortedMap.find?_congr hc, hp]
  have hf : Flags.intersects .none (ResourceFlags.delete.union ResourceFlags.tieBreaker) =
      false := by decide
  have hd : Flags.intersects .none ResourceFlags.diskless = false := by decide
  simp [Resource.countsAsReplica, Resource.isDiskless, Resource.hasLayer, h.flags, h.layerStack,
    hf, hd, hs, hfind, he]

theorem DiskfulIn.isDeleted {stack : List LayerKind} {pool : Pool} {r : Resource}
    (h : d.DiskfulIn stack nodes pool r) : r.isDeleted = false := by
  rw [Resource.isDeleted, h.flags]
  decide

theorem DisklessOn.countsAsReplica {stack : List LayerKind} {n : Node} {r : Resource}
    (h : d.DisklessOn stack n r) : r.countsAsReplica nodes = false := by
  simp [Resource.countsAsReplica, h.isDiskless]

/-- Each new diskful resource is one more replica. -/
theorem Grows.replicaCount {grown : Definition} {diskful diskless : List Resource}
    (h : d.Grows (diskful ++ diskless) grown)
    (hf : ∀ r ∈ diskful, r.countsAsReplica nodes = true)
    (hl : ∀ r ∈ diskless, r.countsAsReplica nodes = false) :
    replicaCount nodes grown.resources.values =
      diskful.length + replicaCount nodes d.resources.values := by
  have hdiskful : diskful.countP (·.countsAsReplica nodes) = diskful.length :=
    List.countP_eq_length.2 hf
  have hdiskless : diskless.countP (·.countsAsReplica nodes) = 0 :=
    List.countP_eq_zero.2 fun r hr => by simp [hl r hr]
  have hp := h.values_perm.countP_eq (·.countsAsReplica nodes)
  simp only [StorageCluster.replicaCount, hp, List.countP_append, hdiskful, hdiskless]
  omega

end Definition

end StorageCluster
