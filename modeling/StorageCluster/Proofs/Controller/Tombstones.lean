import StorageCluster.Proofs.Controller.Exits
import StorageCluster.Proofs.WellFiled

/-!
# Tombstones

Before replacements are placed, the resources of a definition on evicted nodes are marked deleted.
All others stay as they are.
-/
namespace StorageCluster

namespace Flags

variable {kind : FlagKind}

theorem contains_union (a b : Flags kind) : (a.union b).contains b = true := by
  have h : (a.bits ||| b.bits) &&& b.bits = b.bits := by
    apply UInt64.eq_of_toBitVec_eq
    ext i hi
    simp only [UInt64.toBitVec_and, UInt64.toBitVec_or, BitVec.getElem_and, BitVec.getElem_or]
    cases a.bits.toBitVec[i] <;> simp
  simp only [contains, union, h, BEq.rfl]

theorem union_of_contains {a b : Flags kind} (h : a.contains b = true) : a.union b = a := by
  have hb : a.bits &&& b.bits = b.bits := by simpa [contains] using h
  have ho : a.bits ||| b.bits = a.bits := by
    rw [← hb]
    apply UInt64.eq_of_toBitVec_eq
    ext i hi
    simp only [UInt64.toBitVec_and, UInt64.toBitVec_or, BitVec.getElem_and, BitVec.getElem_or]
    cases a.bits.toBitVec[i] <;> simp
  simp only [union, ho]

end Flags

namespace Resource

theorem isDeleted_markDeleted (r : Resource) : r.markDeleted.isDeleted = true :=
  Flags.contains_union r.flags ResourceFlags.delete

theorem markDeleted_of_isDeleted {r : Resource} (h : r.isDeleted = true) : r.markDeleted = r := by
  have hf : r.flags.union ResourceFlags.delete = r.flags := Flags.union_of_contains h
  simp only [markDeleted, hf]

theorem markDeleted_markDeleted (r : Resource) : r.markDeleted.markDeleted = r.markDeleted :=
  markDeleted_of_isDeleted r.isDeleted_markDeleted

end Resource

namespace Definition

/-- A resource on the node is one of those on evicted nodes. -/
def losesReplicaOn (d : Definition) (nodes : NodeMap) (node : NodeName) : Bool :=
  (d.evictedNodes nodes).any fun evicted => compare evicted node == .eq

theorem tombstone_definition (d : Definition) (changes : Transaction) (node : NodeName) :
    (tombstone (d, changes) node).1 = d.modifyResource node Resource.markDeleted := by
  have same (h : ∀ r, d.resource? node = some r → r.markDeleted = r) :
      d.modifyResource node Resource.markDeleted = d := by
    unfold modifyResource
    rw [SortedMap.modify_eq_self h]
  unfold tombstone
  dsimp only
  split
  next hn => rw [same (by simp [hn])]
  next r hr =>
    split
    next hd =>
      rw [same]
      intro r' hr'
      rw [hr] at hr'
      cases hr'
      exact Resource.markDeleted_of_isDeleted hd
    next => rfl

/-- Marks the resources on nodes of these names. -/
def marked (names : List NodeName) (node : NodeName) (r : Resource) : Resource :=
  if names.any (compare · node == .eq) then r.markDeleted else r

theorem marked_cons (name node : NodeName) (rest : List NodeName) (r : Resource) :
    marked rest node (if compare name node = .eq then r.markDeleted else r) =
      marked (name :: rest) node r := by
  by_cases h : compare name node = .eq
  · by_cases hr : rest.any (compare · node == .eq) = true <;>
      simp [marked, h, hr, Resource.markDeleted_markDeleted]
  · simp [marked, h]

theorem foldl_tombstone (names : List NodeName) (d : Definition) (changes : Transaction) :
    (names.foldl tombstone (d, changes)).1 =
      { d with resources := d.resources.map (marked names) } := by
  induction names generalizing d changes with
  | nil =>
    have h : d.resources.map (marked []) = d.resources := SortedMap.map_eq_self fun _ _ => rfl
    rw [List.foldl_nil, h]
  | cons name rest ih =>
    rw [List.foldl_cons, ← Prod.eta (tombstone (d, changes) name), ih, tombstone_definition]
    simp only [modifyResource, SortedMap.modify, SortedMap.map_map, marked_cons]

theorem tombstoned_definition (d : Definition) (nodes : NodeMap) :
    (d.tombstoned nodes).1 =
      { d with resources := d.resources.map (marked (d.evictedNodes nodes)) } :=
  foldl_tombstone (d.evictedNodes nodes) d []

theorem tombstoned_resource? (d : Definition) (nodes : NodeMap) (node : NodeName) :
    (d.tombstoned nodes).1.resource? node =
      (d.resource? node).map fun r =>
        if d.losesReplicaOn nodes node then r.markDeleted else r := by
  rw [tombstoned_definition]
  refine SortedMap.find?_map d.resources node _ _ ?_
  intro k r hk
  have hc (name : NodeName) : compare name k = compare name node :=
    (Std.TransCmp.congr_right hk).symm
  have ha : (d.evictedNodes nodes).any (compare · k == .eq) = d.losesReplicaOn nodes node := by
    simp only [losesReplicaOn, hc]
  rw [marked, ha]

theorem tombstoned_contains (d : Definition) (nodes : NodeMap) (node : NodeName) :
    (d.tombstoned nodes).1.resources.contains node = d.resources.contains node := by
  have h := d.tombstoned_resource? nodes node
  simp only [resource?] at h
  simp only [SortedMap.contains, h, Option.isSome_map]

/-- In a well-filed definition the replicas that are lost are those on evicted nodes. -/
theorem WellFiled.losesReplicaOn_eq {d : Definition} (h : d.WellFiled) {nodes : NodeMap}
    {node : NodeName} {r : Resource} (hr : d.resource? node = some r) :
    d.losesReplicaOn nodes node = (nodes.find? r.node).any Node.isEvicted := by
  have hn : compare node r.node = .eq := h.resources node r hr
  refine Bool.eq_iff_iff.2 ⟨?_, ?_⟩
  · intro hl
    obtain ⟨name, hm, hc⟩ := List.any_eq_true.1 hl
    obtain ⟨other, ho, rfl⟩ := List.mem_map.1 hm
    obtain ⟨hv, he⟩ := List.mem_filter.1 ho
    obtain ⟨key, hk⟩ := SortedMap.mem_values.1 hv
    -- both are filed under the same node, so they are one resource
    have hkn : compare key node = .eq :=
      Std.TransCmp.eq_trans (h.resources key other hk) (by simpa using hc)
    have hor : d.resources.find? node = some other := SortedMap.find?_congr hkn _ ▸ hk
    have hro : d.resources.find? node = some r := hr
    rw [hor] at hro
    cases hro
    exact he
  · intro he
    have hv : r ∈ d.resources.values := SortedMap.mem_values.2 ⟨node, hr⟩
    have hm : r.node ∈ d.evictedNodes nodes :=
      List.mem_map.2 ⟨r, List.mem_filter.2 ⟨hv, he⟩, rfl⟩
    have hc : compare r.node node = .eq := Std.OrientedCmp.eq_symm hn
    exact List.any_eq_true.2 ⟨r.node, hm, by simp [hc]⟩

theorem WellFiled.tombstoned {d : Definition} (h : d.WellFiled) (nodes : NodeMap) :
    (d.tombstoned nodes).1.WellFiled := by
  constructor
  · rw [tombstoned_definition]
    exact h.volumes
  · intro node r hr
    have ht := d.tombstoned_resource? nodes node
    rw [resource?, hr] at ht
    obtain ⟨old, ho, rfl⟩ := Option.map_eq_some_iff.1 ht.symm
    have hn : compare node old.node = .eq := h.resources node old ho
    split
    · exact hn
    · exact hn

end Definition

end StorageCluster
