import StorageCluster.Proofs.Controller.Deficit
import StorageCluster.Proofs.Controller.Selection

/-!
# Diskless resources on the remaining nodes

A creation may add a diskless resource on every remaining node that is connected and not evicted. A
search for pools also turns down nodes that are to be deleted or evacuated, so the two agree as long
as no remaining node is.
-/
namespace StorageCluster

/-- A node that held no resource of the definition and gets none of the requested pools. -/
structure CreationRequest.Leaves (request : CreationRequest) (d : Definition) (node : NodeName) :
    Prop where
  free : d.resources.contains node = false
  spared : ∀ pool ∈ request.pools, (pool.node == node) = false

theorem CreationRequest.Leaves.congr {request : CreationRequest} {d : Definition} {a b : NodeName}
    (h : request.Leaves d a) (hname : (a == b) = true) : request.Leaves d b := by
  constructor
  · rw [← SortedMap.contains_congr ((Name.beq_iff_compare _ _).1 hname)]
    exact h.free
  · intro pool hpool
    have hspared := h.spared pool hpool
    rw [← Bool.not_eq_true, Name.beq_iff] at hspared ⊢
    exact (Name.beq_iff _ _).1 hname ▸ hspared

/-- Resources lie on those of the remaining nodes that are allowed: one on each of them, and none
elsewhere. -/
structure Core.Fills (c : Core) (request : CreationRequest) (d : Definition)
    (allowed : Node → Bool) (rs : List Resource) : Prop where
  once : rs.Pairwise fun a b => (a.node == b.node) = false
  places : ∀ name, (∃ r ∈ rs, (r.node == name) = true) ↔ request.Leaves d name ∧
    ∃ n ∈ c.graph.nodes.values, (n.name == name) = true ∧ allowed n = true

/-- The nodes that a creation takes for diskless resources. -/
def Node.takesDiskless (n : Node) : Bool := n.isConnected && !n.isEvicted

/-- Whether a change creates the row of a resource. -/
def Change.storesResource : Change → Bool
  | .create .resources _ _ => true
  | _ => false

theorem Resource.filter_changes (r : Resource) :
    r.changes.filter Change.storesResource = [Change.ofNew r] := by
  refine (List.filter_cons_of_pos rfl).trans (congrArg _ (List.filter_eq_nil_iff.2 ?_))
  intro change hchange
  obtain ⟨v, -, rfl⟩ := List.mem_map.1 hchange
  exact Bool.false_ne_true

theorem Resource.filter_flatMap_changes (rs : List Resource) :
    (rs.flatMap Resource.changes).filter Change.storesResource = rs.map Change.ofNew := by
  rw [List.filter_flatMap]
  simp only [filter_changes, List.map_eq_flatMap]

/-- The new resource of a node is the one that its definition holds there. -/
theorem Definition.Grows.resource?_of_mem {d grown : Definition} {news : List Resource}
    (h : d.Grows news grown) {r : Resource} (hr : r ∈ news) : grown.resource? r.node = some r :=
  SortedMap.find?_of_mem (h.entries_perm.mem_iff.2
    (List.mem_append_left _ (List.mem_map.2 ⟨r, hr, rfl⟩)))

namespace Core

variable {c : Core} {request : CreationRequest} {d : Draft} {tasks : List Task}
  {created : List NodeName} {diskful diskless : List Resource}

namespace Created

/-- The diskful resources lie on the nodes of the pools. -/
theorem exists_diskful (h : c.Created request d tasks created diskful diskless)
    (hnodes : c.graph.nodes.Filed (·.name)) (name : NodeName) :
    (∃ r ∈ diskful, (r.node == name) = true) ↔
      ∃ pool ∈ request.pools, (pool.node == name) = true := by
  have hhost {pool : Pool} {r : Resource} (hr : d.definition.DiskfulIn
      (request.stackFor d.definition) c.graph.nodes pool r) : r.node.value = pool.node.value := by
    obtain ⟨n, hn, -, hnode⟩ := hr.host
    rw [hnode]
    exact ((Name.compare_eq_iff _ _).1 (hnodes _ _ hn)).symm
  simp only [Name.beq_iff]
  constructor
  · rintro ⟨r, hr, hname⟩
    obtain ⟨pool, hpool, hin⟩ := exists_of_forall₂ h.inPools hr
    exact ⟨pool, hpool, (hhost hin).symm.trans hname⟩
  · rintro ⟨pool, hpool, hname⟩
    obtain ⟨r, hr, hin⟩ := exists_of_forall₂ h.inPools.flip hpool
    exact ⟨r, hr, (hhost hin).trans hname⟩

theorem fills (h : c.Created request d tasks created diskful diskless)
    (hnodes : c.graph.nodes.Filed (·.name)) (hwanted : request.disklessOnRemaining = true) :
    c.Fills request d.definition Node.takesDiskless diskless := by
  obtain ⟨-, honce, hapart⟩ := List.pairwise_append.1 h.grows.apart
  refine ⟨honce.imp (Name.beq_eq_false_iff _ _).2, fun name => ⟨?_, ?_⟩⟩
  · rintro ⟨r, hr, hname⟩
    have hcompare := (Name.beq_iff_compare _ _).1 hname
    obtain ⟨-, n, hn, hon⟩ := h.onNodes r hr
    obtain ⟨hconnected, hevicted, hnode⟩ := hon.host
    refine ⟨⟨?_, fun pool hpool => ?_⟩, n, hn, by rw [← hnode, hname],
      by rw [Node.takesDiskless, hconnected, hevicted]; rfl⟩
    · rw [← SortedMap.contains_congr hcompare]
      exact h.grows.free (List.mem_append_right _ hr)
    · -- the diskful resource of the pool would lie on the same node
      rw [← Bool.not_eq_true]
      intro hpicked
      obtain ⟨other, ho, hother⟩ := (h.exists_diskful hnodes name).2 ⟨pool, hpool, hpicked⟩
      rw [Name.beq_iff] at hother hname
      exact hapart other ho r hr ((Name.compare_eq_iff _ _).2 (hother.trans hname.symm))
  · rintro ⟨hleaves, n, hn, hname, hallowed⟩
    rw [Node.takesDiskless, Bool.and_eq_true, Bool.not_eq_true'] at hallowed
    have hcompare := (Name.beq_iff_compare _ _).1 hname
    have hcovered := h.covers hwanted n hn hallowed.1 hallowed.2
    rw [SortedMap.contains_congr hcompare, h.grows.contains_iff, hleaves.free] at hcovered
    obtain ⟨r, hr, hnode⟩ := hcovered.resolve_left Bool.false_ne_true
    rcases List.mem_append.1 hr with hr | hr
    · obtain ⟨pool, hpool, hpicked⟩ := (h.exists_diskful hnodes name).1 ⟨r, hr, hnode⟩
      rw [hleaves.spared pool hpool] at hpicked
      cases hpicked
    · exact ⟨r, hr, hnode⟩

end Created

/-- What the search for pools asks of a node, the creation asks of it too; it does not ask the other
way round whether a node is to be deleted or evacuated. -/
theorem takesDiskless_of_allowsNode {n : Node} (h : ({} : Filter).allowsNode n = true) :
    n.takesDiskless = true := by
  obtain ⟨hconnected, hevicted, -⟩ := (Filter.allowsNode_iff _ n).1 h
  rw [Node.takesDiskless, hconnected, Bool.true_and, Bool.not_eq_true']
  exact hevicted

/-- Diskless resources lie just on the eligible ones of the remaining nodes when none of those nodes
is to be deleted or evacuated. -/
theorem Fills.eligible_iff {d : Definition} {rs : List Resource}
    (hnodes : c.graph.nodes.Filed (·.name)) (h : c.Fills request d Node.takesDiskless rs) :
    c.Fills request d ({} : Filter).allowsNode rs ↔
      ∀ n ∈ c.graph.nodes.values, n.takesDiskless = true → request.Leaves d n.name →
        n.flags.contains NodeFlags.delete = false ∧
          n.flags.contains NodeFlags.evacuate = false := by
  constructor
  · intro heligible n hn htakes hleaves
    have hfilled := (h.places n.name).2 ⟨hleaves, n, hn, Name.beq_self _, htakes⟩
    obtain ⟨-, other, ho, hname, hallowed⟩ := (heligible.places n.name).1 hfilled
    obtain rfl := hnodes.eq_of_mem ho hn ((Name.beq_iff_compare _ _).1 hname)
    obtain ⟨-, -, hdelete, hevacuate, -⟩ := (Filter.allowsNode_iff _ _).1 hallowed
    exact ⟨hdelete, hevacuate⟩
  · intro hstay
    refine ⟨h.once, fun name => (h.places name).trans (and_congr_right fun hleaves => ?_)⟩
    refine exists_congr fun n => and_congr_right fun hn => and_congr_right fun hname => ?_
    refine ⟨fun htakes => ?_, takesDiskless_of_allowsNode⟩
    have hsame : (name == n.name) = true := by rw [Name.beq_comm, hname]
    obtain ⟨hdelete, hevacuate⟩ := hstay n hn htakes (hleaves.congr hsame)
    rw [Node.takesDiskless, Bool.and_eq_true, Bool.not_eq_true'] at htakes
    exact (Filter.allowsNode_iff _ n).2 ⟨htakes.1, htakes.2, hdelete, hevacuate, .inl rfl⟩

/-- A creation that is asked for it adds a diskless resource without volumes on each remaining node
that is connected and not evicted, and leaves the old resources as they are. The nodes that it
returns, its entries and its transaction list the new resources in one order. Those nodes are the
eligible ones just when none of them is to be deleted or evacuated. -/
theorem createResources_fills_remaining (hnodes : c.graph.nodes.Filed (·.name))
    (hwanted : request.disklessOnRemaining = true)
    (h : (c.createResources request d).result = .ok (tasks, created)) :
    let after := (c.createResources request d).draft
    ∃ diskful diskless,
      request.pools.Forall₂
        (d.definition.DiskfulIn (request.stackFor d.definition) c.graph.nodes) diskful ∧
      (∀ r ∈ diskless, r.name = d.definition.name ∧ r.flags = ResourceFlags.drbdDiskless ∧
        r.volumes = .empty ∧ after.definition.resource? r.node = some r) ∧
      c.Fills request d.definition Node.takesDiskless diskless ∧
      (c.Fills request d.definition ({} : Filter).allowsNode diskless ↔
        ∀ n ∈ c.graph.nodes.values, n.takesDiskless = true → request.Leaves d.definition n.name →
          n.flags.contains NodeFlags.delete = false ∧
            n.flags.contains NodeFlags.evacuate = false) ∧
      after.definition.resources.values.Perm
        (diskful ++ diskless ++ d.definition.resources.values) ∧
      (∀ node, d.definition.resources.contains node = true →
        after.definition.resource? node = d.definition.resource? node) ∧
      after.definition = { d.definition with resources := after.definition.resources } ∧
      created = (diskful ++ diskless).map (·.node) ∧
      after.responses = d.responses ++ (diskful ++ diskless).map request.context.announce ∧
      ∃ changes, after.transaction = d.transaction ++ changes ∧
        changes.filter Change.storesResource = (diskful ++ diskless).map Change.ofNew := by
  intro after
  obtain ⟨diskful, diskless, hcreated⟩ := createResources_ok h
  have hfills := hcreated.fills hnodes hwanted
  refine ⟨diskful, diskless, hcreated.inPools, fun r hr => ?_, hfills, hfills.eligible_iff hnodes,
    hcreated.grows.values_perm, fun node => hcreated.grows.resource?_of_contains,
    hcreated.grows.frame, hcreated.nodes, hcreated.reports, _, hcreated.stores,
    Resource.filter_flatMap_changes _⟩
  obtain ⟨-, n, -, hon⟩ := hcreated.onNodes r hr
  exact ⟨hon.name, hon.flags, hon.volumes,
    hcreated.grows.resource?_of_mem (List.mem_append_right _ hr)⟩

end Core

namespace Sample

/-- `r0` is not deployed yet, and `bravo` carries some flags. -/
def preparing (flags : NodeFlags) : Core := ((core []).updateNodeFlags bravo flags .none).1

/-- A pool on `charlie`, and diskless resources wherever they can be. -/
def everywhere : CreationRequest where
  context := { operation := .create, objectMask := Code.resource }
  pools := [.new default pool1 charlie .lvm 16]
  disklessOnRemaining := true
  layerStack := [.drbd]

def blank : Draft := { definition := definition [], uuids := ⟨0⟩ }

theorem preparing_filed (flags : NodeFlags) : (preparing flags).graph.nodes.Filed (·.name) :=
  (Core.updateNodeFlags_wellFiled (core_wellFiled []) bravo flags .none).nodes

end Sample

open Sample in
/-- `alpha` is evicted, `charlie` has the pool, and `bravo` gets the diskless resource. -/
theorem createResources_fills_bravo :
    let c := preparing .none
    ∃ tasks created, (c.createResources everywhere blank).result = .ok (tasks, created) ∧
      created = [charlie, bravo] ∧ ∃ diskless,
        diskless.map (·.node) = [bravo] ∧
        c.Fills everywhere blank.definition ({} : Filter).allowsNode diskless ∧
        (c.createResources everywhere blank).draft.responses.map (·.message) =
          ["Resource 'r0' successfully autoplaced on node 'charlie'",
            "Diskless resource 'r0' created on node 'bravo'"] := by
  intro c
  have hok : (c.createResources everywhere blank).result.toOption.map Prod.snd =
      some [charlie, bravo] := by decide +kernel
  cases hresult : (c.createResources everywhere blank).result with
  | error fault =>
    rw [hresult] at hok
    cases hok
  | ok done =>
    obtain ⟨tasks, created⟩ := done
    rw [hresult] at hok
    obtain rfl : created = [charlie, bravo] := Option.some.inj hok
    obtain ⟨diskful, diskless, hin, -, -, heligible, -, -, -, hcreated, -⟩ :=
      Core.createResources_fills_remaining (preparing_filed .none) rfl hresult
    have hstay : ∀ n ∈ c.graph.nodes.values, n.flags.contains NodeFlags.delete = false ∧
        n.flags.contains NodeFlags.evacuate = false := by decide +kernel
    refine ⟨tasks, _, rfl, rfl, diskless, ?_, heligible.2 fun n hn _ _ => hstay n hn,
      by decide +kernel⟩
    have hone : diskful.length = 1 := hin.length_eq.symm
    have hdrop := congrArg (List.drop 1) hcreated
    rw [List.map_append, List.drop_left' (by rw [List.length_map, hone])] at hdrop
    exact hdrop.symm

open Sample in
/-- `bravo` is to be evacuated, and a search for pools would turn it down. -/
theorem createResources_fills_evacuated :
    let c := preparing NodeFlags.evacuate
    let after := (c.createResources everywhere blank).draft.definition
    everywhere.disklessOnRemaining = true ∧
      (c.createResources everywhere blank).result.isOk = true ∧
      ∃ r ∈ after.resource? bravo, r.flags = ResourceFlags.drbdDiskless ∧
        blank.definition.resources.contains bravo = false ∧
        ∃ n ∈ c.graph.nodes.find? bravo, ({} : Filter).allowsNode n = false := by
  decide +kernel

end StorageCluster
