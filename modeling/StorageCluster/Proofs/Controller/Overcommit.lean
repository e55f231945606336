import Mathlib.Algebra.GroupWithZero.Nat
import StorageCluster.Proofs.Controller.Cycles
import StorageCluster.Proofs.Controller.Planning
import StorageCluster.Proofs.Controller.Policy
import StorageCluster.Proofs.Name

/-!
# Shares of a pool

A cycle places definition by definition, always by the free space that the pools have at its start.
What a definition gets of a pool fits in there, but nobody keeps account of what the others get.
-/
namespace StorageCluster

theorem toNat_foldl_add (xs : List UInt64) (start : UInt64)
    (h : start.toNat + (xs.map UInt64.toNat).sum < UInt64.size) :
    (xs.foldl (· + ·) start).toNat = start.toNat + (xs.map UInt64.toNat).sum := by
  induction xs generalizing start with
  | nil => rfl
  | cons x rest ih =>
    rw [List.map_cons, List.sum_cons] at h ⊢
    have hstep : (start + x).toNat = start.toNat + x.toNat := by
      rw [UInt64.toNat_add]
      exact Nat.mod_eq_of_lt (by change _ < UInt64.size; omega)
    rw [List.foldl_cons, ih (start + x) (by omega), hstep, Nat.add_assoc]

/-- All values are at most the bound, and some of them are zero. -/
theorem sum_le_nonzero_mul {xs : List Nat} {bound : Nat} (h : ∀ x ∈ xs, x ≤ bound) :
    xs.sum ≤ (xs.filter (· != 0)).length * bound := by
  induction xs with
  | nil => simp
  | cons x rest ih =>
    obtain ⟨hx, hrest⟩ := List.forall_mem_cons.1 h
    have hle := ih hrest
    by_cases hzero : x = 0
    · simpa [hzero] using hle
    · rw [List.sum_cons, List.filter_cons_of_pos (by simpa using hzero), List.length_cons,
        Nat.succ_mul]
      omega

/-- Of resources on different nodes a node holds at most one. -/
theorem sum_on_node_le {rs : List Resource}
    (hapart : rs.Pairwise fun a b => compare a.node b.node ≠ .eq) {node : NodeName}
    {f : Resource → Nat} {bound : Nat}
    (h : ∀ r ∈ rs, compare r.node node = .eq → f r ≤ bound) :
    ((rs.filter fun r => compare r.node node == .eq).map f).sum ≤ bound := by
  induction rs with
  | nil => exact Nat.zero_le _
  | cons r rest ih =>
    obtain ⟨hr, hrest⟩ := List.pairwise_cons.1 hapart
    obtain ⟨hle, hles⟩ := List.forall_mem_cons.1 h
    by_cases hnode : compare r.node node = .eq
    · have hnone : rest.filter (fun r => compare r.node node == .eq) = [] := by
        refine List.filter_eq_nil_iff.2 fun other hother => ?_
        have hne := hr other hother
        rw [beq_iff_eq]
        exact fun hsame => hne (Std.TransCmp.eq_trans hnode (Std.OrientedCmp.eq_symm hsame))
      rw [List.filter_cons_of_pos (by rw [hnode]; rfl), hnone]
      exact hle hnode
    · rw [List.filter_cons_of_neg (by simpa using hnode)]
      exact ih hrest hles

/-- The bytes that a resource takes in a pool of its node. -/
def Resource.bytesIn (r : Resource) (pool : PoolName) : Nat :=
  ((r.volumes.values.filter fun v => compare v.pool pool == .eq).map (·.sizeBytes.toNat)).sum

namespace Definition

/-- The bytes of all volumes together, however many that are. -/
def bytes (d : Definition) : Nat := (d.volumes.values.map (·.sizeBytes.toNat)).sum

/-- The bytes that the resources that joined a definition take in a pool. -/
def placedBytes (before after : Definition) (pool : Pool) : Nat :=
  (((before.newcomers after).filter fun r => compare r.node pool.node == .eq).map
    (·.bytesIn pool.name)).sum

/-- What a definition gets of each pool fits into the free space, if its size is no more than 64
bits can tell. -/
def FitsFree (before after : Definition) (pools : List Pool) : Prop :=
  before.bytes < UInt64.size →
    ∀ pool ∈ pools, before.placedBytes after pool ≤ pool.freeBytes.toNat

theorem totalSize_toNat {d : Definition} (h : d.bytes < UInt64.size) :
    d.totalSize.toNat = d.bytes := by
  have hmap : (d.volumes.values.map (·.sizeBytes)).map UInt64.toNat =
      d.volumes.values.map (·.sizeBytes.toNat) := List.map_map
  have hsum := toNat_foldl_add (d.volumes.values.map (·.sizeBytes)) 0
    (by rw [hmap, UInt64.toNat_zero, Nat.zero_add]; exact h)
  rw [hmap, UInt64.toNat_zero, Nat.zero_add] at hsum
  exact hsum

theorem newcomers_self (d : Definition) : d.newcomers d = [] := by
  have hnone : d.resources.entries.filter (fun e => !d.resources.contains e.1) = [] := by
    refine List.filter_eq_nil_iff.2 fun e he => ?_
    have hfind : d.resources.find? e.1 = some e.2 := SortedMap.find?_of_mem he
    simp [SortedMap.contains_of_find? hfind]
  simp [newcomers, SortedMap.filter, SortedMap.values, hnone]

theorem FitsFree.refl (d : Definition) (pools : List Pool) : d.FitsFree d pools := by
  intro _ pool _
  rw [placedBytes, newcomers_self]
  exact Nat.zero_le _

end Definition

namespace Resource.Fills

variable {r : Resource} {d : Definition} {pool other : PoolName}

theorem values_eq (h : r.Fills d pool) :
    r.volumes.values.map (fun v => (v.number, v.pool, v.sizeBytes)) =
      d.volumes.values.map fun v => (v.number, pool, v.sizeBytes) := by
  have hmaps : r.volumes.map (fun _ v => (v.number, v.pool, v.sizeBytes)) =
      d.volumes.map fun _ v => (v.number, pool, v.sizeBytes) := by
    refine SortedMap.eq_of_find?_of_lawful fun number => ?_
    rw [SortedMap.find?_map_values, SortedMap.find?_map_values]
    exact h number
  have hvalues := congrArg SortedMap.values hmaps
  simpa [SortedMap.map, SortedMap.values, Function.comp_def] using hvalues

theorem pool_eq (h : r.Fills d pool) {v : Volume} (hv : v ∈ r.volumes.values) : v.pool = pool := by
  have hmem : (v.number, v.pool, v.sizeBytes) ∈
      d.volumes.values.map fun v => (v.number, pool, v.sizeBytes) := by
    rw [← h.values_eq]
    exact List.mem_map_of_mem hv
  obtain ⟨_, _, he⟩ := List.mem_map.1 hmem
  exact ((Prod.ext_iff.1 (Prod.ext_iff.1 he).2).1).symm

theorem bytesIn_self (h : r.Fills d pool) (hsame : compare pool other = .eq) :
    r.bytesIn other = d.bytes := by
  have hall : (r.volumes.values.filter fun v => compare v.pool other == .eq) =
      r.volumes.values := by
    refine List.filter_eq_self.2 fun v hv => ?_
    rw [h.pool_eq hv, hsame]
    rfl
  have hsizes := congrArg (List.map fun v => v.2.2.toNat) h.values_eq
  rw [List.map_map, List.map_map] at hsizes
  rw [Resource.bytesIn, hall]
  exact congrArg List.sum hsizes

theorem bytesIn_other (h : r.Fills d pool) (hne : compare pool other ≠ .eq) :
    r.bytesIn other = 0 := by
  have hnone : (r.volumes.values.filter fun v => compare v.pool other == .eq) = [] := by
    refine List.filter_eq_nil_iff.2 fun v hv => ?_
    rw [h.pool_eq hv]
    simpa using hne
  rw [Resource.bytesIn, hnone]
  rfl

end Resource.Fills

/-- What the definitions of a graph got in a pool until they were as in another graph. -/
def Graph.placedBytes (g g' : Graph) (pool : Pool) : List Nat :=
  g.definitions.entries.map fun e =>
    (g'.definitions.find? e.1).elim 0 fun after => e.2.placedBytes after pool

/-- Pools that lie on the same node under the same name are the same. -/
theorem Graph.WellFiled.pool_unique {g : Graph} (hw : g.WellFiled) {p q : Pool}
    (hp : p ∈ g.pools.values) (hq : q ∈ g.pools.values) (hnode : compare p.node q.node = .eq)
    (hname : compare p.name q.name = .eq) : p = q := by
  refine hw.pools.eq_of_mem hp hq ?_
  exact (pair_compare_eq_iff (p.node, p.name) (q.node, q.name)).2 ⟨hnode, hname⟩

namespace Controller

variable {σ : Type} {team : Collaborators σ} {engine : PatternEngine} {c : Controller σ}
  {context : ManageContext} {name : ResourceName} {names : List ResourceName}

namespace Search

variable {responses : Report} {tasks : List Task} {created : List NodeName}
  {diskful diskless : List Resource} {after : Definition}

theorem bytesIn_le (hteam : team.BuiltIn engine) (hw : c.core.graph.WellFiled)
    (s : Search team c name)
    (h : c.core.Created s.request (s.draft responses) tasks created diskful diskless)
    (ha : after = (c.core.createResources s.request (s.draft responses)).draft.definition)
    (hsmall : s.definition.bytes < UInt64.size) {pool : Pool}
    (hpool : pool ∈ c.core.graph.pools.values) {r : Resource}
    (hr : r ∈ s.definition.newcomers after) (hnode : compare r.node pool.node = .eq) :
    r.bytesIn pool.name ≤ pool.freeBytes.toNat := by
  rcases List.mem_append.1 ((s.newcomers_perm h ha).mem_iff.1 hr) with hd | hd
  · obtain ⟨found, hfound, hsame, hfills⟩ :=
      s.fills_of_mem_replacements hw h ha ((s.replacements_perm h ha).mem_iff.2 hd)
    by_cases hname : compare found.name pool.name = .eq
    · have hsuits := (s.pools_suit hteam).2 found hfound
      obtain rfl : found = pool :=
        hw.pool_unique hsuits.known hpool (Std.TransCmp.eq_trans hsame hnode) hname
      have hfree : (s.definition.tombstoned c.core.graph.nodes).1.totalSize ≤ found.freeBytes := by
        have hallows := hsuits.pool
        simp only [Filter.allowsPool, Bool.and_eq_true, decide_eq_true_eq] at hallows
        exact hallows.1.1.2
      rw [Definition.tombstoned_definition] at hfree
      rw [hfills.bytesIn_self hname, ← Definition.totalSize_toNat hsmall]
      exact hfree
    · rw [hfills.bytesIn_other hname]
      exact Nat.zero_le _
  · obtain ⟨_, n, _, hon⟩ := h.onNodes r hd
    rw [Resource.bytesIn, hon.volumes]
    exact Nat.zero_le _

theorem fitsFree (hteam : team.BuiltIn engine) (hw : c.core.graph.WellFiled)
    (s : Search team c name)
    (h : c.core.Created s.request (s.draft responses) tasks created diskful diskless)
    (ha : after = (c.core.createResources s.request (s.draft responses)).draft.definition) :
    s.definition.FitsFree after c.core.graph.pools.values := by
  intro hsmall pool hpool
  refine sum_on_node_le (s.replenished hteam hw h ha).apart fun r hr hnode => ?_
  exact s.bytesIn_le hteam hw h ha hsmall hpool hr hnode

end Search

/-- When a definition is managed, what it gets of a pool fits in there. -/
theorem manage_fitsFree (context : ManageContext) (hteam : team.BuiltIn engine)
    (hw : c.core.graph.WellFiled) {before : Definition}
    (hd : c.core.graph.definitions.find? context.name = some before) :
    ∃ after, (manage team c context).controller.core.graph.definitions.find? context.name =
        some after ∧ before.FitsFree after c.core.graph.pools.values := by
  by_cases hs : (manage team c context).outcome = .ok .scheduled
  · obtain ⟨s, after, tasks, created, diskful, diskless, ha, hcreated, _, hgraph⟩ :=
      manage_grows hteam.create hs
    have hw' : (c.diskfulAgain context.name).core.graph.WellFiled := hw
    obtain rfl : s.definition = before := Option.some.inj (s.found.symm.trans hd)
    refine ⟨after, ?_, s.fitsFree hteam hw' hcreated ha⟩
    rw [hgraph]
    exact SortedMap.find?_insert_self ..
  · rw [((manage_exit team c context).untouched hs).graph]
    exact ⟨before, hd, .refl before _⟩

theorem manage_pools (hteam : team.BuiltIn engine) (c : Controller σ) (context : ManageContext) :
    (manage team c context).controller.core.graph.pools = c.core.graph.pools := by
  by_cases hs : (manage team c context).outcome = .ok .scheduled
  · obtain ⟨_, _, _, _, _, _, _, _, _, hgraph⟩ := manage_grows hteam.create hs
    rw [hgraph]
  · rw [((manage_exit team c context).untouched hs).graph]

theorem planned_pools (hteam : team.BuiltIn engine) (c : Controller σ) (names : List ResourceName) :
    (planned team c names).1.core.graph.pools = c.core.graph.pools :=
  planned_keeps (P := fun core => core.graph.pools = c.core.graph.pools)
    (fun _ _ h => (manage_pools hteam _ _).trans h) names rfl

/-- Definitions that were managed before use up nothing for those that follow. -/
theorem planned_fitsFree (hteam : team.BuiltIn engine) (hw : c.core.graph.WellFiled)
    (hapart : names.Pairwise fun a b => compare a b ≠ .eq) {before : Definition}
    (hd : c.core.graph.definitions.find? name = some before) :
    ∃ after, (planned team c names).1.core.graph.definitions.find? name = some after ∧
      before.FitsFree after c.core.graph.pools.values := by
  induction names using List.reverseRecOn with
  | nil => exact ⟨before, hd, .refl before _⟩
  | append_singleton names other ih =>
    obtain ⟨hnames, hfresh⟩ := apart_concat hapart
    rw [(planned_concat team c names other).1]
    by_cases hname : compare name other = .eq
    · obtain ⟨hsame, _⟩ := planned_elsewhere team c hfresh
      have hfound : c.core.graph.definitions.find? other = some before :=
        (SortedMap.find?_congr hname _).symm.trans hd
      have hwell : (planned team c names).1.core.graph.WellFiled :=
        planned_keeps (P := fun core => core.graph.WellFiled)
          (fun _ _ h => manage_wellFiled hteam h) names hw
      obtain ⟨after, hafter, hfits⟩ :=
        manage_fitsFree { name := other } hteam hwell (hsame.definition.trans hfound)
      rw [planned_pools hteam] at hfits
      refine ⟨after, ?_, hfits⟩
      rw [SortedMap.find?_congr hname]
      exact hafter
    · obtain ⟨after, hafter, hfits⟩ := ih hnames
      have hsame : Core.SameFor name (planned team c names).1.core
          (manage team (planned team c names).1 { name := other }).controller.core :=
        manage_sameFor team _ hname
      exact ⟨after, hsame.definition.trans hafter, hfits⟩

theorem runCycle_core (team : Collaborators σ) (c : Controller σ) :
    (runCycle team [manage team] c).1.core =
      (planned team c c.core.graph.definitions.keys).1.core :=
  runConvoy_core ..

/-- What a cycle places in a pool for one definition fits into the free space, as long as the size
of the definition is no more than 64 bits can tell. The free space is not touched, so all together
the definitions may take as many times the free space as there are definitions that got
something. -/
theorem runCycle_shares_pools (hteam : team.BuiltIn engine) (hw : c.core.graph.WellFiled) :
    let g := c.core.graph
    let g' := (runCycle team [manage team] c).1.core.graph
    g'.pools = g.pools ∧
      (∀ name before, g.definitions.find? name = some before →
        ∃ after, g'.definitions.find? name = some after ∧
          (before.bytes < UInt64.size → ∀ pool ∈ g.pools.values,
            before.placedBytes after pool ≤ pool.freeBytes.toNat)) ∧
      ((∀ d ∈ g.definitions.values, d.bytes < UInt64.size) → ∀ pool ∈ g.pools.values,
        (g.placedBytes g' pool).sum ≤
          ((g.placedBytes g' pool).filter (· != 0)).length * pool.freeBytes.toNat) := by
  intro g g'
  have hcore : g' = (planned team c g.definitions.keys).1.core.graph :=
    congrArg Core.graph (runCycle_core team c)
  have hfits (name : ResourceName) (before : Definition)
      (hd : g.definitions.find? name = some before) :
      ∃ after, g'.definitions.find? name = some after ∧
        before.FitsFree after g.pools.values := by
    rw [hcore]
    exact planned_fitsFree hteam hw g.definitions.keys_pairwise hd
  refine ⟨hcore ▸ planned_pools hteam c _, hfits, fun hsmall pool hpool => ?_⟩
  refine sum_le_nonzero_mul fun bytes hbytes => ?_
  obtain ⟨e, he, rfl⟩ := List.mem_map.1 hbytes
  obtain ⟨after, hafter, hle⟩ := hfits e.1 e.2 (SortedMap.find?_of_mem he)
  rw [hafter]
  exact hle (hsmall e.2 (List.mem_map_of_mem he)) pool hpool

end Controller

namespace Sample

def r1 : ResourceName := ⟨"r1", by decide⟩

/-- Both definitions lack a replica, and the pool has room for one of them. -/
def overdrawn : Controller Unit :=
  controllerWith [replicated r0 [.drbd, .storage] 10 [alpha, charlie],
    replicated r1 [.drbd, .storage] 10 [alpha, charlie]] { placeCount := some 2 }

theorem overdrawn_wellFiled : overdrawn.core.graph.WellFiled :=
  coreWith_wellFiled _ (by simp [replicated_wellFiled])

end Sample

open Sample in
theorem runCycle_shares_pool1 :
    let g := overdrawn.core.graph
    let g' := (Controller.runCycle team [Controller.manage team] overdrawn).1.core.graph
    g'.pools = g.pools ∧
      (∀ name before, g.definitions.find? name = some before →
        ∃ after, g'.definitions.find? name = some after ∧
          (before.bytes < UInt64.size → ∀ pool ∈ g.pools.values,
            before.placedBytes after pool ≤ pool.freeBytes.toNat)) ∧
      ∀ pool ∈ g.pools.values, (g.placedBytes g' pool).sum ≤
        ((g.placedBytes g' pool).filter (· != 0)).length * pool.freeBytes.toNat := by
  have hsmall : ∀ d ∈ overdrawn.core.graph.definitions.values, d.bytes < UInt64.size := by
    decide +kernel
  have hteam : team.BuiltIn initials := ⟨rfl, rfl⟩
  obtain ⟨hpools, hfits, htotal⟩ := Controller.runCycle_shares_pools hteam overdrawn_wellFiled
  exact ⟨hpools, hfits, htotal hsmall⟩

open Sample in
/-- `r0` and `r1` both get ten bytes in a pool that has sixteen. -/
theorem runCycle_overcommits_pool1 :
    let g := overdrawn.core.graph
    let g' := (Controller.runCycle team [Controller.manage team] overdrawn).1.core.graph
    ∃ pool ∈ g.pools.values, pool.freeBytes.toNat < (g.placedBytes g' pool).sum := by
  decide +kernel

end StorageCluster
