import Mathlib.Algebra.GroupWithZero.Nat
import StorageCluster.Proofs.Name
import StorageCluster.Proofs.Satellite.Orderly

/-!
# Capacity is conserved

Recorded volumes and free space make up the capacity of every pool, after any calls on the storage
layer and in the middle of its loops. So no volume is larger than the free space that it is taken
from, and what a volume gives back always fits: the cap on free space never takes effect.
-/
namespace StorageCluster

namespace StorageState

/-- What a recorded volume takes of a pool. -/
def share (pool : PoolName) (v : PoolName × Nat) : Nat := if v.1 == pool then v.2 else 0

/-- The bytes that recorded volumes take of a pool. -/
def used (s : StorageState) (pool : PoolName) : Nat := (s.volumes.values.map (share pool)).sum

/-- Free and used space make up each pool, and all volumes lie in pools that exist. -/
structure Conserved (s : StorageState) : Prop where
  balance : ∀ pool space, s.pools.find? pool = some space →
    space.free + s.used pool = space.total
  housed : ∀ v ∈ s.volumes.values, s.pools.contains v.1 = true
  bounded : ∀ space ∈ s.pools.values, space.total < UInt64.size

/-- Delete one volume: the step of `release`. -/
def surrender (s : StorageState) (e : (ResourceName × UInt32) × (PoolName × Nat)) :
    StorageState :=
  { s with
    volumes := s.volumes.erase e.1
    pools := s.pools.modify e.2.1 (PoolSpace.giveBack e.2.2) }

variable {s s' : StorageState} {name : ResourceName} {v : Volume}

theorem share_self {pool : PoolName} {v : PoolName × Nat} (h : compare pool v.1 = .eq) :
    share pool v = v.2 := by
  have hsame : (v.1 == pool) = true := by
    rw [Name.beq_comm]
    exact (Name.beq_iff_compare _ _).2 h
  rw [share, if_pos hsame]

theorem share_other {pool : PoolName} {v : PoolName × Nat} (h : compare pool v.1 ≠ .eq) :
    share pool v = 0 := by
  have hother : (v.1 == pool) = false :=
    (Name.beq_eq_false_iff _ _).2 fun he => h (Std.OrientedCmp.eq_symm he)
  simp [share, hother]

theorem used_of_perm {pool : PoolName} {v : PoolName × Nat} {rest : List (PoolName × Nat)}
    (h : s.volumes.values.Perm (v :: rest)) :
    s.used pool = share pool v + (rest.map (share pool)).sum := by
  rw [used, (h.map (share pool)).sum_nat, List.map_cons, List.sum_cons]

namespace Conserved

theorem ofCapacities (capacities : List (PoolName × UInt64)) :
    Conserved (.ofCapacities (capacities.map fun p => (p.1, p.2.toNat))) := by
  have hpools : ∀ space ∈ (StorageState.ofCapacities
      (capacities.map fun p => (p.1, p.2.toNat))).pools.values,
      space.free = space.total ∧ space.total < UInt64.size := by
    refine SortedMap.forall_ofList fun e he => ?_
    simp only [List.map_map, List.mem_map] at he
    obtain ⟨p, _, rfl⟩ := he
    exact ⟨rfl, p.2.toNat_lt⟩
  constructor
  case balance =>
    intro pool space h
    exact (hpools space (SortedMap.mem_values.2 ⟨pool, h⟩)).1
  case housed =>
    intro v hv
    cases hv
  case bounded => exact fun space hspace => (hpools space hspace).2

/-- A recorded volume fits into the space that its pool does not have free. -/
theorem fits (h : s.Conserved) {e : (ResourceName × UInt32) × (PoolName × Nat)}
    (he : e ∈ s.volumes.entries) :
    ∃ space, s.pools.find? e.2.1 = some space ∧ space.free + e.2.2 ≤ space.total ∧
      space.total < UInt64.size := by
  have hfind : s.volumes.find? e.1 = some e.2 := SortedMap.find?_of_mem he
  have hhoused := h.housed e.2 (SortedMap.mem_values.2 ⟨e.1, hfind⟩)
  obtain ⟨space, hspace⟩ := Option.isSome_iff_exists.1 hhoused
  have hbalance := h.balance _ space hspace
  have hused : s.used e.2.1 = share e.2.1 e.2 + ((s.volumes.erase e.1).values.map
      (share e.2.1)).sum := used_of_perm (SortedMap.values_erase_perm hfind)
  rw [share_self Std.ReflCmp.compare_self] at hused
  refine ⟨space, hspace, ?_, h.bounded space (SortedMap.mem_values.2 ⟨_, hspace⟩)⟩
  omega

/-- The cap of a pool does not matter for a recorded volume. -/
theorem giveBack_eq (h : s.Conserved) {e : (ResourceName × UInt32) × (PoolName × Nat)}
    (he : e ∈ s.volumes.entries) {space : PoolSpace} (hspace : s.pools.find? e.2.1 = some space) :
    PoolSpace.giveBack e.2.2 space = { space with free := space.free + e.2.2 } := by
  obtain ⟨other, hother, hfits, _⟩ := h.fits he
  rw [hspace] at hother
  cases hother
  have hmin : min (space.free + e.2.2) space.total = space.free + e.2.2 := by omega
  rw [PoolSpace.giveBack, hmin]

theorem surrender (h : s.Conserved) {e : (ResourceName × UInt32) × (PoolName × Nat)}
    (he : e ∈ s.volumes.entries) : (s.surrender e).Conserved := by
  have hfind : s.volumes.find? e.1 = some e.2 := SortedMap.find?_of_mem he
  have hperm := SortedMap.values_erase_perm hfind
  constructor
  case balance =>
    intro pool space hspace
    have hused : s.used pool = share pool e.2 + (s.surrender e).used pool := used_of_perm hperm
    simp only [StorageState.surrender, SortedMap.find?_modify] at hspace
    split at hspace
    next hsame =>
      obtain ⟨old, hold, rfl⟩ := Option.map_eq_some_iff.1 hspace
      have hbalance := h.balance pool old hold
      rw [SortedMap.find?_congr hsame] at hold
      rw [h.giveBack_eq he hold]
      rw [share_self hsame] at hused
      dsimp only
      omega
    next hother =>
      have hbalance := h.balance pool space hspace
      rw [share_other hother] at hused
      omega
  case housed =>
    intro v hv
    have hold := h.housed v (hperm.mem_iff.2 (List.mem_cons_of_mem _ hv))
    simpa only [StorageState.surrender, SortedMap.contains_modify] using hold
  case bounded => exact SortedMap.forall_modify e.2.1 (fun _ hspace => hspace) h.bounded

/-- Volumes with different keys are deleted one after the other. -/
theorem foldl_surrender (h : s.Conserved) {es : List ((ResourceName × UInt32) × (PoolName × Nat))}
    (hrecorded : ∀ e ∈ es, e ∈ s.volumes.entries)
    (hapart : es.Pairwise fun a b => compare a.1 b.1 ≠ .eq) :
    (es.foldl StorageState.surrender s).Conserved ∧
      ∀ e ∈ s.volumes.entries, (∀ other ∈ es, compare other.1 e.1 ≠ .eq) →
        e ∈ (es.foldl StorageState.surrender s).volumes.entries := by
  induction es generalizing s with
  | nil => exact ⟨h, fun e he _ => he⟩
  | cons head rest ih =>
    obtain ⟨hhead, hrest⟩ := List.pairwise_cons.1 hapart
    have hstays (e) (he : e ∈ s.volumes.entries) (hne : compare head.1 e.1 ≠ .eq) :
        e ∈ (s.surrender head).volumes.entries :=
      List.mem_filter.2 ⟨he, by simpa using hne⟩
    have hnext := h.surrender (hrecorded head List.mem_cons_self)
    obtain ⟨hconserved, hkept⟩ := ih hnext
      (fun e he => hstays e (hrecorded e (List.mem_cons_of_mem _ he)) (hhead e he)) hrest
    refine ⟨hconserved, fun e he hne => ?_⟩
    exact hkept e (hstays e he (hne head List.mem_cons_self))
      fun other ho => hne other (List.mem_cons_of_mem _ ho)

/-- In the middle of a release, the next volume is still recorded. -/
theorem midRelease (h : s.Conserved) {e : (ResourceName × UInt32) × (PoolName × Nat)}
    {before after : List ((ResourceName × UInt32) × (PoolName × Nat))}
    (hsplit : s.volumesOf name = before ++ e :: after) :
    (before.foldl StorageState.surrender s).Conserved ∧
      e ∈ (before.foldl StorageState.surrender s).volumes.entries := by
  have hrecorded : ∀ e' ∈ before ++ e :: after, e' ∈ s.volumes.entries := by
    rw [← hsplit]
    exact fun e' he' => (List.mem_filter.1 he').1
  have hapart : (before ++ e :: after).Pairwise fun a b => compare a.1 b.1 ≠ .eq := by
    rw [← hsplit]
    exact (List.pairwise_map.1 s.volumes.keys_pairwise).filter _
  obtain ⟨hbefore, _, hacross⟩ := List.pairwise_append.1 hapart
  obtain ⟨hconserved, hkept⟩ := h.foldl_surrender
    (fun e' he' => hrecorded e' (List.mem_append_left _ he')) hbefore
  exact ⟨hconserved, hkept e (hrecorded e (List.mem_append_right _ List.mem_cons_self))
    fun other ho => hacross other ho e List.mem_cons_self⟩

theorem release (h : s.Conserved) (name : ResourceName) : (s.release name).Conserved :=
  (h.foldl_surrender (fun _ he => (List.mem_filter.1 he).1)
    ((List.pairwise_map.1 s.volumes.keys_pairwise).filter _)).1

end Conserved

/-- Volumes are recorded under their resource and their number. -/
local instance volumeTransOrd : Std.TransOrd (ResourceName × UInt32) := pairTransOrd

/-- A new volume, taken from the space of its pool: the step of `addVolumes`. -/
def allot (s : StorageState) (name : ResourceName) (v : Volume) (space : PoolSpace) :
    StorageState :=
  { s with
    pools := s.pools.insert v.pool { space with free := space.free - v.sizeBytes.toNat }
    volumes := s.volumes.insert (name, v.number) (v.pool, v.sizeBytes.toNat) }

/-- There is room for a volume that is not recorded yet. -/
structure Admits (s : StorageState) (name : ResourceName) (v : Volume) (space : PoolSpace) :
    Prop where
  new : s.volumes.contains (name, v.number) = false
  pool : s.pools.find? v.pool = some space
  fits : v.sizeBytes.toNat ≤ space.free

theorem addVolume_ok (h : s.addVolume name v = .ok s') :
    s' = s ∨ ∃ space, s.Admits name v space ∧ s' = s.allot name v space := by
  unfold addVolume at h
  dsimp only at h
  split at h
  next hc =>
    cases h
    exact .inl rfl
  next hc =>
    split at h
    next => cases h
    next space hspace =>
      split at h
      next => cases h
      next hfits =>
        cases h
        exact .inr ⟨space, ⟨Bool.eq_false_iff.2 hc, hspace, Nat.le_of_not_lt hfits⟩, rfl⟩

namespace Conserved

theorem allot (h : s.Conserved) {space : PoolSpace} (ha : s.Admits name v space) :
    (s.allot name v space).Conserved := by
  let taken : PoolName × Nat := (v.pool, v.sizeBytes.toNat)
  have hperm := SortedMap.values_insert_perm taken ha.new
  constructor
  case balance =>
    intro pool other hother
    have hused : (s.allot name v space).used pool = share pool taken + s.used pool :=
      used_of_perm hperm
    rw [StorageState.allot, SortedMap.find?_insert] at hother
    split at hother
    next hsame =>
      obtain rfl := Option.some.inj hother
      have hbalance := h.balance pool space ((SortedMap.find?_congr hsame _).trans ha.pool)
      have hfits := ha.fits
      rw [share_self (v := taken) hsame] at hused
      dsimp only [taken] at hused ⊢
      omega
    next hne =>
      have hbalance := h.balance pool other hother
      rw [share_other (v := taken) hne] at hused
      omega
  case housed =>
    have hstays (pool : PoolName) (hp : s.pools.contains pool = true) :
        (s.allot name v space).pools.contains pool = true := by
      simp [StorageState.allot, SortedMap.contains_insert, hp]
    refine SortedMap.forall_insert ?_ fun w hw => hstays _ (h.housed w hw)
    exact hstays _ (SortedMap.contains_of_find? ha.pool)
  case bounded =>
    refine SortedMap.forall_insert ?_ h.bounded
    exact h.bounded space (SortedMap.mem_values.2 ⟨_, ha.pool⟩)

theorem addVolume (h : s.Conserved) (ha : s.addVolume name v = .ok s') : s'.Conserved := by
  rcases addVolume_ok ha with rfl | ⟨space, hadmits, rfl⟩
  · exact h
  · exact h.allot hadmits

/-- Also when a later volume fails: those created before it stay, and so does their space. -/
theorem addVolumes (h : s.Conserved) (name : ResourceName) (vs : List Volume) :
    (s.addVolumes name vs).1.Conserved := by
  induction vs generalizing s with
  | nil => exact h
  | cons v rest ih =>
    unfold StorageState.addVolumes
    split
    next s' ha => exact ih (h.addVolume ha)
    next => exact h

end Conserved

theorem preparePools_frame (s : StorageState) (pools : List PoolName) :
    (s.preparePools pools).1.pools = s.pools ∧ (s.preparePools pools).1.volumes = s.volumes := by
  induction pools generalizing s with
  | nil => exact ⟨rfl, rfl⟩
  | cons pool rest ih =>
    unfold preparePools
    split
    · exact ih _
    · exact ⟨rfl, rfl⟩

theorem Conserved.of_frame (h : s.Conserved) (hpools : s'.pools = s.pools)
    (hvolumes : s'.volumes = s.volumes) : s'.Conserved := by
  have hused (pool : PoolName) : s'.used pool = s.used pool := by rw [used, used, hvolumes]
  constructor
  · intro pool space hspace
    rw [hpools] at hspace
    rw [hused]
    exact h.balance pool space hspace
  · rw [hvolumes, hpools]
    exact h.housed
  · rw [hpools]
    exact h.bounded

end StorageState

namespace Storage

theorem addVolumes_run (r : Resource) (d : Devices) (entries : Report) :
    (addVolumes r).run (d, entries) =
      ((d.storage.addVolumes r.name r.volumes.values).2,
        ({ d with storage := (d.storage.addVolumes r.name r.volumes.values).1 }, entries)) := by
  have hdevices : (Act.devices : Act Devices Devices).run (d, entries) = (.ok d, (d, entries)) :=
    rfl
  rw [addVolumes, Act.Orderly.run_bind, hdevices]
  dsimp only
  rcases d.storage.addVolumes r.name r.volumes.values with ⟨storage, fault | _⟩ <;> rfl

/-- What processing a layer does to the storage, whether it fails or not. -/
theorem process_storage (l : LayerResource) (descend : Act Devices Unit) (d : Devices)
    (entries : Report) :
    ((process l descend).run (d, entries)).2.1.storage =
      if l.resource.isDeleted then d.storage.release l.resource.name
      else if l.resource.isDiskless then d.storage
      else (d.storage.addVolumes l.resource.name l.resource.volumes.values).1 := by
  unfold process
  dsimp only
  split
  · rfl
  · split
    · rfl
    · rw [Act.Orderly.run_bind, addVolumes_run]
      rcases d.storage.addVolumes l.resource.name l.resource.volumes.values with ⟨_, _ | _⟩ <;> rfl

/-- Devices after calls on the storage layer, whose pools had the given capacities at first. What
the other layers do in between does not touch the storage. -/
inductive Reached (capacities : List (PoolName × UInt64)) : Devices → Prop
  | start {d : Devices}
    (fresh : d.storage = .ofCapacities (capacities.map fun p => (p.1, p.2.toNat))) :
    Reached capacities d
  | prepare {d : Devices} (before : Reached capacities d) (layers : List LayerResource)
    (snapshots : List Snapshot) : Reached capacities (prepare d layers snapshots).1
  | process {d : Devices} (before : Reached capacities d) (l : LayerResource)
    (descend : Act Devices Unit) (entries : Report) :
    Reached capacities ((process l descend).run (d, entries)).2.1
  | clearCache {d : Devices} (before : Reached capacities d) : Reached capacities (clearCache d).1
  | elsewhere {d d' : Devices} (before : Reached capacities d) (same : d'.storage = d.storage) :
    Reached capacities d'

variable {capacities : List (PoolName × UInt64)} {d : Devices}

theorem Reached.conserved (h : Reached capacities d) : d.storage.Conserved := by
  induction h with
  | start fresh =>
    rw [fresh]
    exact .ofCapacities capacities
  | @prepare d _ layers snapshots ih =>
    obtain ⟨hpools, hvolumes⟩ := d.storage.preparePools_frame
      (layers.flatMap fun l => l.resource.volumes.values.map (·.pool))
    exact ih.of_frame hpools hvolumes
  | @process d _ l descend entries ih =>
    rw [process_storage]
    split
    · exact ih.release l.resource.name
    · split
      · exact ih
      · exact ih.addVolumes l.resource.name l.resource.volumes.values
  | clearCache _ ih => exact ih.of_frame rfl rfl
  | elsewhere _ same ih =>
    rw [same]
    exact ih

/-- Free space and recorded volumes make up every pool, also between the volumes of an allocation
that may still fail and between those of a release. What an allocation takes was free, and what a
release gives back fits below the capacity and in 64 bits. -/
theorem Reached.conserves_capacity (h : Reached capacities d) :
    d.storage.Conserved ∧
      (∀ name vs v, let mid := (d.storage.addVolumes name vs).1
        mid.Conserved ∧ ∀ after, mid.addVolume name v = .ok after → after ≠ mid →
          ∃ space, mid.pools.find? v.pool = some space ∧ v.sizeBytes.toNat ≤ space.free ∧
            after.pools.find? v.pool =
              some { space with free := space.free - v.sizeBytes.toNat }) ∧
      ∀ name before e after, d.storage.volumesOf name = before ++ e :: after →
        let mid := before.foldl StorageState.surrender d.storage
        mid.Conserved ∧ ∃ space, mid.pools.find? e.2.1 = some space ∧
          space.free + e.2.2 ≤ space.total ∧ space.total < UInt64.size ∧
          (mid.surrender e).pools.find? e.2.1 =
            some { space with free := space.free + e.2.2 } := by
  have hconserved := h.conserved
  refine ⟨hconserved, fun name vs v => ?_, fun name before e after hsplit => ?_⟩
  · refine ⟨hconserved.addVolumes name vs, fun after ha hne => ?_⟩
    rcases StorageState.addVolume_ok ha with rfl | ⟨space, hadmits, rfl⟩
    · exact absurd rfl hne
    · exact ⟨space, hadmits.pool, hadmits.fits, SortedMap.find?_insert_self ..⟩
  · obtain ⟨hmid, he⟩ := hconserved.midRelease hsplit
    obtain ⟨space, hspace, hfits, hbounded⟩ := hmid.fits he
    refine ⟨hmid, space, hspace, hfits, hbounded, ?_⟩
    rw [StorageState.surrender, SortedMap.find?_modify, if_pos Std.ReflCmp.compare_self, hspace,
      Option.map_some, hmid.giveBack_eq he hspace]

end Storage

namespace Sample

def vault : PoolName := ⟨"vault", by decide⟩

/-- A layer with volumes of these sizes. -/
def stored (name : ResourceName) (flags : ResourceFlags) (sizes : List (UInt32 × UInt64)) :
    LayerResource where
  id := ⟨0⟩
  kind := .storage
  resource :=
    { uuid := default, name, node := ⟨"echo", by decide⟩, flags, layerStack := [.storage]
      volumes := .ofList (sizes.map fun (number, sizeBytes) =>
        (number, { uuid := default, number, pool := vault, sizeBytes })) }

/-- `data` takes its space, the second volume of `logs` finds none, and `DATA` is deleted. -/
def workload : List LayerResource :=
  [stored ⟨"data", by decide⟩ .none [(0, 60)],
    stored ⟨"logs", by decide⟩ .none [(0, 30), (1, 30)],
    stored ⟨"DATA", by decide⟩ ResourceFlags.delete []]

def work (d : Devices) (l : LayerResource) : Devices :=
  ((Storage.process l (pure ())).run (d, [])).2.1

def vacant : Devices := { storage := .ofCapacities [(vault, 100)] }

theorem workload_reached (layers : List LayerResource) :
    Storage.Reached [(vault, 100)] (layers.foldl work vacant) := by
  refine List.foldlRecOn layers work (motive := Storage.Reached [(vault, 100)]) (.start rfl) ?_
  intro d hd l _
  exact hd.process l (pure ()) []

end Sample

open Sample in
/-- Of `logs` the first volume stays; it is what the pool lacks once `data` is gone. -/
theorem conserves_capacity_of_workload :
    let d := workload.foldl work vacant
    Storage.Reached [(vault, 100)] d ∧ d.storage.Conserved ∧
      d.storage.pools.find? vault = some ⟨100, 70⟩ ∧ d.storage.used vault = 30 := by
  intro d
  have hreached : Storage.Reached [(vault, 100)] d := workload_reached workload
  exact ⟨hreached, hreached.conserves_capacity.1, by decide +kernel, by decide +kernel⟩

end StorageCluster
