import StorageCluster.Proofs.Erasure
import StorageCluster.Proofs.Satellite.Capacity

/-!
# Volumes of a resource

Creating and releasing volumes changes what is recorded of one resource and no other, and leaves
every pool as large as it was. Volumes that are there already are not created again, and there is
nothing to release where there are none.
-/
namespace StorageCluster

/-- Volumes are recorded under their resource and their number. -/
local instance recordTransOrd : Std.TransOrd (ResourceName × UInt32) := pairTransOrd

namespace StorageState

variable {s : StorageState} {name : ResourceName}

/-- What holds after each new volume if it held before holds after all of them. -/
theorem addVolumes_keeps {P : StorageState → Prop}
    (hstep : ∀ s v space, s.Admits name v space → P s → P (s.allot name v space))
    (vs : List Volume) (h : P s) : P (s.addVolumes name vs).1 := by
  induction vs generalizing s with
  | nil => exact h
  | cons v rest ih =>
    unfold addVolumes
    split
    next s' ha =>
      rcases addVolume_ok ha with rfl | ⟨space, hadmits, rfl⟩
      · exact ih h
      · exact ih (hstep s v space hadmits h)
    next => exact h

/-- What holds after each volume of a name is deleted if it held before holds after its release. -/
theorem release_keeps {P : StorageState → Prop}
    (hstep : ∀ s e, (e.1.1 == name) = true → P s → P (s.surrender e)) (h : P s) :
    P (s.release name) :=
  List.foldlRecOn (s.volumesOf name) _ h fun s hs e he =>
    hstep s e (List.mem_filter.1 he).2 hs

/-- Volumes under the same key belong to the same resource. -/
theorem value_eq_of_key {a b : ResourceName × UInt32} (h : compare a b = .eq) :
    a.1.value = b.1.value :=
  (Name.compare_eq_iff _ _).1 ((pair_compare_eq_iff a b).1 h).1

/-- How large a pool is. -/
def capacity (s : StorageState) (pool : PoolName) : Option Nat :=
  (s.pools.find? pool).map PoolSpace.total

theorem capacity_addVolumes (s : StorageState) (name : ResourceName) (vs : List Volume)
    (pool : PoolName) : (s.addVolumes name vs).1.capacity pool = s.capacity pool := by
  refine addVolumes_keeps (P := fun now => now.capacity pool = s.capacity pool) ?_ vs rfl
  intro now v space hadmits hnow
  rw [← hnow, capacity, capacity, allot, SortedMap.find?_insert]
  split
  next hsame => rw [SortedMap.find?_congr hsame, hadmits.pool, Option.map_some, Option.map_some]
  next => rfl

theorem capacity_release (s : StorageState) (name : ResourceName) (pool : PoolName) :
    (s.release name).capacity pool = s.capacity pool := by
  refine release_keeps (P := fun now => now.capacity pool = s.capacity pool) ?_ rfl
  intro now e _ hnow
  rw [← hnow, capacity, capacity, surrender, SortedMap.find?_modify]
  split
  · rw [Option.map_map]
    rfl
  · rfl

theorem find?_volumes_addVolumes {other : ResourceName} (h : (name == other) = false)
    (vs : List Volume) (number : UInt32) :
    (s.addVolumes name vs).1.volumes.find? (other, number) = s.volumes.find? (other, number) := by
  refine addVolumes_keeps (P := fun now => now.volumes.find? (other, number) =
    s.volumes.find? (other, number)) ?_ vs rfl
  intro now v space _ hnow
  have hne : compare (other, number) (name, v.number) ≠ .eq := by
    rw [← Bool.not_eq_true, Name.beq_iff] at h
    exact fun hsame => h (value_eq_of_key hsame).symm
  rw [allot, SortedMap.find?_insert, if_neg hne, hnow]

/-- What is recorded stays so while volumes are created. -/
theorem contains_addVolumes {key : ResourceName × UInt32} (h : s.volumes.contains key = true)
    (vs : List Volume) : (s.addVolumes name vs).1.volumes.contains key = true := by
  refine addVolumes_keeps (P := fun now => now.volumes.contains key = true) ?_ vs h
  intro now v space _ hnow
  rw [allot, SortedMap.contains_insert, hnow, Bool.or_true]

theorem contains_of_addVolume {s' : StorageState} {v : Volume} (h : s.addVolume name v = .ok s') :
    s'.volumes.contains (name, v.number) = true := by
  unfold addVolume at h
  dsimp only at h
  split at h
  next hc =>
    cases h
    exact hc
  next =>
    split at h
    next => cases h
    next space _ =>
      split at h
      next => cases h
      next =>
        cases h
        simp [SortedMap.contains_insert, Std.ReflCmp.compare_self]

/-- Volumes that could be created are recorded. -/
theorem contains_of_addVolumes {vs : List Volume} (h : (s.addVolumes name vs).2 = .ok ())
    {v : Volume} (hv : v ∈ vs) :
    (s.addVolumes name vs).1.volumes.contains (name, v.number) = true := by
  induction vs generalizing s with
  | nil => cases hv
  | cons w rest ih =>
    cases ha : s.addVolume name w with
    | error fault => simp [addVolumes, ha] at h
    | ok s' =>
      simp only [addVolumes, ha] at h ⊢
      rcases List.mem_cons.1 hv with rfl | hv
      · exact contains_addVolumes (contains_of_addVolume ha) rest
      · exact ih h hv

/-- Volumes that are recorded already are not created again. -/
theorem addVolumes_eq_self {vs : List Volume}
    (h : ∀ v ∈ vs, s.volumes.contains (name, v.number) = true) :
    s.addVolumes name vs = (s, .ok ()) := by
  induction vs with
  | nil => rfl
  | cons v rest ih =>
    have hv : s.addVolume name v = .ok s := by
      unfold addVolume
      rw [if_pos (h v List.mem_cons_self)]
    rw [addVolumes, hv]
    exact ih fun w hw => h w (List.mem_cons_of_mem v hw)

theorem volumes_foldl_surrender (es : List ((ResourceName × UInt32) × (PoolName × Nat)))
    (s : StorageState) :
    (es.foldl surrender s).volumes = (es.map Prod.fst).foldl SortedMap.erase s.volumes := by
  induction es generalizing s with
  | nil => rfl
  | cons e rest ih => exact ih (s.surrender e)

/-- A release deletes the volumes of its name and no others. -/
theorem contains_release (s : StorageState) (name other : ResourceName) (number : UInt32) :
    (s.release name).volumes.contains (other, number) =
      (!(name == other) && s.volumes.contains (other, number)) := by
  have hrelease : (s.release name).volumes =
      ((s.volumesOf name).map Prod.fst).foldl SortedMap.erase s.volumes :=
    volumes_foldl_surrender (s.volumesOf name) s
  rw [hrelease, SortedMap.contains_foldl_erase]
  cases hc : s.volumes.contains (other, number) with
  | false => simp
  | true =>
    rw [Bool.and_true, Bool.and_true, Bool.eq_iff_iff, List.all_eq_true, Bool.not_eq_true',
      ← Bool.not_eq_true, Name.beq_iff]
    constructor
    · intro hall hname
      obtain ⟨k, hk, hsame⟩ := SortedMap.contains_iff.1 hc
      obtain ⟨e, he, rfl⟩ := List.mem_map.1 hk
      have hof : (e.1.1 == name) = true :=
        (Name.beq_iff _ _).2 ((value_eq_of_key hsame).symm.trans hname.symm)
      have hne := hall e.1 (List.mem_map_of_mem (List.mem_filter.2 ⟨he, hof⟩))
      simp [hsame] at hne
    · intro hname k hk
      obtain ⟨e, he, rfl⟩ := List.mem_map.1 hk
      have hof := (Name.beq_iff _ _).1 (List.mem_filter.1 he).2
      rw [bne_iff_ne]
      exact fun hsame => hname (hof.symm.trans (value_eq_of_key hsame).symm)

theorem find?_volumes_release {other : ResourceName} (h : (name == other) = false)
    (number : UInt32) :
    (s.release name).volumes.find? (other, number) = s.volumes.find? (other, number) := by
  refine release_keeps (P := fun now => now.volumes.find? (other, number) =
    s.volumes.find? (other, number)) ?_ rfl
  intro now e he hnow
  have hne : compare (other, number) e.1 ≠ .eq := by
    intro hsame
    rw [← Bool.not_eq_true, Name.beq_iff] at h
    exact h (((Name.beq_iff _ _).1 he).symm.trans (value_eq_of_key hsame).symm)
  rw [surrender, SortedMap.find?_erase, if_neg hne, hnow]

theorem volumesOf_eq_nil (h : ∀ number, s.volumes.contains (name, number) = false) :
    s.volumesOf name = [] := by
  refine List.filter_eq_nil_iff.2 fun e he hsame => ?_
  have hkey : compare (name, e.1.2) e.1 = .eq := by
    rw [pair_compare_eq_iff, Name.compare_eq_iff]
    exact ⟨((Name.beq_iff _ _).1 hsame).symm, Std.ReflCmp.compare_self⟩
  have hc := h e.1.2
  rw [SortedMap.contains_congr hkey,
    SortedMap.contains_of_find? (SortedMap.find?_of_mem he)] at hc
  cases hc

/-- There is nothing to release for a name without volumes. -/
theorem release_eq_self (h : ∀ number, s.volumes.contains (name, number) = false) :
    s.release name = s := by
  rw [release, volumesOf_eq_nil h, List.foldl_nil]

end StorageState

end StorageCluster
