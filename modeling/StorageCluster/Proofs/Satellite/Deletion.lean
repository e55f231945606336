import StorageCluster.Proofs.Satellite.Redelivery

/-!
# Deletion gives everything back

On a satellite that gets each resource with one stack, and always diskless or never, a resource
holds something only in layers that work on it reaches. This stays true when work fails halfway. So
a deletion that comes through leaves nothing behind, and the free space of each pool is what the
other resources leave of it.
-/
namespace StorageCluster

/-- How the resources of each name are sent. A name stands for its upper-case text. -/
structure Habit where
  stack : String → List LayerKind
  diskless : String → Bool

/-- A resource is sent as its name always is. -/
structure Habit.Fits (habit : Habit) (r : Resource) : Prop where
  stack : r.layerStack = habit.stack r.name.value
  valid : Stack.validate r.layerStack = .ok ()
  diskless : r.isDiskless = habit.diskless r.name.value

/-- A batch of resources that are sent as their names always are. -/
structure Habit.Admits (habit : Habit) (resources : List Resource) : Prop where
  distinct : resources.Pairwise fun a b => (a.name == b.name) = false
  fits : ∀ r ∈ resources, habit.Fits r

theorem Resource.reached_congr {r other : Resource} (h : r.isDiskless = other.isDiskless)
    (stack : List LayerKind) : r.reached stack = other.reached stack := by
  induction stack with
  | nil => rfl
  | cons kind rest ih => cases kind <;> simp only [reached, h, ih]

/-- Resources of one name that are sent alike reach the same layers. -/
theorem Habit.Fits.reached_eq {habit : Habit} {r other : Resource} (hr : habit.Fits r)
    (ho : habit.Fits other) (h : (other.name == r.name) = true) :
    other.reached other.layerStack = r.reached r.layerStack := by
  have hname := (Name.beq_iff _ _).1 h
  rw [ho.stack, hr.stack, hname]
  exact Resource.reached_congr (by rw [ho.diskless, hr.diskless, hname]) _

theorem StackMemory.stackFor_valid {r : Resource} (h : Stack.validate r.layerStack = .ok ())
    (m : StackMemory) (fullSync : Bool) : m.stackFor fullSync r = .ok r.layerStack := by
  have hne : r.layerStack.isEmpty = false :=
    List.isEmpty_eq_false_iff.2 (ne_nil_of_validate h)
  simp only [stackFor, stackOf, hne, Bool.not_false, if_true, bind, Except.bind, h]
  rfl

namespace StorageState

/-- The bytes that the volumes of other resources take of a pool. -/
def usedBesides (s : StorageState) (name : ResourceName) (pool : PoolName) : Nat :=
  ((s.volumes.entries.filter fun e => !(e.1.1 == name)).map fun e => share pool e.2).sum

theorem usedBesides_eq_used {s : StorageState} {name : ResourceName}
    (h : s.volumesOf name = []) (pool : PoolName) : s.usedBesides name pool = s.used pool := by
  have hall : (s.volumes.entries.filter fun e => !(e.1.1 == name)) = s.volumes.entries := by
    refine List.filter_eq_self.2 fun e he => ?_
    have hnot := List.filter_eq_nil_iff.1 h e he
    simpa using hnot
  rw [usedBesides, hall, used, SortedMap.values, List.map_map]
  rfl

end StorageState

/-- What is true of the devices in every run: a resource holds something only where work on it gets
to, and the space of the pools adds up. -/
structure Devices.Kept (habit : Habit) (capacities : List (PoolName × UInt64)) (d : Devices) :
    Prop where
  owned : ∀ r, habit.Fits r → ∀ kind, d.Holds r.name kind → kind ∈ r.reached r.layerStack
  conserved : d.storage.Conserved
  capacity : ∀ pool, d.storage.capacity pool =
    (StorageState.ofCapacities (capacities.map fun p => (p.1, p.2.toNat))).capacity pool

namespace Devices.Kept

variable {habit : Habit} {capacities : List (PoolName × UInt64)} {d d' : Devices} {r : Resource}

theorem step (h : d.Kept habit capacities) (hr : habit.Fits r) {kind : LayerKind}
    (hk : kind ∈ r.reached r.layerStack) (hstep : r.Step kind d d') : d'.Kept habit capacities := by
  refine ⟨fun other ho layer hheld => ?_, ?_,
    fun pool => (hstep.capacity_eq pool).trans (h.capacity pool)⟩
  · rcases hstep.holds hheld with hheld | ⟨hname, rfl⟩
    · exact h.owned other ho layer hheld
    · rwa [← ho.reached_eq hr hname]
  · cases hstep with
    | create => exact h.conserved.addVolumes r.name r.volumes.values
    | remove => exact h.conserved.release r.name
    | _ => exact h.conserved

theorem lasting : d.lasting.Kept habit capacities ↔ d.Kept habit capacities := by
  constructor
  · intro h
    exact ⟨fun r hr kind hheld => h.owned r hr kind (by cases kind <;> exact hheld),
      h.conserved.of_frame rfl rfl, h.capacity⟩
  · intro h
    exact ⟨fun r hr kind hheld => h.owned r hr kind (by cases kind <;> exact hheld),
      h.conserved.of_frame rfl rfl, h.capacity⟩

theorem foldl_advance (h : d.Kept habit capacities) {resources : List Resource}
    (hfits : ∀ r ∈ resources, habit.Fits r) (m : StackMemory) (fullSync : Bool) :
    (resources.foldl (advance (m.stackFor fullSync)) d).Kept habit capacities := by
  refine List.foldlRecOn resources _ (motive := fun now : Devices => now.Kept habit capacities) h
    fun now hnow r hr => ?_
  have hsteps := advance_steps (m.stackFor fullSync) now r
  rw [StackMemory.stackFor_valid (hfits r hr).valid] at hsteps
  exact hsteps.keeps (fun kind hk d d' hstep hd => hd.step (hfits r hr) hk hstep) hnow

end Devices.Kept

namespace Satellite

open Batch

variable {s : Satellite Devices} {resources : List Resource} {snapshots : List Snapshot}
  {habit : Habit} {capacities : List (PoolName × UInt64)}

/-- Satellites with the built-in layers that began with nothing, in pools of the given capacities.
Batches come in any number, and may fail in part. The master key may be set and a full sync may come
at any time. -/
inductive Served (habit : Habit) (capacities : List (PoolName × UInt64)) :
    Satellite Devices → Prop
  | start {s : Satellite Devices} (builtIn : s.registry = .builtIn)
    (minors : s.devices.drbd.minors = .empty) (opened : s.devices.luks.opened = .empty)
    (storage : s.devices.storage = .ofCapacities (capacities.map fun p => (p.1, p.2.toNat))) :
    Served habit capacities s
  | dispatch {s : Satellite Devices} (before : Served habit capacities s)
    (resources : List Resource) (snapshots : List Snapshot) (admitted : habit.Admits resources) :
    Served habit capacities (s.dispatch resources snapshots).satellite
  | unlock {s : Satellite Devices} (before : Served habit capacities s) (key : Option String) :
    Served habit capacities { s with
      devices := { s.devices with luks := { s.devices.luks with masterKey := key } } }
  | sync {s : Satellite Devices} (before : Served habit capacities s) (fullSync : Bool) :
    Served habit capacities { s with fullSync }

theorem worked_subset (hbuiltIn : s.registry = .builtIn)
    (hdistinct : resources.Pairwise fun a b => (a.name == b.name) = false) :
    ∀ r ∈ s.worked resources snapshots, r ∈ resources := by
  intro r hr
  obtain ⟨call, hc, rfl⟩ := List.mem_map.1 hr
  have hroot := (contains_of_processed hbuiltIn (List.mem_map_of_mem hc)).1
  exact (s.expansion_expands snapshots hdistinct).resource_mem (Arena.mem_roots.1 hroot).1

theorem dispatch_kept (hbuiltIn : s.registry = .builtIn) (h : s.devices.Kept habit capacities)
    (hadmits : habit.Admits resources) :
    (s.dispatch resources snapshots).satellite.devices.Kept habit capacities := by
  have hdevices := (dispatch_works hbuiltIn hadmits.distinct snapshots).1
  rw [← Devices.Kept.lasting, hdevices]
  exact (Devices.Kept.lasting.2 h).foldl_advance
    (fun r hr => hadmits.fits r (worked_subset hbuiltIn hadmits.distinct r hr)) _ _

theorem Served.kept (h : Served habit capacities s) :
    s.registry = .builtIn ∧ s.devices.Kept habit capacities := by
  induction h with
  | @start s builtIn minors opened storage =>
    refine ⟨builtIn, fun r _ kind hheld => absurd hheld ?_, ?_, fun pool => by rw [storage]⟩
    · cases kind <;> simp [Devices.Holds, minors, opened, storage, StorageState.ofCapacities,
        SortedMap.contains, SortedMap.find?_empty]
    · rw [storage]
      exact .ofCapacities capacities
  | @dispatch s _ resources snapshots admitted ih =>
    exact ⟨(dispatch_registry s resources snapshots).1.trans ih.1, dispatch_kept ih.1 ih.2 admitted⟩
  | @unlock s _ key ih =>
    exact ⟨ih.1, fun r hr kind hheld => ih.2.owned r hr kind (by cases kind <;> exact hheld),
      ih.2.conserved, ih.2.capacity⟩
  | sync _ _ ih => exact ih

theorem worked_pairwise (hbuiltIn : s.registry = .builtIn)
    (hdistinct : resources.Pairwise fun a b => (a.name == b.name) = false) :
    (s.worked resources snapshots).Pairwise fun a b => (a.name == b.name) = false := by
  have hroots := (s.expansion_expands snapshots hdistinct).roots_pairwise hdistinct
  have hprocessed := hroots.filter fun l =>
    !((s.calls resources snapshots).prepares.flatMap
      (blockedBy (s.expansion resources snapshots).arena)).contains l.id
  rw [← processes_roots hbuiltIn] at hprocessed
  exact List.pairwise_map.2 (List.pairwise_map.1 hprocessed)

/-- A resource that is answered without an error is worked on, and the work comes through. -/
theorem worked_of_answer (hbuiltIn : s.registry = .builtIn)
    (hdistinct : resources.Pairwise fun a b => (a.name == b.name) = false) {r : Resource}
    (hr : r ∈ resources) (hclean : ∀ answer,
      (r.name, answer) ∈ (s.dispatch resources snapshots).notified → answer.hasErrors = false) :
    r ∈ s.worked resources snapshots ∧
      ∀ told ∈ Devices.answers (s.memory.stackFor s.fullSync) s.devices.lasting
        (s.worked resources snapshots), told.1 = r.name → told.2.hasErrors = false := by
  have he := s.expansion_expands snapshots hdistinct
  obtain ⟨answer, hm, htruthful⟩ := exists_answer hbuiltIn hdistinct snapshots hr
  have hfine := htruthful.errors.not.1 (by simp [hclean answer hm])
  simp only [not_or, not_exists, not_and] at hfine
  obtain ⟨hstack, hprepares, hprocess, -⟩ := hfine
  constructor
  · cases hs : s.memory.stackFor s.fullSync r with
    | error fault => exact absurd hs (hstack fault)
    | ok stack =>
      obtain ⟨root, hroot, rfl⟩ := he.exists_root hr hs
      have hfree : root.id ∉ (s.calls resources snapshots).prepares.flatMap
          (blockedBy (s.expansion resources snapshots).arena) := by
        intro hblocked
        obtain ⟨told, htold, hname⟩ := List.mem_map.1 (he.linked.exists_blocker hroot hblocked)
        obtain ⟨kind, fault, hc, l, hl, hk, rfl⟩ := mem_kindLog.1 htold
        have hsame := StackMemory.eq_of_name hdistinct hr (he.resource_mem hl)
          (by rw [← hname, Name.beq_self])
        exact (hprepares kind ((he.mem_layers _ _).1 ⟨l, hl, hsame.symm, hk⟩).2).2 fault hc
      obtain ⟨call, hc, rfl⟩ :=
        List.mem_map.1 ((mem_processed_iff hbuiltIn).2 ⟨hroot, hfree⟩)
      exact List.mem_map_of_mem hc
  · intro told htold hname
    rw [← (dispatch_works hbuiltIn hdistinct snapshots).2] at htold
    obtain ⟨call, hc, rfl⟩ := List.mem_map.1 htold
    have hsame : call.root.resource = r := StackMemory.eq_of_name hdistinct
      (worked_subset hbuiltIn hdistinct _ (List.mem_map_of_mem hc)) hr
      (by rw [← hname]; exact Name.beq_self _)
    have hentries := (calls_orderly (hbuiltIn ▸ Registry.builtIn_orderly) he.linked s.start
      call hc).entries
    cases ho : call.outcome with
    | error fault => exact absurd ho (hprocess call (Calls.mem_processOf.2 ⟨hc, hsame⟩) fault)
    | ok =>
      rw [← Bool.not_eq_true, ProcessCall.answer, Report.hasErrors_append, hentries, ho]
      simp [Report.hasErrors, closing, isError_appliedEntry]

/-- Once a deleted resource is answered without an error, nothing of it is left: no minor, no open
device, no volume and no stack, and the pools have all their space but for the other resources. -/
theorem Served.gives_back (h : Served habit capacities s) (snapshots : List Snapshot)
    (hadmits : habit.Admits resources) {r : Resource} (hr : r ∈ resources)
    (hdeleted : r.isDeleted = true) (hclean : ∀ answer,
      (r.name, answer) ∈ (s.dispatch resources snapshots).notified → answer.hasErrors = false) :
    let after := (s.dispatch resources snapshots).satellite
    after.devices.drbd.minors.contains r.name = false ∧
      after.devices.luks.opened.contains r.name = false ∧
      after.devices.storage.volumesOf r.name = [] ∧
      after.memory.known.contains r.name = false ∧
      ∀ pool, (after.devices.storage.pools.find? pool).map
          (fun space => space.free + after.devices.storage.usedBesides r.name pool) =
        (StorageState.ofCapacities (capacities.map fun p => (p.1, p.2.toNat))).capacity pool := by
  intro after
  obtain ⟨hbuiltIn, hkept⟩ := h.kept
  have hfits := hadmits.fits r hr
  have hplan := StackMemory.stackFor_valid hfits.valid s.memory s.fullSync
  have hafter : after.devices.Kept habit capacities := dispatch_kept hbuiltIn hkept hadmits
  obtain ⟨hworked, hanswers⟩ := worked_of_answer hbuiltIn hadmits.distinct hr hclean
  obtain ⟨stack, hstack, hsettled⟩ := Devices.settled_of_answer
    (worked_pairwise hbuiltIn hadmits.distinct) hworked hanswers
  rw [hplan] at hstack
  cases hstack
  rw [← (dispatch_works hbuiltIn hadmits.distinct snapshots).1] at hsettled
  -- nothing is held where the work got to, and elsewhere nothing was ever held
  have hnothing (kind : LayerKind) : ¬ after.devices.Holds r.name kind := by
    intro hheld
    refine (hsettled kind (hafter.owned r hfits kind hheld)).not_holds hdeleted ?_
    cases kind <;> exact hheld
  have hvolumes : after.devices.storage.volumesOf r.name = [] := by
    refine StorageState.volumesOf_eq_nil fun number => ?_
    rw [← Bool.not_eq_true]
    exact fun hv => hnothing .storage ⟨number, hv⟩
  refine ⟨?_, ?_, hvolumes, ?_, fun pool => ?_⟩
  · simpa [Devices.Holds] using hnothing .drbd
  · simpa [Devices.Holds] using hnothing .luks
  · have hknown := StackMemory.find?_foldl_memorize hadmits.distinct hr hplan s.memory.known
    have hmemory : after.memory = _ := s.dispatch_memory snapshots hadmits.distinct
    rw [hdeleted, if_pos rfl] at hknown
    rw [hmemory, SortedMap.contains, hknown]
    rfl
  · rw [← hafter.capacity pool, StorageState.capacity, StorageState.usedBesides_eq_used hvolumes]
    refine Option.map_congr fun space hspace => ?_
    exact hafter.conserved.balance pool space hspace

namespace Sample

/-- Resources that are always replicated and always have disks. -/
def replicated : Habit where
  stack _ := [.drbd, .storage]
  diskless _ := false

/-- Has a minor for a resource that found no space. -/
def strained : Satellite Devices := (satellite.dispatch [fitting, greedy] []).satellite

def withdrawn : List Resource := [fitting, { greedy with flags := ResourceFlags.delete }]

end Sample

open Satellite.Sample in
theorem Served.gives_back_withdrawn :
    strained.devices.drbd.minors.contains greedy.name = true ∧
      let after := (strained.dispatch withdrawn []).satellite
      after.devices.drbd.minors.contains greedy.name = false ∧
      after.devices.storage.volumesOf greedy.name = [] ∧
      (after.devices.storage.pools.find? pool).map (·.free) = some 12 ∧
      (after.devices.storage.pools.find? pool).map (fun space =>
        space.free + after.devices.storage.usedBesides greedy.name pool) = some 16 := by
  have hsent : ∀ r ∈ [fitting, greedy] ++ withdrawn,
      r.layerStack = [.drbd, .storage] ∧ r.isDiskless = false := by decide +kernel
  have hfits {r : Resource} (hr : r ∈ [fitting, greedy] ++ withdrawn) : replicated.Fits r := by
    obtain ⟨hstack, hdiskless⟩ := hsent r hr
    exact ⟨hstack, by rw [hstack]; rfl, hdiskless⟩
  have hcreated : replicated.Admits [fitting, greedy] :=
    ⟨by decide +kernel, fun r hr => hfits (List.mem_append_left _ hr)⟩
  have hwithdrawn : replicated.Admits withdrawn :=
    ⟨by decide +kernel, fun r hr => hfits (List.mem_append_right _ hr)⟩
  have hserved : Served replicated [(pool, 16)] strained :=
    (Served.start rfl rfl rfl rfl).dispatch [fitting, greedy] [] hcreated
  have hclean : ∀ told ∈ (strained.dispatch withdrawn []).notified, told.2.hasErrors = false := by
    decide +kernel
  obtain ⟨hminor, _, hvolumes, _, hpools⟩ := hserved.gives_back [] hwithdrawn
    (r := { greedy with flags := ResourceFlags.delete }) (by simp [withdrawn]) (by decide)
    fun answer hm => hclean _ hm
  exact ⟨by decide +kernel, hminor, hvolumes, by decide +kernel, hpools pool⟩

end Satellite

end StorageCluster
