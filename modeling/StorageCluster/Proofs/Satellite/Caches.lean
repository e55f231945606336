import StorageCluster.Proofs.Satellite.Batches
import StorageCluster.Proofs.Satellite.Encryption
import StorageCluster.Proofs.Satellite.Layout

/-!
# What a batch leaves in the caches

The DRBD layer caches the resources of a batch, the storage layer the pools of their volumes. A
dispatch clears the layers that were prepared. Preparing DRBD never fails, so its cache is always
cleared; the storage layer stops at the first pool that is missing, and what it noted until then
stays until a later batch finds all its pools.
-/
namespace StorageCluster

/-- What the layers cache for a batch. -/
def Devices.caches (d : Devices) : NameSet .resource × NameSet .pool :=
  (d.drbd.batch, d.storage.preparedPools)

namespace StorageState

variable {s s' : StorageState}

theorem addVolume_preparedPools {name : ResourceName} {v : Volume}
    (h : s.addVolume name v = .ok s') : s'.preparedPools = s.preparedPools := by
  rcases addVolume_ok h with rfl | ⟨space, _, rfl⟩ <;> rfl

theorem addVolumes_preparedPools (s : StorageState) (name : ResourceName) (volumes : List Volume) :
    (s.addVolumes name volumes).1.preparedPools = s.preparedPools := by
  induction volumes generalizing s with
  | nil => rfl
  | cons v rest ih =>
    unfold addVolumes
    split
    next now hv => exact (ih now).trans (addVolume_preparedPools hv)
    next => rfl

theorem release_preparedPools (s : StorageState) (name : ResourceName) :
    (s.release name).preparedPools = s.preparedPools :=
  List.foldlRecOn (s.volumesOf name) surrender
    (motive := fun now : StorageState => now.preparedPools = s.preparedPools) rfl fun _ h _ _ => h

/-- Pools are noted up to the first one that is missing. -/
theorem contains_preparePools (s : StorageState) (pools : List PoolName) (pool : PoolName) :
    (s.preparePools pools).1.preparedPools.contains pool = true ↔
      s.preparedPools.contains pool = true ∨
        ∃ noted ∈ pools.takeWhile s.pools.contains, (pool == noted) = true := by
  induction pools generalizing s with
  | nil => simp [preparePools]
  | cons head rest ih =>
    unfold preparePools
    cases hc : s.pools.contains head with
    | false => simp [hc]
    | true =>
      rw [if_pos rfl, ih, List.takeWhile_cons_of_pos hc]
      simp only [SortedMap.contains_insert, Bool.or_eq_true, beq_iff_eq, List.mem_cons,
        exists_eq_or_imp, Name.beq_iff_compare]
      rw [or_assoc, or_left_comm]

end StorageState

/-! ## Work leaves the caches alone -/

namespace Resource

variable {r : Resource} {kind : LayerKind} {d d' : Devices}

theorem Step.caches_eq (h : r.Step kind d d') : d'.caches = d.caches := by
  cases h with
  | allocate =>
    have hbatch : (d.drbd.allocate r.name).2.batch = d.drbd.batch := by
      unfold DrbdState.allocate
      cases d.drbd.minors.find? r.name <;> rfl
    simp only [Devices.caches, hbatch]
  | create => simp only [Devices.caches, StorageState.addVolumes_preparedPools]
  | remove => simp only [Devices.caches, StorageState.release_preparedPools]
  | _ => rfl

theorem work_caches (r : Resource) (stack : List LayerKind) (d : Devices) (entries : Report) :
    ((r.work stack).run (d, entries)).2.1.caches = d.caches :=
  (work_steps r stack d entries).keeps (P := fun now => now.caches = d.caches)
    (fun _ _ _ _ hs hnow => hs.caches_eq.trans hnow) rfl

end Resource

theorem Devices.Takes.caches_eq {d d' : Devices} {turns : List Turn} (h : d.Takes turns d') :
    d'.caches = d.caches :=
  h.keeps (P := fun now => now.caches = d.caches)
    (fun turn _ now hnow => (turn.resource.work_caches turn.stack now []).trans hnow) rfl

/-! ## Preparing and clearing -/

/-- The pools of the volumes of some resources, in order. -/
def poolsOf (resources : List Resource) : List PoolName :=
  resources.flatMap fun r => r.volumes.values.map (·.pool)

theorem forall_mem_poolsOf {members : List LayerResource} {p : PoolName → Prop} :
    (∀ pool ∈ poolsOf (members.map (·.resource)), p pool) ↔
      ∀ l ∈ members, ∀ v ∈ l.resource.volumes.values, p v.pool := by
  simp only [poolsOf, List.forall_mem_flatMap, List.forall_mem_map]

namespace Batch

variable {a : Arena} {b : Batch Devices} {kinds : List LayerKind}

theorem prepareKind_drbd {kind : LayerKind} (hk : kind ≠ .drbd) (members : List LayerResource)
    (d : Devices) : (prepareKind .builtIn members kind d).1.drbd = d.drbd := by
  unfold prepareKind
  rw [Registry.find?_builtIn]
  cases kind <;> first | rfl | exact absurd rfl hk

theorem prepareKind_storage (members : List LayerResource) (kind : LayerKind) (d : Devices) :
    (prepareKind .builtIn members kind d).1.storage =
      if kind = .storage then (d.storage.preparePools (poolsOf (members.map (·.resource)))).1
      else d.storage := by
  unfold prepareKind poolsOf
  rw [Registry.find?_builtIn, List.flatMap_map]
  cases kind <;> rfl

/-- The first phase changes the cache of DRBD only if it prepares DRBD. -/
theorem prepare_drbd (h : (kinds.foldl (prepareStep .builtIn a) b).defect = none)
    (hk : .drbd ∉ kinds) :
    (kinds.foldl (prepareStep .builtIn a) b).devices.drbd = b.devices.drbd := by
  induction kinds generalizing b with
  | nil => rfl
  | cons kind rest ih =>
    rw [List.mem_cons, not_or] at hk
    have hb : b.defect = none := (prepare_ok h).1
    rw [List.foldl_cons, ih h hk.2, prepareStep_devices hb, prepareKind_drbd (Ne.symm hk.1)]

/-- The first phase notes pools once, if there are storage layers. -/
theorem prepare_storage (h : (kinds.foldl (prepareStep .builtIn a) b).defect = none)
    (hnodup : kinds.Nodup) :
    (kinds.foldl (prepareStep .builtIn a) b).devices.storage =
      if .storage ∈ kinds then
        (b.devices.storage.preparePools (poolsOf ((a.ofKind .storage).map (·.resource)))).1
      else b.devices.storage := by
  induction kinds generalizing b with
  | nil => rfl
  | cons kind rest ih =>
    obtain ⟨hnew, hrest⟩ := List.nodup_cons.1 hnodup
    have hb : b.defect = none := (prepare_ok h).1
    rw [List.foldl_cons, ih h hrest, prepareStep_devices hb, prepareKind_storage]
    by_cases hk : kind = .storage
    · subst hk
      simp [hnew]
    · simp [hk, Ne.symm hk]

/-- Layers are prepared unless nobody works on them or a pool is missing. -/
theorem mem_prepared_iff (h : (kinds.foldl (prepareStep .builtIn a) b).defect = none)
    (hnew : b.prepared = []) (kind : LayerKind) :
    kind ∈ (kinds.foldl (prepareStep .builtIn a) b).prepared ↔
      kind ∈ kinds ∧ kind ≠ .nvme ∧ (kind = .storage →
        ∀ pool ∈ poolsOf ((a.ofKind .storage).map (·.resource)),
          b.devices.storage.pools.contains pool = true) := by
  obtain ⟨_, hkinds, _, _, hprepared⟩ := prepare_ok h
  have hok : ∀ call ∈ prepareCalls .builtIn a b kinds, call.2 = .ok () ↔ call.1 ≠ .nvme ∧
      (call.1 = .storage → ∀ pool ∈ poolsOf ((a.ofKind .storage).map (·.resource)),
        b.devices.storage.pools.contains pool = true) := by
    intro call hc
    rw [prepareCall_ok_iff hc]
    refine and_congr_right fun _ => forall_congr' fun hk => ?_
    rw [hk, forall_mem_poolsOf]
  rw [hprepared, hnew, List.nil_append, mem_flatMap_preparedBy]
  constructor
  · intro hc
    exact ⟨hkinds ▸ List.mem_map_of_mem (f := Prod.fst) hc, (hok (kind, .ok ()) hc).1 rfl⟩
  · rintro ⟨hk, hfine⟩
    rw [← hkinds] at hk
    obtain ⟨⟨_, outcome⟩, hc, rfl⟩ := List.mem_map.1 hk
    have houtcome : outcome = .ok () := (hok _ hc).2 hfine
    exact houtcome ▸ hc

/-- The last phase empties the caches of the layers that it is for. -/
theorem cleanup_caches (kinds : List LayerKind) :
    (kinds.foldl (cleanupStep .builtIn a) b).devices.caches =
      (if .drbd ∈ kinds then .empty else b.devices.caches.1,
        if .storage ∈ kinds then .empty else b.devices.caches.2) := by
  induction kinds generalizing b with
  | nil => rfl
  | cons kind rest ih =>
    have hstep : (cleanupStep .builtIn a b kind).devices.caches =
        (if kind = .drbd then .empty else b.devices.caches.1,
          if kind = .storage then .empty else b.devices.caches.2) := by
      cases hf : Registry.builtIn.find? kind with
      | none =>
        rw [Registry.find?_builtIn] at hf
        cases kind <;> cases hf
        simp [cleanupStep, Registry.find?_builtIn]
      | some handler =>
        rw [cleanupStep_devices hf]
        rw [Registry.find?_builtIn] at hf
        cases kind <;> cases hf <;> rfl
    rw [List.foldl_cons, ih, hstep]
    cases kind <;> simp

end Batch

/-! ## The storage layers of a batch -/

theorem Stack.filter_storage {stack : List LayerKind} (h : validate stack = .ok ()) :
    stack.filter (· == .storage) = [.storage] := by
  obtain ⟨hlast, hnodup⟩ := validate_eq_ok_iff.1 h
  rw [List.filter_beq, List.count_eq_one_of_mem hnodup (List.mem_of_getLast? hlast)]
  rfl

/-- Every resource that is expanded has one storage layer. -/
theorem StackMemory.LaysOut.ofKind_storage {m : StackMemory} {fullSync : Bool}
    {resources : List Resource} {snapshots : List Snapshot} {e : Expansion}
    (h : m.LaysOut fullSync resources snapshots e) :
    (e.arena.ofKind .storage).map (·.resource) = (m.built fullSync resources).map Prod.fst := by
  have hpairs : (e.arena.ofKind .storage).map (·.resource) =
      ((e.arena.layers.map fun l => (l.resource, l.kind)).filter (·.2 == .storage)).map
        Prod.fst := by
    rw [Arena.ofKind, List.filter_map, List.map_map]
    rfl
  rw [hpairs, h.kinds, List.filter_flatMap, List.map_flatMap, List.map_eq_flatMap]
  refine List.flatMap_congr fun item hitem => ?_
  have hone := Stack.filter_storage (validate_of_built hitem)
  rw [List.filter_map]
  simp only [Function.comp_def, hone, List.map_cons, List.map_nil]

theorem Arena.mem_kinds {a : Arena} {kind : LayerKind} : kind ∈ a.kinds ↔ a.ofKind kind ≠ [] := by
  have hall : kind ∈ LayerKind.all := by cases kind <;> decide
  simp [kinds, ofKind, hall, List.filter_eq_nil_iff]

namespace Satellite

open Batch

variable {s : Satellite Devices} {resources : List Resource} {snapshots : List Snapshot}

theorem preparedBatch_defect (hbuiltIn : s.registry = .builtIn) (resources : List Resource)
    (snapshots : List Snapshot) : (s.preparedBatch resources snapshots).defect = none := by
  have hdefect := batch_defect hbuiltIn resources snapshots
  rw [batch_eq hbuiltIn] at hdefect
  exact (process_ok (cleanup_ok hdefect).1).1

/-- The resources of a batch that have a stack. -/
def stacked (s : Satellite Devices) (resources : List Resource) : List Resource :=
  (s.memory.built s.fullSync resources).map Prod.fst

theorem ofKind_storage_expansion (s : Satellite Devices) (resources : List Resource)
    (snapshots : List Snapshot) :
    ((s.expansion resources snapshots).arena.ofKind .storage).map (·.resource) =
      s.stacked resources :=
  (s.memory.expand_laysOut s.fullSync resources snapshots).ofKind_storage

theorem storage_mem_kinds (s : Satellite Devices) (resources : List Resource)
    (snapshots : List Snapshot) :
    .storage ∈ (s.expansion resources snapshots).arena.kinds ↔ s.stacked resources ≠ [] := by
  rw [← s.ofKind_storage_expansion resources snapshots]
  exact Arena.mem_kinds.trans (not_congr List.map_eq_nil_iff.symm)

/-- The DRBD layer is prepared whenever there is one. -/
theorem drbd_mem_prepared (hbuiltIn : s.registry = .builtIn) (resources : List Resource)
    (snapshots : List Snapshot) :
    .drbd ∈ (s.preparedBatch resources snapshots).prepared ↔
      .drbd ∈ (s.expansion resources snapshots).arena.kinds := by
  have hprepared := mem_prepared_iff (b := s.start.tell (failureLog _))
    (preparedBatch_defect hbuiltIn resources snapshots) rfl .drbd
  exact hprepared.trans (by simp)

/-- The storage layer is prepared if there is one and no pool is missing. -/
theorem storage_mem_prepared (hbuiltIn : s.registry = .builtIn) (resources : List Resource)
    (snapshots : List Snapshot) :
    .storage ∈ (s.preparedBatch resources snapshots).prepared ↔ s.stacked resources ≠ [] ∧
      ∀ pool ∈ poolsOf (s.stacked resources), s.devices.storage.pools.contains pool = true := by
  have hprepared := mem_prepared_iff (b := s.start.tell (failureLog _))
    (preparedBatch_defect hbuiltIn resources snapshots) rfl .storage
  refine hprepared.trans (and_congr (s.storage_mem_kinds resources snapshots) ?_)
  rw [ofKind_storage_expansion]
  exact ⟨fun h => h.2 rfl, fun h => ⟨LayerKind.noConfusion, fun _ => h⟩⟩

/-- What a dispatch makes of the caches: it empties those of the layers that it prepared, and adds
to those of layers that it could not prepare. -/
theorem dispatch_caches (hbuiltIn : s.registry = .builtIn) (resources : List Resource)
    (snapshots : List Snapshot) :
    let kinds := (s.expansion resources snapshots).arena.kinds
    let pools := poolsOf (s.stacked resources)
    (s.dispatch resources snapshots).satellite.devices.caches =
      (if .drbd ∈ kinds then .empty else s.devices.caches.1,
        if s.stacked resources = [] then s.devices.caches.2
        else if ∀ pool ∈ pools, s.devices.storage.pools.contains pool = true then .empty
        else (s.devices.storage.preparePools pools).1.preparedPools) := by
  intro kinds pools
  let arena := (s.expansion resources snapshots).arena
  let first := s.start.tell (failureLog (s.expansion resources snapshots))
  have hdefect := preparedBatch_defect hbuiltIn resources snapshots
  have hkind : .storage ∈ kinds ↔ s.stacked resources ≠ [] := s.storage_mem_kinds ..
  have hdrbd := drbd_mem_prepared hbuiltIn resources snapshots
  have hstorage := storage_mem_prepared hbuiltIn resources snapshots
  have hdone : (s.processedBatch resources snapshots).prepared =
      (s.preparedBatch resources snapshots).prepared := process_prepared _
  have hcaches := (processedBatch_takes hbuiltIn resources snapshots).caches_eq
  rw [dispatch_devices, batch_eq hbuiltIn, cleanup_caches, hdone, hcaches]
  refine Prod.ext ?_ ?_
  · by_cases hk : LayerKind.drbd ∈ kinds
    · simp only [hdrbd, hk, kinds, if_true]
    · have hkept := congrArg DrbdState.batch (prepare_drbd (b := first) hdefect hk)
      simp only [hdrbd, hk, kinds, if_false]
      exact hkept
  · have hnoted := congrArg StorageState.preparedPools
      (prepare_storage (b := first) hdefect (nodup_kinds arena))
    rw [ofKind_storage_expansion] at hnoted
    by_cases hk : s.stacked resources = []
    · have hnone : LayerKind.storage ∉ kinds := fun h => hkind.1 h hk
      rw [if_neg hnone] at hnoted
      rw [if_neg fun h => (hstorage.1 h).1 hk, if_pos hk]
      exact hnoted
    · have hsome : LayerKind.storage ∈ kinds := hkind.2 hk
      rw [if_pos hsome] at hnoted
      simp only [hstorage, hk, ne_eq, not_false_eq_true, true_and, if_false]
      split
      next => rfl
      next => exact hnoted

/-! ## Runs -/

/-- A dispatch: the satellite that met it, and its batch. -/
structure Round where
  satellite : Satellite Devices
  resources : List Resource
  snapshots : List Snapshot

namespace Round

/-- The satellite after the dispatch. -/
def after (round : Round) : Satellite Devices :=
  (round.satellite.dispatch round.resources round.snapshots).satellite

/-- The pools of all volumes of the batch that are to be served, in order. -/
def pools (round : Round) : List PoolName := poolsOf (round.satellite.stacked round.resources)

def knows (round : Round) (pool : PoolName) : Bool :=
  round.satellite.devices.storage.pools.contains pool

/-- Some pool is missing, and this one comes before the first that is. -/
structure Leaves (round : Round) (pool : PoolName) : Prop where
  missing : ∃ p ∈ round.pools, round.knows p = false
  ahead : ∃ p ∈ round.pools.takeWhile round.knows, (pool == p) = true

/-- There is something to serve, and no pool is missing. -/
structure Settles (round : Round) : Prop where
  stacked : round.satellite.stacked round.resources ≠ []
  known : ∀ p ∈ round.pools, round.knows p = true

/-- A dispatch leaves what it noted in front of a missing pool, and what was left before unless it
finds all its pools. -/
theorem contains_after (round : Round) (hbuiltIn : round.satellite.registry = .builtIn)
    (pool : PoolName) :
    round.after.devices.storage.preparedPools.contains pool = true ↔ round.Leaves pool ∨
      ¬ round.Settles ∧ round.satellite.devices.storage.preparedPools.contains pool = true := by
  have hcaches := congrArg Prod.snd
    (dispatch_caches hbuiltIn round.resources round.snapshots)
  change round.after.devices.storage.preparedPools = _ at hcaches
  rw [hcaches]
  dsimp only
  split
  next hempty =>
    have hleaves : ¬ round.Leaves pool := fun ⟨⟨p, hp, _⟩, _⟩ => by
      rw [pools, hempty] at hp
      cases hp
    have hsettles : ¬ round.Settles := fun h => h.stacked hempty
    simp only [hleaves, hsettles, not_false_eq_true, true_and, false_or]
    rfl
  next hsome =>
    split
    next hall =>
      have hleaves : ¬ round.Leaves pool := fun ⟨⟨p, hp, hmissing⟩, _⟩ => by
        rw [show round.knows p = true from hall p hp] at hmissing
        cases hmissing
      have hsettles : round.Settles := ⟨hsome, hall⟩
      simp [hleaves, hsettles, SortedMap.contains]
    next hmissing =>
      obtain ⟨p, hp, hunknown⟩ : ∃ p ∈ poolsOf (round.satellite.stacked round.resources),
          round.satellite.devices.storage.pools.contains p = false := by
        simpa only [not_forall, Bool.not_eq_true, exists_prop] using hmissing
      have hleaves : round.Leaves pool ↔
          ∃ p ∈ round.pools.takeWhile round.knows, (pool == p) = true :=
        ⟨fun h => h.ahead, fun h => ⟨⟨p, hp, hunknown⟩, h⟩⟩
      have hsettles : ¬ round.Settles := fun h => hmissing h.known
      rw [hleaves, StorageState.contains_preparePools, or_comm]
      simp only [hsettles, not_false_eq_true, true_and]
      rfl

end Round

/-- Satellites with the built-in layers that began with empty caches, and their dispatches, the
latest first. In between everything may change but the layers and what they cached. -/
inductive Ran : List Round → Satellite Devices → Prop
  | start {s : Satellite Devices} (builtIn : s.registry = .builtIn)
    (caches : s.devices.caches = (.empty, .empty)) : Ran [] s
  | dispatch {past : List Round} {s : Satellite Devices} (before : Ran past s)
    (resources : List Resource) (snapshots : List Snapshot) :
    Ran (⟨s, resources, snapshots⟩ :: past) (s.dispatch resources snapshots).satellite
  | meanwhile {past : List Round} {s s' : Satellite Devices} (before : Ran past s)
    (registry : s'.registry = s.registry) (caches : s'.devices.caches = s.devices.caches) :
    Ran past s'

namespace Ran

variable {past : List Round}

theorem builtIn (h : Ran past s) : s.registry = .builtIn := by
  induction h with
  | start builtIn => exact builtIn
  | @dispatch past s _ resources snapshots ih =>
    exact (dispatch_registry s resources snapshots).1.trans ih
  | meanwhile _ registry _ ih => exact registry.trans ih

/-- The cache of DRBD is empty after every dispatch. -/
theorem batch_eq_empty (h : Ran past s) : s.devices.drbd.batch = .empty := by
  induction h with
  | start _ caches => exact congrArg Prod.fst caches
  | @dispatch past s before resources snapshots ih =>
    have hcaches := congrArg Prod.fst (dispatch_caches before.builtIn resources snapshots)
    refine hcaches.trans ?_
    dsimp only
    split
    next => rfl
    next => exact ih
  | meanwhile _ _ caches ih => exact (congrArg Prod.fst caches).trans ih

/-- Some dispatch left the pool, and no later one found all its pools. -/
def Stays (past : List Round) (pool : PoolName) : Prop :=
  ∃ later round earlier, past = later ++ round :: earlier ∧ round.Leaves pool ∧
    ∀ next ∈ later, ¬ next.Settles

theorem stays_cons {round : Round} {pool : PoolName} :
    Stays (round :: past) pool ↔ round.Leaves pool ∨ ¬ round.Settles ∧ Stays past pool := by
  constructor
  · rintro ⟨_ | ⟨first, later⟩, left, earlier, hpast, hleaves, hunsettled⟩
    · obtain ⟨rfl, rfl⟩ := List.cons.inj hpast
      exact .inl hleaves
    · obtain ⟨rfl, rfl⟩ := List.cons.inj hpast
      obtain ⟨hfirst, hlater⟩ := List.forall_mem_cons.1 hunsettled
      exact .inr ⟨hfirst, later, left, earlier, rfl, hleaves, hlater⟩
  · rintro (hleaves | ⟨hfirst, later, left, earlier, rfl, hleaves, hlater⟩)
    · exact ⟨[], round, past, rfl, hleaves, fun _ hnext => by cases hnext⟩
    · exact ⟨round :: later, left, earlier, rfl, hleaves, List.forall_mem_cons.2 ⟨hfirst, hlater⟩⟩

theorem contains_preparedPools (h : Ran past s) (pool : PoolName) :
    s.devices.storage.preparedPools.contains pool = true ↔ Stays past pool := by
  induction h with
  | @start s _ caches =>
    have hempty : s.devices.storage.preparedPools = .empty := congrArg Prod.snd caches
    have hnone : ¬ Stays [] pool := fun ⟨later, _, _, hpast, _⟩ => by cases later <;> cases hpast
    simp [hnone, hempty, SortedMap.contains]
  | @dispatch past s before resources snapshots ih =>
    rw [stays_cons, ← ih]
    exact Round.contains_after ⟨s, resources, snapshots⟩ before.builtIn pool
  | @meanwhile past s s' _ _ caches ih =>
    have hsame : s'.devices.storage.preparedPools = s.devices.storage.preparedPools :=
      congrArg Prod.snd caches
    rw [hsame]
    exact ih

/-- After every dispatch the cache of DRBD is empty. The storage layer keeps the pools that stay,
so its cache is empty just if each dispatch that left pools was followed by one that found all of
its own. -/
theorem caches_eq_empty_iff (h : Ran past s) :
    s.devices.drbd.batch = .empty ∧
      (∀ pool, s.devices.storage.preparedPools.contains pool = true ↔ Stays past pool) ∧
      (s.devices.storage.preparedPools = .empty ↔
        ∀ later round earlier, past = later ++ round :: earlier →
          (∃ pool, round.Leaves pool) → ∃ next ∈ later, next.Settles) := by
  refine ⟨h.batch_eq_empty, h.contains_preparedPools, ?_⟩
  simp only [SortedMap.eq_empty_iff, ← Bool.not_eq_true, h.contains_preparedPools]
  constructor
  · rintro hnone later round earlier hpast ⟨pool, hleaves⟩
    by_contra hunsettled
    refine hnone pool ⟨later, round, earlier, hpast, hleaves, fun next hnext hsettles => ?_⟩
    exact hunsettled ⟨next, hnext, hsettles⟩
  · rintro hall pool ⟨later, round, earlier, hpast, hleaves, hunsettled⟩
    obtain ⟨next, hnext, hsettles⟩ := hall later round earlier hpast ⟨pool, hleaves⟩
    exact hunsettled next hnext hsettles

end Ran

namespace Sample

/-- Has its second volume in a pool that is not there. -/
def stray : Resource :=
  { fitting with
    volumes := .ofList [(0, { uuid := default, number := 0, pool, sizeBytes := 4 }),
      (1, { uuid := default, number := 1, pool := ⟨"pool9", by decide⟩, sizeBytes := 4 })] }

/-- Could not prepare the storage layer. -/
def littered : Satellite Devices := (satellite.dispatch [stray] []).satellite

end Sample

open Satellite.Sample in
/-- The batch is over, and the pool of the first volume is still noted. -/
theorem dispatch_leaves_pool :
    littered.devices.storage.preparedPools.keys = [pool] ∧
      ¬ ∀ past s, Ran past s → s.devices.caches = (.empty, .empty) := by
  have hkeys : littered.devices.storage.preparedPools.keys = [pool] := by decide +kernel
  have hran : Ran [⟨satellite, [stray], []⟩] littered := (Ran.start rfl rfl).dispatch [stray] []
  refine ⟨hkeys, fun hall => ?_⟩
  have hnone : littered.devices.storage.preparedPools = .empty :=
    congrArg Prod.snd (hall _ _ hran)
  rw [hnone] at hkeys
  cases hkeys

open Satellite.Sample in
/-- The pool stays until a batch finds its pools. -/
theorem caches_of_littered :
    littered.devices.storage.preparedPools.keys = [pool] ∧
      Ran.Stays [⟨satellite, [stray], []⟩] pool ∧
      (littered.dispatch [fitting] []).satellite.devices.caches = (.empty, .empty) ∧
      ∀ other, ¬ Ran.Stays [⟨littered, [fitting], []⟩, ⟨satellite, [stray], []⟩] other := by
  have hfirst : Ran [⟨satellite, [stray], []⟩] littered :=
    (Ran.start rfl rfl).dispatch [stray] []
  have hsecond : Ran [⟨littered, [fitting], []⟩, ⟨satellite, [stray], []⟩]
      (littered.dispatch [fitting] []).satellite := hfirst.dispatch [fitting] []
  have hcaches : (littered.dispatch [fitting] []).satellite.devices.caches = (.empty, .empty) := by
    decide +kernel
  have hnone : (littered.dispatch [fitting] []).satellite.devices.storage.preparedPools = .empty :=
    congrArg Prod.snd hcaches
  refine ⟨by decide +kernel, (hfirst.caches_eq_empty_iff.2.1 pool).1 (by decide +kernel), hcaches,
    fun other hstays => ?_⟩
  have hcontains := (hsecond.caches_eq_empty_iff.2.1 other).2 hstays
  rw [hnone] at hcontains
  cases hcontains

end Satellite

end StorageCluster
