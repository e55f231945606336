import StorageCluster.Proofs.Satellite.Cleanup
import StorageCluster.Proofs.Satellite.Memory
import StorageCluster.Proofs.Satellite.Work

/-!
# What lasts beyond a batch

Layers cache what they are prepared with until the batch is over. The built-in layers never look at
these caches while they process, and neither preparing nor clearing changes anything else. So a
batch does to the devices what the work on its resources does, one after the other.
-/
namespace StorageCluster

def DrbdState.lasting (s : DrbdState) : DrbdState := { s with batch := .empty }

def StorageState.lasting (s : StorageState) : StorageState := { s with preparedPools := .empty }

/-- The devices without what is cached for a batch. -/
def Devices.lasting (d : Devices) : Devices :=
  { d with drbd := d.drbd.lasting, storage := d.storage.lasting }

/-! ## Work does not see the caches -/

theorem DrbdState.allocate_lasting (s : DrbdState) (name : ResourceName) :
    s.lasting.allocate name = ((s.allocate name).1, (s.allocate name).2.lasting) := by
  have hminors : s.lasting.minors = s.minors := rfl
  unfold allocate
  rw [hminors]
  cases s.minors.find? name <;> rfl

namespace StorageState

theorem addVolume_lasting (s : StorageState) (name : ResourceName) (v : Volume) :
    s.lasting.addVolume name v = (s.addVolume name v).map lasting := by
  have hvolumes : s.lasting.volumes = s.volumes := rfl
  have hpools : s.lasting.pools = s.pools := rfl
  unfold addVolume
  rw [hvolumes, hpools]
  dsimp only
  cases s.volumes.contains (name, v.number) with
  | true => rfl
  | false =>
    cases s.pools.find? v.pool with
    | none => rfl
    | some space =>
      by_cases hfits : space.free < v.sizeBytes.toNat
      · simp [hfits, Except.map]
      · simp [hfits, Except.map, lasting]

theorem addVolumes_lasting (s : StorageState) (name : ResourceName) (vs : List Volume) :
    s.lasting.addVolumes name vs =
      ((s.addVolumes name vs).1.lasting, (s.addVolumes name vs).2) := by
  induction vs generalizing s with
  | nil => rfl
  | cons v rest ih =>
    unfold addVolumes
    rw [addVolume_lasting]
    cases s.addVolume name v with
    | error fault => rfl
    | ok s' => exact ih s'

theorem foldl_surrender_lasting (es : List ((ResourceName × UInt32) × (PoolName × Nat)))
    (s : StorageState) : es.foldl surrender s.lasting = (es.foldl surrender s).lasting := by
  induction es generalizing s with
  | nil => rfl
  | cons e rest ih => exact ih (s.surrender e)

theorem release_lasting (s : StorageState) (name : ResourceName) :
    s.lasting.release name = (s.release name).lasting :=
  foldl_surrender_lasting (s.volumesOf name) s

end StorageState

/-- An action that goes on devices without their caches as it goes with them. -/
def Act.IgnoresCaches (act : Act Devices Unit) : Prop :=
  ∀ d entries, act.run (d.lasting, entries) =
    let done := act.run (d, entries)
    (done.1, done.2.1.lasting, done.2.2)

namespace Resource

variable {r : Resource} {rest : List LayerKind}

theorem under_ignoresCaches {descend : Act Devices Unit} (h : descend.IgnoresCaches) :
    (r.under descend).IgnoresCaches := by
  unfold under
  cases r.isDiskless
  · exact h
  · exact fun d entries => rfl

theorem drbd_ignoresCaches (h : (r.under (r.work rest)).IgnoresCaches) :
    (r.work (.drbd :: rest)).IgnoresCaches := by
  intro d entries
  rw [work_drbd, work_drbd]
  cases r.isDeleted
  · have hallocate : d.lasting.drbd.allocate r.name = _ := d.drbd.allocate_lasting r.name
    have hbelow : (r.under (r.work rest)).run
        ({ d.lasting with drbd := (d.drbd.allocate r.name).2.lasting }, entries) = _ :=
      h { d with drbd := (d.drbd.allocate r.name).2 } entries
    simp only [Bool.false_eq_true, if_false, hallocate, hbelow]
    rcases (r.under (r.work rest)).run _ with ⟨fault | _, d', more⟩ <;> rfl
  · simp only [if_true, h d entries]
    rcases (r.under (r.work rest)).run (d, entries) with ⟨fault | _, d', more⟩ <;> rfl

theorem luks_ignoresCaches (h : (r.work rest).IgnoresCaches) :
    (r.work (.luks :: rest)).IgnoresCaches := by
  intro d entries
  have hmasterKey : d.lasting.luks = d.luks := rfl
  rw [work_luks, work_luks, hmasterKey]
  cases r.isDeleted
  · cases d.luks.masterKey.isNone
    · simp only [Bool.false_eq_true, if_false, h d entries]
      rcases (r.work rest).run (d, entries) with ⟨fault | _, d', more⟩ <;> rfl
    · rfl
  · exact h { d with luks := { d.luks with opened := d.luks.opened.erase r.name } } entries

theorem storage_ignoresCaches : (r.work (.storage :: rest)).IgnoresCaches := by
  intro d entries
  have hstorage : d.lasting.storage = d.storage.lasting := rfl
  rw [work_storage, work_storage, hstorage, StorageState.release_lasting,
    StorageState.addVolumes_lasting]
  cases r.isDeleted
  · cases r.isDiskless
    · rcases d.storage.addVolumes r.name r.volumes.values with ⟨storage, fault | _⟩ <;> rfl
    · rfl
  · rfl

/-- Work on devices without their caches goes as it goes with them. -/
theorem work_ignoresCaches (r : Resource) (stack : List LayerKind) :
    (r.work stack).IgnoresCaches := by
  induction stack with
  | nil => exact fun d entries => rfl
  | cons kind rest ih =>
    cases kind with
    | drbd => exact drbd_ignoresCaches (under_ignoresCaches ih)
    | luks => exact luks_ignoresCaches ih
    | nvme => exact fun d entries => rfl
    | storage => exact storage_ignoresCaches

end Resource

namespace Devices

open Batch (closing)

variable {plan : StackMemory.Plan}

/-- What the work on a resource does to the devices: nothing if it has no stack. -/
def advance (plan : StackMemory.Plan) (d : Devices) (r : Resource) : Devices :=
  match plan r with
  | .ok stack => ((r.work stack).run (d, [])).2.1
  | .error _ => d

/-- What is answered of a resource when its turn comes. -/
def answer (plan : StackMemory.Plan) (d : Devices) (r : Resource) : Report :=
  match plan r with
  | .ok stack =>
    let done := (r.work stack).run (d, [])
    done.2.2 ++ [closing r.name done.1]
  | .error fault => [fault.toFault.toEntry.aboutDefinition r.name.display]

/-- The answers of resources that are worked on one after the other. -/
def answers (plan : StackMemory.Plan) : Devices → List Resource → Telling
  | _, [] => []
  | d, r :: rest => (r.name, answer plan d r) :: answers plan (advance plan d r) rest

theorem map_fst_answers (d : Devices) (resources : List Resource) :
    (answers plan d resources).map Prod.fst = resources.map (·.name) := by
  induction resources generalizing d with
  | nil => rfl
  | cons r rest ih => rw [answers, List.map_cons, List.map_cons, ih]

end Devices

/-! ## Preparing and clearing -/

namespace Batch

variable {a : Arena} {b : Batch Devices}

theorem preparePools_lasting (s : StorageState) (pools : List PoolName) :
    (s.preparePools pools).1.lasting = s.lasting := by
  induction pools generalizing s with
  | nil => rfl
  | cons pool rest ih =>
    unfold StorageState.preparePools
    split
    · exact ih _
    · rfl

theorem prepareKind_lasting (members : List LayerResource) (kind : LayerKind) (d : Devices) :
    (prepareKind Registry.builtIn members kind d).1.lasting = d.lasting := by
  unfold prepareKind
  rw [Registry.find?_builtIn]
  cases kind with
  | storage =>
    change Devices.lasting { d with storage := (d.storage.preparePools _).1 } = d.lasting
    unfold Devices.lasting
    simp only [preparePools_lasting]
  | _ => rfl

theorem prepare_lasting (kinds : List LayerKind) :
    (kinds.foldl (prepareStep Registry.builtIn a) b).devices.lasting = b.devices.lasting := by
  refine List.foldlRecOn kinds _
    (motive := fun now : Batch Devices => now.devices.lasting = b.devices.lasting) rfl
    fun now hnow kind _ => ?_
  cases hd : now.defect with
  | some fault =>
    rw [prepareStep, hd]
    exact hnow
  | none => rw [prepareStep_devices hd, prepareKind_lasting, hnow]

theorem cleanup_lasting (kinds : List LayerKind) :
    (kinds.foldl (cleanupStep Registry.builtIn a) b).devices.lasting = b.devices.lasting := by
  refine List.foldlRecOn kinds _
    (motive := fun now : Batch Devices => now.devices.lasting = b.devices.lasting) rfl
    fun now hnow kind _ => ?_
  cases hf : Registry.builtIn.find? kind with
  | none => rwa [cleanupStep, hf]
  | some handler =>
    rw [cleanupStep_devices hf]
    rw [Registry.find?_builtIn] at hf
    cases kind <;> cases hf <;> exact hnow

/-- Each preparation meets the devices as the batch found them, apart from caches. -/
theorem mem_prepareCalls_lasting {kinds : List LayerKind} {call : LayerKind × Except Fault Unit}
    (h : call ∈ prepareCalls Registry.builtIn a b kinds) :
    ∃ d : Devices, d.lasting = b.devices.lasting ∧
      call.2 = (prepareKind Registry.builtIn (a.ofKind call.1) call.1 d).2 := by
  induction b, kinds using prepare_induction Registry.builtIn a with
  | idle b kinds hcalls =>
    rw [hcalls] at h
    cases h
  | step b kind rest hb ih =>
    rw [prepareCalls_cons hb] at h
    rcases List.mem_cons.1 h with rfl | h
    · exact ⟨b.devices, rfl, rfl⟩
    · obtain ⟨d, hd, hcall⟩ := ih h
      refine ⟨d, hd.trans ?_, hcall⟩
      exact prepare_lasting (a := a) (b := b) [kind]

end Batch

end StorageCluster
