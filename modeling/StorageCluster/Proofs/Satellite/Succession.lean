import StorageCluster.Proofs.Satellite.Readiness
import StorageCluster.Proofs.Satellite.Settlement

/-!
# Batches and their resources one by one

A batch that is ready leaves a satellite as it would be if its resources came one by one, each in a
batch of its own, and delivers the same answers.
-/
namespace StorageCluster

namespace Devices

variable {plan other : StackMemory.Plan}

/-- What is done for a resource is done in the layers that it reaches. -/
theorem advance_steps (plan : StackMemory.Plan) (d : Devices) (r : Resource) :
    r.Steps (r.reached ((plan r).toOption.getD [])) d (advance plan d r) := by
  unfold advance
  cases plan r with
  | error fault => exact .refl r _ d
  | ok stack => exact r.work_steps stack d []

/-- Work does not make pools appear or vanish, larger or smaller. -/
theorem capacity_foldl_advance (plan : StackMemory.Plan) (resources : List Resource) (d : Devices)
    (pool : PoolName) : (resources.foldl (advance plan) d).storage.capacity pool =
      d.storage.capacity pool := by
  refine List.foldlRecOn resources _
    (motive := fun now : Devices => now.storage.capacity pool = d.storage.capacity pool) rfl ?_
  intro now hnow r _
  exact (advance_steps plan now r).keeps (P := fun d' => d'.storage.capacity pool =
    d.storage.capacity pool) (fun _ _ _ _ hstep h => (hstep.capacity_eq pool).trans h) hnow

theorem foldl_advance_congr {resources : List Resource} (h : ∀ r ∈ resources, plan r = other r)
    (d : Devices) : resources.foldl (advance plan) d = resources.foldl (advance other) d :=
  List.foldl_ext _ _ d fun now r hr => by rw [advance, advance, h r hr]

theorem answers_congr {resources : List Resource} (h : ∀ r ∈ resources, plan r = other r)
    (d : Devices) : answers plan d resources = answers other d resources := by
  induction resources generalizing d with
  | nil => rfl
  | cons r rest ih =>
    have hr := h r List.mem_cons_self
    rw [answers, answers, ih fun o ho => h o (List.mem_cons_of_mem r ho), advance, advance, answer,
      answer, hr]

end Devices

theorem StorageState.contains_pools (s : StorageState) (pool : PoolName) :
    s.pools.contains pool = (s.capacity pool).isSome := by
  rw [capacity, Option.isSome_map, SortedMap.contains]

namespace StackMemory

/-- What is remembered of one resource does not matter to the others. -/
theorem stackFor_memorize {m : StackMemory} {plan : Plan} {fullSync : Bool} {r other : Resource}
    (h : (r.name == other.name) = false) :
    { m with known := memorize plan m.known r }.stackFor fullSync other =
      m.stackFor fullSync other := by
  unfold stackFor stackOf
  simp only [find?_memorize_other h]

theorem foldl_memorize_congr {plan other : Plan} {resources : List Resource}
    (h : ∀ r ∈ resources, plan r = other r) (known : Known) :
    resources.foldl (memorize plan) known = resources.foldl (memorize other) known :=
  List.foldl_ext _ _ known fun now r hr => by rw [memorize, memorize, h r hr]

end StackMemory

namespace Satellite

section Each

variable {δ : Type}

/-- Resources are dispatched one by one, each in a batch of its own. -/
def dispatchEach (s : Satellite δ) (snapshots : List Snapshot) :
    List Resource → Satellite δ × List (Dispatched δ)
  | [] => (s, [])
  | r :: rest =>
    let d := s.dispatch [r] snapshots
    let (after, more) := d.satellite.dispatchEach snapshots rest
    (after, d :: more)

end Each

variable {s : Satellite Devices} {resources : List Resource} {snapshots : List Snapshot}

/-- A batch that gets the same stacks is as ready while the same pools are there. -/
theorem Ready.congr {s' : Satellite Devices} (h : s.Ready resources)
    (hstacks : ∀ r ∈ resources,
      s'.memory.stackFor s'.fullSync r = s.memory.stackFor s.fullSync r)
    (hcapacity : ∀ pool, s'.devices.storage.capacity pool = s.devices.storage.capacity pool) :
    s'.Ready resources := by
  intro r hr kind hk
  unfold StackMemory.layersFor at hk
  rw [hstacks r hr] at hk
  obtain ⟨hnvme, hpools⟩ := h r hr kind hk
  refine ⟨hnvme, fun hstorage v hv => ?_⟩
  have hpool := hpools hstorage v hv
  rw [StorageState.contains_pools] at hpool ⊢
  rwa [hcapacity]

/-- Pools are there after a dispatch just when they were there before. -/
theorem dispatch_capacity (hbuiltIn : s.registry = .builtIn)
    (hdistinct : resources.Pairwise fun a b => (a.name == b.name) = false) (pool : PoolName) :
    (s.dispatch resources snapshots).satellite.devices.storage.capacity pool =
      s.devices.storage.capacity pool := by
  have hdevices := (dispatch_works hbuiltIn hdistinct snapshots).1
  have hcapacity := congrArg (fun d : Devices => d.storage.capacity pool) hdevices
  exact hcapacity.trans (Devices.capacity_foldl_advance ..)

/-- After one resource of a batch the others are as ready, and get the same stacks. -/
theorem dispatch_single {r : Resource} {rest : List Resource} (hbuiltIn : s.registry = .builtIn)
    (hr : ∀ other ∈ rest, (r.name == other.name) = false) (hready : s.Ready (r :: rest))
    (snapshots : List Snapshot) :
    let next := (s.dispatch [r] snapshots).satellite
    (∀ other ∈ rest, next.memory.stackFor next.fullSync other =
        s.memory.stackFor s.fullSync other) ∧ next.Ready rest := by
  intro next
  have hsingle : [r].Pairwise fun a b => (a.name == b.name) = false := List.pairwise_singleton _ r
  have hstacks : ∀ other ∈ rest, next.memory.stackFor next.fullSync other =
      s.memory.stackFor s.fullSync other := by
    intro other ho
    rw [(dispatch_registry s [r] snapshots).2, s.dispatch_memory snapshots hsingle]
    exact StackMemory.stackFor_memorize (hr other ho)
  have hrest : s.Ready rest := fun other ho => hready other (List.mem_cons_of_mem r ho)
  exact ⟨hstacks, hrest.congr hstacks (dispatch_capacity hbuiltIn hsingle)⟩

/-- Resources that are ready as a batch do one by one what their work does. -/
theorem dispatchEach_ready (hbuiltIn : s.registry = .builtIn)
    (hdistinct : resources.Pairwise fun a b => (a.name == b.name) = false)
    (hready : s.Ready resources) (snapshots : List Snapshot) :
    let plan := s.memory.stackFor s.fullSync
    let each := s.dispatchEach snapshots resources
    (∀ d ∈ each.2, ∃ report, d.result = .ok report) ∧
      each.1.devices.lasting = resources.foldl (Devices.advance plan) s.devices.lasting ∧
      each.1.memory = { s.memory with
        known := resources.foldl (StackMemory.memorize plan) s.memory.known } ∧
      (each.2.flatMap (·.notified)).Perm (Devices.answers plan s.devices.lasting resources) := by
  induction resources generalizing s with
  | nil => exact ⟨fun d hd => absurd hd List.not_mem_nil, rfl, rfl, .refl _⟩
  | cons r rest ih =>
    intro plan each
    obtain ⟨hr, hrest⟩ := List.pairwise_cons.1 hdistinct
    have hsingle : [r].Pairwise fun a b => (a.name == b.name) = false := List.pairwise_singleton _ r
    have hfirst : s.Ready [r] := fun other ho => hready other (by
      rw [List.mem_singleton.1 ho]
      exact List.mem_cons_self)
    let next := (s.dispatch [r] snapshots).satellite
    obtain ⟨hstacks, hnext⟩ := dispatch_single hbuiltIn hr hready snapshots
    obtain ⟨hresult, hdevices, hnotified⟩ := dispatch_ready hbuiltIn hsingle hfirst snapshots
    obtain ⟨hresults, hlater, hmemory, hanswers⟩ :=
      ih ((dispatch_registry s [r] snapshots).1.trans hbuiltIn) hrest hnext
    have hdevices : next.devices.lasting = Devices.advance plan s.devices.lasting r := hdevices
    have hknown : next.memory = { s.memory with
        known := StackMemory.memorize plan s.memory.known r } := s.dispatch_memory snapshots hsingle
    refine ⟨?_, ?_, ?_, ?_⟩
    · intro d hd
      rcases List.mem_cons.1 hd with rfl | hd
      · exact hresult
      · exact hresults d hd
    · rw [List.foldl_cons, ← hdevices, ← Devices.foldl_advance_congr hstacks]
      exact hlater
    · refine hmemory.trans ?_
      rw [StackMemory.foldl_memorize_congr hstacks, hknown]
      rfl
    · have hsplit : Devices.answers plan s.devices.lasting (r :: rest) =
          Devices.answers plan s.devices.lasting [r] ++
            Devices.answers plan next.devices.lasting rest := by
        rw [hdevices]
        rfl
      rw [hsplit, ← Devices.answers_congr hstacks]
      exact hnotified.append hanswers

/-- A batch whose layers can all be prepared does what its resources do one by one: the devices and
the memory end up the same, and each resource gets the same answer, also if it fails. -/
theorem dispatch_eq_each (s : Satellite Devices) (hbuiltIn : s.registry = .builtIn)
    (resources : List Resource) (snapshots : List Snapshot)
    (hdistinct : resources.Pairwise fun a b => (a.name == b.name) = false)
    (hprepared : ∀ kind fault, (kind, .error fault) ∉ (s.calls resources snapshots).prepares) :
    let batch := s.dispatch resources snapshots
    let each := s.dispatchEach snapshots resources
    batch.satellite.devices.drbd.minors = each.1.devices.drbd.minors ∧
      batch.satellite.devices.luks.opened = each.1.devices.luks.opened ∧
      batch.satellite.devices.storage.volumes = each.1.devices.storage.volumes ∧
      batch.satellite.devices.storage.pools = each.1.devices.storage.pools ∧
      batch.satellite.memory = each.1.memory ∧
      (∃ report, batch.result = .ok report) ∧ (∀ d ∈ each.2, ∃ report, d.result = .ok report) ∧
      batch.notified.Perm (each.2.flatMap (·.notified)) := by
  intro batch each
  have hready := (ready_iff hbuiltIn hdistinct snapshots).2 hprepared
  obtain ⟨hresult, hdevices, hnotified⟩ := dispatch_ready hbuiltIn hdistinct hready snapshots
  obtain ⟨hresults, hlater, hmemory, hanswers⟩ :=
    dispatchEach_ready hbuiltIn hdistinct hready snapshots
  have hsame : batch.satellite.devices.lasting = each.1.devices.lasting :=
    hdevices.trans hlater.symm
  refine ⟨?_, ?_, ?_, ?_, ?_, hresult, hresults, hnotified.trans hanswers.symm⟩
  · exact congrArg (·.drbd.minors) hsame
  · exact congrArg (·.luks.opened) hsame
  · exact congrArg (·.storage.volumes) hsame
  · exact congrArg (·.storage.pools) hsame
  · exact (s.dispatch_memory snapshots hdistinct).trans hmemory.symm

namespace Sample

/-- One resource fits, one needs more space than there is, and one has no valid stack. -/
def mixed : List Resource := [fitting, greedy, inverted]

end Sample

open Satellite.Sample in
/-- The minor of the resource that finds no space stays allocated either way. -/
theorem dispatch_eq_each_mixed :
    let batch := satellite.dispatch mixed []
    let each := satellite.dispatchEach [] mixed
    batch.satellite.devices.drbd.minors = each.1.devices.drbd.minors ∧
      batch.satellite.devices.drbd.minors.values = [1000, 1001] ∧
      batch.notified.Perm (each.2.flatMap (·.notified)) ∧
      (batch.notified.map fun told => told.2.hasErrors) = [false, true, true] := by
  have hdistinct : mixed.Pairwise fun a b => (a.name == b.name) = false := by decide +kernel
  have hprepares : (satellite.calls mixed []).prepares.all (fun call => call.2.isOk) = true := by
    decide +kernel
  have hprepared : ∀ kind fault, (kind, .error fault) ∉ (satellite.calls mixed []).prepares := by
    intro kind fault hc
    have hok := List.all_eq_true.1 hprepares _ hc
    cases hok
  obtain ⟨hminors, _, _, _, _, _, _, hnotified⟩ :=
    dispatch_eq_each satellite rfl mixed [] hdistinct hprepared
  exact ⟨hminors, by decide +kernel, hnotified, by decide +kernel⟩

end Satellite

end StorageCluster
