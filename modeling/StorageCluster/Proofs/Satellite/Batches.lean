import StorageCluster.Proofs.Satellite.Turns

/-!
# Batches of the built-in layers

What a dispatch does on a satellite that has the built-in layers: it never meets a defect, and it
works on those resources whose layers are all prepared, one after the other. If every layer can be
prepared, the batch is worked on as a whole and answered as if its resources came one by one.
-/
namespace StorageCluster

namespace Batch

theorem preparePools_ok_iff (s : StorageState) (pools : List PoolName) :
    (s.preparePools pools).2 = .ok () ↔ ∀ pool ∈ pools, s.pools.contains pool = true := by
  induction pools generalizing s with
  | nil => simp [StorageState.preparePools]
  | cons pool rest ih =>
    unfold StorageState.preparePools
    cases hc : s.pools.contains pool with
    | true => simp [hc, ih]
    | false => simp [hc]

theorem preparePools_fault {s : StorageState} {pools : List PoolName} {fault : Fault}
    (h : (s.preparePools pools).2 = .error fault) : fault.isLayerFault = true := by
  induction pools generalizing s with
  | nil => cases h
  | cons pool rest ih =>
    unfold StorageState.preparePools at h
    split at h
    · exact ih h
    · cases h
      rfl

/-- Layers of a kind can be prepared unless nobody works on them or a pool is missing. -/
theorem prepareKind_ok_iff (members : List LayerResource) (kind : LayerKind) (d : Devices) :
    (prepareKind Registry.builtIn members kind d).2 = .ok () ↔ kind ≠ .nvme ∧
      (kind = .storage → ∀ l ∈ members, ∀ v ∈ l.resource.volumes.values,
        d.storage.pools.contains v.pool = true) := by
  unfold prepareKind
  rw [Registry.find?_builtIn]
  cases kind with
  | storage =>
    refine (preparePools_ok_iff d.storage _).trans ?_
    simp only [List.mem_flatMap, List.mem_map]
    grind
  | nvme => simp
  | _ => simp [drbdLayer, luksLayer, Drbd.prepare]

/-- How preparing the layers of a kind ends depends on the pools that the batch starts with. -/
theorem prepareCall_ok_iff {a : Arena} {b : Batch Devices} {kinds : List LayerKind}
    {call : LayerKind × Except Fault Unit}
    (hc : call ∈ prepareCalls Registry.builtIn a b kinds) :
    call.2 = .ok () ↔ call.1 ≠ .nvme ∧ (call.1 = .storage → ∀ l ∈ a.ofKind call.1,
      ∀ v ∈ l.resource.volumes.values, b.devices.storage.pools.contains v.pool = true) := by
  obtain ⟨d, hd, hcall⟩ := mem_prepareCalls_lasting hc
  have hpools : d.storage.pools = b.devices.storage.pools := by
    change d.lasting.storage.pools = b.devices.lasting.storage.pools
    rw [hd]
  rw [hcall, prepareKind_ok_iff, hpools]

theorem prepareKind_fault {members : List LayerResource} {kind : LayerKind} {d : Devices}
    {fault : Fault} (h : (prepareKind Registry.builtIn members kind d).2 = .error fault) :
    fault.isLayerFault = true := by
  unfold prepareKind at h
  rw [Registry.find?_builtIn] at h
  cases kind with
  | storage => exact preparePools_fault h
  | nvme =>
    cases h
    rfl
  | _ => cases h

theorem clearCache_ok {kind : LayerKind} {handler : LayerHandler Devices}
    (hf : Registry.builtIn.find? kind = some handler) (d : Devices) :
    (handler.clearCache d).2 = .ok () := by
  rw [Registry.find?_builtIn] at hf
  cases kind <;> cases hf <;> rfl

theorem not_isDefect {fault : Fault} (h : fault.isLayerFault = true) : fault.isDefect = false := by
  cases fault <;> first | rfl | cases h

end Batch

namespace Satellite

variable {s : Satellite Devices} {resources : List Resource} {snapshots : List Snapshot}

open Batch

theorem expansion_laid (s : Satellite Devices) (resources : List Resource)
    (snapshots : List Snapshot) :
    StackMemory.Laid resources (s.expansion resources snapshots) :=
  StackMemory.expand_laid s.memory resources snapshots s.fullSync

theorem expansion_valid (s : Satellite Devices) (resources : List Resource)
    (snapshots : List Snapshot) :
    (s.expansion resources snapshots).arena.Chained fun _ stack => Stack.validate stack = .ok () :=
  StackMemory.expand_valid s.memory resources snapshots s.fullSync

/-- The built-in layers never return a defect. -/
theorem batch_defect (hbuiltIn : s.registry = .builtIn) (resources : List Resource)
    (snapshots : List Snapshot) : (s.batch resources snapshots).defect = none := by
  have ha := (s.expansion_laid resources snapshots).woven.linked
  have hfirst : (s.batch resources snapshots).defect =
      (s.calls resources snapshots).outcomes.findSome? defect? := run_firstDefect rfl
  rw [hfirst, List.findSome?_eq_none_iff]
  intro outcome ho
  cases hd : defect? outcome with
  | none => rfl
  | some fault =>
    obtain ⟨rfl, hdefect⟩ := defect?_eq_some.1 hd
    have hlayer : fault.isLayerFault = true := by
      simp only [Calls.outcomes, List.mem_append, List.mem_map] at ho
      rcases ho with (⟨call, hc, ho⟩ | ⟨call, hc, ho⟩) | ⟨call, hc, ho⟩
      · obtain ⟨devices, hcall⟩ := mem_prepareCalls hc
        rw [hbuiltIn, ho] at hcall
        exact prepareKind_fault hcall.symm
      · exact (calls_orderly (hbuiltIn ▸ Registry.builtIn_orderly) ha s.start call hc).fault
          fault ho
      · obtain ⟨handler, devices, hf, hcall⟩ := mem_cleanupCalls hc
        rw [hbuiltIn] at hf
        rw [ho, clearCache_ok hf] at hcall
        cases hcall
    rw [not_isDefect hlayer] at hdefect
    cases hdefect

/-- The roots that are processed: those that no layer without preparation blocks. -/
theorem processes_roots (hbuiltIn : s.registry = .builtIn) :
    let e := s.expansion resources snapshots
    let calls := s.calls resources snapshots
    calls.processes.map ProcessCall.root = e.arena.roots.filter fun l =>
      !(calls.prepares.flatMap (blockedBy e.arena)).contains l.id :=
  (run_ok (batch_defect hbuiltIn resources snapshots)).2.2

theorem mem_processed_iff (hbuiltIn : s.registry = .builtIn) {root : LayerResource} :
    root ∈ (s.calls resources snapshots).processes.map ProcessCall.root ↔
      root ∈ (s.expansion resources snapshots).arena.roots ∧
        root.id ∉ (s.calls resources snapshots).prepares.flatMap
          (blockedBy (s.expansion resources snapshots).arena) := by
  rw [processes_roots hbuiltIn, List.mem_filter, Bool.not_eq_true', ← Bool.not_eq_true,
    List.contains_iff_mem]

/-- Roots that are processed have a layer that is registered. -/
theorem contains_of_processed (hbuiltIn : s.registry = .builtIn) {root : LayerResource}
    (hroot : root ∈ (s.calls resources snapshots).processes.map ProcessCall.root) :
    root ∈ (s.expansion resources snapshots).arena.roots ∧
      s.registry.contains root.kind = true := by
  have ha := (s.expansion_laid resources snapshots).woven.linked
  obtain ⟨hroot, hfree⟩ := (mem_processed_iff hbuiltIn).1 hroot
  refine ⟨hroot, ?_⟩
  cases hf : s.registry.find? root.kind with
  | some handler => exact SortedMap.contains_of_find? hf
  | none =>
    obtain ⟨hmem, hparent⟩ := Arena.mem_roots.1 hroot
    obtain ⟨fault, hc⟩ := exists_prepare_fault
      (batch_defect hbuiltIn resources snapshots) (Arena.kind_mem_kinds hmem) hf
    have hof : (s.expansion resources snapshots).arena.rootOf root.id = .ok root.id := by
      simp [Arena.rootOf, Arena.climb, ha.get?_id hmem, hparent]
    refine absurd (List.mem_flatMap.2 ⟨_, hc, List.mem_flatMap.2 ⟨root, ?_, ?_⟩⟩) hfree
    · exact List.mem_filter.2 ⟨hmem, beq_self_eq_true root.kind⟩
    · rw [hof]
      exact List.mem_singleton.2 rfl

/-- The turns of a dispatch, in order. -/
def turns (s : Satellite Devices) (resources : List Resource) (snapshots : List Snapshot) :
    List Turn :=
  (s.calls resources snapshots).processes.map
    (ProcessCall.turn (s.expansion resources snapshots).arena)

/-- The batch when its layers were prepared. -/
def preparedBatch (s : Satellite Devices) (resources : List Resource) (snapshots : List Snapshot) :
    Batch Devices :=
  let e := s.expansion resources snapshots
  e.arena.kinds.foldl (prepareStep .builtIn e.arena) (s.start.tell (failureLog e))

/-- The batch when its roots were processed. -/
def processedBatch (s : Satellite Devices) (resources : List Resource)
    (snapshots : List Snapshot) : Batch Devices :=
  let e := s.expansion resources snapshots
  let prepared := s.preparedBatch resources snapshots
  (prepared.runnable e.arena).foldl (processStep .builtIn e.arena) prepared

/-- A batch ends with the clearing of what was prepared. -/
theorem batch_eq (hbuiltIn : s.registry = .builtIn) :
    let processed := s.processedBatch resources snapshots
    s.batch resources snapshots = processed.prepared.foldl
      (cleanupStep .builtIn (s.expansion resources snapshots).arena) processed := by
  unfold batch
  rw [run_eq, hbuiltIn]
  rfl

theorem dispatch_devices (s : Satellite Devices) (resources : List Resource)
    (snapshots : List Snapshot) :
    (s.dispatch resources snapshots).satellite.devices = (s.batch resources snapshots).devices := by
  unfold dispatch
  dsimp only
  split <;> rfl

/-- Processing a batch is taking its turns. -/
theorem processedBatch_takes (hbuiltIn : s.registry = .builtIn) (resources : List Resource)
    (snapshots : List Snapshot) :
    (s.preparedBatch resources snapshots).devices.Takes (s.turns resources snapshots)
      (s.processedBatch resources snapshots).devices := by
  let e := s.expansion resources snapshots
  let prepared := s.preparedBatch resources snapshots
  have hcalls : (s.calls resources snapshots).processes =
      processCalls .builtIn e.arena prepared (prepared.runnable e.arena) := by
    unfold calls
    rw [calls_eq, hbuiltIn]
    rfl
  have hroots : ∀ root ∈ prepared.runnable e.arena, root ∈ e.arena.roots ∧
      Registry.builtIn.contains root.kind = true := by
    intro root hroot
    rw [← map_root_processCalls .builtIn e.arena prepared (prepared.runnable e.arena),
      ← hcalls] at hroot
    have h := contains_of_processed hbuiltIn hroot
    rwa [hbuiltIn] at h
  rw [turns, hcalls]
  exact process_takes (s.expansion_valid resources snapshots)
    (s.expansion_laid resources snapshots).woven.linked hroots

/-- What a dispatch does to the devices, its turns do. -/
theorem dispatch_takes (hbuiltIn : s.registry = .builtIn) (resources : List Resource)
    (snapshots : List Snapshot) :
    s.devices.lasting.Takes (s.turns resources snapshots)
      (s.dispatch resources snapshots).satellite.devices.lasting := by
  have hprepared : (s.preparedBatch resources snapshots).devices.lasting = s.devices.lasting :=
    prepare_lasting (b := s.start.tell _) (s.expansion resources snapshots).arena.kinds
  have htakes := (processedBatch_takes hbuiltIn resources snapshots).lasting
  rw [hprepared] at htakes
  rw [dispatch_devices, batch_eq hbuiltIn, cleanup_lasting]
  exact htakes

/-- Each turn of a dispatch is that of a root which is processed. -/
theorem root_of_turn (hbuiltIn : s.registry = .builtIn) {turn : Turn}
    (h : turn ∈ s.turns resources snapshots) :
    ∃ root ∈ (s.expansion resources snapshots).arena.roots, turn.resource = root.resource ∧
      turn.stack = (s.expansion resources snapshots).arena.stackOf root := by
  obtain ⟨call, hc, rfl⟩ := List.mem_map.1 h
  exact ⟨call.root, (contains_of_processed hbuiltIn (List.mem_map_of_mem hc)).1, rfl, rfl⟩

/-- The resources that a dispatch works on, in order. -/
def worked (s : Satellite Devices) (resources : List Resource) (snapshots : List Snapshot) :
    List Resource :=
  (s.calls resources snapshots).processes.map fun call => call.root.resource

/-- A dispatch works on resources of its batch, one after the other. -/
theorem dispatch_works (hbuiltIn : s.registry = .builtIn)
    (hdistinct : resources.Pairwise fun a b => (a.name == b.name) = false)
    (snapshots : List Snapshot) :
    let plan := s.memory.stackFor s.fullSync
    (s.dispatch resources snapshots).satellite.devices.lasting =
        (s.worked resources snapshots).foldl (Devices.advance plan) s.devices.lasting ∧
      (s.calls resources snapshots).processes.map ProcessCall.answer =
        Devices.answers plan s.devices.lasting (s.worked resources snapshots) := by
  intro plan
  have hchained := StackMemory.expand_chained s.memory resources snapshots s.fullSync hdistinct
  have hplan : ∀ turn ∈ s.turns resources snapshots, plan turn.resource = .ok turn.stack := by
    intro turn hturn
    obtain ⟨root, hroot, hr, hs⟩ := root_of_turn hbuiltIn hturn
    rw [hr, hs]
    exact (hchained.stackOf (s.expansion_laid resources snapshots).woven.linked hroot).1
  have hanswers := (dispatch_takes hbuiltIn resources snapshots).answers hplan
  have hworked : (s.turns resources snapshots).map (·.resource) = s.worked resources snapshots := by
    unfold turns worked
    rw [List.map_map]
    rfl
  have hcalls : (s.turns resources snapshots).map Turn.answer =
      (s.calls resources snapshots).processes.map ProcessCall.answer := by
    unfold turns
    rw [List.map_map]
    rfl
  rwa [hworked, hcalls] at hanswers

end Satellite

end StorageCluster
