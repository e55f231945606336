import Mathlib.Data.List.Nodup
import StorageCluster.Proofs.Satellite.Isolation

/-!
# Clearing up

Every layer that is prepared is cleared once, when all processing is over, and no other layer is.
No fault keeps a dispatch from it: no layer is without a root, so blocking never breaks off, and a
defect in one phase does not keep the handlers from clearing. The defect that a dispatch returns is
the first one that it met in a handler.
-/
namespace StorageCluster

variable {δ : Type} {log : δ → List HandlerCall} {registry : Registry δ} {a : Arena}

/-- The layers that are cleared are those that were prepared, each of them once. -/
structure HandlerCalls.ClearsPrepared (calls : HandlerCalls) : Prop where
  once : ∀ kind, (kind, .ok ()) ∈ calls.prepares → calls.cleared.count kind = 1
  only : ∀ kind, (kind, .ok ()) ∉ calls.prepares → kind ∉ calls.cleared

/-- In some call of a dispatch a handler returned the fault. -/
inductive Calls.Raised (calls : Calls) (registry : Registry δ) (fault : Fault) : Prop
  | prepare {kind : LayerKind} {h : LayerHandler δ} (found : registry.find? kind = some h)
    (devices : δ) (layers : List LayerResource) (snapshots : List Snapshot)
    (returned : (h.prepare devices layers snapshots).2 = .error fault)
    (called : (kind, .error fault) ∈ calls.prepares)
  | process {call : ProcessCall} {h : LayerHandler δ}
    (found : registry.find? call.root.kind = some h) (descend : Act δ Unit) (devices : δ)
    (returned : ((h.process call.root descend).run (devices, [])).1 = .error fault)
    (called : call ∈ calls.processes) (outcome : call.outcome = .error fault)
  | clear {kind : LayerKind} {h : LayerHandler δ} (found : registry.find? kind = some h)
    (devices : δ) (returned : (h.clearCache devices).2 = .error fault)
    (called : (kind, .error fault) ∈ calls.cleanups)

namespace Batch

variable {b : Batch δ}

/-! ## Blocking -/

/-- Like `block`, but a layer without a root ends the whole dispatch. -/
def blockOrStop (arena : Arena) (kind : LayerKind) (fault : Fault) (b : Batch δ)
    (l : LayerResource) : Except ArenaFault (Batch δ) := do
  let b := b.addEntries l.resource.name [prepareEntry kind fault l.resource.name]
  let root ← arena.rootOf l.id
  return { b with blocked := b.blocked ++ [root] }

theorem blockOrStop_eq (ha : a.Linked) {l : LayerResource} (hl : l ∈ a.layers) (kind : LayerKind)
    (fault : Fault) (b : Batch δ) :
    blockOrStop a kind fault b l = .ok (block a kind fault b l) := by
  obtain ⟨root, _, hroot, _⟩ := ha.rootOf hl
  simp only [blockOrStop, block, hroot]
  rfl

/-- In a linked arena the layers of a kind are blocked without a stop. -/
theorem foldlM_blockOrStop (ha : a.Linked) (kind : LayerKind) (fault : Fault) (b : Batch δ) :
    (a.ofKind kind).foldlM (blockOrStop a kind fault) b =
      .ok ((a.ofKind kind).foldl (block a kind fault) b) := by
  have hmem : ∀ l ∈ a.ofKind kind, l ∈ a.layers := fun _ hl => List.mem_of_mem_filter hl
  revert hmem
  generalize a.ofKind kind = members
  intro hmem
  induction members generalizing b with
  | nil => rfl
  | cons l rest ih =>
    rw [List.foldlM_cons, blockOrStop_eq ha (hmem l List.mem_cons_self)]
    exact ih _ fun other ho => hmem other (List.mem_cons_of_mem l ho)

/-! ## What is prepared -/

/-- A defect ends the preparation; what was prepared before it stays so. -/
theorem prepare_prepared (kinds : List LayerKind) :
    (kinds.foldl (prepareStep registry a) b).prepared =
      b.prepared ++ (prepareCalls registry a b kinds).flatMap preparedBy := by
  induction b, kinds using prepare_induction registry a with
  | idle b kinds hcalls hsame => rw [hcalls, hsame, List.flatMap_nil, List.append_nil]
  | step b kind rest hb ih =>
    obtain ⟨_, hstep, _⟩ := prepareStep_spec registry a hb kind
    rw [List.foldl_cons, ih, hstep, prepareCalls_cons hb, List.flatMap_cons, List.append_assoc]

/-- The calls of the preparation go through some of the kinds in their order. -/
theorem prepareCalls_kinds (kinds : List LayerKind) :
    ((prepareCalls registry a b kinds).map Prod.fst).Sublist kinds := by
  induction b, kinds using prepare_induction registry a with
  | idle b kinds hcalls =>
    rw [hcalls]
    exact List.nil_sublist kinds
  | step b kind rest hb ih =>
    rw [prepareCalls_cons hb, List.map_cons]
    exact ih.cons_cons kind

theorem mem_flatMap_preparedBy {calls : List (LayerKind × Except Fault Unit)} {kind : LayerKind} :
    kind ∈ calls.flatMap preparedBy ↔ (kind, .ok ()) ∈ calls := by
  rw [List.mem_flatMap]
  constructor
  · rintro ⟨⟨other, fault | ok⟩, hc, hk⟩
    · cases hk
    · rw [List.mem_singleton.1 hk]
      exact hc
  · intro hc
    exact ⟨_, hc, List.mem_singleton.2 rfl⟩

theorem flatMap_preparedBy_sublist (calls : List (LayerKind × Except Fault Unit)) :
    (calls.flatMap preparedBy).Sublist (calls.map Prod.fst) := by
  induction calls with
  | nil => exact List.Sublist.refl _
  | cons call rest ih =>
    obtain ⟨kind, fault | ok⟩ := call
    · exact ih.cons kind
    · exact ih.cons_cons kind

theorem nodup_kinds (a : Arena) : a.kinds.Nodup :=
  List.Pairwise.filter _ (by decide : LayerKind.all.Nodup)

/-- Who is prepared was called, so there is a handler for it. -/
theorem contains_of_prepared {kinds : List LayerKind} {kind : LayerKind}
    (hk : (kind, .ok ()) ∈ prepareCalls registry a b kinds) : registry.contains kind = true := by
  cases hf : registry.find? kind with
  | some handler => exact SortedMap.contains_of_find? hf
  | none => cases unregistered_of_mem hk hf

/-! ## What is cleared -/

/-- Handlers are called to clear one after the other, whatever comes of it. -/
theorem clear_log (hr : registry.Records log) {kinds : List LayerKind}
    (hk : ∀ kind ∈ kinds, registry.contains kind = true) :
    log (kinds.foldl (cleanupStep registry a) b).devices = log b.devices ++ kinds.map .clear ∧
      (cleanupCalls registry a b kinds).map Prod.fst = kinds := by
  induction kinds generalizing b with
  | nil => exact ⟨(List.append_nil _).symm, rfl⟩
  | cons kind rest ih =>
    obtain ⟨handler, hf⟩ := Option.isSome_iff_exists.1 (hk kind List.mem_cons_self)
    obtain ⟨hlog, hcalls⟩ := ih (b := cleanupStep registry a b kind)
      fun other ho => hk other (List.mem_cons_of_mem kind ho)
    have hclear := (hr kind handler hf).clear b.devices
    constructor
    · rw [List.foldl_cons, hlog, cleanupStep_devices hf, hclear, List.append_assoc]
      rfl
    · simp only [cleanupCalls, cleanupCall, hf, Option.map_some, Option.toList_some,
        List.singleton_append, List.map_cons, hcalls]

/-! ## Who returned a defect -/

theorem mem_processCalls {roots : List LayerResource} {call : ProcessCall}
    (h : call ∈ processCalls registry a b roots) :
    call.root ∈ roots ∧
      ∃ devices, call.outcome = (processRoot registry a call.root devices).2.2 := by
  induction roots generalizing b with
  | nil => cases h
  | cons root rest ih =>
    rcases List.mem_cons.1 h with rfl | h
    · exact ⟨List.mem_cons_self, b.devices, rfl⟩
    · obtain ⟨hroot, houtcome⟩ := ih h
      exact ⟨List.mem_cons_of_mem root hroot, houtcome⟩

theorem mem_cleanupCalls {kinds : List LayerKind} {call : LayerKind × Except Fault Unit}
    (h : call ∈ cleanupCalls registry a b kinds) :
    ∃ handler devices, registry.find? call.1 = some handler ∧
      call.2 = (handler.clearCache devices).2 := by
  induction kinds generalizing b with
  | nil => cases h
  | cons kind rest ih =>
    rcases List.mem_append.1 h with h | h
    · obtain ⟨handler, hf, rfl⟩ := Option.map_eq_some_iff.1 (Option.mem_toList.1 h)
      exact ⟨handler, b.devices, hf, rfl⟩
    · exact ih h

/-- What comes of processing a root is what its handler returns. -/
theorem processRoot_outcome (ha : a.Linked) {root : LayerResource} (hroot : root ∈ a.layers)
    {handler : LayerHandler δ} (hf : registry.find? root.kind = some handler) (devices : δ) :
    (processRoot registry a root devices).2.2 = ((handler.process root
      (root.children.forM (processLayer registry a a.size))).run (devices, [])).1 := by
  simp only [processRoot, processTree, processLayer, hf, ha.get?_id hroot]
  rfl

/-- Every defect among the outcomes was returned by a handler. -/
theorem raised_of_mem_outcomes {e : Expansion} (he : e.arena.Linked) {fault : Fault}
    (ho : .error fault ∈ (b.calls registry e).outcomes) (hd : fault.isDefect = true) :
    (b.calls registry e).Raised registry fault := by
  simp only [Calls.outcomes, List.mem_append, List.mem_map] at ho
  rcases ho with (⟨⟨kind, outcome⟩, hc, rfl⟩ | ⟨call, hc, ho⟩) | ⟨⟨kind, outcome⟩, hc, rfl⟩
  · obtain ⟨devices, hcall⟩ := mem_prepareCalls hc
    cases hf : registry.find? kind with
    | none =>
      have hcall := Except.error.inj (unregistered_of_mem hc hf)
      rw [hcall] at hd
      cases hd
    | some handler =>
      simp only [prepareKind, hf] at hcall
      exact .prepare hf devices _ _ hcall.symm hc
  · obtain ⟨hroot, devices, houtcome⟩ := mem_processCalls hc
    have hlayer := mem_layers_of_runnable hroot
    cases hf : registry.find? call.root.kind with
    | none =>
      simp only [processRoot, hf, ho, Except.error.injEq] at houtcome
      rw [houtcome] at hd
      cases hd
    | some handler =>
      rw [ho, processRoot_outcome he hlayer hf] at houtcome
      exact .process hf _ devices houtcome.symm hc ho
  · obtain ⟨handler, devices, hf, hcall⟩ := mem_cleanupCalls hc
    exact .clear hf devices hcall.symm hc

/-! ## A whole run -/

/-- Cleared are the kinds that were prepared. -/
theorem processAll_prepared (registry : Registry δ) (e : Expansion) (hprepared : b.prepared = []) :
    (processAll registry e b).prepared = (b.calls registry e).prepares.flatMap preparedBy := by
  have hnone : (b.tell (failureLog e)).prepared = [] := hprepared
  rw [calls_eq]
  simp only [processAll, process_prepared, prepareAll, prepare_prepared, hnone, List.nil_append]

/-- The calls of a run to handlers: preparations first, then the layers that are processed, then
each prepared layer is called to clear. -/
theorem run_clears (hr : registry.Records log) {e : Expansion} (he : e.arena.Woven)
    (hblocked : b.blocked = []) (hprepared : b.prepared = []) :
    ∃ handled : HandlerCalls,
      handled.prepares = heard registry (b.calls registry e).prepares ∧
        handled.cleared = (b.calls registry e).cleanups.map Prod.fst ∧
        log (run registry e b).devices = log b.devices ++ handled.inOrder ∧
        handled.ClearsPrepared := by
  have hkinds := processAll_prepared registry e hprepared
  have hhandled : ∀ kind ∈ (processAll registry e b).prepared, registry.contains kind = true := by
    intro kind hk
    rw [hkinds, mem_flatMap_preparedBy, calls_eq] at hk
    exact contains_of_prepared hk
  obtain ⟨hcleared, hcleanups⟩ :=
    clear_log (a := e.arena) (b := processAll registry e b) hr hhandled
  obtain ⟨layers, hlayers⟩ := processAll_log hr he hblocked
  refine ⟨⟨heard registry (b.calls registry e).prepares, layers,
    (processAll registry e b).prepared⟩, rfl, ?_, ?_, ?_, ?_⟩
  · rw [calls_eq, hcleanups]
  · rw [run_eq, hcleared, hlayers, prepareAll_log hr]
    simp [HandlerCalls.inOrder]
  · intro kind hk
    have hnodup : (processAll registry e b).prepared.Nodup := by
      rw [hkinds, calls_eq]
      exact ((flatMap_preparedBy_sublist _).trans (prepareCalls_kinds e.arena.kinds)).nodup
        (nodup_kinds e.arena)
    refine List.count_eq_one_of_mem hnodup ?_
    rw [hkinds, mem_flatMap_preparedBy]
    exact (List.mem_filter.1 hk).1
  · intro kind hk hm
    have hm' : kind ∈ (b.calls registry e).prepares.flatMap preparedBy := hkinds ▸ hm
    refine hk (List.mem_filter.2 ⟨mem_flatMap_preparedBy.1 hm', hhandled kind hm⟩)

end Batch

namespace Satellite

variable {s : Satellite δ} {resources : List Resource} {snapshots : List Snapshot}

/-- A dispatch returns the first defect that its calls meet. -/
theorem dispatch_error_iff {fault : Fault} :
    (s.dispatch resources snapshots).result = .error fault ↔
      (s.calls resources snapshots).outcomes.findSome? defect? = some fault := by
  have hfirst : (s.batch resources snapshots).defect =
      (s.calls resources snapshots).outcomes.findSome? defect? := Batch.run_firstDefect rfl
  rw [← hfirst]
  cases hd : (s.batch resources snapshots).defect with
  | some other => simp [(dispatch_defect hd).2]
  | none => simp [(dispatch_ok hd).2]

/-- Whatever the handlers do, as long as they call each other only by descending: when all
processing is over, a dispatch clears each layer that was prepared once, and no other layer. It
never stops at a layer without a root, and it always releases the memory of the batch. If it fails,
a handler returned the defect that it returns. -/
theorem dispatch_clears_prepared (s : Satellite δ) (hlog : s.registry.Records log)
    (resources : List Resource) (snapshots : List Snapshot) :
    let e := s.expansion resources snapshots
    let d := s.dispatch resources snapshots
    let calls := s.calls resources snapshots
    (∃ handled : HandlerCalls,
        handled.prepares = Batch.heard s.registry calls.prepares ∧
        handled.cleared = calls.cleanups.map Prod.fst ∧
        log d.satellite.devices = log s.devices ++ handled.inOrder ∧ handled.ClearsPrepared) ∧
      (∀ (kind : LayerKind) (fault : Fault) (b : Batch δ),
        (e.arena.ofKind kind).foldlM (Batch.blockOrStop e.arena kind fault) b =
          .ok ((e.arena.ofKind kind).foldl (Batch.block e.arena kind fault) b)) ∧
      d.satellite.memory = (s.memory.expand resources snapshots s.fullSync).1.release e ∧
      ∀ fault, d.result = .error fault →
        fault.isDefect = true ∧ calls.Raised s.registry fault := by
  intro e d calls
  have hwoven : e.arena.Woven :=
    (StackMemory.expand_laid s.memory resources snapshots s.fullSync).woven
  have hafter : d.satellite.devices = (s.batch resources snapshots).devices ∧
      d.satellite.memory = (s.memory.expand resources snapshots s.fullSync).1.release e := by
    simp only [d, e, dispatch, batch, start, expansion]
    split <;> exact ⟨rfl, rfl⟩
  obtain ⟨hdevices, hmemory⟩ := hafter
  refine ⟨?_, Batch.foldlM_blockOrStop hwoven.linked, hmemory, ?_⟩
  · rw [hdevices]
    exact Batch.run_clears (b := s.start) hlog hwoven rfl rfl
  · intro fault hfault
    obtain ⟨outcome, ho, hdefect⟩ := List.exists_of_findSome?_eq_some (dispatch_error_iff.1 hfault)
    obtain ⟨rfl, hd⟩ := defect?_eq_some.1 hdefect
    exact ⟨hd, Batch.raised_of_mem_outcomes hwoven.linked ho hd⟩

namespace Sample

/-- A layer that notes the calls made on it and breaks down when it processes. -/
def breaking (kind : LayerKind) (fault : Fault) : LayerHandler (List HandlerCall) where
  kind
  prepare calls _ _ := (calls ++ [.prepare kind (.ok ())], .ok ())
  process layer _ := do
    Act.update (· ++ [.process layer])
    throw fault
  clearCache calls := (calls ++ [.clear kind], .error fault)

theorem breaking_records (kind : LayerKind) (fault : Fault) :
    (breaking kind fault).Records id kind := by
  refine ⟨fun _ _ _ => rfl, ?_, fun _ => rfl⟩
  intro layer descend P _ s
  exact ⟨[], rfl, fun _ h => absurd h List.not_mem_nil⟩

/-- Encryption cannot be prepared, and storage loses its database. -/
def broken : Satellite (List HandlerCall) where
  registry := [recorder .drbd (.ok ()), recorder .luks (.error (.storage { message := "no key" })),
    breaking .storage (.database "gone")].foldl Registry.register .empty
  devices := []

theorem broken_records : broken.registry.Records id :=
  ((Registry.Records.empty.register (recorder_records _ _)).register
    (recorder_records _ _)).register (breaking_records _ _)

end Sample

open Satellite.Sample in
/-- The dispatch fails while it processes, and still clears what was prepared. -/
theorem dispatch_clears_broken :
    let e := broken.expansion [encrypted, fitting] []
    let d := broken.dispatch [encrypted, fitting] []
    let calls := broken.calls [encrypted, fitting] []
    d.result.isOk = false ∧
      (∃ handled : HandlerCalls,
        handled.prepares = Batch.heard broken.registry calls.prepares ∧
        handled.cleared = [.drbd, .storage] ∧
        d.satellite.devices = [] ++ handled.inOrder ∧ handled.ClearsPrepared) ∧
      d.satellite.memory = (broken.memory.expand [encrypted, fitting] [] false).1.release e ∧
      ∀ fault, d.result = .error fault →
        fault.isDefect = true ∧ calls.Raised broken.registry fault := by
  intro e d calls
  obtain ⟨⟨handled, hprepares, hcleared, hlog, hclears⟩, _, hmemory, hraised⟩ :=
    dispatch_clears_prepared broken broken_records [encrypted, fitting] []
  have hkinds : calls.cleanups.map Prod.fst = [.drbd, .storage] := by decide +kernel
  exact ⟨by decide +kernel, ⟨handled, hprepares, hcleared.trans hkinds, hlog, hclears⟩, hmemory,
    hraised⟩

end Satellite

end StorageCluster
