import StorageCluster.Proofs.Satellite.Delivery
import StorageCluster.Proofs.Satellite.Recording

/-!
# Failed preparations

A layer that fails to be prepared takes down the stacks that it is part of, and no others: a root is
processed just when all layers below it are prepared, and the handlers are called with nothing that
belongs to another root. A defect that is met while preparing stops the whole batch.
-/
namespace StorageCluster

variable {δ : Type} {log : δ → List HandlerCall} {registry : Registry δ} {a : Arena}

/-- The calls to the handlers in one batch, phase by phase. -/
structure HandlerCalls where
  prepares : List (LayerKind × Except Fault Unit)
  layers : List LayerResource
  cleared : List LayerKind

namespace HandlerCalls

/-- The calls in the order in which they are made. -/
def inOrder (calls : HandlerCalls) : List HandlerCall :=
  (calls.prepares.map fun call => .prepare call.1 call.2) ++ calls.layers.map .process ++
    calls.cleared.map .clear

end HandlerCalls

/-- A kind without a handler, or whose preparation failed. -/
def Registry.Unprepared (registry : Registry δ) (prepares : List (LayerKind × Except Fault Unit))
    (kind : LayerKind) : Prop :=
  registry.find? kind = none ∨ ∃ fault, (kind, .error fault) ∈ prepares

/-- Just the roots whose layers are all prepared are processed, once each and in order, and nothing
that lies below another root is. -/
structure HandlerCalls.Isolate (calls : HandlerCalls) (registry : Registry δ) (a : Arena) :
    Prop where
  order : (calls.layers.filter LayerResource.isRoot).Sublist a.roots
  processed : ∀ root ∈ a.roots, root ∈ calls.layers ↔
    ∀ l, a.Below root l → ¬registry.Unprepared calls.prepares l.kind
  spared : ∀ root ∈ a.roots, root ∉ calls.layers → ∀ l, a.Below root l → l ∉ calls.layers

namespace Batch

variable {b : Batch δ}

/-- The calls of the preparation that a handler was there for. -/
def heard (registry : Registry δ) (calls : List (LayerKind × Except Fault Unit)) :
    List (LayerKind × Except Fault Unit) :=
  calls.filter fun call => registry.contains call.1

theorem prepareKind_log (hr : registry.Records log) (kind : LayerKind) (devices : δ) :
    let call := (kind, (prepareKind registry (a.ofKind kind) kind devices).2)
    log (prepareKind registry (a.ofKind kind) kind devices).1 =
      log devices ++ (heard registry [call]).map fun call => .prepare call.1 call.2 := by
  cases hf : registry.find? kind with
  | none => simp [prepareKind_unregistered hf, heard, SortedMap.contains, hf]
  | some handler =>
    have hlog := (hr kind handler hf).prepare devices (a.ofKind kind)
      (distinctSnapshots [] ((a.ofKind kind).flatMap (·.snapshots)))
    simp [prepareKind, hf, heard, SortedMap.contains, hlog]

/-- The log of the preparation. -/
theorem prepare_log (hr : registry.Records log) (kinds : List LayerKind) :
    log (kinds.foldl (prepareStep registry a) b).devices = log b.devices ++
      (heard registry (prepareCalls registry a b kinds)).map fun call =>
        .prepare call.1 call.2 := by
  induction b, kinds using prepare_induction registry a with
  | idle b kinds hcalls hsame =>
    rw [hcalls, hsame]
    exact (List.append_nil _).symm
  | step b kind rest hb ih =>
    have hown := prepareKind_log (a := a) hr kind b.devices
    rw [List.foldl_cons, ih, prepareStep_devices hb, hown, prepareCalls_cons hb,
      List.append_assoc, ← List.map_append]
    simp only [heard, ← List.filter_append]
    rfl

/-- A defect that a call of the preparation returns is the first one: it is the last call. -/
theorem firstDefect_of_mem_prepareCalls {kinds : List LayerKind}
    {call : LayerKind × Except Fault Unit} {fault : Fault}
    (hc : call ∈ prepareCalls registry a b kinds) (hd : defect? call.2 = some fault) :
    ((prepareCalls registry a b kinds).map Prod.snd).findSome? defect? = some fault := by
  induction b, kinds using prepare_induction registry a with
  | idle b kinds hcalls =>
    rw [hcalls] at hc
    cases hc
  | step b kind rest hb ih =>
    rw [prepareCalls_cons hb] at hc ⊢
    rw [List.map_cons, List.findSome?_cons]
    obtain ⟨_, _, hstep, _⟩ := prepareStep_spec registry a hb kind
    rcases List.mem_cons.1 hc with rfl | hc
    · rw [hd]
    · cases hown : defect? (prepareCall registry a b kind).2 with
      | none => exact ih hc
      | some other =>
        rw [(prepare_stopped (hstep.trans hown) rest).1] at hc
        cases hc

/-- The preparation meets the defect that one of its calls returns. -/
theorem prepare_defect (hb : b.defect = none) (kinds : List LayerKind) (fault : Fault) :
    (kinds.foldl (prepareStep registry a) b).defect = some fault ↔
      ∃ kind, (kind, .error fault) ∈ prepareCalls registry a b kinds ∧ fault.isDefect = true := by
  rw [prepare_firstDefect, hb, Option.none_or]
  constructor
  · intro h
    obtain ⟨outcome, ho, hdefect⟩ := List.exists_of_findSome?_eq_some h
    obtain ⟨⟨kind, _⟩, hc, rfl⟩ := List.mem_map.1 ho
    obtain ⟨rfl, hd⟩ := defect?_eq_some.1 hdefect
    exact ⟨kind, hc, hd⟩
  · rintro ⟨kind, hc, hd⟩
    exact firstDefect_of_mem_prepareCalls hc (defect?_eq_some.2 ⟨rfl, hd⟩)

/-- A root is blocked just when some layer below it is not prepared. -/
theorem mem_blocked_iff (ha : a.Woven) {calls : List (LayerKind × Except Fault Unit)}
    (hkinds : calls.map Prod.fst = a.kinds)
    (hnone : ∀ call ∈ calls, registry.find? call.1 = none → ∃ fault, call.2 = .error fault)
    {root : LayerResource} (hroot : root ∈ a.roots) :
    root.id ∈ calls.flatMap (blockedBy a) ↔
      ∃ l, a.Below root l ∧ registry.Unprepared (heard registry calls) l.kind := by
  constructor
  · intro h
    obtain ⟨⟨kind, fault | ok⟩, hc, hblocked⟩ := List.mem_flatMap.1 h
    · obtain ⟨l, hl, hid⟩ := List.mem_flatMap.1 hblocked
      obtain ⟨hm, hk⟩ := List.mem_filter.1 hl
      have hkind : l.kind = kind := by simpa using hk
      have hof : a.rootOf l.id = .ok root.id := by
        cases hr : a.rootOf l.id with
        | error _ => rw [hr] at hid; cases hid
        | ok id => rw [hr] at hid; rw [List.mem_singleton.1 hid]
      refine ⟨l, (ha.rootOf_eq_iff hroot hm).1 hof, ?_⟩
      cases hf : registry.find? l.kind with
      | none => exact .inl hf
      | some handler =>
        refine .inr ⟨fault, List.mem_filter.2 ⟨hkind ▸ hc, ?_⟩⟩
        exact SortedMap.contains_of_find? hf
    · cases hblocked
  · rintro ⟨l, hb, hun⟩
    have hm := hb.mem_layers (Arena.mem_roots.1 hroot).1
    obtain ⟨fault, hc⟩ : ∃ fault, (l.kind, .error fault) ∈ calls := by
      rcases hun with hn | ⟨fault, hc⟩
      · have hk := Arena.kind_mem_kinds hm
        rw [← hkinds] at hk
        obtain ⟨call, hc, hkind⟩ := List.mem_map.1 hk
        obtain ⟨fault, hf⟩ := hnone call hc (hkind ▸ hn)
        exact ⟨fault, by rw [← hkind, ← hf]; exact hc⟩
      · exact ⟨fault, (List.mem_filter.1 hc).1⟩
    refine List.mem_flatMap.2 ⟨_, hc, List.mem_flatMap.2 ⟨l, ?_, ?_⟩⟩
    · exact List.mem_filter.2 ⟨hm, beq_self_eq_true l.kind⟩
    · rw [(ha.rootOf_eq_iff hroot hm).2 hb]
      exact List.mem_singleton.2 rfl

/-- A defect is met by a handler: that there is none for a kind is no defect. -/
theorem mem_heard_of_defect {kinds : List LayerKind} {kind : LayerKind} {fault : Fault}
    (hc : (kind, .error fault) ∈ prepareCalls registry a b kinds) (hd : fault.isDefect = true) :
    (kind, .error fault) ∈ heard registry (prepareCalls registry a b kinds) := by
  refine List.mem_filter.2 ⟨hc, ?_⟩
  cases hf : registry.find? kind with
  | some handler => exact SortedMap.contains_of_find? hf
  | none =>
    have hcall := Except.error.inj (unregistered_of_mem hc hf)
    rw [hcall] at hd
    cases hd

/-- After a preparation without defect the roots that are run are those whose layers are all
prepared. -/
theorem mem_runnable_iff (ha : a.Woven) (hblocked : b.blocked = [])
    (hd : (a.kinds.foldl (prepareStep registry a) b).defect = none) {root : LayerResource}
    (hroot : root ∈ a.roots) :
    root ∈ (a.kinds.foldl (prepareStep registry a) b).runnable a ↔ ∀ l, a.Below root l →
      ¬registry.Unprepared (heard registry (prepareCalls registry a b a.kinds)) l.kind := by
  obtain ⟨_, hkinds, _, hblock, _⟩ := prepare_ok hd
  have hmem := mem_blocked_iff ha hkinds (fun call hc hn => ⟨_, unregistered_of_mem hc hn⟩) hroot
  rw [hblocked, List.nil_append] at hblock
  rw [runnable_of_ok hd, List.mem_filter, hblock]
  simp only [hroot, true_and, List.contains_eq_mem, Bool.not_eq_true', decide_eq_false_iff_not]
  rw [hmem]
  simp only [not_exists, not_and]

/-- The phase of processing isolates the roots that are not prepared. -/
theorem process_isolates (hr : registry.Records log) (ha : a.Woven)
    {prepares : List (LayerKind × Except Fault Unit)} (hd : b.defect = none)
    (hready : ∀ root ∈ a.roots, root ∈ b.runnable a ↔
      ∀ l, a.Below root l → ¬registry.Unprepared prepares l.kind) :
    ∃ layers : List LayerResource, log ((b.runnable a).foldl (processStep registry a) b).devices =
        log b.devices ++ layers.map .process ∧
      ∀ cleared, HandlerCalls.Isolate ⟨prepares, layers, cleared⟩ registry a := by
  have hroots : ∀ root ∈ b.runnable a, root ∈ a.roots ∧ registry.contains root.kind = true := by
    intro root hroot
    have hm : root ∈ a.roots := by
      rw [runnable_of_ok hd] at hroot
      exact (List.mem_filter.1 hroot).1
    refine ⟨hm, ?_⟩
    cases hf : registry.find? root.kind with
    | some handler => exact SortedMap.contains_of_find? hf
    | none => exact absurd (.inl hf) ((hready root hm).1 hroot root .top)
  obtain ⟨layers, hlog, hfilter, hbelow⟩ := process_log (b := b) hr ha hroots
  have hprocessed (root : LayerResource) (hroot : root ∈ a.roots) :
      root ∈ layers ↔ root ∈ b.runnable a := by
    have htop : root.isRoot = true := (List.mem_filter.1 hroot).2
    rw [← hfilter, List.mem_filter]
    simp [htop]
  refine ⟨layers, hlog, fun cleared => ⟨?_, ?_, ?_⟩⟩
  · rw [hfilter, runnable_of_ok hd]
    exact List.filter_sublist
  · intro root hroot
    exact (hprocessed root hroot).trans (hready root hroot)
  · intro root hroot hnot l hl hin
    obtain ⟨other, ho, hb⟩ := hbelow l hin
    have hsame := ha.below_unique hroot (hroots other ho).1 hl hb
    exact hnot ((hprocessed root hroot).2 (hsame ▸ ho))

section Run

variable {e : Expansion}

theorem prepareAll_log (hr : registry.Records log) (e : Expansion) (b : Batch δ) :
    log (prepareAll registry e b).devices = log b.devices ++
      (heard registry (b.calls registry e).prepares).map fun call => .prepare call.1 call.2 := by
  rw [calls_eq]
  exact prepare_log hr e.arena.kinds

theorem prepareAll_defect (hb : b.defect = none) (e : Expansion) (fault : Fault) :
    (prepareAll registry e b).defect = some fault ↔ ∃ kind,
      (kind, .error fault) ∈ (b.calls registry e).prepares ∧ fault.isDefect = true := by
  rw [calls_eq]
  exact prepare_defect (b := b.tell (failureLog e)) hb e.arena.kinds fault

theorem processAll_isolates (hr : registry.Records log) (he : e.arena.Woven)
    (hblocked : b.blocked = []) (hd : (prepareAll registry e b).defect = none) :
    ∃ layers : List LayerResource, log (processAll registry e b).devices =
        log (prepareAll registry e b).devices ++ layers.map .process ∧
      ∀ cleared, HandlerCalls.Isolate
        ⟨heard registry (b.calls registry e).prepares, layers, cleared⟩ registry e.arena := by
  rw [calls_eq]
  exact process_isolates hr he hd fun root hroot =>
    mem_runnable_iff (b := b.tell (failureLog e)) he hblocked hd hroot

/-- Between preparing and clearing, a run calls the handlers to process and for nothing else. -/
theorem processAll_log (hr : registry.Records log) (he : e.arena.Woven)
    (hblocked : b.blocked = []) :
    ∃ layers : List LayerResource, log (processAll registry e b).devices =
      log (prepareAll registry e b).devices ++ layers.map .process := by
  cases hd : (prepareAll registry e b).defect with
  | some fault =>
    rw [processAll_of_defect hd]
    exact ⟨[], (List.append_nil _).symm⟩
  | none =>
    obtain ⟨layers, hlayers, _⟩ := processAll_isolates hr he hblocked hd
    exact ⟨layers, hlayers⟩

/-- What a run calls the handlers with. -/
theorem run_calls (hr : registry.Records log) (he : e.arena.Woven) (hb : b.defect = none)
    (hblocked : b.blocked = []) :
    ∃ calls : HandlerCalls, log (run registry e b).devices = log b.devices ++ calls.inOrder ∧
      ((∀ kind fault, (kind, .error fault) ∈ calls.prepares → fault.isDefect = false) →
        calls.Isolate registry e.arena) ∧
      ∀ kind fault, (kind, .error fault) ∈ calls.prepares → fault.isDefect = true →
        calls.layers = [] ∧ (run registry e b).defect = some fault := by
  have hdefect (fault : Fault) : (prepareAll registry e b).defect = some fault ↔ ∃ kind,
      (kind, .error fault) ∈ (b.calls registry e).prepares ∧ fault.isDefect = true :=
    prepareAll_defect hb e fault
  obtain ⟨cleared, hcleared⟩ := cleanup_log (a := e.arena) (b := processAll registry e b) hr
    (processAll registry e b).prepared
  cases hd : (prepareAll registry e b).defect with
  | some fault =>
    -- nothing is processed, and the defect is the one that is returned
    have hsame := processAll_of_defect hd
    obtain ⟨kind, hk, hdefective⟩ := (hdefect fault).1 hd
    refine ⟨⟨heard registry (b.calls registry e).prepares, [], cleared⟩, ?_, ?_, ?_⟩
    · rw [run_eq, hcleared, hsame, prepareAll_log hr]
      simp [HandlerCalls.inOrder]
    · intro hno
      rw [calls_eq] at hk hno
      have hcontra := hno kind fault (mem_heard_of_defect hk hdefective)
      rw [hdefective] at hcontra
      cases hcontra
    · intro other fault' ho hd'
      have hfault := (hdefect fault').2 ⟨other, (List.mem_filter.1 ho).1, hd'⟩
      refine ⟨rfl, ?_⟩
      rw [run_eq, hsame, cleanup_firstDefect, hfault, Option.some_or]
  | none =>
    obtain ⟨layers, hlayers, hisolate⟩ := processAll_isolates hr he hblocked hd
    refine ⟨⟨heard registry (b.calls registry e).prepares, layers, cleared⟩, ?_,
      fun _ => hisolate cleared, ?_⟩
    · rw [run_eq, hcleared, hlayers, prepareAll_log hr]
      simp [HandlerCalls.inOrder]
    · intro kind fault hk hdefective
      have hsome := (hdefect fault).2 ⟨kind, (List.mem_filter.1 hk).1, hdefective⟩
      rw [hd] at hsome
      cases hsome

end Run

end Batch

namespace Satellite

namespace Sample

/-- A layer that does nothing but to note the calls made on it, and to be prepared as it is told. -/
def recorder (kind : LayerKind) (outcome : Except Fault Unit) :
    LayerHandler (List HandlerCall) where
  kind
  prepare calls _ _ := (calls ++ [.prepare kind outcome], outcome)
  process layer descend := do
    Act.update (· ++ [.process layer])
    descend
  clearCache calls := (calls ++ [.clear kind], .ok ())

theorem recorder_records (kind : LayerKind) (outcome : Except Fault Unit) :
    (recorder kind outcome).Records id kind := by
  refine ⟨fun _ _ _ => rfl, ?_, fun _ => rfl⟩
  intro layer descend P hd s
  obtain ⟨calls, hcalls, hP⟩ := hd (s.1 ++ [.process layer], s.2)
  refine ⟨calls, ?_, hP⟩
  simp only [recorder, Act.Orderly.run_bind]
  refine Eq.trans hcalls ?_
  simp

/-- Encryption cannot be prepared, and nobody works on remote devices. -/
def recording : Satellite (List HandlerCall) where
  registry := [recorder .drbd (.ok ()), recorder .luks (.error (.storage { message := "no key" })),
    recorder .storage (.ok ())].foldl Registry.register .empty
  devices := []

/-- Is encrypted, and lies next to a resource that is not. -/
def encrypted : Resource := resource ⟨"encrypted", by decide⟩ [.drbd, .luks, .storage] 4

theorem recording_records : recording.registry.Records id :=
  ((Registry.Records.empty.register (recorder_records _ _)).register
    (recorder_records _ _)).register (recorder_records _ _)

end Sample

open Satellite.Sample in
example : ((recording.dispatch [encrypted, fitting, remote] []).satellite.devices.filterMap
    fun call => match call with
      | .process l => some (l.resource.name.display, l.kind)
      | _ => none) = [("fitting", .drbd), ("fitting", .storage)] := by decide +kernel

end Satellite

end StorageCluster
