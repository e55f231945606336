import StorageCluster.Proofs.Satellite.Batches

/-!
# Batches that are ready

A batch is ready for a satellite when all layers of its resources can be prepared: somebody works on
them, and the pools of all volumes are there. Then all resources that have a stack are worked on, in
the order of the batch, and each is answered what its own work gives.
-/
namespace StorageCluster

/-- In a log that tells of each name once, what is told is what stands there. -/
theorem Telling.about_of_mem {log : Telling}
    (h : log.Pairwise fun a b => (a.1 == b.1) = false) {told : ResourceName × Report}
    (hm : told ∈ log) : Telling.about log told.1 = told.2 := by
  induction log with
  | nil => cases hm
  | cons head rest ih =>
    obtain ⟨hhead, hrest⟩ := List.pairwise_cons.1 h
    rw [about, List.flatMap_cons, ← about]
    rcases List.mem_cons.1 hm with rfl | hm
    · have hnone : about rest told.1 = [] :=
        List.flatMap_eq_nil_iff.2 fun other ho => by simp [hhead other ho]
      rw [hnone, Name.beq_self, if_pos rfl, List.append_nil]
    · have hother : (told.1 == head.1) = false := by rw [Name.beq_comm, hhead told hm]
      simp [hother, ih hrest hm]

/-- What is told of a processed root can be told at once. -/
theorem Batch.about_map_answer (calls : List ProcessCall) (name : ResourceName) :
    Telling.about (calls.flatMap Batch.processLog) name =
      Telling.about (calls.map ProcessCall.answer) name := by
  induction calls with
  | nil => rfl
  | cons call rest ih =>
    rw [List.flatMap_cons, Telling.about_append, ih, List.map_cons, Telling.about, Telling.about,
      Telling.about, List.flatMap_cons]
    congr 1
    simp only [Batch.processLog, ProcessCall.answer, List.flatMap_cons, List.flatMap_nil]
    by_cases hn : (name == call.root.resource.name) = true <;> simp [hn]

namespace Devices

variable {plan : StackMemory.Plan}

theorem foldl_advance_filter (resources : List Resource) (d : Devices) :
    (resources.filter fun r => (plan r).isOk).foldl (advance plan) d =
      resources.foldl (advance plan) d := by
  induction resources generalizing d with
  | nil => rfl
  | cons r rest ih =>
    cases hr : plan r with
    | error fault =>
      have hsame : advance plan d r = d := by rw [advance, hr]
      rw [List.filter_cons_of_neg (by simp [hr, Except.isOk, Except.toBool]), List.foldl_cons,
        hsame, ih]
    | ok stack =>
      rw [List.filter_cons_of_pos (by simp [hr, Except.isOk, Except.toBool]), List.foldl_cons,
        List.foldl_cons, ih]

/-- The answers of the resources without a stack can be given first. -/
theorem answers_perm (m : StackMemory) (fullSync : Bool) (resources : List Resource)
    (d : Devices) :
    (((resources.filterMap (m.failureFor? fullSync)).map fun f => (f.1, [f.2])) ++
        answers (m.stackFor fullSync) d
          (resources.filter fun r => (m.stackFor fullSync r).isOk)).Perm
      (answers (m.stackFor fullSync) d resources) := by
  induction resources generalizing d with
  | nil => exact .refl _
  | cons r rest ih =>
    cases hr : m.stackFor fullSync r with
    | error fault =>
      have hsame : advance (m.stackFor fullSync) d r = d := by rw [advance, hr]
      have hanswer : answer (m.stackFor fullSync) d r =
          [fault.toFault.toEntry.aboutDefinition r.name.display] := by rw [answer, hr]
      simp only [List.filterMap_cons, StackMemory.failureFor?, hr, List.filter_cons, Except.isOk,
        Except.toBool, Bool.false_eq_true, if_false, answers, hsame, hanswer, List.map_cons,
        List.cons_append]
      exact (ih d).cons _
    | ok stack =>
      simp only [List.filterMap_cons, StackMemory.failureFor?, hr, List.filter_cons, Except.isOk,
        Except.toBool, if_true, answers]
      exact List.perm_middle.trans ((ih _).cons _)

end Devices

namespace Satellite

open Batch

variable {s : Satellite Devices} {resources : List Resource} {snapshots : List Snapshot}

/-- Every layer of a batch can be prepared. -/
def Ready (s : Satellite Devices) (resources : List Resource) : Prop :=
  ∀ r ∈ resources, ∀ kind ∈ s.memory.layersFor s.fullSync r, kind ≠ .nvme ∧
    (kind = .storage → ∀ v ∈ r.volumes.values, s.devices.storage.pools.contains v.pool = true)

/-- How preparing the layers of a kind ends. -/
theorem prepare_outcome (hbuiltIn : s.registry = .builtIn) {call : LayerKind × Except Fault Unit}
    (hc : call ∈ (s.calls resources snapshots).prepares) :
    call.2 = .ok () ↔ call.1 ≠ .nvme ∧ (call.1 = .storage →
      ∀ l ∈ (s.expansion resources snapshots).arena.ofKind call.1,
        ∀ v ∈ l.resource.volumes.values, s.devices.storage.pools.contains v.pool = true) := by
  unfold calls at hc
  rw [calls_eq, hbuiltIn] at hc
  exact prepareCall_ok_iff hc

/-- A batch is ready just when no preparation fails. -/
theorem ready_iff (hbuiltIn : s.registry = .builtIn)
    (hdistinct : resources.Pairwise fun a b => (a.name == b.name) = false)
    (snapshots : List Snapshot) :
    s.Ready resources ↔
      ∀ kind fault, (kind, .error fault) ∉ (s.calls resources snapshots).prepares := by
  have he := s.expansion_expands snapshots hdistinct
  have hkinds : (s.calls resources snapshots).prepares.map Prod.fst =
      (s.expansion resources snapshots).arena.kinds :=
    (run_ok (batch_defect hbuiltIn resources snapshots)).2.1
  constructor
  · intro hready kind fault hc
    have hlayer {l : LayerResource} (hl : l ∈ (s.expansion resources snapshots).arena.layers) :=
      hready l.resource (he.resource_mem hl) l.kind
        ((he.mem_layers l.resource l.kind).1 ⟨l, hl, rfl, rfl⟩).2
    have hok : Except.error fault = .ok () := by
      refine (prepare_outcome hbuiltIn hc).2 ⟨?_, fun hkind l hl => ?_⟩
      · have hk : kind ∈ (s.expansion resources snapshots).arena.kinds := by
          rw [← hkinds]
          exact List.mem_map_of_mem hc
        obtain ⟨l, hl, hkind⟩ := List.any_eq_true.1 (List.mem_filter.1 hk).2
        have hsame : l.kind = kind := by simpa using hkind
        exact hsame ▸ (hlayer hl).1
      · obtain ⟨hm, hkind'⟩ := List.mem_filter.1 hl
        have hsame : l.kind = kind := by simpa using hkind'
        exact (hlayer hm).2 (hsame.trans hkind)
    cases hok
  · intro hnone r hr kind hk
    have hm := he.mem_kinds hr hk
    rw [← hkinds] at hm
    obtain ⟨⟨_, outcome⟩, hc, rfl⟩ := List.mem_map.1 hm
    cases outcome with
    | error fault => exact absurd hc (hnone _ fault)
    | ok =>
      obtain ⟨hnvme, hpools⟩ := (prepare_outcome hbuiltIn hc).1 rfl
      refine ⟨hnvme, fun hstorage => ?_⟩
      obtain ⟨l, hl, hres, hkind⟩ := (he.mem_layers r _).2 ⟨hr, hk⟩
      have hof : l ∈ (s.expansion resources snapshots).arena.ofKind _ :=
        List.mem_filter.2 ⟨hl, beq_iff_eq.2 hkind⟩
      exact hres ▸ hpools hstorage l hof

/-- A batch that is ready is worked on as a whole: every resource that has a stack is. -/
theorem worked_of_ready (hbuiltIn : s.registry = .builtIn)
    (hdistinct : resources.Pairwise fun a b => (a.name == b.name) = false)
    (hready : s.Ready resources) (snapshots : List Snapshot) :
    s.worked resources snapshots =
      resources.filter fun r => (s.memory.stackFor s.fullSync r).isOk := by
  have hnone := (ready_iff hbuiltIn hdistinct snapshots).1 hready
  have hfree : (s.calls resources snapshots).prepares.flatMap
      (blockedBy (s.expansion resources snapshots).arena) = [] := by
    refine List.flatMap_eq_nil_iff.2 fun call hc => ?_
    obtain ⟨kind, fault | ok⟩ := call
    · exact absurd hc (hnone kind fault)
    · rfl
  have hroots : (s.calls resources snapshots).processes.map ProcessCall.root =
      (s.expansion resources snapshots).arena.roots := by
    rw [processes_roots hbuiltIn, hfree]
    exact List.filter_eq_self.2 fun _ _ => rfl
  rw [← (s.expansion_expands snapshots hdistinct).roots, ← hroots, List.map_map]
  rfl

/-- What is told in a batch that is ready: why resources have no stack, and what work gives. -/
theorem about_log_of_ready (hbuiltIn : s.registry = .builtIn)
    (hdistinct : resources.Pairwise fun a b => (a.name == b.name) = false)
    (hready : s.Ready resources) {told : ResourceName × Report}
    (htold : told ∈ Devices.answers (s.memory.stackFor s.fullSync) s.devices.lasting resources) :
    Telling.about (log s.registry (s.expansion resources snapshots) s.start) told.1 = told.2 := by
  have hnone := (ready_iff hbuiltIn hdistinct snapshots).1 hready
  have hprepares : (s.calls resources snapshots).prepares.flatMap
      (kindLog prepareEntry (s.expansion resources snapshots).arena) = [] := by
    refine List.flatMap_eq_nil_iff.2 fun call hc => ?_
    obtain ⟨kind, fault | ok⟩ := call
    · exact absurd hc (hnone kind fault)
    · rfl
  have hcleanups : (s.calls resources snapshots).cleanups.flatMap
      (kindLog cleanupEntry (s.expansion resources snapshots).arena) = [] := by
    refine List.flatMap_eq_nil_iff.2 fun call hc => ?_
    obtain ⟨handler, devices, hf, hcall⟩ := mem_cleanupCalls hc
    rw [hbuiltIn] at hf
    rw [kindLog, hcall, clearCache_ok hf]
  have hanswers := (dispatch_works hbuiltIn hdistinct snapshots).2
  rw [worked_of_ready hbuiltIn hdistinct hready] at hanswers
  have hperm := Devices.answers_perm s.memory s.fullSync resources s.devices.lasting
  rw [← (s.expansion_expands snapshots hdistinct).failures, ← hanswers] at hperm
  have hapart : (Devices.answers (s.memory.stackFor s.fullSync) s.devices.lasting
      resources).Pairwise fun a b => (a.1 == b.1) = false := by
    refine List.pairwise_map.1 (?_ : (List.map Prod.fst _).Pairwise fun a b => (a == b) = false)
    rw [Devices.map_fst_answers]
    exact List.pairwise_map.2 hdistinct
  have hsymm : ∀ {a b : ResourceName × Report}, (a.1 == b.1) = false → (b.1 == a.1) = false :=
    fun hab => by rw [Name.beq_comm, hab]
  have habout := Telling.about_of_mem ((hperm.pairwise_iff hsymm).2 hapart)
    (hperm.mem_iff.2 htold)
  have hlog : log s.registry (s.expansion resources snapshots) s.start =
      failureLog (s.expansion resources snapshots) ++
        (s.calls resources snapshots).processes.flatMap processLog := by
    unfold log
    rw [← calls, hprepares, hcleanups, List.append_nil, List.append_nil]
  rw [hlog, Telling.about_append, about_map_answer, ← Telling.about_append]
  exact habout

/-- A batch that is ready does what its resources do one after the other. It never fails as a
whole, and each of its resources is answered what its own work gives. -/
theorem dispatch_ready (hbuiltIn : s.registry = .builtIn)
    (hdistinct : resources.Pairwise fun a b => (a.name == b.name) = false)
    (hready : s.Ready resources) (snapshots : List Snapshot) :
    let plan := s.memory.stackFor s.fullSync
    let d := s.dispatch resources snapshots
    (∃ report, d.result = .ok report) ∧
      d.satellite.devices.lasting = resources.foldl (Devices.advance plan) s.devices.lasting ∧
      d.notified.Perm (Devices.answers plan s.devices.lasting resources) := by
  intro plan d
  have hd := batch_defect hbuiltIn resources snapshots
  obtain ⟨hnotified, hresult⟩ := dispatch_ok hd
  have hdevices := (dispatch_works hbuiltIn hdistinct snapshots).1
  rw [worked_of_ready hbuiltIn hdistinct hready, Devices.foldl_advance_filter] at hdevices
  refine ⟨⟨_, hresult⟩, hdevices, ?_⟩
  have hkeys := batch_keys_perm hdistinct hd
  have hnames := Resource.nodup_names hdistinct
  have hfst : (Devices.answers plan s.devices.lasting resources).map Prod.fst =
      resources.map (·.name) := Devices.map_fst_answers s.devices.lasting resources
  rw [hnotified]
  refine (List.perm_ext_iff_of_nodup (List.Nodup.of_map Prod.fst (hkeys.nodup_iff.2 hnames))
    (List.Nodup.of_map Prod.fst (hfst ▸ hnames))).2 fun told => ⟨fun hm => ?_, fun hm => ?_⟩
  · have hname := hkeys.mem_iff.1 (List.mem_map_of_mem (f := Prod.fst) hm)
    rw [← hfst] at hname
    obtain ⟨other, ho, hsame⟩ := List.mem_map.1 hname
    have hanswer := batch_answer hd hm
    rw [← hsame, about_log_of_ready hbuiltIn hdistinct hready ho] at hanswer
    rwa [← Prod.ext hsame.symm hanswer] at ho
  · have hname := List.mem_map_of_mem (f := Prod.fst) hm
    rw [hfst, ← hkeys.mem_iff] at hname
    obtain ⟨other, ho, hsame⟩ := List.mem_map.1 hname
    have hanswer := batch_answer hd ho
    rw [hsame, about_log_of_ready hbuiltIn hdistinct hready hm] at hanswer
    rwa [Prod.ext hsame hanswer] at ho

end Satellite

end StorageCluster
