import StorageCluster.Proofs.Satellite.Answers

/-!
# Delivery of the answers

Every resource of a batch is answered once, and nobody else is. The answer holds an error just when
something went wrong for the resource itself, and says that it was applied just when it was.
-/
namespace StorageCluster

theorem Resource.nodup_names {resources : List Resource}
    (hdistinct : resources.Pairwise fun a b => (a.name == b.name) = false) :
    (resources.map (·.name)).Nodup := by
  refine List.pairwise_map.2 (hdistinct.imp ?_)
  intro a b hne heq
  rw [heq, Name.beq_self] at hne
  cases hne

/-- A root that is blocked has a layer that is not prepared, and that is told of its resource. -/
theorem Arena.Linked.exists_blocker {a : Arena} (h : a.Linked) {root : LayerResource}
    (hroot : root ∈ a.roots) {calls : List (LayerKind × Except Fault Unit)}
    (hb : root.id ∈ calls.flatMap (Batch.blockedBy a)) :
    root.resource.name ∈ (calls.flatMap (Batch.kindLog Batch.prepareEntry a)).map Prod.fst := by
  obtain ⟨⟨kind, fault | ok⟩, hc, hblocked⟩ := List.mem_flatMap.1 hb
  · obtain ⟨l, hl, hid⟩ := List.mem_flatMap.1 hblocked
    obtain ⟨top, htop, hof, hres⟩ := h.rootOf (List.mem_of_mem_filter hl)
    rw [hof] at hid
    have hsame : root.id = top.id := List.mem_singleton.1 hid
    have heq : root = top := by
      have hget := h.get?_id (List.mem_of_mem_filter hroot)
      rw [hsame, h.get?_id (List.mem_of_mem_filter htop)] at hget
      exact (Option.some.inj hget).symm
    rw [heq, hres]
    obtain ⟨hl, hk⟩ := List.mem_filter.1 hl
    exact List.mem_map.2
      ⟨_, Batch.mem_kindLog.2 ⟨kind, fault, hc, l, hl, by simpa using hk, rfl⟩, rfl⟩
  · cases hblocked

/-- A layer that has no handler cannot be prepared. -/
theorem Batch.exists_prepare_fault {δ : Type} {registry : Registry δ} {b : Batch δ} {e : Expansion}
    (hrun : (run registry e b).defect = none) {kind : LayerKind} (hk : kind ∈ e.arena.kinds)
    (hn : registry.find? kind = none) :
    ∃ fault, (kind, .error fault) ∈ (b.calls registry e).prepares := by
  obtain ⟨_, hkinds, _⟩ := run_ok hrun
  rw [← hkinds] at hk
  obtain ⟨call, hc, rfl⟩ := List.mem_map.1 hk
  have hcall : call.2 = .error (StackFault.unregistered call.1).toFault :=
    unregistered_of_mem hc hn
  exact ⟨_, by rwa [← hcall]⟩

namespace StackMemory.Expands

open Batch

variable {δ : Type} {registry : Registry δ} {b : Batch δ} {m : StackMemory} {fullSync : Bool}
  {resources : List Resource} {e : Expansion} {r : Resource}

theorem root_mem {calls : Calls} {p : LayerResource → Bool}
    (hroots : calls.processes.map ProcessCall.root = e.arena.roots.filter p) {call : ProcessCall}
    (hc : call ∈ calls.processes) : call.root ∈ e.arena.layers := by
  have hm : call.root ∈ calls.processes.map ProcessCall.root := List.mem_map_of_mem hc
  rw [hroots] at hm
  exact List.mem_of_mem_filter (List.mem_of_mem_filter hm)

theorem mem_of_kindLog (h : m.Expands fullSync resources e)
    {entry : LayerKind → Fault → ResourceName → Entry}
    {calls : List (LayerKind × Except Fault Unit)} {name : ResourceName}
    (hn : name ∈ (calls.flatMap (kindLog entry e.arena)).map Prod.fst) :
    name ∈ resources.map (·.name) := by
  obtain ⟨told, hm, rfl⟩ := List.mem_map.1 hn
  obtain ⟨_, _, _, l, hl, _, rfl⟩ := mem_kindLog.1 hm
  exact List.mem_map_of_mem (h.resource_mem hl)

/-- What is told is about the resources of the batch, all of them and no others. -/
theorem mem_log_iff (h : m.Expands fullSync resources e) (hb : b.blocked = [])
    (hrun : (run registry e b).defect = none) (name : ResourceName) :
    name ∈ (log registry e b).map Prod.fst ↔ name ∈ resources.map (·.name) := by
  obtain ⟨_, _, hroots⟩ := run_ok hrun
  rw [hb, List.nil_append] at hroots
  unfold log
  simp only [List.map_append, List.mem_append]
  constructor
  · rintro (((hn | hn) | hn) | hn)
    · obtain ⟨told, hm, rfl⟩ := List.mem_map.1 hn
      obtain ⟨r, hr, fault, _, rfl⟩ := h.mem_failureLog.1 hm
      exact List.mem_map_of_mem hr
    · exact h.mem_of_kindLog hn
    · obtain ⟨told, hm, rfl⟩ := List.mem_map.1 hn
      obtain ⟨call, hc, rfl | rfl⟩ := mem_processLog.1 hm
      · exact List.mem_map_of_mem (h.resource_mem (root_mem hroots hc))
      · exact List.mem_map_of_mem (h.resource_mem (root_mem hroots hc))
    · exact h.mem_of_kindLog hn
  · intro hn
    obtain ⟨r, hr, rfl⟩ := List.mem_map.1 hn
    cases hs : m.stackFor fullSync r with
    | error fault =>
      have hm := h.mem_failureLog.2 ⟨r, hr, fault, hs, rfl⟩
      exact .inl (.inl (.inl (List.mem_map.2 ⟨_, hm, rfl⟩)))
    | ok stack =>
      obtain ⟨root, hroot, rfl⟩ := h.exists_root hr hs
      by_cases hblocked : root.id ∈ (b.calls registry e).prepares.flatMap (blockedBy e.arena)
      · exact .inl (.inl (.inr (h.linked.exists_blocker hroot hblocked)))
      · have hm : root ∈ (b.calls registry e).processes.map ProcessCall.root := by
          rw [hroots, List.mem_filter, Bool.not_eq_true', ← Bool.not_eq_true,
            List.contains_iff_mem]
          exact ⟨hroot, hblocked⟩
        obtain ⟨call, hc, rfl⟩ := List.mem_map.1 hm
        exact .inl (.inr (List.mem_map.2 ⟨_, mem_processLog.2 ⟨call, hc, .inl rfl⟩, rfl⟩))

theorem mem_kinds (h : m.Expands fullSync resources e) (hr : r ∈ resources) {kind : LayerKind}
    (hk : kind ∈ m.layersFor fullSync r) : kind ∈ e.arena.kinds := by
  obtain ⟨l, hl, _, rfl⟩ := (h.mem_layers r kind).2 ⟨hr, hk⟩
  exact Arena.kind_mem_kinds hl

end StackMemory.Expands

namespace Satellite

variable {δ : Type}

/-- An answer holds an error just when something went wrong for the resource itself. Besides errors
it holds what the layers reported of it, and that it was applied just when it was. -/
structure Truthful (s : Satellite δ) (calls : Calls) (r : Resource) (answer : Report) : Prop where
  once : (calls.processOf r).length ≤ 1
  errors : answer.hasErrors = true ↔
    (∃ fault, s.memory.stackFor s.fullSync r = .error fault) ∨
    (∃ kind ∈ s.memory.layersFor s.fullSync r,
      s.registry.find? kind = none ∨ ∃ fault, (kind, .error fault) ∈ calls.prepares) ∨
    (∃ call ∈ calls.processOf r, ∃ fault, call.outcome = .error fault) ∨
    ∃ kind ∈ s.memory.layersFor s.fullSync r, ∃ fault, (kind, .error fault) ∈ calls.cleanups
  notes : answer.notes = (calls.processOf r).flatMap (·.entries) ++
    if (calls.processOf r).any (·.outcome.isOk) then [Batch.appliedEntry r.name] else []

variable {s : Satellite δ} {resources : List Resource} {snapshots : List Snapshot}

theorem expansion_expands (s : Satellite δ) (snapshots : List Snapshot)
    (hdistinct : resources.Pairwise fun a b => (a.name == b.name) = false) :
    s.memory.Expands s.fullSync resources (s.expansion resources snapshots) :=
  StackMemory.expand_expands s.memory resources snapshots s.fullSync hdistinct

/-- The batch of a dispatch after all phases. -/
def batch (s : Satellite δ) (resources : List Resource) (snapshots : List Snapshot) : Batch δ :=
  s.start.run s.registry (s.expansion resources snapshots)

/-- After a defect nobody is notified. -/
theorem dispatch_defect {fault : Fault} (h : (s.batch resources snapshots).defect = some fault) :
    (s.dispatch resources snapshots).notified = [] ∧
      (s.dispatch resources snapshots).result = .error fault := by
  unfold batch start expansion at h
  unfold dispatch
  dsimp only
  rw [h]
  exact ⟨rfl, rfl⟩

theorem dispatch_ok (h : (s.batch resources snapshots).defect = none) :
    (s.dispatch resources snapshots).notified =
        (s.batch resources snapshots).report.results.entries ∧
      (s.dispatch resources snapshots).result = .ok (s.batch resources snapshots).report := by
  unfold batch start expansion at h ⊢
  unfold dispatch
  dsimp only
  rw [h]
  exact ⟨rfl, rfl⟩

/-- The results of a batch without defect are those of its log. -/
theorem batch_results (h : (s.batch resources snapshots).defect = none) :
    (s.batch resources snapshots).report.results =
      Results.tell .empty (Batch.log s.registry (s.expansion resources snapshots) s.start) :=
  (Batch.run_ok h).1

/-- Whoever is told of something has results. -/
theorem exists_answer_of_told (h : (s.batch resources snapshots).defect = none)
    {told : ResourceName × Report}
    (hm : told ∈ Batch.log s.registry (s.expansion resources snapshots) s.start) :
    ∃ answer ∈ (s.batch resources snapshots).report.results.entries,
      (answer.1 == told.1) = true := by
  have hcontains : (s.batch resources snapshots).report.results.contains told.1 = true := by
    rw [batch_results h, Results.contains_tell, Bool.or_eq_true]
    exact .inr (List.any_eq_true.2 ⟨told, hm, Name.beq_self told.1⟩)
  obtain ⟨key, hk, hsame⟩ := SortedMap.contains_iff.1 hcontains
  obtain ⟨answer, ha, rfl⟩ := List.mem_map.1 hk
  refine ⟨answer, ha, ?_⟩
  rw [Name.beq_comm]
  exact (Name.beq_iff_compare _ _).2 hsame

theorem batch_keys_perm (hdistinct : resources.Pairwise fun a b => (a.name == b.name) = false)
    (h : (s.batch resources snapshots).defect = none) :
    (s.batch resources snapshots).report.results.keys.Perm (resources.map (·.name)) := by
  have he := s.expansion_expands snapshots hdistinct
  have hlog := he.mem_log_iff (b := s.start) rfl h
  have hkey {name : ResourceName}
      (hn : name ∈ (s.batch resources snapshots).report.results.keys) :
      name ∈ resources.map (·.name) := by
    rw [batch_results h] at hn
    rcases Results.mem_keys_tell hn with hn | hn
    · cases hn
    · exact (hlog name).1 hn
  have hkeys : (s.batch resources snapshots).report.results.keys.Nodup := by
    refine (SortedMap.keys_pairwise _).imp ?_
    rintro a _ hne rfl
    exact hne ((Name.compare_eq_iff a a).2 rfl)
  have hnames := Resource.nodup_names hdistinct
  refine (List.perm_ext_iff_of_nodup hkeys hnames).2 fun name => ⟨hkey, ?_⟩
  intro hn
  obtain ⟨r, hr, rfl⟩ := List.mem_map.1 hn
  obtain ⟨told, hm, hname⟩ := List.mem_map.1 ((hlog r.name).2 hn)
  obtain ⟨answer, ha, hsame⟩ := exists_answer_of_told h hm
  have hk := List.mem_map_of_mem (f := Prod.fst) ha
  obtain ⟨other, ho, hother⟩ := List.mem_map.1 (hkey hk)
  rw [← hother, hname, Name.beq_comm] at hsame
  rw [StackMemory.eq_of_name hdistinct hr ho hsame, hother]
  exact hk

/-- What is delivered of a resource is what the log tells of it. -/
theorem batch_answer (h : (s.batch resources snapshots).defect = none) {name : ResourceName}
    {answer : Report}
    (ha : (name, answer) ∈ (s.batch resources snapshots).report.results.entries) :
    answer = Telling.about
      (Batch.log s.registry (s.expansion resources snapshots) s.start) name := by
  have hfind := SortedMap.find?_of_mem ha
  have htold : (s.batch resources snapshots).report.results.told name = answer := by
    rw [Results.told, hfind, Option.getD_some]
  rw [← htold, batch_results h, Results.told_tell]
  rfl

/-- An error that the log tells is delivered to those that it is told of. -/
theorem exists_notified (h : (s.batch resources snapshots).defect = none)
    {told : ResourceName × Report}
    (hm : told ∈ Batch.log s.registry (s.expansion resources snapshots) s.start)
    (herror : told.2.hasErrors = true) :
    ∃ answer ∈ (s.dispatch resources snapshots).notified,
      (answer.1 == told.1) = true ∧ answer.2.hasErrors = true := by
  obtain ⟨answer, ha, hname⟩ := exists_answer_of_told h hm
  refine ⟨answer, (dispatch_ok h).1 ▸ ha, hname, ?_⟩
  rw [batch_answer h ha, Telling.hasErrors_about]
  exact ⟨told, hm, hname, herror⟩

open Batch in
theorem batch_truthful (hdistinct : resources.Pairwise fun a b => (a.name == b.name) = false)
    (h : (s.batch resources snapshots).defect = none) (ho : s.registry.Orderly) {r : Resource}
    (hr : r ∈ resources) {answer : Report}
    (ha : (r.name, answer) ∈ (s.batch resources snapshots).report.results.entries) :
    s.Truthful (s.calls resources snapshots) r answer := by
  have he := s.expansion_expands snapshots hdistinct
  obtain ⟨_, _, hroots⟩ := run_ok h
  have horderly := calls_orderly ho he.linked s.start
  have hsame : ∀ call ∈ (s.calls resources snapshots).processes,
      (r.name == call.root.resource.name) = true → call.root.resource = r :=
    fun call hc hn => (StackMemory.eq_of_name hdistinct hr
      (he.resource_mem (StackMemory.Expands.root_mem hroots hc)) hn).symm
  have honce := he.length_processOf hdistinct hroots r
  have hanswer := batch_answer h ha
  have hcalls : s.start.calls s.registry (s.expansion resources snapshots) =
      s.calls resources snapshots := rfl
  unfold log at hanswer
  rw [hcalls, Telling.about_append, Telling.about_append, Telling.about_append] at hanswer
  refine ⟨honce, ?_, ?_⟩
  · have hprepares : (∃ kind ∈ s.memory.layersFor s.fullSync r, s.registry.find? kind = none ∨
        ∃ fault, (kind, .error fault) ∈ (s.calls resources snapshots).prepares) ↔
        ∃ kind ∈ s.memory.layersFor s.fullSync r,
          ∃ fault, (kind, .error fault) ∈ (s.calls resources snapshots).prepares := by
      refine exists_congr fun kind => and_congr_right fun hk => or_iff_right_of_imp ?_
      exact exists_prepare_fault h (he.mem_kinds hr hk)
    rw [hanswer, Report.hasErrors_append, Report.hasErrors_append, Report.hasErrors_append,
      he.failureLog_errors hdistinct hr, he.kindLog_errors hdistinct hr isError_prepareEntry,
      he.kindLog_errors hdistinct hr isError_cleanupEntry, processLog_errors hsame horderly,
      hprepares, or_assoc, or_assoc]
  · rw [hanswer, Report.notes_append, Report.notes_append, Report.notes_append,
      he.failureLog_notes, kindLog_notes isError_prepareEntry, kindLog_notes isError_cleanupEntry,
      processLog_notes hsame horderly honce]
    simp only [List.nil_append, List.append_nil]

/-- A dispatch notifies nobody if it fails. If it succeeds, it notifies each resource of its batch
once and nobody else, and all answers are truthful if the handlers are orderly. -/
theorem dispatch_answers (s : Satellite δ) (resources : List Resource)
    (snapshots : List Snapshot)
    (hdistinct : resources.Pairwise fun a b => (a.name == b.name) = false) :
    let d := s.dispatch resources snapshots
    (∀ fault, d.result = .error fault → d.notified = []) ∧
      ∀ report, d.result = .ok report →
        (d.notified.map Prod.fst).Perm (resources.map (·.name)) ∧
        (s.registry.Orderly → ∀ r ∈ resources, ∀ answer, (r.name, answer) ∈ d.notified →
          s.Truthful (s.calls resources snapshots) r answer) := by
  intro d
  cases hd : (s.batch resources snapshots).defect with
  | some fault =>
    obtain ⟨hnotified, hresult⟩ := dispatch_defect hd
    refine ⟨fun _ _ => hnotified, ?_⟩
    intro report hreport
    rw [hresult] at hreport
    cases hreport
  | none =>
    obtain ⟨hnotified, hresult⟩ := dispatch_ok hd
    constructor
    · intro fault hfault
      rw [hresult] at hfault
      cases hfault
    · intro report _
      rw [hnotified]
      refine ⟨batch_keys_perm hdistinct hd, ?_⟩
      intro ho r hr answer ha
      exact batch_truthful hdistinct hd ho hr ha

namespace Sample

def pool : PoolName := ⟨"pool2", by decide⟩

def resource (name : ResourceName) (layerStack : List LayerKind) (size : UInt64) : Resource where
  uuid := default
  name
  node := ⟨"delta", by decide⟩
  layerStack
  volumes := .ofList [(0, { uuid := default, number := 0, pool, sizeBytes := size })]

/-- Fits the satellite below. -/
def fitting : Resource := resource ⟨"fitting", by decide⟩ [.drbd, .storage] 4

/-- Needs more space than there is. -/
def greedy : Resource := resource ⟨"greedy", by decide⟩ [.drbd, .storage] 64

/-- Has a layer that nobody works on. -/
def remote : Resource := resource ⟨"remote", by decide⟩ [.nvme, .storage] 4

/-- Has its layers in the wrong order. -/
def inverted : Resource := resource ⟨"inverted", by decide⟩ [.storage, .drbd] 4

def wanted : List Resource := [fitting, greedy, remote, inverted]

def satellite : Satellite Devices where
  registry := [drbdLayer, luksLayer, storageLayer].foldl Registry.register .empty
  devices := { storage := .ofCapacities [(pool, 16)] }

theorem registry_orderly : satellite.registry.Orderly :=
  ((Registry.Orderly.empty.register drbdLayer_orderly).register luksLayer_orderly).register
    storageLayer_orderly

end Sample

open Satellite.Sample in
/-- One resource is applied, and three are not, each for a reason of its own. -/
theorem dispatch_answers_wanted :
    let d := satellite.dispatch wanted []
    (∃ report, d.result = .ok report) ∧
      (d.notified.map Prod.fst).Perm (wanted.map (·.name)) ∧
      (∀ r ∈ wanted, ∀ answer, (r.name, answer) ∈ d.notified →
        satellite.Truthful (satellite.calls wanted []) r answer) ∧
      (d.notified.map fun told => told.2.hasErrors) = [false, true, true, true] := by
  have hdistinct : wanted.Pairwise fun a b => (a.name == b.name) = false := by decide +kernel
  have hok : ((satellite.dispatch wanted []).result.isOk) = true := by decide +kernel
  have herrors : ((satellite.dispatch wanted []).notified.map fun told => told.2.hasErrors) =
      [false, true, true, true] := by decide +kernel
  obtain ⟨_, hanswers⟩ := dispatch_answers satellite wanted [] hdistinct
  cases hresult : (satellite.dispatch wanted []).result with
  | error fault =>
    rw [hresult] at hok
    cases hok
  | ok report =>
    obtain ⟨hperm, htruthful⟩ := hanswers report hresult
    exact ⟨⟨report, hresult⟩, hperm, htruthful registry_orderly, herrors⟩

end Satellite

end StorageCluster
