import Mathlib.Data.List.Basic
import StorageCluster.Proofs.Satellite.Expansion
import StorageCluster.Proofs.Satellite.Orderly
import StorageCluster.Proofs.Satellite.Phases

/-!
# Answers of a dispatch

Every resource of a batch is answered once, and nobody else is. The answer holds an error just when
something went wrong for the resource itself, and says that it was applied just when it was.
-/
namespace StorageCluster

theorem Report.hasErrors_append (report more : Report) :
    Report.hasErrors (report ++ more) = true ↔ report.hasErrors = true ∨ more.hasErrors = true := by
  rw [hasErrors, List.any_append, Bool.or_eq_true]
  rfl

/-- The entries that are no errors. -/
def Report.notes (report : Report) : Report := report.filter fun e => !e.isError

theorem Report.notes_append (report more : Report) :
    Report.notes (report ++ more) = report.notes ++ Report.notes more :=
  List.filter_append ..

theorem Report.notes_eq_self {report : Report} (h : report.hasErrors = false) :
    report.notes = report := by
  refine List.filter_eq_self.2 fun e he => ?_
  rw [hasErrors, List.any_eq_false] at h
  simpa using h e he

theorem Telling.hasErrors_about (log : Telling) (name : ResourceName) :
    (Telling.about log name).hasErrors = true ↔
      ∃ e ∈ log, (name == e.1) = true ∧ e.2.hasErrors = true := by
  rw [about, Report.hasErrors, List.any_flatMap, List.any_eq_true]
  refine exists_congr fun e => and_congr_right fun _ => ?_
  cases name == e.1 <;> simp [Report.hasErrors]

/-- A log of errors tells nothing else. -/
theorem Telling.notes_about {log : Telling} (h : ∀ told ∈ log, ∀ e ∈ told.2, e.isError = true)
    (name : ResourceName) : (Telling.about log name).notes = [] := by
  refine List.filter_eq_nil_iff.2 fun e he => ?_
  obtain ⟨told, hm, ht⟩ := List.mem_flatMap.1 he
  split at ht
  · simp [h told hm e ht]
  · cases ht

theorem Entry.isError_aboutDefinition (e : Entry) (name : String) :
    (e.aboutDefinition name).isError = e.isError := rfl

/-- A call that came out in an orderly way. -/
structure ProcessCall.Orderly (call : ProcessCall) : Prop where
  fault : ∀ fault, call.outcome = .error fault → fault.isLayerFault = true
  entries : call.entries.hasErrors = false

namespace Batch

section Calls

variable {δ : Type} {registry : Registry δ} {arena : Arena}

theorem processCall_orderly (hr : registry.Orderly) (ha : arena.Linked) {root : LayerResource}
    (hl : root ∈ arena.layers) (b : Batch δ) : (processCall registry arena b root).Orderly := by
  have htree := processTree_orderly hr ha hl
  constructor
  · intro fault ho
    unfold processCall processRoot at ho
    cases hf : registry.find? root.kind with
    | none =>
      simp only [hf, Except.error.injEq] at ho
      rw [← ho]
      rfl
    | some handler =>
      simp only [hf] at ho
      exact htree.fault (b.devices, []) fault rfl ho
  · unfold processCall processRoot
    cases hf : registry.find? root.kind with
    | none => rfl
    | some handler => exact htree.entries (b.devices, []) rfl

theorem processCalls_orderly (hr : registry.Orderly) (ha : arena.Linked)
    {roots : List LayerResource} (hl : ∀ l ∈ roots, l ∈ arena.layers) (b : Batch δ) :
    ∀ call ∈ processCalls registry arena b roots, call.Orderly := by
  induction roots generalizing b with
  | nil =>
    intro call hc
    cases hc
  | cons root rest ih =>
    intro call hc
    rcases List.mem_cons.1 hc with rfl | hc
    · exact processCall_orderly hr ha (hl root List.mem_cons_self) b
    · exact ih (fun l h => hl l (List.mem_cons_of_mem root h)) _ call hc

theorem mem_layers_of_runnable {b : Batch δ} {l : LayerResource}
    (h : l ∈ b.runnable arena) : l ∈ arena.layers := by
  unfold runnable at h
  split at h
  · cases h
  · exact List.mem_of_mem_filter (List.mem_of_mem_filter h)

theorem calls_orderly (hr : registry.Orderly) {e : Expansion} (ha : e.arena.Linked) (b : Batch δ) :
    ∀ call ∈ (b.calls registry e).processes, call.Orderly :=
  processCalls_orderly hr ha (fun _ h => mem_layers_of_runnable h) _

end Calls

theorem isError_layerEntry {code : UInt64} (h : (code &&& Code.severityMask == Code.error) = true)
    (message : String) (fault : Fault) (name : ResourceName) :
    (layerEntry code message fault name).isError = true := h

theorem isError_prepareEntry (kind : LayerKind) (fault : Fault) (name : ResourceName) :
    (prepareEntry kind fault name).isError = true := by
  unfold prepareEntry
  dsimp only
  split
  · exact isError_layerEntry rfl ..
  · exact isError_layerEntry rfl ..

theorem isError_cleanupEntry (kind : LayerKind) (fault : Fault) (name : ResourceName) :
    (cleanupEntry kind fault name).isError = true :=
  isError_layerEntry rfl _ fault name

theorem isError_appliedEntry (name : ResourceName) : (appliedEntry name).isError = false :=
  modified_not_isError rfl

theorem mem_kindLog {entry : LayerKind → Fault → ResourceName → Entry} {arena : Arena}
    {calls : List (LayerKind × Except Fault Unit)} {told : ResourceName × Report} :
    told ∈ calls.flatMap (kindLog entry arena) ↔
      ∃ kind fault, (kind, .error fault) ∈ calls ∧ ∃ l ∈ arena.layers, l.kind = kind ∧
        told = (l.resource.name, [entry kind fault l.resource.name]) := by
  rw [List.mem_flatMap]
  constructor
  · rintro ⟨⟨kind, fault | ok⟩, hc, ht⟩
    · obtain ⟨l, hl, rfl⟩ := List.mem_map.1 ht
      obtain ⟨hl, hk⟩ := List.mem_filter.1 hl
      exact ⟨kind, fault, hc, l, hl, by simpa using hk, rfl⟩
    · cases ht
  · rintro ⟨kind, fault, hc, l, hl, hk, rfl⟩
    refine ⟨(kind, .error fault), hc, List.mem_map.2 ⟨l, ?_, rfl⟩⟩
    exact List.mem_filter.2 ⟨hl, by simp [hk]⟩

theorem mem_processLog {calls : List ProcessCall} {told : ResourceName × Report} :
    told ∈ calls.flatMap processLog ↔
      ∃ call ∈ calls, told = (call.root.resource.name, call.entries) ∨
        told = (call.root.resource.name, [closing call.root.resource.name call.outcome]) := by
  rw [List.mem_flatMap]
  exact exists_congr fun call => and_congr_right fun _ => List.mem_pair

/-- What is told of resources that are processed. -/
theorem processLog_errors {calls : Calls} {r : Resource}
    (hsame : ∀ call ∈ calls.processes,
      (r.name == call.root.resource.name) = true → call.root.resource = r)
    (horderly : ∀ call ∈ calls.processes, call.Orderly) :
    (Telling.about (calls.processes.flatMap processLog) r.name).hasErrors = true ↔
      ∃ call ∈ calls.processOf r, ∃ fault, call.outcome = .error fault := by
  rw [Telling.hasErrors_about]
  constructor
  · rintro ⟨told, hm, hn, herror⟩
    obtain ⟨call, hc, rfl | rfl⟩ := mem_processLog.1 hm
    · rw [(horderly call hc).entries] at herror
      cases herror
    · refine ⟨call, Calls.mem_processOf.2 ⟨hc, hsame call hc hn⟩, ?_⟩
      cases ho : call.outcome with
      | error fault => exact ⟨fault, rfl⟩
      | ok =>
        rw [ho] at herror
        simp [Report.hasErrors, closing, isError_appliedEntry] at herror
  · rintro ⟨call, hc, fault, ho⟩
    obtain ⟨hc, hr⟩ := Calls.mem_processOf.1 hc
    have herror : fault.toEntry.isError = true :=
      Fault.isError_toEntry ((horderly call hc).fault fault ho)
    refine ⟨(call.root.resource.name, [closing call.root.resource.name call.outcome]), ?_, ?_, ?_⟩
    · exact mem_processLog.2 ⟨call, hc, .inr rfl⟩
    · rw [hr, Name.beq_self]
    · simp [Report.hasErrors, closing, ho, Entry.isError_aboutDefinition, herror]

theorem about_processLog {calls : List ProcessCall} {r : Resource}
    (hsame : ∀ call ∈ calls, (r.name == call.root.resource.name) = true → call.root.resource = r) :
    Telling.about (calls.flatMap processLog) r.name =
      (calls.filter fun call => call.root.resource = r).flatMap fun call =>
        call.entries ++ [closing r.name call.outcome] := by
  induction calls with
  | nil => rfl
  | cons call rest ih =>
    rw [List.flatMap_cons, Telling.about_append,
      ih fun call hc => hsame call (List.mem_cons_of_mem _ hc), List.filter_cons]
    by_cases hr : call.root.resource = r
    · have hn := r.name.beq_self
      simp [Telling.about, processLog, hn, hr]
    · have hn : (r.name == call.root.resource.name) = false := by
        rw [← Bool.not_eq_true]
        exact fun h => hr (hsame call List.mem_cons_self h)
      simp [Telling.about, processLog, hn, hr]

/-- What is told of a resource that is processed, besides errors. -/
theorem processLog_notes {calls : Calls} {r : Resource}
    (hsame : ∀ call ∈ calls.processes,
      (r.name == call.root.resource.name) = true → call.root.resource = r)
    (horderly : ∀ call ∈ calls.processes, call.Orderly) (honce : (calls.processOf r).length ≤ 1) :
    (Telling.about (calls.processes.flatMap processLog) r.name).notes =
      (calls.processOf r).flatMap (·.entries) ++
        if (calls.processOf r).any (·.outcome.isOk) then [appliedEntry r.name] else [] := by
  rw [about_processLog hsame, ← Calls.processOf]
  have hof : ∀ call ∈ calls.processOf r, call.Orderly :=
    fun call hc => horderly call (Calls.mem_processOf.1 hc).1
  rcases hcalls : calls.processOf r with _ | ⟨call, _ | ⟨other, rest⟩⟩
  · rfl
  · have hcall := hof call (hcalls ▸ List.mem_cons_self)
    have hentries : call.entries.notes = call.entries := Report.notes_eq_self hcall.entries
    rw [List.flatMap_singleton, List.flatMap_singleton, Report.notes_append, hentries]
    cases ho : call.outcome with
    | ok =>
      simp [Report.notes, closing, isError_appliedEntry, ho, Except.isOk, Except.toBool]
    | error fault =>
      have herror : fault.toEntry.isError = true := Fault.isError_toEntry (hcall.fault fault ho)
      simp [Report.notes, closing, Entry.isError_aboutDefinition, herror, ho, Except.isOk,
        Except.toBool]
  · rw [hcalls] at honce
    simp at honce

theorem kindLog_notes {entry : LayerKind → Fault → ResourceName → Entry}
    (hentry : ∀ kind fault name, (entry kind fault name).isError = true) (arena : Arena)
    (calls : List (LayerKind × Except Fault Unit)) (name : ResourceName) :
    (Telling.about (calls.flatMap (kindLog entry arena)) name).notes = [] := by
  refine Telling.notes_about ?_ name
  intro told hm x hx
  obtain ⟨kind, fault, _, l, _, _, rfl⟩ := mem_kindLog.1 hm
  rw [List.mem_singleton.1 hx]
  exact hentry kind fault l.resource.name

end Batch

namespace StackMemory.Expands

open Batch

variable {m : StackMemory} {fullSync : Bool} {resources : List Resource} {e : Expansion}
  {r : Resource}

theorem mem_failureLog (h : m.Expands fullSync resources e) {told : ResourceName × Report} :
    told ∈ failureLog e ↔ ∃ r ∈ resources, ∃ fault, m.stackFor fullSync r = .error fault ∧
      told = (r.name, [fault.toFault.toEntry.aboutDefinition r.name.display]) := by
  unfold failureLog
  rw [h.failures, List.mem_map]
  constructor
  · rintro ⟨failure, hf, rfl⟩
    obtain ⟨r, hr, hfailed⟩ := List.mem_filterMap.1 hf
    unfold failureFor? at hfailed
    split at hfailed
    next => cases hfailed
    next fault hs =>
      cases hfailed
      exact ⟨r, hr, fault, hs, rfl⟩
  · rintro ⟨r, hr, fault, hs, rfl⟩
    refine ⟨(r.name, fault.toFault.toEntry.aboutDefinition r.name.display), ?_, rfl⟩
    exact List.mem_filterMap.2 ⟨r, hr, by rw [failureFor?, hs]⟩

/-- What is told of resources that cannot be expanded. -/
theorem failureLog_errors (h : m.Expands fullSync resources e)
    (hdistinct : resources.Pairwise fun a b => (a.name == b.name) = false) (hr : r ∈ resources) :
    (Telling.about (failureLog e) r.name).hasErrors = true ↔
      ∃ fault, m.stackFor fullSync r = .error fault := by
  rw [Telling.hasErrors_about]
  constructor
  · rintro ⟨told, hm, hn, _⟩
    obtain ⟨other, ho, fault, hs, rfl⟩ := h.mem_failureLog.1 hm
    exact ⟨fault, eq_of_name hdistinct hr ho hn ▸ hs⟩
  · rintro ⟨fault, hs⟩
    have herror : fault.toFault.toEntry.isError = true := Fault.isError_toEntry rfl
    refine ⟨_, h.mem_failureLog.2 ⟨r, hr, fault, hs, rfl⟩, r.name.beq_self, ?_⟩
    simp [Report.hasErrors, Entry.isError_aboutDefinition, herror]

/-- What is told of layers that fail together. -/
theorem kindLog_errors (h : m.Expands fullSync resources e)
    (hdistinct : resources.Pairwise fun a b => (a.name == b.name) = false) (hr : r ∈ resources)
    {entry : LayerKind → Fault → ResourceName → Entry}
    (hentry : ∀ kind fault name, (entry kind fault name).isError = true)
    (calls : List (LayerKind × Except Fault Unit)) :
    (Telling.about (calls.flatMap (kindLog entry e.arena)) r.name).hasErrors = true ↔
      ∃ kind ∈ m.layersFor fullSync r, ∃ fault, (kind, .error fault) ∈ calls := by
  rw [Telling.hasErrors_about]
  constructor
  · rintro ⟨told, hm, hn, _⟩
    obtain ⟨kind, fault, hc, l, hl, hk, rfl⟩ := mem_kindLog.1 hm
    have hsame : r = l.resource := eq_of_name hdistinct hr (h.resource_mem hl) hn
    exact ⟨kind, ((h.mem_layers r kind).1 ⟨l, hl, hsame.symm, hk⟩).2, fault, hc⟩
  · rintro ⟨kind, hk, fault, hc⟩
    obtain ⟨l, hl, hres, hkind⟩ := (h.mem_layers r kind).2 ⟨hr, hk⟩
    refine ⟨_, mem_kindLog.2 ⟨kind, fault, hc, l, hl, hkind, rfl⟩, ?_, ?_⟩
    · rw [hres, Name.beq_self]
    · simp [Report.hasErrors, hentry]

theorem failureLog_notes (h : m.Expands fullSync resources e) (name : ResourceName) :
    (Telling.about (failureLog e) name).notes = [] := by
  refine Telling.notes_about ?_ name
  intro told hm x hx
  obtain ⟨other, _, fault, _, rfl⟩ := h.mem_failureLog.1 hm
  rw [List.mem_singleton.1 hx, Entry.isError_aboutDefinition]
  exact Fault.isError_toEntry rfl

/-- A resource is processed at most once. -/
theorem length_processOf (h : m.Expands fullSync resources e)
    (hdistinct : resources.Pairwise fun a b => (a.name == b.name) = false) {calls : Calls}
    {p : LayerResource → Bool}
    (hroots : calls.processes.map ProcessCall.root = e.arena.roots.filter p) (r : Resource) :
    (calls.processOf r).length ≤ 1 := by
  have hp := (h.roots_pairwise hdistinct).filter p
  rw [← hroots] at hp
  have hof : (calls.processOf r).Pairwise
      fun a b => (a.root.resource.name == b.root.resource.name) = false :=
    (List.pairwise_map.1 hp).filter _
  rcases hcalls : calls.processOf r with _ | ⟨a, _ | ⟨b, rest⟩⟩
  · exact Nat.zero_le 1
  · exact Nat.le_refl 1
  · have hmem : ∀ call ∈ a :: b :: rest, call.root.resource = r := by
      intro call hc
      rw [← hcalls] at hc
      exact (Calls.mem_processOf.1 hc).2
    rw [hcalls] at hof
    have hab := (List.pairwise_cons.1 hof).1 b List.mem_cons_self
    have ha : a.root.resource = r := hmem a List.mem_cons_self
    have hb : b.root.resource = r := hmem b (List.mem_cons_of_mem a List.mem_cons_self)
    rw [ha, hb, Name.beq_self] at hab
    cases hab

end StackMemory.Expands

end StorageCluster
