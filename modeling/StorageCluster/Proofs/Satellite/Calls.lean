import StorageCluster.Proofs.Name
import StorageCluster.Satellite.Dispatch

/-!
# What a dispatch calls, and what it tells

The calls of a dispatch to the layer handlers are listed with their outcomes, phase by phase. If no
defect is met, the results of the batch are what these calls give cause to tell, and nothing else.
-/
namespace StorageCluster

abbrev Telling := List (ResourceName × Report)

/-- The part of a log that is about one resource. -/
def Telling.about (log : Telling) (name : ResourceName) : Report :=
  log.flatMap fun e => if name == e.1 then e.2 else []

theorem Telling.about_append (log more : Telling) (name : ResourceName) :
    Telling.about (log ++ more) name = Telling.about log name ++ Telling.about more name :=
  List.flatMap_append

namespace Results

def tell (r : Results) (log : Telling) : Results := log.foldl (fun r e => r.add e.1 e.2) r

/-- What is told about a resource. -/
def told (r : Results) (name : ResourceName) : Report := (r.find? name).getD []

theorem tell_append (r : Results) (log more : Telling) :
    r.tell (log ++ more) = (r.tell log).tell more :=
  List.foldl_append ..

theorem find?_add (r : Results) (name other : ResourceName) (entries : Report) :
    (r.add name entries).find? other =
      if other == name then some (r.told other ++ entries) else r.find? other := by
  rw [add, SortedMap.upsert, SortedMap.find?_insert]
  by_cases h : compare other name = .eq
  · have hb : (other == name) = true := (Name.beq_iff_compare other name).2 h
    rw [if_pos h, if_pos hb, told, SortedMap.find?_congr h]
  · have hb : (other == name) = false := (Name.beq_eq_false_iff other name).2 h
    rw [if_neg h, hb, if_neg Bool.false_ne_true]

theorem told_add (r : Results) (name other : ResourceName) (entries : Report) :
    (r.add name entries).told other =
      r.told other ++ if other == name then entries else [] := by
  rw [told, find?_add]
  split
  · rfl
  · rw [List.append_nil]
    rfl

theorem contains_add (r : Results) (name other : ResourceName) (entries : Report) :
    (r.add name entries).contains other = (other == name || r.contains other) := by
  rw [SortedMap.contains, find?_add]
  cases h : other == name <;> simp [SortedMap.contains]

theorem told_tell (r : Results) (log : Telling) (name : ResourceName) :
    (r.tell log).told name = r.told name ++ log.about name := by
  induction log generalizing r with
  | nil => simp [tell, Telling.about]
  | cons e rest ih =>
    rw [tell, List.foldl_cons, ← tell, ih, told_add, Telling.about, Telling.about,
      List.flatMap_cons, List.append_assoc]

theorem contains_tell (r : Results) (log : Telling) (name : ResourceName) :
    (r.tell log).contains name = (r.contains name || log.any (name == ·.1)) := by
  induction log generalizing r with
  | nil => simp [tell]
  | cons e rest ih =>
    rw [tell, List.foldl_cons, ← tell, ih, contains_add, List.any_cons]
    cases name == e.1 <;> simp

/-- Only those that are told of have results. -/
theorem mem_keys_tell {r : Results} {log : Telling} {name : ResourceName}
    (h : name ∈ (r.tell log).keys) : name ∈ r.keys ∨ name ∈ log.map Prod.fst := by
  induction log generalizing r with
  | nil => exact .inl h
  | cons e rest ih =>
    rcases ih h with hr | hr
    · obtain ⟨⟨key, value⟩, hm, rfl⟩ := List.mem_map.1 hr
      rcases SortedMap.mem_put hm with he | he | ⟨old, he⟩
      · cases he
        exact .inr List.mem_cons_self
      · exact .inl (List.mem_map.2 ⟨(key, value), he, rfl⟩)
      · exact .inl (List.mem_map.2 ⟨(key, old), he, rfl⟩)
    · exact .inr (List.mem_cons_of_mem e.1 hr)

end Results

/-- A call to process a root. -/
structure ProcessCall where
  root : LayerResource
  entries : Report
  outcome : Except Fault Unit

/-- The calls of a dispatch to the layer handlers. -/
structure Calls where
  prepares : List (LayerKind × Except Fault Unit)
  processes : List ProcessCall
  cleanups : List (LayerKind × Except Fault Unit)

/-- The calls to process a resource. -/
def Calls.processOf (calls : Calls) (r : Resource) : List ProcessCall :=
  calls.processes.filter fun call => call.root.resource = r

theorem Calls.mem_processOf {calls : Calls} {r : Resource} {call : ProcessCall} :
    call ∈ calls.processOf r ↔ call ∈ calls.processes ∧ call.root.resource = r := by
  simp [processOf]

namespace Batch

variable {δ : Type} (registry : Registry δ) (arena : Arena)

def prepareCall (b : Batch δ) (kind : LayerKind) : LayerKind × Except Fault Unit :=
  (kind, (prepareKind registry (arena.ofKind kind) kind b.devices).2)

def processCall (b : Batch δ) (root : LayerResource) : ProcessCall :=
  let called := processRoot registry arena root b.devices
  ⟨root, called.2.1, called.2.2⟩

def cleanupCall (b : Batch δ) (kind : LayerKind) : Option (LayerKind × Except Fault Unit) :=
  (registry.find? kind).map fun handler => (kind, (handler.clearCache b.devices).2)

def prepareCalls : Batch δ → List LayerKind → List (LayerKind × Except Fault Unit)
  | _, [] => []
  | b, kind :: rest =>
    if b.defect.isSome then []
    else prepareCall registry arena b kind ::
      prepareCalls (prepareStep registry arena b kind) rest

def processCalls : Batch δ → List LayerResource → List ProcessCall
  | _, [] => []
  | b, root :: rest =>
    processCall registry arena b root :: processCalls (processStep registry arena b root) rest

def cleanupCalls : Batch δ → List LayerKind → List (LayerKind × Except Fault Unit)
  | _, [] => []
  | b, kind :: rest =>
    (cleanupCall registry b kind).toList ++
      cleanupCalls (cleanupStep registry arena b kind) rest

/-- The calls of `run`. -/
def calls (registry : Registry δ) (e : Expansion) (b : Batch δ) : Calls :=
  let b := e.failures.foldl (fun b f => b.addEntries f.1 [f.2]) b
  let prepared := e.arena.kinds.foldl (prepareStep registry e.arena) b
  let roots := prepared.runnable e.arena
  let processed := roots.foldl (processStep registry e.arena) prepared
  { prepares := prepareCalls registry e.arena b e.arena.kinds
    processes := processCalls registry e.arena prepared roots
    cleanups := cleanupCalls registry e.arena processed processed.prepared }

end Batch

namespace Satellite

variable {δ : Type}

/-- A batch before its first phase. -/
def start (s : Satellite δ) : Batch δ :=
  { devices := s.devices, metrics := s.metrics.recordBatch }

def expansion (s : Satellite δ) (resources : List Resource) (snapshots : List Snapshot) :
    Expansion :=
  (s.memory.expand resources snapshots s.fullSync).2

/-- The calls of a dispatch. -/
def calls (s : Satellite δ) (resources : List Resource) (snapshots : List Snapshot) : Calls :=
  s.start.calls s.registry (s.expansion resources snapshots)

theorem dispatch_registry (s : Satellite δ) (resources : List Resource)
    (snapshots : List Snapshot) :
    (s.dispatch resources snapshots).satellite.registry = s.registry ∧
      (s.dispatch resources snapshots).satellite.fullSync = s.fullSync := by
  unfold dispatch
  dsimp only
  split <;> exact ⟨rfl, rfl⟩

end Satellite

end StorageCluster
