import StorageCluster.Proofs.Satellite.Calls

/-!
# The phases of a dispatch

A phase in which no defect is met tells what its calls give cause to tell. Each is proved call by
call: what one step does to a batch, and from it what the whole phase does.
-/
namespace StorageCluster

theorem Arena.kind_mem_kinds {a : Arena} {l : LayerResource} (h : l ∈ a.layers) :
    l.kind ∈ a.kinds := by
  refine List.mem_filter.2 ⟨by cases l.kind <;> decide, ?_⟩
  exact List.any_eq_true.2 ⟨l, h, beq_self_eq_true l.kind⟩

/-- The defect in the outcome of a call, if there is one. -/
def defect? : Except Fault Unit → Option Fault
  | .ok () => none
  | .error fault => if fault.isDefect then some fault else none

theorem defect?_eq_some {outcome : Except Fault Unit} {fault : Fault} :
    defect? outcome = some fault ↔ outcome = .error fault ∧ fault.isDefect = true := by
  cases outcome with
  | ok => simp [defect?]
  | error other =>
    simp only [defect?, Option.ite_none_right_eq_some, Option.some.injEq, Except.error.injEq]
    constructor
    · rintro ⟨hd, rfl⟩
      exact ⟨rfl, hd⟩
    · rintro ⟨rfl, hd⟩
      exact ⟨hd, rfl⟩

/-- The outcomes of the calls to handlers, in order. -/
def Calls.outcomes (calls : Calls) : List (Except Fault Unit) :=
  calls.prepares.map Prod.snd ++ calls.processes.map ProcessCall.outcome ++
    calls.cleanups.map Prod.snd

namespace Batch

variable {δ : Type} {registry : Registry δ} {arena : Arena} {b : Batch δ}

/-- The batch with more results. -/
def tell (b : Batch δ) (log : Telling) : Batch δ :=
  { b with report := { b.report with results := Results.tell b.report.results log } }

theorem foldl_addEntries {α : Type} (items : List α) (name : α → ResourceName)
    (entries : α → Report) (b : Batch δ) :
    items.foldl (fun b a => b.addEntries (name a) (entries a)) b =
      b.tell (items.map fun a => (name a, entries a)) := by
  induction items generalizing b with
  | nil => rfl
  | cons a rest ih =>
    rw [List.foldl_cons, ih]
    rfl

def preparedBy (call : LayerKind × Except Fault Unit) : List LayerKind :=
  match call.2 with
  | .ok () => [call.1]
  | .error _ => []

/-- A layer that is not prepared blocks the roots of its resources. -/
def blockedBy (arena : Arena) (call : LayerKind × Except Fault Unit) : List LayerId :=
  match call.2 with
  | .ok () => []
  | .error _ => (arena.ofKind call.1).flatMap fun l => (arena.rootOf l.id).toOption.toList

/-- What is told when the layers of a kind fail together: an entry for each of their resources. -/
def kindLog (entry : LayerKind → Fault → ResourceName → Entry) (arena : Arena)
    (call : LayerKind × Except Fault Unit) : Telling :=
  match call.2 with
  | .ok () => []
  | .error fault => (arena.ofKind call.1).map fun l =>
    (l.resource.name, [entry call.1 fault l.resource.name])

theorem foldl_block (kind : LayerKind) (fault : Fault) (members : List LayerResource)
    (b : Batch δ) :
    members.foldl (block arena kind fault) b =
      { b.tell (members.map fun l => (l.resource.name, [prepareEntry kind fault l.resource.name]))
        with blocked := b.blocked ++
          members.flatMap fun l => (arena.rootOf l.id).toOption.toList } := by
  induction members generalizing b with
  | nil => simp [tell, Results.tell]
  | cons l rest ih =>
    rw [List.foldl_cons, ih]
    simp [block, addEntries, tell, Results.tell]

/-! ## Preparing -/

/-- What comes of a step of the preparation: its call says whether the layer is prepared and which
defect is met. If there is no defect, what the call gives cause to tell is told and blocked. -/
theorem prepareStep_spec (registry : Registry δ) (arena : Arena) (hb : b.defect = none)
    (kind : LayerKind) :
    let call := prepareCall registry arena b kind
    let after := prepareStep registry arena b kind
    after.devices = (prepareKind registry (arena.ofKind kind) kind b.devices).1 ∧
      after.prepared = b.prepared ++ preparedBy call ∧ after.defect = defect? call.2 ∧
      (after.defect = none →
        after.report.results = b.report.results.tell (kindLog prepareEntry arena call) ∧
          after.blocked = b.blocked ++ blockedBy arena call) := by
  unfold prepareStep prepareCall
  rcases hc : prepareKind registry (arena.ofKind kind) kind b.devices with ⟨devices, fault | ok⟩
  · cases hd : fault.isDefect <;>
      simp [hb, hc, hd, noteDefect, foldl_block, tell, kindLog, blockedBy, preparedBy, defect?]
  · simp [hb, hc, kindLog, blockedBy, preparedBy, defect?, Results.tell]

theorem prepareStep_devices (hb : b.defect = none) (kind : LayerKind) :
    (prepareStep registry arena b kind).devices =
      (prepareKind registry (arena.ofKind kind) kind b.devices).1 :=
  (prepareStep_spec registry arena hb kind).1

theorem prepareCalls_cons (hb : b.defect = none) (kind : LayerKind) (rest : List LayerKind) :
    prepareCalls registry arena b (kind :: rest) = prepareCall registry arena b kind ::
      prepareCalls registry arena (prepareStep registry arena b kind) rest := by
  simp [prepareCalls, hb]

/-- Nothing is prepared after a defect. -/
theorem prepare_stopped {fault : Fault} (hb : b.defect = some fault) (kinds : List LayerKind) :
    prepareCalls registry arena b kinds = [] ∧
      kinds.foldl (prepareStep registry arena) b = b := by
  have hsame (kind : LayerKind) : prepareStep registry arena b kind = b := by
    simp [prepareStep, hb]
  constructor
  · cases kinds with
    | nil => rfl
    | cons kind rest => simp [prepareCalls, hb]
  · induction kinds with
    | nil => rfl
    | cons kind rest ih => rw [List.foldl_cons, hsame, ih]

/-- What holds where nothing is called, and of a batch if it holds after its next call, holds of
every preparation. -/
theorem prepare_induction (registry : Registry δ) (arena : Arena)
    {P : Batch δ → List LayerKind → Prop}
    (idle : ∀ b kinds, prepareCalls registry arena b kinds = [] →
      kinds.foldl (prepareStep registry arena) b = b → P b kinds)
    (step : ∀ b kind rest, b.defect = none → P (prepareStep registry arena b kind) rest →
      P b (kind :: rest))
    (b : Batch δ) (kinds : List LayerKind) : P b kinds := by
  induction kinds generalizing b with
  | nil => exact idle b [] rfl rfl
  | cons kind rest ih =>
    cases hb : b.defect with
    | some fault =>
      obtain ⟨hcalls, hsame⟩ := prepare_stopped hb (kind :: rest)
      exact idle b (kind :: rest) hcalls hsame
    | none => exact step b kind rest hb (ih _)

/-- The defect of the preparation is the first that one of its calls returns. -/
theorem prepare_firstDefect (kinds : List LayerKind) :
    (kinds.foldl (prepareStep registry arena) b).defect =
      b.defect.or (((prepareCalls registry arena b kinds).map Prod.snd).findSome? defect?) := by
  induction b, kinds using prepare_induction registry arena with
  | idle b kinds hcalls hsame => simp [hcalls, hsame]
  | step b kind rest hb ih =>
    obtain ⟨_, _, hstep, _⟩ := prepareStep_spec registry arena hb kind
    rw [List.foldl_cons, ih, hstep, prepareCalls_cons hb, List.map_cons, List.findSome?_cons, hb]
    cases defect? (prepareCall registry arena b kind).2 <;> rfl

/-- The preparation, if it meets no defect. -/
theorem prepare_ok {kinds : List LayerKind}
    (h : (kinds.foldl (prepareStep registry arena) b).defect = none) :
    let calls := prepareCalls registry arena b kinds
    let after := kinds.foldl (prepareStep registry arena) b
    b.defect = none ∧ calls.map Prod.fst = kinds ∧
      after.report.results = b.report.results.tell (calls.flatMap (kindLog prepareEntry arena)) ∧
      after.blocked = b.blocked ++ calls.flatMap (blockedBy arena) ∧
      after.prepared = b.prepared ++ calls.flatMap preparedBy := by
  induction kinds generalizing b with
  | nil => exact ⟨h, rfl, rfl, by simp [prepareCalls], by simp [prepareCalls]⟩
  | cons kind rest ih =>
    have hb : b.defect = none := by
      rw [prepare_firstDefect, Option.or_eq_none_iff] at h
      exact h.1
    obtain ⟨hstep, hk, hr, hbl, hp⟩ := ih h
    obtain ⟨_, hp', _, hrest⟩ := prepareStep_spec registry arena hb kind
    obtain ⟨hr', hbl'⟩ := hrest hstep
    intro calls after
    have hcalls : calls = prepareCall registry arena b kind ::
        prepareCalls registry arena (prepareStep registry arena b kind) rest :=
      prepareCalls_cons hb kind rest
    refine ⟨hb, ?_, ?_, ?_, ?_⟩
    · rw [hcalls, List.map_cons, hk]
      rfl
    · rw [hcalls, List.flatMap_cons, Results.tell_append, ← hr']
      exact hr
    · rw [hcalls, List.flatMap_cons, ← List.append_assoc, ← hbl']
      exact hbl
    · rw [hcalls, List.flatMap_cons, ← List.append_assoc, ← hp']
      exact hp

/-- Each call of the preparation was made with some state of the devices. -/
theorem mem_prepareCalls {kinds : List LayerKind} {call : LayerKind × Except Fault Unit}
    (h : call ∈ prepareCalls registry arena b kinds) :
    ∃ devices, call.2 = (prepareKind registry (arena.ofKind call.1) call.1 devices).2 := by
  induction b, kinds using prepare_induction registry arena with
  | idle b kinds hcalls =>
    rw [hcalls] at h
    cases h
  | step b kind rest hb ih =>
    rw [prepareCalls_cons hb] at h
    rcases List.mem_cons.1 h with rfl | h
    · exact ⟨b.devices, rfl⟩
    · exact ih h

/-- A kind that has no handler cannot be prepared. -/
theorem prepareKind_unregistered {kind : LayerKind} (h : registry.find? kind = none)
    (members : List LayerResource) (devices : δ) :
    prepareKind registry members kind devices =
      (devices, .error (StackFault.unregistered kind).toFault) := by
  unfold prepareKind
  rw [h]

theorem unregistered_of_mem {kinds : List LayerKind} {call : LayerKind × Except Fault Unit}
    (hc : call ∈ prepareCalls registry arena b kinds) (hn : registry.find? call.1 = none) :
    call.2 = .error (StackFault.unregistered call.1).toFault := by
  obtain ⟨devices, hcall⟩ := mem_prepareCalls hc
  rw [hcall, prepareKind_unregistered hn]

/-! ## Processing -/

/-- How the answer about a root closes. -/
def closing (name : ResourceName) : Except Fault Unit → Entry
  | .ok () => appliedEntry name
  | .error fault => fault.toEntry.aboutDefinition name.display

/-- What is told when a root was processed. -/
def processLog (call : ProcessCall) : Telling :=
  [(call.root.resource.name, call.entries),
    (call.root.resource.name, [closing call.root.resource.name call.outcome])]

/-- What comes of processing a root: its call decides on the devices and on the defect. If there is
no defect, what the call gives cause to tell is told. -/
theorem processStep_spec (registry : Registry δ) (arena : Arena) (b : Batch δ)
    (root : LayerResource) :
    let call := processCall registry arena b root
    let after := processStep registry arena b root
    after.devices = (processRoot registry arena root b.devices).1 ∧
      after.prepared = b.prepared ∧ after.defect = b.defect.or (defect? call.outcome) ∧
      (after.defect = none →
        after.report.results = b.report.results.tell (processLog call)) := by
  unfold processStep processCall
  rcases processRoot registry arena root b.devices with ⟨devices, entries, fault | ok⟩
  · cases hd : fault.isDefect <;>
      simp [hd, noteDefect, addEntries, defect?, processLog, closing, Results.tell]
  · simp [addEntries, defect?, processLog, closing, Results.tell]

theorem processStep_devices (root : LayerResource) :
    (processStep registry arena b root).devices = (processRoot registry arena root b.devices).1 :=
  (processStep_spec registry arena b root).1

theorem process_prepared (roots : List LayerResource) :
    (roots.foldl (processStep registry arena) b).prepared = b.prepared :=
  List.foldlRecOn roots _ (motive := fun after => Batch.prepared after = b.prepared) rfl
    fun now h root _ => (processStep_spec registry arena now root).2.1.trans h

/-- The defect after processing is the one from before, or else the first that a call returns. -/
theorem process_firstDefect (roots : List LayerResource) :
    (roots.foldl (processStep registry arena) b).defect =
      b.defect.or
        (((processCalls registry arena b roots).map ProcessCall.outcome).findSome? defect?) := by
  induction roots generalizing b with
  | nil => simp [processCalls]
  | cons root rest ih =>
    obtain ⟨_, _, hstep, _⟩ := processStep_spec registry arena b root
    rw [List.foldl_cons, ih, hstep, processCalls, List.map_cons, List.findSome?_cons]
    cases b.defect <;> cases defect? (processCall registry arena b root).outcome <;> rfl

theorem process_ok {roots : List LayerResource}
    (h : (roots.foldl (processStep registry arena) b).defect = none) :
    let calls := processCalls registry arena b roots
    let after := roots.foldl (processStep registry arena) b
    b.defect = none ∧ calls.map ProcessCall.root = roots ∧
      after.report.results = b.report.results.tell (calls.flatMap processLog) ∧
      after.prepared = b.prepared := by
  induction roots generalizing b with
  | nil => exact ⟨h, rfl, rfl, rfl⟩
  | cons root rest ih =>
    obtain ⟨hstep, hk, hr, hp⟩ := ih h
    obtain ⟨_, hp', hdefect, htold⟩ := processStep_spec registry arena b root
    have hr' := htold hstep
    intro calls after
    have hcalls : calls = processCall registry arena b root ::
        processCalls registry arena (processStep registry arena b root) rest := rfl
    refine ⟨?_, ?_, ?_, hp.trans hp'⟩
    · rw [hdefect, Option.or_eq_none_iff] at hstep
      exact hstep.1
    · rw [hcalls, List.map_cons, hk]
      rfl
    · rw [hcalls, List.flatMap_cons, Results.tell_append, ← hr']
      exact hr

/-! ## Clearing -/

/-- What comes of clearing a layer: if there is a handler, its call decides on the defect. If there
is no defect, what the call gives cause to tell is told. -/
theorem cleanupStep_spec (registry : Registry δ) (arena : Arena) (b : Batch δ)
    (kind : LayerKind) :
    let call := cleanupCall registry b kind
    let after := cleanupStep registry arena b kind
    after.defect = b.defect.or ((call.toList.map Prod.snd).findSome? defect?) ∧
      (after.defect = none →
        after.report.results =
          b.report.results.tell (call.toList.flatMap (kindLog cleanupEntry arena))) := by
  unfold cleanupStep cleanupCall
  cases hf : registry.find? kind with
  | none => simp [Results.tell]
  | some handler =>
    rcases hc : handler.clearCache b.devices with ⟨devices, fault | ok⟩
    · cases hd : fault.isDefect <;>
        simp [hc, hd, noteDefect, foldl_addEntries, tell, defect?, kindLog]
    · simp [hc, defect?, kindLog, Results.tell]

theorem cleanupStep_devices {kind : LayerKind} {handler : LayerHandler δ}
    (hf : registry.find? kind = some handler) :
    (cleanupStep registry arena b kind).devices = (handler.clearCache b.devices).1 := by
  unfold cleanupStep
  rcases hc : handler.clearCache b.devices with ⟨devices, fault | ok⟩
  · cases hd : fault.isDefect <;> simp [hf, hc, hd, noteDefect, foldl_addEntries, tell]
  · simp [hf, hc]

/-- The defect after clearing is the one from before, or else the first that a call returns. -/
theorem cleanup_firstDefect (kinds : List LayerKind) :
    (kinds.foldl (cleanupStep registry arena) b).defect =
      b.defect.or (((cleanupCalls registry arena b kinds).map Prod.snd).findSome? defect?) := by
  induction kinds generalizing b with
  | nil => simp [cleanupCalls]
  | cons kind rest ih =>
    obtain ⟨hstep, _⟩ := cleanupStep_spec registry arena b kind
    rw [List.foldl_cons, ih, hstep, cleanupCalls, List.map_append, List.findSome?_append]
    cases b.defect <;>
      cases ((cleanupCall registry b kind).toList.map Prod.snd).findSome? defect? <;> rfl

theorem cleanup_ok {kinds : List LayerKind}
    (h : (kinds.foldl (cleanupStep registry arena) b).defect = none) :
    b.defect = none ∧
      (kinds.foldl (cleanupStep registry arena) b).report.results = b.report.results.tell
        ((cleanupCalls registry arena b kinds).flatMap (kindLog cleanupEntry arena)) := by
  induction kinds generalizing b with
  | nil => exact ⟨h, rfl⟩
  | cons kind rest ih =>
    obtain ⟨hstep, hr⟩ := ih h
    obtain ⟨hdefect, htold⟩ := cleanupStep_spec registry arena b kind
    have hr' := htold hstep
    rw [hdefect, Option.or_eq_none_iff] at hstep
    refine ⟨hstep.1, ?_⟩
    have hcalls : cleanupCalls registry arena b (kind :: rest) =
        (cleanupCall registry b kind).toList ++
          cleanupCalls registry arena (cleanupStep registry arena b kind) rest := rfl
    rw [hcalls, List.flatMap_append, Results.tell_append, ← hr']
    exact hr

/-! ## A whole run -/

/-- What is told of resources that cannot be expanded. -/
def failureLog (e : Expansion) : Telling := e.failures.map fun f => (f.1, [f.2])

/-- The batch when its layers were prepared. -/
def prepareAll (registry : Registry δ) (e : Expansion) (b : Batch δ) : Batch δ :=
  e.arena.kinds.foldl (prepareStep registry e.arena) (b.tell (failureLog e))

/-- The batch when its roots were processed. -/
def processAll (registry : Registry δ) (e : Expansion) (b : Batch δ) : Batch δ :=
  let prepared := prepareAll registry e b
  (prepared.runnable e.arena).foldl (processStep registry e.arena) prepared

theorem foldl_failures (e : Expansion) (b : Batch δ) :
    e.failures.foldl (fun b f => b.addEntries f.1 [f.2]) b = b.tell (failureLog e) :=
  foldl_addEntries e.failures Prod.fst (fun f => [f.2]) b

/-- A run ends with the clearing of what was prepared. -/
theorem run_eq (registry : Registry δ) (e : Expansion) (b : Batch δ) :
    run registry e b = (processAll registry e b).prepared.foldl (cleanupStep registry e.arena)
      (processAll registry e b) := by
  unfold run
  rw [foldl_failures]
  rfl

/-- The calls of a run, by the batches that its phases start from. -/
theorem calls_eq (registry : Registry δ) (e : Expansion) (b : Batch δ) :
    b.calls registry e =
      { prepares := prepareCalls registry e.arena (b.tell (failureLog e)) e.arena.kinds
        processes := processCalls registry e.arena (prepareAll registry e b)
          ((prepareAll registry e b).runnable e.arena)
        cleanups := cleanupCalls registry e.arena (processAll registry e b)
          (processAll registry e b).prepared } := by
  unfold calls
  rw [foldl_failures]
  rfl

/-- After a defect no root is processed. -/
theorem processAll_of_defect {e : Expansion} {fault : Fault}
    (hd : (prepareAll registry e b).defect = some fault) :
    processAll registry e b = prepareAll registry e b := by
  have hnone : (prepareAll registry e b).runnable e.arena = [] := by simp [runnable, hd]
  simp only [processAll, hnone, List.foldl_nil]

theorem runnable_of_ok (hd : b.defect = none) :
    b.runnable arena = arena.roots.filter fun l => !b.blocked.contains l.id := by
  simp only [runnable, hd, Option.isSome_none, Bool.false_eq_true, if_false]

/-- The defect of a run is the first that one of its calls returns. -/
theorem run_firstDefect {e : Expansion} (hb : b.defect = none) :
    (run registry e b).defect = (b.calls registry e).outcomes.findSome? defect? := by
  have hstart : (b.tell (failureLog e)).defect = none := hb
  simp only [run_eq, calls_eq, Calls.outcomes, List.findSome?_append, cleanup_firstDefect,
    processAll, process_firstDefect, prepareAll, prepare_firstDefect, hstart, Option.none_or]

/-- Everything that is told when no defect is met. -/
def log (registry : Registry δ) (e : Expansion) (b : Batch δ) : Telling :=
  failureLog e ++ (b.calls registry e).prepares.flatMap (kindLog prepareEntry e.arena) ++
    (b.calls registry e).processes.flatMap processLog ++
    (b.calls registry e).cleanups.flatMap (kindLog cleanupEntry e.arena)

/-- A run that meets no defect tells what its calls give cause to tell. -/
theorem run_ok {e : Expansion} (h : (run registry e b).defect = none) :
    (run registry e b).report.results = b.report.results.tell (log registry e b) ∧
      (b.calls registry e).prepares.map Prod.fst = e.arena.kinds ∧
      (b.calls registry e).processes.map ProcessCall.root = e.arena.roots.filter fun l =>
        !(b.blocked ++
          (b.calls registry e).prepares.flatMap (blockedBy e.arena)).contains l.id := by
  rw [run_eq] at h ⊢
  obtain ⟨hprocessed, hcleaned⟩ := cleanup_ok h
  obtain ⟨hprepared, hroots, htold, _⟩ := process_ok hprocessed
  obtain ⟨_, hkinds, hfirst, hblocked, _⟩ := prepare_ok hprepared
  refine ⟨?_, ?_, ?_⟩
  · rw [hcleaned, log, calls_eq, Results.tell_append, Results.tell_append, Results.tell_append]
    exact congrArg (Results.tell · _) (htold.trans (congrArg (Results.tell · _) hfirst))
  · rw [calls_eq]
    exact hkinds
  · have hall : (prepareAll registry e b).blocked = _ := hblocked
    rw [calls_eq]
    refine hroots.trans ((runnable_of_ok hprepared).trans ?_)
    rw [hall]
    rfl

end Batch

end StorageCluster
