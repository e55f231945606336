import StorageCluster.Proofs.Satellite.Cleanup
import StorageCluster.Proofs.Satellite.Memory
import StorageCluster.Satellite.Service

/-!
# What a satellite remembers over a run

Only valid stacks are ever remembered, so a resource without layer data always gets the stack it had
last. One that the satellite does not remember gets the legacy stack as long as no full sync was
applied. A batch leaves remembered just those of its resources that were expanded and stay.
-/
namespace StorageCluster

/-- The layers of the resources with a name. -/
def Arena.layersOf (a : Arena) (name : ResourceName) : List LayerResource :=
  a.layers.filter fun l => l.resource.name == name

namespace Expansion

/-- A resource is expanded with a stack: its layers are those of the stack, from top to bottom. -/
structure Builds (e : Expansion) (r : Resource) (stack : List LayerKind) : Prop where
  layers : (e.arena.layersOf r.name).map (fun l => (l.resource, l.kind)) = stack.map (r, ·)
  accepted : ∀ failure ∈ e.failures, (failure.1 == r.name) = false

/-- A resource is not expanded, and the fault is reported. -/
structure Rejects (e : Expansion) (r : Resource) (fault : StackFault) : Prop where
  layers : e.arena.layersOf r.name = []
  reported : (r.name, fault.toFault.toEntry.aboutDefinition r.name.display) ∈ e.failures

/-- A stack is taken for a resource if it is valid. -/
def Tries (e : Expansion) (r : Resource) (stack : List LayerKind) : Prop :=
  match Stack.validate stack with
  | .ok () => e.Builds r stack
  | .error fault => e.Rejects r fault

end Expansion

namespace StackMemory.Expands

variable {m : StackMemory} {fullSync : Bool} {resources : List Resource} {e : Expansion}
  {r : Resource} {stack : List LayerKind} {fault : StackFault}

theorem layersOf (h : m.Expands fullSync resources e)
    (hdistinct : resources.Pairwise fun a b => (a.name == b.name) = false) (hr : r ∈ resources) :
    (e.arena.layersOf r.name).map (fun l => (l.resource, l.kind)) =
      (m.layersFor fullSync r).map (r, ·) := by
  obtain ⟨before, after, rfl⟩ := List.append_of_mem hr
  obtain ⟨-, hafter, hbefore⟩ := List.pairwise_append.1 hdistinct
  have hothers {others : List Resource} (ho : ∀ other ∈ others, (other.name == r.name) = false) :
      (others.flatMap fun other => (m.layersFor fullSync other).map (other, ·)).filter
        (fun p => p.1.name == r.name) = [] := by
    refine List.filter_eq_nil_iff.2 fun p hp => ?_
    obtain ⟨other, hother, hp⟩ := List.mem_flatMap.1 hp
    obtain ⟨kind, -, rfl⟩ := List.mem_map.1 hp
    simp [ho other hother]
  have hself : ((m.layersFor fullSync r).map (r, ·)).filter (fun p => p.1.name == r.name) =
      (m.layersFor fullSync r).map (r, ·) := by
    refine List.filter_eq_self.2 fun p hp => ?_
    obtain ⟨kind, -, rfl⟩ := List.mem_map.1 hp
    exact Name.beq_self _
  have hfilter : (e.arena.layersOf r.name).map (fun l => (l.resource, l.kind)) =
      (e.arena.layers.map fun l => (l.resource, l.kind)).filter fun p => p.1.name == r.name := by
    rw [List.filter_map]
    rfl
  rw [hfilter, h.layers, List.flatMap_append, List.flatMap_cons, List.filter_append,
    List.filter_append, hself, hothers fun other ho => hbefore other ho r List.mem_cons_self,
    hothers fun other ho => ?_, List.nil_append, List.append_nil]
  rw [Name.beq_comm]
  exact (List.pairwise_cons.1 hafter).1 other ho

theorem rejects (h : m.Expands fullSync resources e)
    (hdistinct : resources.Pairwise fun a b => (a.name == b.name) = false) (hr : r ∈ resources)
    (hplan : m.stackFor fullSync r = .error fault) : e.Rejects r fault := by
  constructor
  · have hlayers := h.layersOf hdistinct hr
    rw [layersFor, hplan] at hlayers
    exact List.map_eq_nil_iff.1 hlayers
  · rw [h.failures, List.mem_filterMap]
    exact ⟨r, hr, by rw [failureFor?, hplan]⟩

theorem builds_iff (h : m.Expands fullSync resources e)
    (hdistinct : resources.Pairwise fun a b => (a.name == b.name) = false) (hr : r ∈ resources) :
    e.Builds r stack ↔ m.stackFor fullSync r = .ok stack := by
  have hlayers := h.layersOf hdistinct hr
  cases hplan : m.stackFor fullSync r with
  | error fault =>
    refine ⟨fun hbuilds => ?_, fun hok => by cases hok⟩
    have hname := hbuilds.accepted _ (h.rejects hdistinct hr hplan).reported
    rw [Name.beq_self] at hname
    cases hname
  | ok found =>
    rw [layersFor, hplan] at hlayers
    constructor
    · intro hbuilds
      have hsame := hlayers.symm.trans hbuilds.layers
      exact congrArg _ (List.map_injective_iff.2 (fun _ _ h => congrArg Prod.snd h) hsame)
    · rintro ⟨⟩
      refine ⟨hlayers, fun failure hfailure => ?_⟩
      rw [h.failures, List.mem_filterMap] at hfailure
      obtain ⟨other, ho, hf⟩ := hfailure
      unfold failureFor? at hf
      cases hother : m.stackFor fullSync other with
      | ok => rw [hother] at hf; cases hf
      | error fault =>
        rw [hother] at hf
        cases hf
        rw [← Bool.not_eq_true]
        intro hname
        rw [eq_of_name hdistinct ho hr hname, hplan] at hother
        cases hother

/-- A stack that a memory tells for a resource is tried. -/
theorem tries (h : m.Expands fullSync resources e)
    (hdistinct : resources.Pairwise fun a b => (a.name == b.name) = false) (hr : r ∈ resources)
    (hstack : m.stackOf r fullSync = .ok stack) : e.Tries r stack := by
  unfold Expansion.Tries
  cases hvalid : Stack.validate stack with
  | ok => exact (h.builds_iff hdistinct hr).2 (stackFor_eq_ok_iff.2 ⟨hstack, hvalid⟩)
  | error fault =>
    refine h.rejects hdistinct hr ?_
    rw [stackFor, hstack]
    simp only [bind, Except.bind, hvalid]

end StackMemory.Expands

namespace StackMemory

/-- All stacks that are remembered are valid. -/
def Sound (known : Known) : Prop :=
  ∀ name stack, known.find? name = some stack → Stack.validate stack = .ok ()

variable {plan : Plan} {known : Known} {r : Resource}

theorem Sound.erase (h : Sound known) (name : ResourceName) : Sound (known.erase name) := by
  intro key stack hkey
  rw [SortedMap.find?_erase] at hkey
  split at hkey
  · cases hkey
  · exact h key stack hkey

theorem Sound.memorize (h : Sound known)
    (hplan : ∀ stack, plan r = .ok stack → Stack.validate stack = .ok ()) :
    Sound (memorize plan known r) := by
  unfold StackMemory.memorize
  cases hr : plan r with
  | error fault => exact h.erase r.name
  | ok stack =>
    dsimp only
    split
    · exact h.erase r.name
    · intro key found hkey
      rw [SortedMap.find?_insert] at hkey
      split at hkey
      · cases hkey
        exact hplan _ hr
      · exact h key found hkey

theorem Sound.foldl_memorize (h : Sound known) {m : StackMemory} {fullSync : Bool}
    (resources : List Resource) :
    Sound (resources.foldl (StackMemory.memorize (m.stackFor fullSync)) known) :=
  List.foldlRecOn resources _ (motive := Sound) h fun _ hnow _ _ =>
    hnow.memorize fun _ hplan => (stackFor_eq_ok_iff.1 hplan).2

end StackMemory

namespace Satellite

variable {δ : Type} {first s : Satellite δ} {past : List (Delivery × Bool)}

/-- A run over messages with different names in each, and whether each was dispatched without a
defect. The satellite may go on after a defect. -/
inductive Handled (first : Satellite δ) : List (Delivery × Bool) → Satellite δ → Prop
  | start : Handled first [] first
  | next {past : List (Delivery × Bool)} {s : Satellite δ} (before : Handled first past s)
    (m : Delivery) (distinct : m.resources.Pairwise fun a b => (a.name == b.name) = false) :
    Handled first (past ++ [(m, (s.handle m).2.isOk)]) (s.handle m).1

theorem handle_memory (s : Satellite δ) (m : Delivery) :
    (s.handle m).1.memory = (s.dispatch m.resources m.snapshots).satellite.memory := by
  unfold handle
  dsimp only
  split <;> rfl

theorem handle_fullSync (s : Satellite δ) (m : Delivery) :
    (s.handle m).1.fullSync = (s.fullSync || (m.isFullSync && (s.handle m).2.isOk)) := by
  have hsame := (s.dispatch_registry m.resources m.snapshots).2
  unfold handle
  dsimp only
  split
  · simp [hsame, Except.isOk, Except.toBool]
  · simp [hsame, Except.isOk, Except.toBool]

/-- A message fails with a defect only. -/
theorem handle_error (s : Satellite δ) (m : Delivery) {fault : Fault}
    (h : (s.handle m).2 = .error fault) : fault.isDefect = true := by
  have hresult : (s.dispatch m.resources m.snapshots).result = .error fault := by
    unfold handle at h
    dsimp only at h
    split at h
    next other hother =>
      cases h
      exact hother
    next => cases h
  obtain ⟨_, _, hdefect⟩ := List.exists_of_findSome?_eq_some (dispatch_error_iff.1 hresult)
  exact (defect?_eq_some.1 hdefect).2

/-- How a satellite expands a resource. -/
structure Expanding (s : Satellite δ) (e : Expansion) (r : Resource) : Prop where
  given : r.layerStack ≠ [] → e.Tries r r.layerStack
  remembered : r.layerStack = [] → ∀ stack, s.memory.known.find? r.name = some stack →
    e.Builds r stack
  early : r.layerStack = [] → s.memory.known.find? r.name = none → s.fullSync = false →
    e.Tries r s.memory.legacy
  late : r.layerStack = [] → s.memory.known.find? r.name = none → s.fullSync = true →
    e.Rejects r (.noLayerData r.name.display)

theorem expanding (hsound : StackMemory.Sound s.memory.known) {resources : List Resource}
    (hdistinct : resources.Pairwise fun a b => (a.name == b.name) = false)
    (snapshots : List Snapshot) {r : Resource} (hr : r ∈ resources) :
    s.Expanding (s.expansion resources snapshots) r := by
  have he := s.expansion_expands snapshots hdistinct
  have hplan (hnone : r.layerStack = []) (known : Option (List LayerKind))
      (hknown : s.memory.known.find? r.name = known) : s.memory.stackOf r s.fullSync =
      (known.map Except.ok).getD (if s.fullSync then .error (.noLayerData r.name.display)
        else .ok s.memory.legacy) := by
    rw [StackMemory.stackOf, hnone, hknown]
    cases known <;> rfl
  refine ⟨fun hgiven => he.tries hdistinct hr ?_, fun hnone stack hknown => ?_,
    fun hnone hknown hsync => he.tries hdistinct hr ?_,
    fun hnone hknown hsync => he.rejects hdistinct hr ?_⟩
  · rw [StackMemory.stackOf, List.isEmpty_eq_false_iff.2 hgiven]
    rfl
  · rw [he.builds_iff hdistinct hr, StackMemory.stackFor_eq_ok_iff, hplan hnone _ hknown]
    exact ⟨rfl, hsound _ _ hknown⟩
  · rw [hplan hnone _ hknown, hsync]
    rfl
  · rw [StackMemory.stackFor, hplan hnone _ hknown, hsync]
    rfl

namespace Handled

theorem sound (h : Handled first past s) (hknown : first.memory.known = .empty) :
    StackMemory.Sound s.memory.known := by
  induction h with
  | start =>
    intro name stack hfound
    rw [hknown, SortedMap.find?_empty] at hfound
    cases hfound
  | next _ m distinct ih =>
    rw [handle_memory, dispatch_memory _ _ distinct]
    exact ih.foldl_memorize m.resources

theorem legacy_eq (h : Handled first past s) : s.memory.legacy = first.memory.legacy := by
  induction h with
  | start => rfl
  | next _ m distinct ih => rw [handle_memory, dispatch_memory _ _ distinct, ih]

theorem fullSync_iff (h : Handled first past s) (hsync : first.fullSync = false) :
    s.fullSync = true ↔ ∃ m, (m, true) ∈ past ∧ m.isFullSync = true := by
  induction h with
  | start => simp [hsync]
  | @next past s _ m _ ih =>
    rw [handle_fullSync, Bool.or_eq_true, ih, Bool.and_eq_true]
    constructor
    · rintro (⟨old, hold, hfull⟩ | ⟨hfull, hok⟩)
      · exact ⟨old, List.mem_append_left _ hold, hfull⟩
      · exact ⟨m, List.mem_append_right _ (by simp [hok]), hfull⟩
    · rintro ⟨some, hsome, hfull⟩
      rcases List.mem_append.1 hsome with hold | hnew
      · exact .inl ⟨some, hold, hfull⟩
      · obtain ⟨rfl, hok⟩ := Prod.mk.inj (List.mem_singleton.1 hnew)
        exact .inr ⟨hfull, hok.symm⟩

/-- From a start with nothing remembered, only valid stacks are ever remembered, and a full sync
counts as applied just when one was dispatched without a defect. Each message is expanded by what is
remembered then, and leaves its expanded resources remembered unless they are deleted. -/
theorem remembers_expanded (hknown : first.memory.known = .empty) (hsync : first.fullSync = false)
    (h : Handled first past s) :
    (∀ name stack, s.memory.known.find? name = some stack → Stack.validate stack = .ok ()) ∧
    s.memory.legacy = first.memory.legacy ∧
    (s.fullSync = true ↔ ∃ m, (m, true) ∈ past ∧ m.isFullSync = true) ∧
    ∀ m : Delivery, (m.resources.Pairwise fun a b => (a.name == b.name) = false) →
      let e := s.expansion m.resources m.snapshots
      let after := (s.handle m).1
      (∀ r ∈ m.resources, s.Expanding e r ∧
        ∀ stack, after.memory.known.find? r.name = some stack ↔
          e.Builds r stack ∧ r.isDeleted = false) ∧
      (∀ name, (∀ r ∈ m.resources, (r.name == name) = false) →
        after.memory.known.find? name = s.memory.known.find? name) ∧
      (after.fullSync = (s.fullSync || (m.isFullSync && (s.handle m).2.isOk))) ∧
      ∀ fault, (s.handle m).2 = .error fault → fault.isDefect = true := by
  have hsound := h.sound hknown
  refine ⟨hsound, h.legacy_eq, h.fullSync_iff hsync, fun m hdistinct => ?_⟩
  have he := s.expansion_expands m.snapshots hdistinct
  intro e after
  have hafter : after.memory.known =
      m.resources.foldl (StackMemory.memorize (s.memory.stackFor s.fullSync)) s.memory.known :=
    congrArg StackMemory.known ((s.handle_memory m).trans (s.dispatch_memory m.snapshots hdistinct))
  refine ⟨fun r hr => ⟨expanding hsound hdistinct m.snapshots hr, fun stack => ?_⟩,
    fun name hname => ?_, s.handle_fullSync m, fun fault => s.handle_error m⟩
  · rw [hafter, StackMemory.find?_foldl_memorize_self hdistinct hr, he.builds_iff hdistinct hr]
    cases r.isDeleted <;> cases s.memory.stackFor s.fullSync r <;> simp [Except.toOption]
  · rw [hafter, StackMemory.find?_foldl_memorize_other hname]

end Handled

namespace Sample

/-- Comes from a time without layer data. -/
def ancient : Resource := resource ⟨"ancient", by decide⟩ [] 2

/-- Brings no layer data once all resources have some. -/
def bare : Resource := resource ⟨"bare", by decide⟩ [] 2

def arrivals : List Delivery :=
  [⟨false, [ancient], []⟩, ⟨true, [{ ancient with layerStack := [.luks, .storage] }, fitting], []⟩]

def update : Delivery :=
  ⟨false, [ancient, bare, { fitting with flags := ResourceFlags.delete }], []⟩

def updated : Satellite Devices := arrivals.foldl (fun s m => (s.handle m).1) satellite

end Sample

open Satellite.Sample in
/-- `ancient` keeps the stack of the full sync, with which it could not be opened. -/
theorem Handled.remembers_expanded_update :
    let e := updated.expansion update.resources update.snapshots
    let after := (updated.handle update).1
    updated.fullSync = true ∧ e.Builds ancient [.luks, .storage] ∧
      e.Rejects bare (.noLayerData "bare") ∧
      after.memory.known.find? ancient.name = some [.luks, .storage] ∧
      after.memory.known.contains fitting.name = false := by
  have hdistinct : ∀ m ∈ arrivals ++ [update],
      m.resources.Pairwise fun a b => (a.name == b.name) = false := by decide +kernel
  have hhandled : Handled satellite _ updated :=
    (Handled.start.next _ (hdistinct _ (by simp [arrivals]))).next _
      (hdistinct _ (by simp [arrivals]))
  obtain ⟨-, -, -, hnext⟩ := hhandled.remembers_expanded rfl rfl
  obtain ⟨hresources, -⟩ := hnext update (hdistinct _ (by simp))
  obtain ⟨hancient, hkept⟩ := hresources ancient (by simp [update])
  obtain ⟨hbare, -⟩ := hresources bare (by simp [update])
  have hknown : updated.memory.known.find? ancient.name = some [.luks, .storage] := by
    decide +kernel
  have hbuilds := hancient.remembered rfl _ hknown
  have hsynced : updated.fullSync = true := by decide +kernel
  exact ⟨hsynced, hbuilds, hbare.late rfl (by decide +kernel) hsynced,
    (hkept _).2 ⟨hbuilds, by decide⟩, by decide +kernel⟩

end Satellite

end StorageCluster
