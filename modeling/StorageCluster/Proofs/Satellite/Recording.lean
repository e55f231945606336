import StorageCluster.Proofs.Satellite.Orderly
import StorageCluster.Proofs.Satellite.Phases
import StorageCluster.Proofs.Satellite.Roots

/-!
# What the handlers of a batch are called with

Handlers that keep a log in the state of their devices tell which calls a dispatch makes, in which
order. While such a handler processes a layer, all that it adds to the log besides its own call
comes from descending. From this follows, phase by phase, what the log of a batch holds.
-/
namespace StorageCluster

/-- A call to a layer handler, and for a preparation what came of it. -/
inductive HandlerCall
  | prepare (kind : LayerKind) (outcome : Except Fault Unit)
  | process (layer : LayerResource)
  | clear (kind : LayerKind)

variable {δ : Type} {log : δ → List HandlerCall}

/-- An action adds only such calls to the log. -/
def Act.Adds {α : Type} (log : δ → List HandlerCall) (P : HandlerCall → Prop) (act : Act δ α) :
    Prop :=
  ∀ s, ∃ calls, log (act.run s).2.1 = log s.1 ++ calls ∧ ∀ call ∈ calls, P call

namespace Act.Adds

variable {α β : Type} {P : HandlerCall → Prop}

theorem pure (a : α) : Adds log P (Pure.pure a : Act δ α) := by
  intro s
  exact ⟨[], (List.append_nil _).symm, fun _ h => absurd h List.not_mem_nil⟩

theorem throw (f : Fault) : Adds log P (throw f : Act δ α) := by
  intro s
  exact ⟨[], (List.append_nil _).symm, fun _ h => absurd h List.not_mem_nil⟩

theorem bind {x : Act δ α} {next : α → Act δ β} (hx : x.Adds log P)
    (hn : ∀ a, (next a).Adds log P) : Adds log P (x >>= next) := by
  intro s
  obtain ⟨calls, hc, hP⟩ := hx s
  rw [Act.Orderly.run_bind]
  rcases hr : x.run s with ⟨f | a, s'⟩
  · rw [hr] at hc
    exact ⟨calls, hc, hP⟩
  · rw [hr] at hc
    obtain ⟨more, hm, hQ⟩ := hn a s'
    refine ⟨calls ++ more, ?_, ?_⟩
    · rw [hm, hc, List.append_assoc]
    · intro call hcall
      rcases List.mem_append.1 hcall with h | h
      · exact hP call h
      · exact hQ call h

theorem forM {items : List α} {f : α → Act δ Unit} (h : ∀ a ∈ items, (f a).Adds log P) :
    Adds log P (items.forM f) := by
  induction items with
  | nil => exact pure ()
  | cons a rest ih =>
    exact bind (h a List.mem_cons_self) fun _ => ih fun b hb => h b (List.mem_cons_of_mem a hb)

end Act.Adds

/-- A handler that logs the calls made to it, and that calls other handlers only by descending. -/
structure LayerHandler.Records (log : δ → List HandlerCall) (kind : LayerKind)
    (h : LayerHandler δ) : Prop where
  prepare : ∀ d layers snapshots, log (h.prepare d layers snapshots).1 =
    log d ++ [.prepare kind (h.prepare d layers snapshots).2]
  process : ∀ layer descend P, Act.Adds log P descend → ∀ s, ∃ calls,
    log ((h.process layer descend).run s).2.1 = log s.1 ++ .process layer :: calls ∧
      ∀ call ∈ calls, P call
  clear : ∀ d, log (h.clearCache d).1 = log d ++ [.clear kind]

def Registry.Records (log : δ → List HandlerCall) (r : Registry δ) : Prop :=
  ∀ kind h, r.find? kind = some h → h.Records log kind

theorem Registry.Records.empty : Registry.Records log (.empty : Registry δ) := by
  intro kind h hf
  cases hf

theorem Registry.Records.register {r : Registry δ} (hr : r.Records log) {h : LayerHandler δ}
    (hh : h.Records log h.kind) : (r.register h).Records log := by
  intro kind found hf
  rw [Registry.register, SortedMap.find?_insert] at hf
  split at hf
  next hc =>
    cases hf
    have hk : kind = h.kind := by
      revert hc
      cases kind <;> cases h.kind <;> decide
    exact hk ▸ hh
  next => exact hr kind found hf

variable {registry : Registry δ} {a : Arena}

/-- Processing a layer calls handlers only with that layer and those below it. -/
theorem processLayer_adds (hr : registry.Records log) {P : HandlerCall → Prop} (fuel : Nat)
    (id : LayerId) (hP : ∀ top l, a.get? id = some top → a.Below top l → P (.process l)) :
    (processLayer registry a fuel id).Adds log P := by
  induction fuel generalizing id with
  | zero => exact .throw _
  | succ fuel ih =>
    cases hget : a.get? id with
    | none =>
      simp only [processLayer, hget]
      exact .throw _
    | some top =>
      simp only [processLayer, hget]
      cases hf : registry.find? top.kind with
      | none => exact .throw _
      | some handler =>
        have hbelow : Act.Adds log P (top.children.forM (processLayer registry a fuel)) := by
          refine .forM fun c hc => ih c fun down l hd hb => ?_
          exact hP top l hget ((Arena.Below.top.child hc hd).trans hb)
        intro s
        obtain ⟨calls, hlog, hcalls⟩ := (hr top.kind handler hf).process top _ P hbelow s
        refine ⟨.process top :: calls, hlog, fun call hcall => ?_⟩
        rcases List.mem_cons.1 hcall with rfl | hcall
        · exact hP top top hget .top
        · exact hcalls call hcall

/-- Calls to process are calls to process some layers. -/
theorem exists_layers {Q : LayerResource → Prop} {calls : List HandlerCall}
    (h : ∀ call ∈ calls, ∃ l, Q l ∧ call = .process l) :
    ∃ layers : List LayerResource, calls = layers.map .process ∧ ∀ l ∈ layers, Q l := by
  induction calls with
  | nil => exact ⟨[], rfl, fun _ hl => absurd hl List.not_mem_nil⟩
  | cons call rest ih =>
    obtain ⟨l, hl, rfl⟩ := h call List.mem_cons_self
    obtain ⟨layers, rfl, hlayers⟩ := ih fun call hcall => h call (List.mem_cons_of_mem _ hcall)
    refine ⟨l :: layers, rfl, fun other ho => ?_⟩
    rcases List.mem_cons.1 ho with rfl | ho
    · exact hl
    · exact hlayers other ho

namespace Batch

variable {b : Batch δ} {root : LayerResource}

/-- Processing a root calls a handler with it, and then only with what lies below it. -/
theorem processRoot_log (hr : registry.Records log) (ha : a.Woven) (hroot : root ∈ a.roots)
    (hk : registry.contains root.kind = true) (devices : δ) :
    ∃ layers : List LayerResource, log (processRoot registry a root devices).1 =
        log devices ++ (root :: layers).map .process ∧
      ∀ l ∈ layers, a.Below root l ∧ l.isRoot = false := by
  obtain ⟨hm, _⟩ := Arena.mem_roots.1 hroot
  have hget := ha.linked.get?_id hm
  obtain ⟨handler, hf⟩ := Option.isSome_iff_exists.1 hk
  let P (call : HandlerCall) : Prop :=
    ∃ l, (a.Below root l ∧ l.isRoot = false) ∧ call = .process l
  have hbelow : Act.Adds log P (root.children.forM (processLayer registry a a.size)) := by
    refine .forM fun c hc => processLayer_adds hr a.size c fun down l hd hb => ?_
    exact ⟨l, ⟨(Arena.Below.top.child hc hd).trans hb, ha.not_isRoot_of_child hm hc hd hb⟩, rfl⟩
  obtain ⟨calls, hlog, hcalls⟩ :=
    (hr root.kind handler hf).process root _ P hbelow (devices, [])
  obtain ⟨layers, rfl, hlayers⟩ := exists_layers hcalls
  refine ⟨layers, ?_, hlayers⟩
  simp only [processRoot, processTree, processLayer, hf, hget]
  exact hlog

/-- The phase of processing calls the handlers with its roots, in order, and with what lies below
them. -/
theorem process_log (hr : registry.Records log) (ha : a.Woven) {roots : List LayerResource}
    (hroots : ∀ root ∈ roots, root ∈ a.roots ∧ registry.contains root.kind = true) :
    ∃ layers : List LayerResource, log (roots.foldl (processStep registry a) b).devices =
        log b.devices ++ layers.map .process ∧
      layers.filter LayerResource.isRoot = roots ∧
      ∀ l ∈ layers, ∃ root ∈ roots, a.Below root l := by
  induction roots generalizing b with
  | nil => exact ⟨[], (List.append_nil _).symm, rfl, fun _ hl => absurd hl List.not_mem_nil⟩
  | cons root rest ih =>
    obtain ⟨hroot, hk⟩ := hroots root List.mem_cons_self
    obtain ⟨own, hown, hbelow⟩ := processRoot_log hr ha hroot hk b.devices
    obtain ⟨layers, hlog, hfilter, hrest⟩ := ih (b := processStep registry a b root)
      fun other ho => hroots other (List.mem_cons_of_mem root ho)
    refine ⟨root :: own ++ layers, ?_, ?_, ?_⟩
    · rw [List.foldl_cons, hlog, processStep_devices, hown, List.map_append, List.append_assoc]
    · have hnone : own.filter LayerResource.isRoot = [] :=
        List.filter_eq_nil_iff.2 fun l hl => by simp [(hbelow l hl).2]
      have htop : root.isRoot = true := (List.mem_filter.1 hroot).2
      rw [List.cons_append, List.filter_cons_of_pos htop, List.filter_append, hnone,
        List.nil_append, hfilter]
    · intro l hl
      rcases List.mem_append.1 hl with hl | hl
      · refine ⟨root, List.mem_cons_self, ?_⟩
        rcases List.mem_cons.1 hl with rfl | hl
        · exact .top
        · exact (hbelow l hl).1
      · obtain ⟨top, htop, hb⟩ := hrest l hl
        exact ⟨top, List.mem_cons_of_mem root htop, hb⟩

/-- The phase of clearing calls handlers to clear. -/
theorem cleanup_log (hr : registry.Records log) (kinds : List LayerKind) :
    ∃ cleared : List LayerKind, log (kinds.foldl (cleanupStep registry a) b).devices =
      log b.devices ++ cleared.map .clear := by
  induction kinds generalizing b with
  | nil => exact ⟨[], (List.append_nil _).symm⟩
  | cons kind rest ih =>
    obtain ⟨cleared, hlog⟩ := ih (b := cleanupStep registry a b kind)
    rw [List.foldl_cons, hlog]
    cases hf : registry.find? kind with
    | none => exact ⟨cleared, by simp [cleanupStep, hf]⟩
    | some handler =>
      have hclear := (hr kind handler hf).clear b.devices
      exact ⟨kind :: cleared, by simp [cleanupStep_devices hf, hclear]⟩

end Batch

end StorageCluster
