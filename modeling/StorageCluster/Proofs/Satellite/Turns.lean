import StorageCluster.Proofs.Satellite.Lasting

/-!
# Turns

Whatever the resources of a batch are called, a chain hangs below every root of its expansion. When
a root is processed it is the turn of its resource: the built-in layers work on the kinds of that
chain, from top to bottom. So the processing of a batch is a sequence of turns.
-/
namespace StorageCluster

namespace Arena

variable {a : Arena} {right : Resource → List LayerKind → Prop}

/-- The kinds of a layer and of what hangs below it, at most `fuel` layers deep. -/
def kindsFrom (a : Arena) : Nat → LayerId → List LayerKind
  | 0, _ => []
  | fuel + 1, id =>
    match a.get? id with
    | none => []
    | some l => l.kind :: l.children.flatMap (a.kindsFrom fuel)

/-- The stack that a root was expanded with. -/
def stackOf (a : Arena) (root : LayerResource) : List LayerKind := a.kindsFrom a.size root.id

theorem Holds.kindsFrom_eq {r : Resource} {index fuel : Nat} {stack : List LayerKind}
    (h : a.Holds r index stack) (hne : stack ≠ []) (hf : stack.length ≤ fuel) :
    a.kindsFrom fuel ⟨index⟩ = stack := by
  induction stack generalizing index fuel with
  | nil => exact absurd rfl hne
  | cons kind rest ih =>
    obtain ⟨⟨l, hl, rfl, _, hc⟩, hrest⟩ := h
    obtain ⟨fuel, rfl⟩ : ∃ n, fuel = n + 1 := ⟨fuel - 1, by simp at hf; omega⟩
    have hbelow : l.children.flatMap (a.kindsFrom fuel) = rest := by
      rw [hc]
      cases rest with
      | nil => rfl
      | cons next more =>
        have hnext := ih hrest (List.cons_ne_nil _ _) (Nat.le_of_succ_le_succ hf)
        simp [hnext]
    simp only [kindsFrom, hl, hbelow]

/-- Below every root hangs a chain that is right for its resource. -/
def Chained (a : Arena) (right : Resource → List LayerKind → Prop) : Prop :=
  ∀ root ∈ a.roots, ∃ stack, right root.resource stack ∧ stack ≠ [] ∧
    a.Holds root.resource root.id.index stack

theorem Chained.append (h : a.Chained right) {r : Resource} {stack : List LayerKind}
    (hr : right r stack) : Chained ⟨a.layers ++ chain r a.size none stack⟩ right := by
  intro root hroot
  rw [roots, List.filter_append, List.mem_append] at hroot
  rcases hroot with hroot | hroot
  · obtain ⟨own, hright, hne, hholds⟩ := h root hroot
    exact ⟨own, hright, hne, hholds.append _⟩
  · cases stack with
    | nil => cases hroot
    | cons kind rest =>
      rw [chain, List.filter_cons_of_pos rfl, StackMemory.filter_isRoot_chain,
        List.mem_singleton] at hroot
      subst hroot
      exact ⟨_, hr, List.cons_ne_nil _ _, holds_chain r a.layers none _⟩

theorem Chained.withSnapshots (h : a.Chained right) (snapshots : List Snapshot) :
    (a.withSnapshots snapshots).Chained right := by
  let f (l : LayerResource) : LayerResource :=
    { l with snapshots := snapshots.filter fun s => s.resource == l.resource.name }
  intro root hroot
  rw [roots, Arena.withSnapshots, List.filter_map] at hroot
  obtain ⟨old, ho, rfl⟩ := List.mem_map.1 hroot
  obtain ⟨stack, hright, hne, hholds⟩ := h old ho
  refine ⟨stack, hright, hne, hholds.of_layers fun id l hl => ⟨f l, ?_, rfl, rfl, rfl⟩⟩
  have hl' : a.layers[id.index]? = some l := hl
  rw [get?, Arena.withSnapshots, List.getElem?_map, hl', Option.map_some]

/-- The chain below a root is its stack. -/
theorem Chained.stackOf (h : a.Chained right) (ha : a.Linked) {root : LayerResource}
    (hroot : root ∈ a.roots) : right root.resource (a.stackOf root) ∧ a.stackOf root ≠ [] ∧
      a.Holds root.resource root.id.index (a.stackOf root) ∧ (a.stackOf root).length ≤ a.size := by
  obtain ⟨stack, hright, hne, hholds⟩ := h root hroot
  have hget := ha.get?_id (mem_roots.1 hroot).1
  have hlt : root.id.index < a.size := (List.getElem?_eq_some_iff.1 hget).1
  have hfits := hholds.length_le (Nat.le_of_lt hlt)
  have hsize : stack.length ≤ a.size := by omega
  have heq : a.stackOf root = stack := hholds.kindsFrom_eq hne hsize
  rw [heq]
  exact ⟨hright, hne, hholds, hsize⟩

end Arena

namespace StackMemory

variable {fullSync : Bool} {right : Resource → List LayerKind → Prop}

theorem chained_expandNext {state : StackMemory × Expansion} (h : state.2.arena.Chained right)
    {r : Resource} (hr : ∀ stack, state.1.stackFor fullSync r = .ok stack → right r stack) :
    (expandNext fullSync state r).2.arena.Chained right := by
  unfold expandNext
  simp only [expandOne_eq]
  cases hs : state.1.stackFor fullSync r with
  | error fault => exact h
  | ok stack => exact h.append (hr stack hs)

theorem chained_foldl {m now : StackMemory} {resources : List Resource} {e : Expansion}
    (h : e.arena.Chained fun r stack => m.stackFor fullSync r = .ok stack)
    (hsame : ∀ r ∈ resources, now.stackFor fullSync r = m.stackFor fullSync r)
    (hdistinct : resources.Pairwise fun a b => (a.name == b.name) = false) :
    (resources.foldl (expandNext fullSync) (now, e)).2.arena.Chained
      fun r stack => m.stackFor fullSync r = .ok stack := by
  induction resources generalizing now e with
  | nil => exact h
  | cons r rest ih =>
    obtain ⟨hr, hrest⟩ := List.pairwise_cons.1 hdistinct
    have hnext : (expandNext fullSync (now, e) r).2.arena.Chained
        fun r stack => m.stackFor fullSync r = .ok stack :=
      chained_expandNext h fun stack hs => (hsame r List.mem_cons_self).symm.trans hs
    have hlater : ∀ other ∈ rest, (expandNext fullSync (now, e) r).1.stackFor fullSync other =
        m.stackFor fullSync other := fun other ho =>
      (stackFor_expandNext (hr other ho)).trans (hsame other (List.mem_cons_of_mem r ho))
    exact ih hnext hlater hrest

/-- Resources of different names are expanded with what the memory tells at the start. -/
theorem expand_chained (m : StackMemory) (resources : List Resource) (snapshots : List Snapshot)
    (fullSync : Bool) (hdistinct : resources.Pairwise fun a b => (a.name == b.name) = false) :
    (m.expand resources snapshots fullSync).2.arena.Chained
      fun r stack => m.stackFor fullSync r = .ok stack := by
  have hstart : Arena.empty.Chained fun r stack => m.stackFor fullSync r = .ok stack :=
    fun _ hroot => by cases hroot
  exact (chained_foldl (e := {}) hstart (fun _ _ => rfl) hdistinct).withSnapshots snapshots

/-- Whatever is expanded is expanded with a valid stack. -/
theorem expand_valid (m : StackMemory) (resources : List Resource) (snapshots : List Snapshot)
    (fullSync : Bool) : (m.expand resources snapshots fullSync).2.arena.Chained
      fun _ stack => Stack.validate stack = .ok () := by
  have hall : (resources.foldl (expandNext fullSync) (m, {})).2.arena.Chained
      fun _ stack => Stack.validate stack = .ok () :=
    List.foldlRecOn resources _ (motive := fun state : StackMemory × Expansion =>
      state.2.arena.Chained fun _ stack => Stack.validate stack = .ok ())
      (fun _ hroot => by cases hroot) fun _ hnow _ _ =>
        chained_expandNext hnow fun _ hs => (stackFor_eq_ok_iff.1 hs).2
  exact hall.withSnapshots snapshots

end StackMemory

/-- A resource that was worked on: the stack it was expanded with, what was reported, and how the
work ended. -/
structure Turn where
  resource : Resource
  stack : List LayerKind
  entries : Report
  outcome : Except Fault Unit

/-- What is told after a turn. -/
def Turn.answer (turn : Turn) : ResourceName × Report :=
  (turn.resource.name, turn.entries ++ [Batch.closing turn.resource.name turn.outcome])

/-- What the call on a root tells of its resource. -/
def ProcessCall.answer (call : ProcessCall) : ResourceName × Report :=
  (call.root.resource.name,
    call.entries ++ [Batch.closing call.root.resource.name call.outcome])

/-- The turn that a call on a root is. -/
def ProcessCall.turn (a : Arena) (call : ProcessCall) : Turn :=
  ⟨call.root.resource, a.stackOf call.root, call.entries, call.outcome⟩

namespace Devices

/-- Turns that lead from some devices to others, one after the other. -/
inductive Takes : Devices → List Turn → Devices → Prop
  | done (d : Devices) : Takes d [] d
  | next {d d' after : Devices} {turn : Turn} {turns : List Turn}
    (run : (turn.resource.work turn.stack).run (d, []) = (turn.outcome, d', turn.entries))
    (rest : Takes d' turns after) : Takes d (turn :: turns) after

namespace Takes

variable {d d' : Devices} {turn : Turn} {turns more : List Turn} {plan : StackMemory.Plan}

/-- Turns that are taken one after the other meet in between. -/
theorem split (h : Takes d (turns ++ more) d') :
    ∃ between, Takes d turns between ∧ Takes between more d' := by
  induction turns generalizing d with
  | nil => exact ⟨d, .done d, h⟩
  | cons turn rest ih =>
    cases h with
    | next run later =>
      obtain ⟨between, hfirst, hlast⟩ := ih later
      exact ⟨between, .next run hfirst, hlast⟩

/-- What each turn keeps is kept by all. -/
theorem keeps {P : Devices → Prop} (h : Takes d turns d')
    (hturn : ∀ turn ∈ turns, ∀ d,
      P d → P ((turn.resource.work turn.stack).run (d, [])).2.1) (hd : P d) : P d' := by
  induction h with
  | done => exact hd
  | @next d now after turn turns run _ ih =>
    have hnow := hturn turn List.mem_cons_self d hd
    rw [run] at hnow
    exact ih (fun later hlater => hturn later (List.mem_cons_of_mem turn hlater)) hnow

theorem lasting (h : Takes d turns d') : Takes d.lasting turns d'.lasting := by
  induction h with
  | done d => exact .done d.lasting
  | @next d _ _ turn _ run _ ih =>
    refine .next ?_ ih
    rw [Resource.work_ignoresCaches, run]

/-- Turns with planned stacks are the work on their resources. -/
theorem answers (h : Takes d turns d')
    (hplan : ∀ turn ∈ turns, plan turn.resource = .ok turn.stack) :
    d' = (turns.map (·.resource)).foldl (Devices.advance plan) d ∧
      turns.map Turn.answer = Devices.answers plan d (turns.map (·.resource)) := by
  induction h with
  | done => exact ⟨rfl, rfl⟩
  | @next d now after turn turns run _ ih =>
    obtain ⟨hdevices, hanswers⟩ := ih fun later hlater =>
      hplan later (List.mem_cons_of_mem turn hlater)
    have hturn := hplan turn List.mem_cons_self
    have hnow : Devices.advance plan d turn.resource = now := by
      simp only [Devices.advance, hturn, run]
    have hanswer : turn.answer = (turn.resource.name, Devices.answer plan d turn.resource) := by
      simp only [Turn.answer, Devices.answer, hturn, run]
    rw [List.map_cons, List.map_cons, List.foldl_cons, Devices.answers, hnow, hanswer, hanswers]
    exact ⟨hdevices, rfl⟩

end Takes

end Devices

namespace Batch

variable {a : Arena} {b : Batch Devices} {right : Resource → List LayerKind → Prop}

theorem map_root_processCalls (registry : Registry Devices) (a : Arena) (b : Batch Devices)
    (roots : List LayerResource) :
    (processCalls registry a b roots).map ProcessCall.root = roots := by
  induction roots generalizing b with
  | nil => rfl
  | cons root rest ih => exact congrArg (root :: ·) (ih _)

/-- Processing a root is the work on its resource. -/
theorem processRoot_eq (hchained : a.Chained right) (ha : a.Linked) {root : LayerResource}
    (hroot : root ∈ a.roots) (hk : Registry.builtIn.contains root.kind = true) (d : Devices) :
    let done := (root.resource.work (a.stackOf root)).run (d, [])
    processRoot Registry.builtIn a root d = (done.2.1, done.2.2, done.1) := by
  obtain ⟨-, hne, hholds, hsize⟩ := hchained.stackOf ha hroot
  obtain ⟨handler, hf⟩ := Option.isSome_iff_exists.1 hk
  simp only [processRoot, hf, processTree]
  rw [hholds.processLayer_eq hne (by omega)]
  rfl

/-- Roots are processed as turns are taken. -/
theorem process_takes (hchained : a.Chained right) (ha : a.Linked) {roots : List LayerResource}
    (hroots : ∀ root ∈ roots, root ∈ a.roots ∧ Registry.builtIn.contains root.kind = true) :
    Devices.Takes b.devices ((processCalls Registry.builtIn a b roots).map (ProcessCall.turn a))
      (roots.foldl (processStep Registry.builtIn a) b).devices := by
  induction roots generalizing b with
  | nil => exact .done b.devices
  | cons root rest ih =>
    obtain ⟨hroot, hk⟩ := hroots root List.mem_cons_self
    have hrun := processRoot_eq hchained ha hroot hk b.devices
    have hrest := ih (b := processStep Registry.builtIn a b root) fun other ho =>
      hroots other (List.mem_cons_of_mem root ho)
    refine .next ?_ hrest
    simp only [processStep_devices, processCall, ProcessCall.turn, hrun]
    rfl

end Batch

end StorageCluster
