import Mathlib.Data.List.Pairwise
import Mathlib.Tactic.Common
import StorageCluster.Satellite.Arena

/-!
# Chains in the layer arena

A stack of layers becomes a chain at the end of the arena: every layer is the only child of the one
above it. In an arena of chains the root of a layer is the top of its chain, and it is found by
climbing.
-/
namespace StorageCluster

/-- The layers of a resource from top to bottom, the first one at the given index. -/
def chain (r : Resource) : Nat → Option LayerId → List LayerKind → List LayerResource
  | _, _, [] => []
  | index, parent, kind :: rest =>
    { id := ⟨index⟩, kind, resource := r, parent
      children := if rest.isEmpty then [] else [⟨index + 1⟩] } ::
        chain r (index + 1) (some ⟨index⟩) rest

/-- Where a layer of a chain stands, what is above it and what is below. -/
theorem getElem?_chain (r : Resource) (index : Nat) (parent : Option LayerId)
    (stack : List LayerKind) (i : Nat) :
    (chain r index parent stack)[i]? = stack[i]?.map fun kind =>
      { id := ⟨index + i⟩, kind, resource := r
        parent := if i = 0 then parent else some ⟨index + i - 1⟩
        children := if i + 1 < stack.length then [⟨index + i + 1⟩] else [] } := by
  induction stack generalizing index parent i with
  | nil => rfl
  | cons kind rest ih =>
    cases i with
    | zero => cases rest <;> simp [chain]
    | succ n =>
      have hi : index + 1 + n = index + (n + 1) := by omega
      have hp : (if n = 0 then some (LayerId.mk index) else some ⟨index + (n + 1) - 1⟩) =
          some ⟨index + n⟩ := by
        split
        next h0 => rw [h0, Nat.add_zero]
        next => rfl
      simp only [chain, List.getElem?_cons_succ, ih, List.length_cons, hi, hp]
      cases rest[n]? <;> simp

namespace Arena

theorem modify_length_append {α : Type} (xs : List α) (x : α) (f : α → α) :
    (xs ++ [x]).modify xs.length f = xs ++ [f x] := by
  induction xs with
  | nil => rfl
  | cons y ys ih => simp [ih]

/-- Insert a layer below the last one. -/
theorem insert_below (r : Resource) (kind : LayerKind) (above : List LayerResource)
    (last : LayerResource) :
    insert ⟨above ++ [last]⟩ kind r (some ⟨above.length⟩) =
      .ok (⟨above ++ [adopt ⟨above.length + 1⟩ last] ++
        [{ id := ⟨above.length + 1⟩, kind, resource := r, parent := some ⟨above.length⟩ }]⟩,
        ⟨above.length + 1⟩) := by
  have hs : (Arena.mk (above ++ [last])).size = above.length + 1 := by simp [size]
  simp only [insert, hs, Nat.lt_succ_self, if_true, modify_length_append]

/-- The layers of a chain below the last one so far. -/
theorem foldlM_insert (r : Resource) (stack : List LayerKind) (above : List LayerResource)
    (last : LayerResource) (hc : last.children = []) :
    ∃ id, stack.foldlM (fun (state : Arena × Option LayerId) kind => do
        let (a, id) ← state.1.insert kind r state.2
        return (a, some id)) (⟨above ++ [last]⟩, some ⟨above.length⟩) =
      (.ok (⟨above ++ [{ last with
          children := if stack.isEmpty then [] else [⟨above.length + 1⟩] }] ++
        chain r (above.length + 1) (some ⟨above.length⟩) stack⟩, id) :
          Except ArenaFault (Arena × Option LayerId)) := by
  induction stack generalizing above last with
  | nil =>
    refine ⟨some ⟨above.length⟩, ?_⟩
    simp [chain, ← hc]
    rfl
  | cons kind rest ih =>
    obtain ⟨id, hid⟩ := ih (above ++ [adopt ⟨above.length + 1⟩ last])
      { id := ⟨above.length + 1⟩, kind, resource := r, parent := some ⟨above.length⟩ } rfl
    refine ⟨id, ?_⟩
    simp only [List.length_append, List.length_cons, List.length_nil] at hid
    simp only [List.foldlM_cons, insert_below, chain]
    refine hid.trans ?_
    simp [adopt, hc]

theorem addChain_eq (a : Arena) (r : Resource) (stack : List LayerKind) :
    a.addChain r stack = .ok ⟨a.layers ++ chain r a.size none stack⟩ := by
  cases stack with
  | nil => simp [addChain, chain]; rfl
  | cons kind rest =>
    obtain ⟨id, hid⟩ := foldlM_insert r rest a.layers
      { id := ⟨a.size⟩, kind, resource := r, parent := none } rfl
    unfold addChain
    rw [List.foldlM_cons]
    change Prod.fst <$> (rest.foldlM _ (_, some (LayerId.mk a.layers.length))) = _
    rw [hid]
    simp [chain, size, Functor.map, Except.map]

theorem get?_append {a : Arena} {id : LayerId} {l : LayerResource} (h : a.get? id = some l)
    (more : List LayerResource) : get? ⟨a.layers ++ more⟩ id = some l := by
  have h' : a.layers[id.index]? = some l := h
  rw [get?, List.getElem?_append_left (List.getElem?_eq_some_iff.1 h').1, h']

theorem get?_append_chain (a : Arena) (r : Resource) {stack : List LayerKind} {j : Nat}
    (hj : j < stack.length) :
    get? ⟨a.layers ++ chain r a.size none stack⟩ ⟨a.size + j⟩ =
      some { id := ⟨a.size + j⟩, kind := stack[j], resource := r
             parent := if j = 0 then none else some ⟨a.size + j - 1⟩
             children := if j + 1 < stack.length then [⟨a.size + j + 1⟩] else [] } := by
  rw [get?, List.getElem?_append_right (Nat.le_add_right a.size j), size, Nat.add_sub_cancel_left,
    getElem?_chain, List.getElem?_eq_getElem hj, Option.map_some]

/-- After a chain is appended, a layer is one of those before, or one of the chain. -/
theorem getElem?_append_chain {a : Arena} {r : Resource} {stack : List LayerKind} {i : Nat}
    {l : LayerResource} (hl : (a.layers ++ chain r a.size none stack)[i]? = some l) :
    a.layers[i]? = some l ∨ ∃ j kind, i = a.size + j ∧ j < stack.length ∧
      l = { id := ⟨a.size + j⟩, kind, resource := r
            parent := if j = 0 then none else some ⟨a.size + j - 1⟩
            children := if j + 1 < stack.length then [⟨a.size + j + 1⟩] else [] } := by
  by_cases hi : i < a.size
  · exact .inl (by rwa [List.getElem?_append_left hi] at hl)
  · obtain ⟨j, rfl⟩ := Nat.exists_eq_add_of_le (Nat.le_of_not_lt hi)
    rw [List.getElem?_append_right (Nat.le_add_right a.size j), size, Nat.add_sub_cancel_left,
      getElem?_chain] at hl
    obtain ⟨kind, hk, he⟩ := Option.map_eq_some_iff.1 hl
    exact .inr ⟨j, kind, rfl, (List.getElem?_eq_some_iff.1 hk).1, he.symm⟩

/-- From a layer one comes to another by going from child to parent. -/
inductive Ascends (a : Arena) : LayerId → LayerId → Prop
  | here (id : LayerId) : Ascends a id id
  | up {id p top : LayerId} {l : LayerResource} (found : a.get? id = some l)
    (parent : l.parent = some p) (rest : Ascends a p top) : Ascends a id top

/-- Climbing does not end before it finds a root where each parent stands before its children. -/
theorem exists_climb {a : Arena} (start : LayerId)
    (hplace : ∀ (i : Nat) (l : LayerResource), a.layers[i]? = some l → l.id = ⟨i⟩)
    (hparent : ∀ (i : Nat) (l : LayerResource), a.layers[i]? = some l → ∀ p, l.parent = some p →
      p.index < i ∧ ∃ above, a.get? p = some above)
    {fuel i : Nat} {l : LayerResource} (hl : a.layers[i]? = some l) (hf : i < fuel) :
    ∃ root ∈ a.roots, a.climb start fuel ⟨i⟩ = .ok root.id ∧ a.Ascends ⟨i⟩ root.id := by
  induction fuel generalizing i l with
  | zero => exact absurd hf (Nat.not_lt_zero i)
  | succ fuel ih =>
    have hget : a.get? ⟨i⟩ = some l := hl
    cases hp : l.parent with
    | none =>
      have hroot : l ∈ a.roots :=
        List.mem_filter.2 ⟨List.mem_of_getElem? hl, by simp [LayerResource.isRoot, hp]⟩
      rw [← hplace i l hl] at hget ⊢
      exact ⟨l, hroot, by simp only [climb, hget, hp], .here l.id⟩
    | some p =>
      obtain ⟨hlt, above, ha⟩ := hparent i l hl p hp
      obtain ⟨root, hroot, hclimb, hup⟩ :=
        ih ha (Nat.lt_of_lt_of_le hlt (Nat.le_of_lt_succ hf))
      refine ⟨root, hroot, ?_, .up hget hp hup⟩
      simp only [climb, hget, hp]
      exact hclimb

/-- Every layer knows its place; its parent stands before it and belongs to the same resource, and
its children stand behind it. -/
structure Linked (a : Arena) : Prop where
  place : ∀ (i : Nat) (l : LayerResource), a.layers[i]? = some l → l.id = ⟨i⟩
  parent : ∀ (i : Nat) (l : LayerResource), a.layers[i]? = some l → ∀ p, l.parent = some p →
    p.index < i ∧ ∃ up, a.get? p = some up ∧ up.resource = l.resource
  children : ∀ (i : Nat) (l : LayerResource), a.layers[i]? = some l → ∀ c ∈ l.children,
    i < c.index ∧ ∃ down, a.get? c = some down

namespace Linked

variable {a : Arena}

theorem empty : Linked .empty := by
  constructor
  · intro i l h
    simp [Arena.empty] at h
  · intro i l h
    simp [Arena.empty] at h
  · intro i l h
    simp [Arena.empty] at h

theorem get?_id (h : a.Linked) {l : LayerResource} (hl : l ∈ a.layers) : a.get? l.id = some l := by
  obtain ⟨i, hi⟩ := List.getElem?_of_mem hl
  rw [get?, h.place i l hi, hi]

theorem append_chain (h : a.Linked) (r : Resource) (stack : List LayerKind) :
    Linked ⟨a.layers ++ chain r a.size none stack⟩ := by
  constructor
  · intro i l hl
    rcases getElem?_append_chain hl with ho | ⟨j, kind, rfl, _, rfl⟩
    · exact h.place i l ho
    · rfl
  · intro i l hl p hp
    rcases getElem?_append_chain hl with ho | ⟨j, kind, rfl, hj, rfl⟩
    · obtain ⟨hlt, up, hup, hr⟩ := h.parent i l ho p hp
      exact ⟨hlt, up, get?_append hup _, hr⟩
    · by_cases h0 : j = 0
      · simp [h0] at hp
      · simp only [h0, if_false, Option.some.injEq] at hp
        subst hp
        have he : a.size + j - 1 = a.size + (j - 1) := by omega
        have hup := a.get?_append_chain r (Nat.lt_of_le_of_lt (Nat.sub_le j 1) hj)
        rw [← he] at hup
        exact ⟨by simp only; omega, _, hup, rfl⟩
  · intro i l hl c hc
    rcases getElem?_append_chain hl with ho | ⟨j, kind, rfl, hj, rfl⟩
    · obtain ⟨hlt, down, hd⟩ := h.children i l ho c hc
      exact ⟨hlt, down, get?_append hd _⟩
    · by_cases hn : j + 1 < stack.length
      · simp only [hn, if_true, List.mem_singleton] at hc
        subst hc
        exact ⟨by simp only; omega, _, a.get?_append_chain r hn⟩
      · simp [hn] at hc

theorem withSnapshots (h : a.Linked) (snapshots : List Snapshot) :
    (a.withSnapshots snapshots).Linked := by
  let f (l : LayerResource) : LayerResource :=
    { l with snapshots := snapshots.filter fun s => s.resource == l.resource.name }
  have hget (i : Nat) : (a.withSnapshots snapshots).layers[i]? = a.layers[i]?.map f :=
    List.getElem?_map
  have hof {i : Nat} {l : LayerResource}
      (hl : (a.withSnapshots snapshots).layers[i]? = some l) :
      ∃ old, a.layers[i]? = some old ∧ f old = l := by
    rw [hget] at hl
    exact Option.map_eq_some_iff.1 hl
  constructor
  · intro i l hl
    obtain ⟨old, ho, rfl⟩ := hof hl
    exact h.place i old ho
  · intro i l hl p hp
    obtain ⟨old, ho, rfl⟩ := hof hl
    obtain ⟨hlt, up, hup, hr⟩ := h.parent i old ho p hp
    have hup' : a.layers[p.index]? = some up := hup
    exact ⟨hlt, f up, by rw [get?, hget, hup', Option.map_some], hr⟩
  · intro i l hl c hc
    obtain ⟨old, ho, rfl⟩ := hof hl
    obtain ⟨hlt, down, hd⟩ := h.children i old ho c hc
    have hd' : a.layers[c.index]? = some down := hd
    exact ⟨hlt, f down, by rw [get?, hget, hd', Option.map_some]⟩

theorem resource_eq (h : a.Linked) {id top : LayerId} (hup : a.Ascends id top)
    {l root : LayerResource} (hl : a.get? id = some l) (hr : a.get? top = some root) :
    root.resource = l.resource := by
  induction hup generalizing l with
  | here =>
    rw [hl] at hr
    cases hr
    rfl
  | up found parent _ ih =>
    rw [hl] at found
    cases found
    obtain ⟨_, above, ha, hresource⟩ := h.parent _ _ hl _ parent
    exact (ih ha hr).trans hresource

theorem root_above (h : a.Linked) {l : LayerResource} (hl : l ∈ a.layers) :
    ∃ root ∈ a.roots, a.rootOf l.id = .ok root.id ∧ a.Ascends l.id root.id := by
  obtain ⟨i, hi⟩ := List.getElem?_of_mem hl
  have hlt : i < a.size := (List.getElem?_eq_some_iff.1 hi).1
  rw [h.place i l hi]
  exact exists_climb ⟨i⟩ h.place
    (fun i l hl p hp => (h.parent i l hl p hp).imp_right fun ⟨above, ha, _⟩ => ⟨above, ha⟩)
    hi (Nat.lt_succ_of_lt hlt)

/-- Climbing finds a root of the same resource. -/
theorem rootOf (h : a.Linked) {l : LayerResource} (hl : l ∈ a.layers) :
    ∃ root ∈ a.roots, a.rootOf l.id = .ok root.id ∧ root.resource = l.resource := by
  obtain ⟨root, hroot, hrootOf, hup⟩ := h.root_above hl
  have hr := h.get?_id (List.mem_filter.1 hroot).1
  exact ⟨root, hroot, hrootOf, h.resource_eq hup (h.get?_id hl) hr⟩

end Linked

end Arena

end StorageCluster
