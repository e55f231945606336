import StorageCluster.Proofs.Satellite.Expansion

/-!
# Roots and what lies below them

Processing goes down from the roots, blocking goes up from the layers. In the arena of a batch both
ways meet: the layer that climbing finds is the one root that a layer lies below. Whatever the batch
is, its roots stand in the order of its resources.
-/
namespace StorageCluster

namespace Arena

/-- A layer itself, its children, their children and so on. -/
inductive Below (a : Arena) (top : LayerResource) : LayerResource → Prop
  | top : Below a top top
  | child {l down : LayerResource} {c : LayerId} (above : Below a top l) (hc : c ∈ l.children)
      (hd : a.get? c = some down) : Below a top down

theorem mem_of_get? {a : Arena} {id : LayerId} {l : LayerResource} (h : a.get? id = some l) :
    l ∈ a.layers :=
  List.mem_of_getElem? h

theorem mem_roots {a : Arena} {root : LayerResource} :
    root ∈ a.roots ↔ root ∈ a.layers ∧ root.parent = none := by
  simp [roots, LayerResource.isRoot]

namespace Below

variable {a : Arena} {top l : LayerResource}

theorem mem_layers (h : a.Below top l) (htop : top ∈ a.layers) : l ∈ a.layers := by
  cases h with
  | top => exact htop
  | child _ _ hd => exact mem_of_get? hd

theorem trans {bottom : LayerResource} (h : a.Below top l) (hb : a.Below l bottom) :
    a.Below top bottom := by
  induction hb with
  | top => exact h
  | child _ hc hd ih => exact ih.child hc hd

end Below

/-- A layer is a child of its parent, and the parent of its children. -/
structure Woven (a : Arena) : Prop where
  linked : a.Linked
  up : ∀ (i : Nat) (l : LayerResource), a.layers[i]? = some l → ∀ p, l.parent = some p →
    ∃ above, a.get? p = some above ∧ l.id ∈ above.children
  down : ∀ (i : Nat) (l : LayerResource), a.layers[i]? = some l → ∀ c ∈ l.children, ∀ d,
    a.get? c = some d → d.parent = some l.id

namespace Woven

variable {a : Arena}

theorem empty : Woven .empty := by
  refine ⟨.empty, ?_, ?_⟩
  · intro i l h
    simp [Arena.empty] at h
  · intro i l h
    simp [Arena.empty] at h

theorem append_chain (h : a.Woven) (r : Resource) (stack : List LayerKind) :
    Woven ⟨a.layers ++ chain r a.size none stack⟩ := by
  refine ⟨h.linked.append_chain r stack, ?_, ?_⟩
  · intro i l hl p hp
    rcases getElem?_append_chain hl with ho | ⟨j, kind, rfl, hj, rfl⟩
    · obtain ⟨above, ha, hm⟩ := h.up i l ho p hp
      exact ⟨above, get?_append ha _, hm⟩
    · cases j with
      | zero => simp at hp
      | succ j =>
        have he : a.size + (j + 1) - 1 = a.size + j := by omega
        simp only [Nat.add_one_ne_zero, if_false, Option.some.injEq, he] at hp
        subst hp
        have habove := a.get?_append_chain r (Nat.lt_of_succ_lt hj)
        rw [if_pos hj] at habove
        exact ⟨_, habove, List.mem_singleton.2 rfl⟩
  · intro i l hl c hc d hd
    rcases getElem?_append_chain hl with ho | ⟨j, kind, rfl, hj, rfl⟩
    · obtain ⟨_, down, hdown⟩ := h.linked.children i l ho c hc
      have hsame : d = down := Option.some.inj (hd.symm.trans (get?_append hdown _))
      exact hsame ▸ h.down i l ho c hc down hdown
    · by_cases hn : j + 1 < stack.length
      · simp only [hn, if_true, List.mem_singleton] at hc
        subst hc
        have hsame := Option.some.inj (hd.symm.trans (a.get?_append_chain r hn))
        rw [hsame, if_neg (Nat.add_one_ne_zero j), Nat.add_sub_assoc (Nat.le_add_left 1 j),
          Nat.add_sub_cancel]
      · simp [hn] at hc

theorem withSnapshots (h : a.Woven) (snapshots : List Snapshot) :
    (a.withSnapshots snapshots).Woven := by
  let f (l : LayerResource) : LayerResource :=
    { l with snapshots := snapshots.filter fun s => s.resource == l.resource.name }
  have hget (i : Nat) : (a.withSnapshots snapshots).layers[i]? = a.layers[i]?.map f :=
    List.getElem?_map
  refine ⟨h.linked.withSnapshots snapshots, ?_, ?_⟩
  · intro i l hl p hp
    rw [hget] at hl
    obtain ⟨old, ho, rfl⟩ := Option.map_eq_some_iff.1 hl
    obtain ⟨above, ha, hm⟩ := h.up i old ho p hp
    have ha' : a.layers[p.index]? = some above := ha
    exact ⟨f above, by rw [get?, hget, ha', Option.map_some], hm⟩
  · intro i l hl c hc d hd
    rw [hget] at hl
    obtain ⟨old, ho, rfl⟩ := Option.map_eq_some_iff.1 hl
    rw [get?, hget] at hd
    obtain ⟨down, hdown, rfl⟩ := Option.map_eq_some_iff.1 hd
    exact h.down i old ho c hc down hdown

theorem down_of_mem (h : a.Woven) {l d : LayerResource} (hl : l ∈ a.layers) {c : LayerId}
    (hc : c ∈ l.children) (hd : a.get? c = some d) : d.parent = some l.id := by
  obtain ⟨i, hi⟩ := List.getElem?_of_mem hl
  exact h.down i l hi c hc d hd

/-- Where one comes from a layer by climbing, there the layer lies below. -/
theorem below_of_ascends (h : a.Woven) {id top : LayerId} (hup : a.Ascends id top)
    {l root : LayerResource} (hl : a.get? id = some l) (hr : a.get? top = some root) :
    a.Below root l := by
  induction hup generalizing l with
  | here =>
    rw [hl] at hr
    cases hr
    exact .top
  | up found parent _ ih =>
    rw [hl] at found
    cases found
    obtain ⟨above, ha, hm⟩ := h.up _ _ hl _ parent
    exact (ih ha hr).child hm (h.linked.get?_id (mem_of_get? hl))

/-- A layer lies below one root only. -/
theorem below_unique (h : a.Woven) {root other l : LayerResource} (hr : root ∈ a.roots)
    (ho : other ∈ a.roots) (hl : a.Below root l) (hlo : a.Below other l) : root = other := by
  obtain ⟨hrm, hrp⟩ := mem_roots.1 hr
  obtain ⟨hom, hop⟩ := mem_roots.1 ho
  induction hl with
  | top =>
    cases hlo with
    | top => rfl
    | child above hc hd =>
      have hp := h.down_of_mem (above.mem_layers hom) hc hd
      rw [hrp] at hp
      cases hp
  | child above hc hd ih =>
    have hp := h.down_of_mem (above.mem_layers hrm) hc hd
    cases hlo with
    | top =>
      rw [hop] at hp
      cases hp
    | child above' hc' hd' =>
      have hp' := h.down_of_mem (above'.mem_layers hom) hc' hd'
      have hid := Option.some.inj (hp.symm.trans hp')
      have hl := h.linked.get?_id (above.mem_layers hrm)
      have hl' := h.linked.get?_id (above'.mem_layers hom)
      rw [hid, hl'] at hl
      cases hl
      exact ih above'

/-- What blocking finds from a layer is what processing reaches the layer from. -/
theorem rootOf_eq_iff (h : a.Woven) {root l : LayerResource} (hr : root ∈ a.roots)
    (hl : l ∈ a.layers) : a.rootOf l.id = .ok root.id ↔ a.Below root l := by
  obtain ⟨found, hfound, hrootOf, hup⟩ := h.linked.root_above hl
  have hbelow := h.below_of_ascends hup (h.linked.get?_id hl)
    (h.linked.get?_id (mem_roots.1 hfound).1)
  rw [hrootOf]
  constructor
  · intro he
    have hid : found.id = root.id := Except.ok.inj he
    have hf := h.linked.get?_id (mem_roots.1 hfound).1
    have hg := h.linked.get?_id (mem_roots.1 hr).1
    rw [hid, hg] at hf
    cases hf
    exact hbelow
  · intro hb
    rw [h.below_unique hfound hr hbelow hb]

/-- What lies properly below a layer is no root. -/
theorem not_isRoot_of_child (h : a.Woven) {l d bottom : LayerResource} (hl : l ∈ a.layers)
    {c : LayerId} (hc : c ∈ l.children) (hd : a.get? c = some d) (hb : a.Below d bottom) :
    bottom.isRoot = false := by
  cases hb with
  | top => rw [LayerResource.isRoot, h.down_of_mem hl hc hd, Option.isNone_some]
  | child above hc' hd' =>
    have hm := above.mem_layers (mem_of_get? hd)
    rw [LayerResource.isRoot, h.down_of_mem hm hc' hd', Option.isNone_some]

theorem roots_nodup (h : a.Woven) : a.roots.Nodup := by
  refine List.Pairwise.filter _ (List.pairwise_iff_getElem.2 ?_)
  intro i j hi hj hij he
  have hidi := h.linked.place i _ (List.getElem?_eq_getElem hi)
  have hidj := h.linked.place j _ (List.getElem?_eq_getElem hj)
  rw [he, hidj, LayerId.mk.injEq] at hidi
  omega

end Woven

end Arena

namespace StackMemory

/-- The arena of a batch: it is woven, and its roots stand in the order of the resources. -/
structure Laid (resources : List Resource) (e : Expansion) : Prop where
  woven : e.arena.Woven
  order : (e.arena.roots.map (·.resource)).Sublist resources

theorem Laid.next {done : List Resource} {state : StackMemory × Expansion}
    (h : Laid done state.2) (fullSync : Bool) (r : Resource) :
    Laid (done ++ [r]) (expandNext fullSync state r).2 := by
  unfold expandNext
  simp only [expandOne_eq]
  cases hs : state.1.stackFor fullSync r with
  | error fault => exact ⟨h.woven, h.order.trans (List.sublist_append_left done [r])⟩
  | ok stack =>
    refine ⟨h.woven.append_chain r stack, ?_⟩
    have hroots := roots_chain r state.2.arena.size (ne_nil_of_stackFor hs)
    simp only [Arena.roots, List.filter_append, List.map_append, hroots]
    exact h.order.append (List.Sublist.refl [r])

theorem Laid.foldl {done : List Resource} {state : StackMemory × Expansion}
    (h : Laid done state.2) (fullSync : Bool) (resources : List Resource) :
    Laid (done ++ resources) (resources.foldl (expandNext fullSync) state).2 := by
  induction resources generalizing done state with
  | nil => simpa using h
  | cons r rest ih =>
    rw [List.foldl_cons, List.append_cons]
    exact ih (h.next fullSync r)

/-- Every batch is laid out so, also when resources in it have the same name. -/
theorem expand_laid (m : StackMemory) (resources : List Resource) (snapshots : List Snapshot)
    (fullSync : Bool) : Laid resources (m.expand resources snapshots fullSync).2 := by
  have hstart : Laid [] ((m, {}) : StackMemory × Expansion).2 := ⟨.empty, List.Sublist.refl []⟩
  have h := hstart.foldl fullSync resources
  refine ⟨h.woven.withSnapshots snapshots, ?_⟩
  have horder := h.order
  simp only [expand, Arena.withSnapshots, Arena.roots, List.filter_map, List.map_map] at horder ⊢
  exact horder

end StackMemory

end StorageCluster
