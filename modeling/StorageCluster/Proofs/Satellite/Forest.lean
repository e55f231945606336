import Mathlib.Data.List.Nodup
import Mathlib.Tactic.Common
import StorageCluster.Proofs.Satellite.Roots

/-!
# The arena is a forest

Layers are inserted one call after the other, below any parent. A call that names a parent which is
not there is rejected and changes nothing. So every parent stands before its children, each knows
the other, and climbing from a layer ends at the one root above it.
-/
namespace StorageCluster

namespace Arena

/-- A call to insert a layer. -/
structure Insertion where
  kind : LayerKind
  resource : Resource
  parent : Option LayerId

/-- The layer that a call brings into an arena. -/
def fresh (a : Arena) (call : Insertion) : LayerResource :=
  { id := ⟨a.size⟩, kind := call.kind, resource := call.resource, parent := call.parent }

/-- The arena that a call leaves to the next one, and what it answers. -/
def attempt (a : Arena) (call : Insertion) : Arena × Except ArenaFault LayerId :=
  match a.insert call.kind call.resource call.parent with
  | .ok (after, id) => (after, .ok id)
  | .error fault => (a, .error fault)

/-- The arena after calls that came one after the other. -/
def afterAll (calls : List Insertion) : Arena :=
  calls.foldl (fun a call => (a.attempt call).1) .empty

/-- The two ends of a call. A call that comes through adds its layer behind all others; the parent
has one more child, and nothing else changes. -/
inductive Attempted (a : Arena) (call : Insertion) : Arena × Except ArenaFault LayerId → Prop
  | rejected {p : LayerId} (parent : call.parent = some p) (missing : a.get? p = none) :
    Attempted a call (a, .error (.missingParent p call.resource.name))
  | inserted {after : Arena} (present : ∀ p, call.parent = some p → p.index < a.size)
    (layers : ∀ i, after.layers[i]? = if i = a.size then some (a.fresh call) else
      a.layers[i]?.map fun l => if call.parent = some ⟨i⟩ then adopt ⟨a.size⟩ l else l) :
    Attempted a call (after, .ok ⟨a.size⟩)

theorem getElem?_snoc (xs : List LayerResource) (x : LayerResource) (i : Nat) :
    (xs ++ [x])[i]? = if i = xs.length then some x else xs[i]? := by
  split
  next h => rw [h, List.getElem?_concat_length]
  next h =>
    rw [List.getElem?_append]
    split
    next => rfl
    next hi =>
      rw [List.getElem?_eq_none (by simp; omega), List.getElem?_eq_none (by omega)]

theorem attempted (a : Arena) (call : Insertion) : a.Attempted call (a.attempt call) := by
  unfold attempt insert
  cases hp : call.parent with
  | none =>
    refine .inserted (fun p h => ?_) fun i => ?_
    · rw [hp] at h
      cases h
    · simp only [getElem?_snoc, hp, reduceCtorEq, if_false, Option.map_id', fresh, size]
  | some p =>
    by_cases hi : p.index < a.size
    · simp only [hi, if_true]
      refine .inserted (fun q h => ?_) fun i => ?_
      · rw [hp, Option.some.injEq] at h
        rwa [← h]
      · have hsame : p = ⟨i⟩ ↔ p.index = i := ⟨fun h => h ▸ rfl, fun h => h ▸ rfl⟩
        simp only [getElem?_snoc, List.getElem?_modify, List.length_modify, fresh, size, hp,
          Option.some.injEq, hsame, Option.map_eq_map]
    · simp only [hi, if_false]
      exact .rejected hp (List.getElem?_eq_none (Nat.le_of_not_lt hi))

/-- Layers know their places. A parent stands before its children, and each knows the other once. -/
structure Forest (a : Arena) : Prop where
  place : ∀ (i : Nat) (l : LayerResource), a.layers[i]? = some l → l.id = ⟨i⟩
  up : ∀ l ∈ a.layers, ∀ p, l.parent = some p →
    p.index < l.id.index ∧ ∃ above, a.get? p = some above ∧ l.id ∈ above.children
  down : ∀ l ∈ a.layers, ∀ c ∈ l.children, ∃ below, a.get? c = some below ∧ below.parent = some l.id
  nodup : ∀ l ∈ a.layers, l.children.Nodup

/-- A layer once a call came through: one more child for the parent that it names. -/
def grow (a : Arena) (call : Insertion) (l : LayerResource) : LayerResource :=
  if call.parent = some l.id then adopt ⟨a.size⟩ l else l

@[simp] theorem grow_id (a : Arena) (call : Insertion) (l : LayerResource) :
    (a.grow call l).id = l.id := by
  unfold grow
  split <;> rfl

@[simp] theorem grow_parent (a : Arena) (call : Insertion) (l : LayerResource) :
    (a.grow call l).parent = l.parent := by
  unfold grow
  split <;> rfl

theorem mem_grow_children {a : Arena} {call : Insertion} {l : LayerResource} {c : LayerId} :
    c ∈ (a.grow call l).children ↔
      c ∈ l.children ∨ call.parent = some l.id ∧ c = ⟨a.size⟩ := by
  unfold grow
  split
  next hp => simp [adopt, hp]
  next hp => simp [hp]

/-- The arena once a call came through. -/
def grown (a : Arena) (call : Insertion) : Arena :=
  ⟨a.layers.map (a.grow call) ++ [a.fresh call]⟩

theorem mem_grown {a : Arena} {call : Insertion} {l : LayerResource} :
    l ∈ (a.grown call).layers ↔ (∃ old ∈ a.layers, a.grow call old = l) ∨ l = a.fresh call := by
  rw [grown, List.mem_append, List.mem_map, List.mem_singleton]

theorem get?_grown {a : Arena} (call : Insertion) {id : LayerId} {l : LayerResource}
    (hl : a.get? id = some l) : (a.grown call).get? id = some (a.grow call l) := by
  have hl' : a.layers[id.index]? = some l := hl
  have hlt := (List.getElem?_eq_some_iff.1 hl').1
  rw [get?, grown, List.getElem?_append_left (by rwa [List.length_map]), List.getElem?_map, hl',
    Option.map_some]

theorem get?_grown_fresh (a : Arena) (call : Insertion) :
    (a.grown call).get? ⟨a.size⟩ = some (a.fresh call) := by
  have hsize : a.size = (a.layers.map (a.grow call)).length := by rw [List.length_map, size]
  rw [get?, grown, getElem?_snoc, if_pos hsize]

namespace Forest

variable {a : Arena} {call : Insertion}

theorem empty : Forest .empty := by
  constructor <;> simp [Arena.empty]

theorem get?_id (h : a.Forest) {l : LayerResource} (hl : l ∈ a.layers) : a.get? l.id = some l := by
  obtain ⟨i, hi⟩ := List.getElem?_of_mem hl
  rw [get?, h.place i l hi, hi]

/-- What comes in next is nobody's child yet. -/
theorem size_not_mem (h : a.Forest) {l : LayerResource} (hl : l ∈ a.layers) :
    ⟨a.size⟩ ∉ l.children := by
  intro hc
  obtain ⟨below, hb, _⟩ := h.down l hl _ hc
  exact absurd (List.getElem?_eq_some_iff.1 hb).1 (Nat.lt_irrefl a.size)

theorem eq_grown (h : a.Forest) {after : Arena}
    (layers : ∀ i, after.layers[i]? = if i = a.size then some (a.fresh call) else
      a.layers[i]?.map fun l => if call.parent = some ⟨i⟩ then adopt ⟨a.size⟩ l else l) :
    after = a.grown call := by
  refine congrArg Arena.mk (List.ext_getElem? fun i => ?_)
  rw [layers, getElem?_snoc, List.length_map, List.getElem?_map, size]
  refine if_congr Iff.rfl rfl (Option.map_congr fun l hl => ?_)
  rw [grow, h.place i l hl, size]

/-! ## A call that comes through keeps each part of the forest -/

theorem grown_place (h : a.Forest) (i : Nat) (l : LayerResource)
    (hl : (a.grown call).layers[i]? = some l) : l.id = ⟨i⟩ := by
  rw [grown, getElem?_snoc] at hl
  split at hl
  next hi =>
    cases hl
    rw [hi, List.length_map]
    rfl
  next =>
    rw [List.getElem?_map, Option.map_eq_some_iff] at hl
    obtain ⟨old, ho, rfl⟩ := hl
    rw [grow_id, h.place i old ho]

theorem grown_up (h : a.Forest) (present : ∀ p, call.parent = some p → p.index < a.size)
    {l : LayerResource} (hl : l ∈ (a.grown call).layers) {p : LayerId} (hp : l.parent = some p) :
    p.index < l.id.index ∧ ∃ above, (a.grown call).get? p = some above ∧ l.id ∈ above.children := by
  rcases mem_grown.1 hl with ⟨old, ho, rfl⟩ | rfl
  · rw [grow_parent] at hp
    obtain ⟨hlt, above, ha, hc⟩ := h.up old ho p hp
    rw [grow_id]
    exact ⟨hlt, _, get?_grown call ha, mem_grow_children.2 (.inl hc)⟩
  · have hlt := present p hp
    have hp' : a.get? p = some (a.layers[p.index]) := List.getElem?_eq_getElem hlt
    refine ⟨hlt, _, get?_grown call hp', mem_grow_children.2 (.inr ⟨?_, rfl⟩)⟩
    rw [h.place _ _ hp']
    exact hp

theorem grown_down (h : a.Forest) {l : LayerResource} (hl : l ∈ (a.grown call).layers)
    {c : LayerId} (hc : c ∈ l.children) :
    ∃ below, (a.grown call).get? c = some below ∧ below.parent = some l.id := by
  rcases mem_grown.1 hl with ⟨old, ho, rfl⟩ | rfl
  · rw [grow_id]
    rcases mem_grow_children.1 hc with hc | ⟨hp, rfl⟩
    · obtain ⟨below, hb, hparent⟩ := h.down old ho c hc
      exact ⟨_, get?_grown call hb, (grow_parent ..).trans hparent⟩
    · exact ⟨_, get?_grown_fresh a call, hp⟩
  · cases hc

theorem grown_nodup (h : a.Forest) {l : LayerResource} (hl : l ∈ (a.grown call).layers) :
    l.children.Nodup := by
  rcases mem_grown.1 hl with ⟨old, ho, rfl⟩ | rfl
  · unfold grow
    split
    · rw [adopt, ← List.concat_eq_append]
      exact List.Nodup.concat (h.size_not_mem ho) (h.nodup old ho)
    · exact h.nodup old ho
  · exact List.nodup_nil

theorem attempt (h : a.Forest) (call : Insertion) : (a.attempt call).1.Forest := by
  have hattempted := a.attempted call
  generalize a.attempt call = outcome at hattempted
  cases hattempted with
  | rejected => exact h
  | inserted present layers =>
    rw [h.eq_grown layers]
    exact ⟨h.grown_place, fun _ hl _ => h.grown_up present hl, fun _ hl _ => h.grown_down hl,
      fun _ hl => h.grown_nodup hl⟩

end Forest

theorem afterAll_forest (calls : List Insertion) : (afterAll calls).Forest :=
  List.foldlRecOn calls _ .empty fun _ h call _ => h.attempt call

/-! ## Roots -/

/-- No two layers without a parent are above the same layer. -/
theorem Ascends.unique {a : Arena} {id top other : LayerId} {l l' : LayerResource}
    (h : a.Ascends id top) (h' : a.Ascends id other) (hl : a.get? top = some l)
    (hp : l.parent = none) (hl' : a.get? other = some l') (hp' : l'.parent = none) :
    top = other := by
  induction h with
  | here id =>
    cases h' with
    | here => rfl
    | up found parent =>
      rw [hl] at found
      cases found
      rw [hp] at parent
      cases parent
  | up found parent _ ih =>
    cases h' with
    | here =>
      rw [hl'] at found
      cases found
      rw [hp'] at parent
      cases parent
    | up found' parent' rest' =>
      rw [found] at found'
      cases found'
      rw [parent] at parent'
      cases parent'
      exact ih rest' hl

/-- Climbing finds the root that going from child to parent leads to, and there is only one. What is
not in the arena is unknown to it; no chain of parents goes on for ever. -/
structure Rooted (a : Arena) : Prop where
  root : ∀ id, id.index < a.size → ∃ root ∈ a.roots, a.rootOf id = .ok root.id ∧
    a.Ascends id root.id ∧ ∀ other ∈ a.roots, a.Ascends id other.id → other = root
  unknown : ∀ id, a.size ≤ id.index → a.rootOf id = .error (.unknown id)
  ends : ∀ id start, a.rootOf id ≠ .error (.endless start)

namespace Forest

variable {a : Arena}

theorem rooted (h : a.Forest) : a.Rooted := by
  have hunknown {id : LayerId} (hid : a.size ≤ id.index) : a.rootOf id = .error (.unknown id) := by
    have hget : a.get? id = none := List.getElem?_eq_none hid
    simp only [Arena.rootOf, Arena.climb, hget]
  have hroot {id : LayerId} (hid : id.index < a.size) :
      ∃ root ∈ a.roots, a.rootOf id = .ok root.id ∧ a.Ascends id root.id :=
    exists_climb id h.place (fun i l hl p hp => by
      obtain ⟨hlt, above, ha, _⟩ := h.up l (List.mem_of_getElem? hl) p hp
      rw [h.place i l hl] at hlt
      exact ⟨hlt, above, ha⟩) (List.getElem?_eq_getElem hid) (Nat.lt_succ_of_lt hid)
  constructor
  case root =>
    intro id hid
    obtain ⟨root, hr, hrootOf, hup⟩ := hroot hid
    refine ⟨root, hr, hrootOf, hup, fun other ho hup' => ?_⟩
    obtain ⟨hm, hp⟩ := mem_roots.1 hr
    obtain ⟨hm', hp'⟩ := mem_roots.1 ho
    have hget := h.get?_id hm
    have hget' := h.get?_id hm'
    have hsame := hup.unique hup' hget hp hget' hp'
    rw [hsame, hget'] at hget
    exact Option.some.inj hget
  case unknown => exact fun id hid => hunknown hid
  case ends =>
    intro id start hends
    by_cases hid : id.index < a.size
    · obtain ⟨root, _, hrootOf, _⟩ := hroot hid
      rw [hrootOf] at hends
      cases hends
    · rw [hunknown (Nat.le_of_not_lt hid)] at hends
      cases hends

end Forest

end Arena

end StorageCluster
