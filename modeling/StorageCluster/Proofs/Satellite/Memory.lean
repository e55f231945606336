import Mathlib.Data.List.Basic
import StorageCluster.Proofs.Erasure
import StorageCluster.Proofs.Satellite.Expansion
import StorageCluster.Satellite.Dispatch

/-!
# What a satellite remembers

A dispatch remembers the stacks of all resources of its batch first, and forgets those that are
deleted or without a stack in the end. That is the same as remembering or forgetting them one by
one, provided that their names are different.
-/
namespace StorageCluster

namespace StackMemory

abbrev Known := SortedMap ResourceName (List LayerKind)

/-- The stack that each resource is expanded with, or why there is none. -/
abbrev Plan := Resource → Except StackFault (List LayerKind)

variable {plan : Plan}

/-- A resource that has a stack is known by it when it is expanded. -/
def learn (plan : Plan) (known : Known) (r : Resource) : Known :=
  match plan r with
  | .ok stack => known.insert r.name stack
  | .error _ => known

/-- What is known once a resource was dispatched. -/
def memorize (plan : Plan) (known : Known) (r : Resource) : Known :=
  match plan r with
  | .ok stack => if r.isDeleted then known.erase r.name else known.insert r.name stack
  | .error _ => known.erase r.name

/-- Whether a resource is forgotten when it was dispatched. -/
def forgets (plan : Plan) (r : Resource) : Bool := r.isDeleted || !(plan r).isOk

/-- Whether a name is not among those that a batch makes forgotten. -/
def retains (plan : Plan) (resources : List Resource) (name : ResourceName) : Bool :=
  resources.all fun r => !forgets plan r || compare r.name name != .eq

theorem retains_congr (plan : Plan) (resources : List Resource) (a b : ResourceName)
    (h : compare a b = .eq) : retains plan resources a = retains plan resources b := by
  unfold retains
  refine List.all_congr rfl fun r => ?_
  rw [Std.TransCmp.congr_right h]

theorem filter_learn {p : ResourceName → Bool} (hp : ∀ a b, compare a b = .eq → p a = p b)
    {r : Resource} (hr : p r.name = true) (known : Known) :
    (learn plan known r).filter (fun k _ => p k) = learn plan (known.filter fun k _ => p k) r := by
  unfold learn
  cases plan r with
  | error fault => rfl
  | ok stack => exact (SortedMap.filter_insert hp ..).trans (if_pos hr)

theorem filter_foldl_learn {p : ResourceName → Bool} (hp : ∀ a b, compare a b = .eq → p a = p b)
    {resources : List Resource} (hr : ∀ r ∈ resources, p r.name = true) (known : Known) :
    (resources.foldl (learn plan) known).filter (fun k _ => p k) =
      resources.foldl (learn plan) (known.filter fun k _ => p k) := by
  induction resources generalizing known with
  | nil => rfl
  | cons r rest ih =>
    rw [List.foldl_cons, List.foldl_cons, ih fun other ho => hr other (List.mem_cons_of_mem r ho),
      filter_learn hp (hr r List.mem_cons_self)]

theorem filter_learn_self (plan : Plan) (known : Known) (r : Resource) :
    (learn plan known r).filter (fun k _ => retains plan [r] k) = memorize plan known r := by
  have herase (hf : forgets plan r = true) :
      known.filter (fun k _ => retains plan [r] k) = known.erase r.name := by
    refine SortedMap.ext (List.filter_congr fun e _ => ?_)
    simp [retains, hf]
  unfold learn memorize
  cases hs : plan r with
  | error fault => exact herase (by simp [forgets, hs, Except.isOk, Except.toBool])
  | ok stack =>
    cases hdeleted : r.isDeleted
    · have hall (k : ResourceName) : retains plan [r] k = true := by
        simp [retains, forgets, hdeleted, hs, Except.isOk, Except.toBool]
      exact SortedMap.ext (List.filter_eq_self.2 fun e _ => hall e.1)
    · have hself : retains plan [r] r.name = false := by
        simp [retains, forgets, hdeleted, Std.ReflCmp.compare_self]
      refine (SortedMap.filter_insert (retains_congr plan [r]) ..).trans ?_
      rw [if_neg (by simp [hself])]
      exact herase (by simp [forgets, hdeleted])

/-- Stacks that are all learnt before some are forgotten are memorized one by one. -/
theorem foldl_memorize {resources : List Resource}
    (hdistinct : resources.Pairwise fun a b => (a.name == b.name) = false) (known : Known) :
    (resources.foldl (learn plan) known).filter (fun k _ => retains plan resources k) =
      resources.foldl (memorize plan) known := by
  induction resources generalizing known with
  | nil => exact SortedMap.ext (List.filter_eq_self.2 fun _ _ => rfl)
  | cons r rest ih =>
    obtain ⟨hr, hrest⟩ := List.pairwise_cons.1 hdistinct
    have hkept : ∀ other ∈ rest, retains plan [r] other.name = true := by
      intro other ho
      have hne := (Name.beq_eq_false_iff _ _).1 (hr other ho)
      simp [retains, hne]
    have hsplit : (rest.foldl (learn plan) (learn plan known r)).filter
          (fun k _ => retains plan (r :: rest) k) =
        ((rest.foldl (learn plan) (learn plan known r)).filter
          fun k _ => retains plan [r] k).filter fun k _ => retains plan rest k := by
      refine SortedMap.ext ?_
      simp only [SortedMap.filter, List.filter_filter]
      refine List.filter_congr fun e _ => ?_
      simp only [retains, List.all_cons, List.all_nil, Bool.and_true]
      exact Bool.and_comm ..
    rw [List.foldl_cons, List.foldl_cons, hsplit,
      filter_foldl_learn (retains_congr plan [r]) hkept, filter_learn_self, ih hrest]

/-- What a batch learns, resource by resource. -/
theorem known_foldl_expandNext {m now : StackMemory} {fullSync : Bool} {resources : List Resource}
    (e : Expansion) (hsame : ∀ r ∈ resources, now.stackFor fullSync r = m.stackFor fullSync r)
    (hdistinct : resources.Pairwise fun a b => (a.name == b.name) = false) :
    (resources.foldl (expandNext fullSync) (now, e)).1 =
      { now with known := resources.foldl (learn (m.stackFor fullSync)) now.known } := by
  induction resources generalizing now e with
  | nil => rfl
  | cons r rest ih =>
    obtain ⟨hr, hrest⟩ := List.pairwise_cons.1 hdistinct
    have hnext : (expandNext fullSync (now, e) r).1 =
        { now with known := learn (m.stackFor fullSync) now.known r } := by
      unfold expandNext learn
      simp only [expandOne_eq, hsame r List.mem_cons_self]
      cases m.stackFor fullSync r <;> rfl
    have hlater : ∀ other ∈ rest, (expandNext fullSync (now, e) r).1.stackFor fullSync other =
        m.stackFor fullSync other := fun other ho =>
      (stackFor_expandNext (hr other ho)).trans (hsame other (List.mem_cons_of_mem r ho))
    rw [List.foldl_cons, ← Prod.eta (expandNext fullSync (now, e) r), ih _ hlater hrest, hnext]
    rfl

/-- A batch makes those forgotten that it deletes, and those that have no stack. -/
theorem mem_released {m : StackMemory} {fullSync : Bool} {resources : List Resource} {e : Expansion}
    (h : m.Expands fullSync resources e) (name : ResourceName) :
    name ∈ (e.arena.roots.filter fun l => l.resource.isDeleted).map (fun l => l.resource.name) ++
        e.failures.map (·.1) ↔
      ∃ r ∈ resources, forgets (m.stackFor fullSync) r = true ∧ r.name = name := by
  have hroots (r : Resource) : r ∈ e.arena.roots.map (·.resource) ↔
      r ∈ resources ∧ (m.stackFor fullSync r).isOk = true := by
    rw [h.roots, List.mem_filter]
  have hdeleted : name ∈ (e.arena.roots.filter fun l => l.resource.isDeleted).map
      (fun l => l.resource.name) ↔
      ∃ r ∈ e.arena.roots.map (·.resource), r.isDeleted = true ∧ r.name = name := by
    simp [and_assoc]
  have hfailed : name ∈ e.failures.map (·.1) ↔
      ∃ r ∈ resources, (m.stackFor fullSync r).isOk = false ∧ r.name = name := by
    simp only [h.failures, List.mem_map, List.mem_filterMap]
    constructor
    · rintro ⟨failure, ⟨r, hr, hf⟩, rfl⟩
      refine ⟨r, hr, ?_⟩
      unfold failureFor? at hf
      cases hs : m.stackFor fullSync r <;> simp only [hs] at hf <;> cases hf
      exact ⟨rfl, rfl⟩
    · rintro ⟨r, hr, hf, rfl⟩
      cases hs : m.stackFor fullSync r with
      | error fault => exact ⟨_, ⟨r, hr, by rw [failureFor?, hs]⟩, rfl⟩
      | ok stack => simp [hs, Except.isOk, Except.toBool] at hf
  rw [List.mem_append, hdeleted, hfailed]
  simp only [hroots, forgets, Bool.or_eq_true, Bool.not_eq_true']
  constructor
  · rintro (⟨r, ⟨hr, _⟩, hd, hn⟩ | ⟨r, hr, hf, hn⟩)
    · exact ⟨r, hr, .inl hd, hn⟩
    · exact ⟨r, hr, .inr hf, hn⟩
  · rintro ⟨r, hr, hforgets, hn⟩
    cases hs : (m.stackFor fullSync r).isOk with
    | false => exact .inr ⟨r, hr, hs, hn⟩
    | true => exact .inl ⟨r, ⟨hr, hs⟩, hforgets.resolve_right (by simp [hs]), hn⟩

theorem release_known (m : StackMemory) {now : StackMemory} {fullSync : Bool}
    {resources : List Resource} {e : Expansion} (h : m.Expands fullSync resources e) :
    now.release e = { now with
      known := now.known.filter fun k _ => retains (m.stackFor fullSync) resources k } := by
  have hretains (k : ResourceName) :
      ((e.arena.roots.filter fun l => l.resource.isDeleted).map (fun l => l.resource.name) ++
        e.failures.map (·.1)).all (fun key => compare key k != .eq) =
        retains (m.stackFor fullSync) resources k := by
    rw [Bool.eq_iff_iff, List.all_eq_true, retains, List.all_eq_true]
    simp only [mem_released h, Bool.or_eq_true, Bool.not_eq_true']
    constructor
    · intro hall r hr
      cases hf : forgets (m.stackFor fullSync) r with
      | false => exact .inl rfl
      | true => exact .inr (hall r.name ⟨r, hr, hf, rfl⟩)
    · rintro hall _ ⟨r, hr, hf, rfl⟩
      exact (hall r hr).resolve_left (by simp [hf])
  unfold release
  simp only [SortedMap.foldl_erase, hretains]

end StackMemory

namespace Satellite

variable {δ : Type}

/-- What a satellite remembers after a dispatch. -/
theorem dispatch_memory (s : Satellite δ) {resources : List Resource} (snapshots : List Snapshot)
    (hdistinct : resources.Pairwise fun a b => (a.name == b.name) = false) :
    (s.dispatch resources snapshots).satellite.memory = { s.memory with
      known := resources.foldl (StackMemory.memorize (s.memory.stackFor s.fullSync))
        s.memory.known } := by
  have hmemory : (s.dispatch resources snapshots).satellite.memory =
      (s.memory.expand resources snapshots s.fullSync).1.release
        (s.memory.expand resources snapshots s.fullSync).2 := by
    unfold dispatch
    dsimp only
    split <;> rfl
  have hexpands := StackMemory.expand_expands s.memory resources snapshots s.fullSync hdistinct
  have hlearnt : (s.memory.expand resources snapshots s.fullSync).1 = { s.memory with
      known := resources.foldl (StackMemory.learn (s.memory.stackFor s.fullSync))
        s.memory.known } :=
    StackMemory.known_foldl_expandNext {} (fun _ _ => rfl) hdistinct
  rw [hmemory, StackMemory.release_known s.memory hexpands, hlearnt,
    StackMemory.foldl_memorize hdistinct]

end Satellite

namespace StackMemory

variable {plan : Plan} {r other : Resource} {stack : List LayerKind}

theorem find?_memorize_other {name : ResourceName} (h : (other.name == name) = false)
    (known : Known) : (memorize plan known other).find? name = known.find? name := by
  have hne := Name.compare_ne_of_beq h
  unfold memorize
  cases plan other with
  | error fault => exact (SortedMap.find?_erase ..).trans (if_neg hne)
  | ok stack =>
    dsimp only
    split
    · exact (SortedMap.find?_erase ..).trans (if_neg hne)
    · exact (SortedMap.find?_insert ..).trans (if_neg hne)

theorem find?_memorize (plan : Plan) (known : Known) (r : Resource) :
    (memorize plan known r).find? r.name = if r.isDeleted then none else (plan r).toOption := by
  unfold memorize
  cases plan r <;> cases r.isDeleted <;>
    simp [SortedMap.find?_erase, SortedMap.find?_insert, Std.ReflCmp.compare_self, Except.toOption]

/-- What a batch does not speak of stays as it is. -/
theorem find?_foldl_memorize_other {resources : List Resource} {name : ResourceName}
    (h : ∀ r ∈ resources, (r.name == name) = false) (known : Known) :
    (resources.foldl (memorize plan) known).find? name = known.find? name :=
  List.foldlRecOn resources _ (motive := fun now => SortedMap.find? now name = known.find? name) rfl
    fun now hnow r hr => (find?_memorize_other (h r hr) now).trans hnow

/-- After a batch a resource is known by its stack if it has one, unless it is deleted. -/
theorem find?_foldl_memorize_self {resources : List Resource}
    (hdistinct : resources.Pairwise fun a b => (a.name == b.name) = false) (hr : r ∈ resources)
    (known : Known) : (resources.foldl (memorize plan) known).find? r.name =
      if r.isDeleted then none else (plan r).toOption := by
  induction resources generalizing known with
  | nil => cases hr
  | cons head rest ih =>
    obtain ⟨hhead, hrest⟩ := List.pairwise_cons.1 hdistinct
    rcases List.mem_cons.1 hr with rfl | hr
    · rw [List.foldl_cons, find?_foldl_memorize_other fun other ho => ?_, find?_memorize]
      rw [Name.beq_comm, hhead other ho]
    · exact ih hrest hr (memorize plan known head)

theorem find?_foldl_memorize {resources : List Resource}
    (hdistinct : resources.Pairwise fun a b => (a.name == b.name) = false) (hr : r ∈ resources)
    (h : plan r = .ok stack) (known : Known) :
    (resources.foldl (memorize plan) known).find? r.name =
      if r.isDeleted then none else some stack := by
  rw [find?_foldl_memorize_self hdistinct hr, h]
  rfl

/-- A resource that is known as it should be is memorized without a change. -/
theorem memorize_eq_self (h : plan r = .ok stack) {known : Known}
    (hknown : known.find? r.name = if r.isDeleted then none else some stack) :
    memorize plan known r = known := by
  unfold memorize
  rw [h]
  cases hdeleted : r.isDeleted <;> rw [hdeleted] at hknown
  · exact SortedMap.insert_eq_self hknown
  · exact SortedMap.erase_eq_self (by rw [SortedMap.contains, hknown]; rfl)

/-- A batch whose resources all have stacks teaches nothing new when it comes again. -/
theorem foldl_memorize_again {resources : List Resource}
    (hdistinct : resources.Pairwise fun a b => (a.name == b.name) = false)
    (hplan : ∀ r ∈ resources, ∃ stack, plan r = .ok stack) (known : Known) :
    resources.foldl (memorize plan) (resources.foldl (memorize plan) known) =
      resources.foldl (memorize plan) known := by
  refine List.foldlRecOn resources _
    (motive := fun now => now = resources.foldl (memorize plan) known) rfl fun now hnow r hr => ?_
  obtain ⟨stack, hr'⟩ := hplan r hr
  rw [hnow]
  exact memorize_eq_self hr' (find?_foldl_memorize hdistinct hr hr' known)

end StackMemory

end StorageCluster
