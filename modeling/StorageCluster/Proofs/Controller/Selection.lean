import StorageCluster.Controller.Placement
import StorageCluster.Proofs.Flags
import StorageCluster.Proofs.Name
import StorageCluster.Proofs.SortedMap

/-!
# Pools that are found

A search that finds something finds as many pools as were asked for, on different nodes that hold no
resource of the definition, and all of them are known and eligible.
-/
namespace StorageCluster

variable {cs : List Candidate} {k : Constraints} {count : Nat}

theorem pick_sublist (count : Nat) (k : Constraints) (cs : List Candidate) :
    (pick count k cs).Sublist cs := by
  induction cs generalizing count k with
  | nil => cases count <;> exact .refl _
  | cons c rest ih =>
    cases count with
    | zero => exact List.nil_sublist _
    | succ n =>
      unfold pick
      split
      · exact (ih n _).cons_cons c
      · exact (ih (n + 1) k).cons c

theorem pick_length_le (count : Nat) (k : Constraints) (cs : List Candidate) :
    (pick count k cs).length ≤ count := by
  induction cs generalizing count k with
  | nil => cases count <;> exact Nat.zero_le _
  | cons c rest ih =>
    cases count with
    | zero => exact Nat.le_refl 0
    | succ n =>
      unfold pick
      split
      · exact Nat.succ_le_succ (ih n _)
      · exact ih (n + 1) k

/-- The candidates that are kept are filed under their nodes and come from the list. -/
theorem foldl_keepBest (cs : List Candidate) (best : SortedMap NodeName Candidate)
    (hb : best.Filed Candidate.node) :
    (cs.foldl keepBest best).Filed Candidate.node ∧
      ∀ c ∈ (cs.foldl keepBest best).values, c ∈ best.values ∨ c ∈ cs := by
  induction cs generalizing best with
  | nil => exact ⟨hb, fun c hc => .inl hc⟩
  | cons d rest ih =>
    have hkeep : (keepBest best d) = best ∨ keepBest best d = best.insert d.node d := by
      unfold keepBest
      split
      · split
        · exact .inr rfl
        · exact .inl rfl
      · exact .inr rfl
    rw [List.foldl_cons]
    rcases hkeep with he | he
    · obtain ⟨hf, hm⟩ := ih best hb
      rw [he]
      exact ⟨hf, fun c hc => (hm c hc).imp_right (List.mem_cons_of_mem d)⟩
    · obtain ⟨hf, hm⟩ := ih (best.insert d.node d) (hb.insert Std.ReflCmp.compare_self)
      rw [he]
      refine ⟨hf, ?_⟩
      intro c hc
      rcases hm c hc with hi | hr
      · obtain ⟨key, hk⟩ := SortedMap.mem_values.1 hi
        rw [SortedMap.find?_insert] at hk
        split at hk
        · cases hk
          exact .inr List.mem_cons_self
        · exact .inl (SortedMap.mem_values.2 ⟨key, hk⟩)
      · exact .inr (List.mem_cons_of_mem d hr)

theorem mem_of_bestPerNode {c : Candidate} (h : c ∈ bestPerNode cs) : c ∈ cs := by
  obtain ⟨_, hm⟩ := foldl_keepBest cs .empty (.empty _)
  rcases hm c h with he | hc
  · cases he
  · exact hc

theorem bestPerNode_pairwise (cs : List Candidate) :
    (bestPerNode cs).Pairwise fun a b => compare a.node b.node ≠ .eq :=
  (foldl_keepBest cs .empty (.empty _)).1.values_pairwise

/-- A selection has as many candidates as it should have, on different nodes. -/
theorem select_some {picked : List Candidate} (h : select cs count k = some picked) :
    picked.length = count ∧ (∀ c ∈ picked, c ∈ cs) ∧
      picked.Pairwise fun a b => compare a.node b.node ≠ .eq := by
  unfold select at h
  dsimp only at h
  split at h
  next => cases h
  next hl =>
    cases h
    have hp := (bestPerNode cs).mergeSort_perm Candidate.precedes
    have hs := pick_sublist count k ((bestPerNode cs).mergeSort Candidate.precedes)
    have hle := pick_length_le count k ((bestPerNode cs).mergeSort Candidate.precedes)
    refine ⟨by omega, ?_, ?_⟩
    · intro c hc
      exact mem_of_bestPerNode (hp.mem_iff.1 (hs.subset hc))
    · exact ((SortedMap.apart_perm Candidate.node hp).2 (bestPerNode_pairwise cs)).sublist hs

/-- A pattern comes from the engine, which has to be able to read it. -/
theorem Filter.pattern_of_some {engine : PatternEngine} {f : Filter} {pattern : Option Pattern}
    {text : String} (htext : f.avoidPattern = some text) (h : f.pattern engine = .ok pattern) :
    ∃ compiled, engine.compile text = some compiled ∧ pattern = some compiled := by
  simp only [Filter.pattern, htext] at h
  cases hc : engine.compile text with
  | none =>
    rw [hc] at h
    cases h
  | some compiled =>
    rw [hc] at h
    cases h
    exact ⟨compiled, rfl, rfl⟩

/-- A filter allows nodes that are connected, that stay, and that it names if it names any. -/
theorem Filter.allowsNode_iff (f : Filter) (n : Node) :
    f.allowsNode n = true ↔ n.isConnected = true ∧
      n.flags.contains NodeFlags.evicted = false ∧ n.flags.contains NodeFlags.delete = false ∧
      n.flags.contains NodeFlags.evacuate = false ∧
      (f.nodes = [] ∨ f.nodes.contains n.name = true) := by
  rw [allowsNode, Flags.intersects_union, Flags.intersects_union,
    Flags.intersects_eq_contains (b := NodeFlags.evicted) (i := 1) rfl,
    Flags.intersects_eq_contains (b := NodeFlags.delete) (i := 0) rfl,
    Flags.intersects_eq_contains (b := NodeFlags.evacuate) (i := 2) rfl]
  simp only [Bool.and_eq_true, Bool.or_eq_true, Bool.not_eq_true', Bool.or_eq_false_iff,
    List.isEmpty_iff, and_assoc]

namespace Graph

variable {engine : PatternEngine} {g : Graph} {f : Filter} {d : Definition} {size : UInt64}

/-- A pool suits the definition that it is found for. -/
structure Suits (g : Graph) (f : Filter) (d : Definition) (size : UInt64) (p : Pool) : Prop where
  known : p ∈ g.pools.values
  free : d.resources.contains p.node = false
  pool : f.allowsPool p size = true
  node : ∃ n, g.nodes.find? p.node = some n ∧ f.allowsNode n = true

theorem compare_ne_of_not_contains {nodes : List NodeName} {node : NodeName}
    (h : nodes.contains node = false) : ∀ other ∈ nodes, compare node other ≠ .eq := by
  intro other ho
  refine (Name.beq_eq_false_iff node other).1 (Bool.eq_false_iff.2 fun hsame => ?_)
  have ht : nodes.contains node = true := List.contains_iff_exists_mem_beq.2 ⟨other, ho, hsame⟩
  rw [h] at ht
  cases ht

/-- The nodes of a definition are excluded from the search for further ones. -/
theorem free_of_not_excluded {pattern : Option Pattern} {others : DefinitionMap} {node : NodeName}
    (h : (excludedNodes f pattern d others).contains node = false) :
    d.resources.contains node = false := by
  by_contra hc
  obtain ⟨key, hk, he⟩ := SortedMap.contains_iff.1 (Bool.not_eq_false _ ▸ hc)
  exact compare_ne_of_not_contains h key (List.mem_append_left _ hk) he

/-- So are the nodes of what is to be stayed away from. -/
theorem apart_of_not_excluded {pattern : Option Pattern} {others : DefinitionMap}
    {node : NodeName} (h : (excludedNodes f pattern d others).contains node = false)
    {other : Definition} (ho : other ∈ others.values) (ha : f.avoids pattern other = true)
    {r : Resource} (hr : r ∈ other.resources.values) (hd : r.isDeleted = false) :
    compare node r.node ≠ .eq := by
  refine compare_ne_of_not_contains h r.node (List.mem_append_right _ ?_)
  refine List.mem_flatMap.2 ⟨other, List.mem_filter.2 ⟨ho, ha⟩, List.mem_map_of_mem ?_⟩
  exact List.mem_filter.2 ⟨hr, by rw [hd]; rfl⟩

theorem suits_of_candidate {pattern : Option Pattern} {others : DefinitionMap} {c : Candidate}
    (h : c ∈ g.candidates f (excludedNodes f pattern d others) size) :
    g.Suits f d size c.pool := by
  obtain ⟨pool, hp, hc⟩ := List.mem_filterMap.1 h
  split at hc
  next => cases hc
  next he =>
    split at hc
    next n hn =>
      split at hc
      next ha =>
        cases hc
        simp only [Bool.or_eq_true, Bool.not_eq_true', not_or, Bool.not_eq_true,
          Bool.not_eq_false] at he
        exact ⟨hp, free_of_not_excluded he.1, he.2, n, hn, ha⟩
      next => cases hc
    next => cases hc

theorem not_excluded_of_candidate {excluded : List NodeName} {c : Candidate}
    (h : c ∈ g.candidates f excluded size) : excluded.contains c.node = false := by
  obtain ⟨pool, _, hc⟩ := List.mem_filterMap.1 h
  split at hc
  next => cases hc
  next he =>
    split at hc
    next =>
      split at hc
      next =>
        cases hc
        simp only [Bool.or_eq_true, not_or, Bool.not_eq_true] at he
        exact he.1
      next => cases hc
    next => cases hc

/-- What the replicas of a definition that stay leave to further ones. -/
def standing (g : Graph) (f : Filter) (d : Definition) : Constraints :=
  (g.stayingNodes d).foldl (fun k n => k.occupy n.props)
    { sameProps := f.sameProps, differentProps := f.differentProps }

/-- A search that finds something has selected candidates, and found their pools. -/
theorem place_selected {pools : List Pool} (h : g.place engine f d size = .ok (some pools)) :
    ∃ pattern picked, f.pattern engine = .ok pattern ∧
      select (g.candidates f (excludedNodes f pattern d g.definitions) size) f.count
        (g.standing f d) = some picked ∧ pools = picked.map (·.pool) := by
  unfold place at h
  cases hp : f.pattern engine with
  | error fault =>
    rw [hp] at h
    cases h
  | ok pattern =>
    rw [hp] at h
    simp only [bind, Except.bind, pure, Except.pure, Except.ok.injEq, Option.map_eq_some_iff] at h
    obtain ⟨picked, hs, rfl⟩ := h
    exact ⟨pattern, picked, rfl, hs, rfl⟩

/-- What a search finds. -/
theorem place_some {pools : List Pool} (h : g.place engine f d size = .ok (some pools)) :
    pools.length = f.count ∧ (pools.Pairwise fun a b => compare a.node b.node ≠ .eq) ∧
      ∀ p ∈ pools, g.Suits f d size p := by
  obtain ⟨pattern, picked, _, hs, rfl⟩ := place_selected h
  obtain ⟨hl, hm, hw⟩ := select_some hs
  refine ⟨by rw [List.length_map, hl], List.pairwise_map.2 hw, ?_⟩
  intro p hp
  obtain ⟨c, hc, rfl⟩ := List.mem_map.1 hp
  exact suits_of_candidate (hm c hc)

/-- What a search stays away from. -/
theorem place_not_excluded {pools : List Pool} (h : g.place engine f d size = .ok (some pools)) :
    ∃ pattern, f.pattern engine = .ok pattern ∧
      ∀ p ∈ pools, (excludedNodes f pattern d g.definitions).contains p.node = false := by
  obtain ⟨pattern, picked, hpattern, hs, rfl⟩ := place_selected h
  refine ⟨pattern, hpattern, fun p hp => ?_⟩
  obtain ⟨c, hc, rfl⟩ := List.mem_map.1 hp
  exact not_excluded_of_candidate ((select_some hs).2.1 c hc)

end Graph

end StorageCluster
