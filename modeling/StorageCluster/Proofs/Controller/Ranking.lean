import Mathlib.Data.List.Perm.Subperm
import StorageCluster.Proofs.Controller.Selection

/-!
# The order in which nodes are tried

Candidates are tried in the order of their ranking: of each node the best pool, and the nodes by
free space and name. The ranking is strict, so it depends on the candidates alone and not on the
order in which they are listed, except for which of equally good pools of a node it shows.
-/
namespace StorageCluster

variable {cs ds : List Candidate} {a b c d : Candidate} {k : Constraints}

/-- Candidates of one node have the same node properties. -/
def Candidate.Uniform (cs : List Candidate) : Prop :=
  ∀ a ∈ cs, ∀ b ∈ cs, compare a.node b.node = .eq → a.nodeProps = b.nodeProps

/-! ## The best pool of a node -/

/-- No candidate of the same node has more free space. -/
def Candidate.IsBest (cs : List Candidate) (c : Candidate) : Prop :=
  ∀ d ∈ cs, compare d.node c.node = .eq → d.pool.freeBytes ≤ c.pool.freeBytes

theorem keepBest_self (best : SortedMap NodeName Candidate) (c : Candidate) :
    ∃ b, (keepBest best c).find? c.node = some b ∧ c.pool.freeBytes ≤ b.pool.freeBytes := by
  unfold keepBest
  split
  next other ho =>
    split
    next => exact ⟨c, SortedMap.find?_insert_self .., UInt64.le_refl _⟩
    next hle => exact ⟨other, ho, UInt64.not_lt.1 hle⟩
  next => exact ⟨c, SortedMap.find?_insert_self .., UInt64.le_refl _⟩

theorem keepBest_mono {best : SortedMap NodeName Candidate} {node : NodeName} {old : Candidate}
    (c : Candidate) (h : best.find? node = some old) :
    ∃ b, (keepBest best c).find? node = some b ∧ old.pool.freeBytes ≤ b.pool.freeBytes := by
  by_cases hn : compare node c.node = .eq
  · have hold : best.find? c.node = some old := by rwa [← SortedMap.find?_congr hn]
    rw [SortedMap.find?_congr hn, keepBest, hold]
    dsimp only
    split
    next hlt => exact ⟨c, SortedMap.find?_insert_self .., UInt64.le_of_lt hlt⟩
    next => exact ⟨old, hold, UInt64.le_refl _⟩
  · have hinsert : (best.insert c.node c).find? node = some old := by
      rw [SortedMap.find?_insert, if_neg hn, h]
    refine ⟨old, ?_, UInt64.le_refl _⟩
    unfold keepBest
    split
    next =>
      split
      next => exact hinsert
      next => exact h
    next => exact hinsert

/-- What is kept under a node is never exchanged for less free space. -/
theorem foldl_keepBest_mono {best : SortedMap NodeName Candidate} {node : NodeName}
    {old : Candidate} (cs : List Candidate) (h : best.find? node = some old) :
    ∃ b, (cs.foldl keepBest best).find? node = some b ∧
      old.pool.freeBytes ≤ b.pool.freeBytes := by
  induction cs generalizing best old with
  | nil => exact ⟨old, h, UInt64.le_refl _⟩
  | cons c rest ih =>
    obtain ⟨mid, hmid, hle⟩ := keepBest_mono c h
    obtain ⟨b, hb, hle'⟩ := ih hmid
    exact ⟨b, hb, UInt64.le_trans hle hle'⟩

theorem foldl_keepBest_dominates (best : SortedMap NodeName Candidate) (h : c ∈ cs) :
    ∃ b, (cs.foldl keepBest best).find? c.node = some b ∧
      c.pool.freeBytes ≤ b.pool.freeBytes := by
  induction cs generalizing best with
  | nil => cases h
  | cons d rest ih =>
    rcases List.mem_cons.1 h with rfl | h
    · obtain ⟨mid, hmid, hle⟩ := keepBest_self best c
      obtain ⟨b, hb, hle'⟩ := foldl_keepBest_mono rest hmid
      exact ⟨b, hb, UInt64.le_trans hle hle'⟩
    · exact ih (keepBest best d) h

/-- Every candidate has one of its node in its place, with no less free space. -/
theorem exists_bestPerNode (h : c ∈ cs) :
    ∃ b ∈ bestPerNode cs, compare c.node b.node = .eq ∧
      c.pool.freeBytes ≤ b.pool.freeBytes := by
  obtain ⟨b, hb, hle⟩ := foldl_keepBest_dominates .empty h
  have hfiled := (foldl_keepBest cs .empty (.empty _)).1
  exact ⟨b, SortedMap.mem_values.2 ⟨c.node, hb⟩, hfiled c.node b hb, hle⟩

theorem isBest_of_bestPerNode (h : b ∈ bestPerNode cs) : b.IsBest cs := by
  intro d hd hnode
  obtain ⟨best, hbest, hnode', hle⟩ := exists_bestPerNode hd
  have hsame : compare best.node b.node = .eq :=
    Std.TransCmp.eq_trans (Std.OrientedCmp.eq_symm hnode') hnode
  have hfiled := (foldl_keepBest cs .empty (.empty _)).1
  rwa [hfiled.eq_of_mem hbest h hsame] at hle

/-! ## The ranking -/

/-- More free space or, with as much, the smaller name. -/
def Candidate.Outranks (a b : Candidate) : Prop :=
  b.pool.freeBytes < a.pool.freeBytes ∨
    a.pool.freeBytes = b.pool.freeBytes ∧ compare a.node b.node = .lt

theorem Candidate.Outranks.le (h : a.Outranks b) : b.pool.freeBytes ≤ a.pool.freeBytes := by
  rcases h with hlt | ⟨heq, -⟩
  · exact UInt64.le_of_lt hlt
  · exact UInt64.le_of_eq heq.symm

theorem Candidate.not_outranks_self (a : Candidate) : ¬a.Outranks a := by
  rintro (hlt | ⟨-, hlt⟩)
  · exact UInt64.lt_irrefl _ hlt
  · have hself : compare a.node a.node = .eq := Std.ReflCmp.compare_self
    rw [hself] at hlt
    cases hlt

theorem Candidate.precedes_iff : a.precedes b = true ↔
    b.pool.freeBytes < a.pool.freeBytes ∨
      a.pool.freeBytes = b.pool.freeBytes ∧ compare a.node b.node ≠ .gt := by
  simp [Candidate.precedes]

theorem Candidate.precedes_trans (a b c : Candidate) (hab : a.precedes b = true)
    (hbc : b.precedes c = true) : a.precedes c = true := by
  rw [precedes_iff] at hab hbc ⊢
  rcases hab with hab | ⟨hab, hnode⟩
  · rcases hbc with hbc | ⟨hbc, -⟩
    · exact .inl (UInt64.lt_trans hbc hab)
    · exact .inl (hbc ▸ hab)
  · rcases hbc with hbc | ⟨hbc, hnode'⟩
    · exact .inl (hab ▸ hbc)
    · refine .inr ⟨hab.trans hbc, ?_⟩
      rw [ne_eq, ← Ordering.isLE_iff_ne_gt] at hnode hnode' ⊢
      exact Std.TransCmp.isLE_trans hnode hnode'

theorem Candidate.precedes_total (a b : Candidate) : (a.precedes b || b.precedes a) = true := by
  rw [Bool.or_eq_true, precedes_iff, precedes_iff]
  rcases Std.lt_trichotomy a.pool.freeBytes b.pool.freeBytes with hlt | heq | hgt
  · exact .inr (.inl hlt)
  · by_cases hgt : compare a.node b.node = .gt
    · have hlt : compare b.node a.node = .lt := Std.OrientedCmp.gt_iff_lt.1 hgt
      exact .inr (.inr ⟨heq.symm, by simp [hlt]⟩)
    · exact .inl (.inr ⟨heq, hgt⟩)
  · exact .inl (.inl hgt)

/-- The best candidates of all nodes in the order in which they are tried. -/
def ranking (cs : List Candidate) : List Candidate :=
  (bestPerNode cs).mergeSort Candidate.precedes

theorem ranking_perm (cs : List Candidate) : (ranking cs).Perm (bestPerNode cs) :=
  List.mergeSort_perm ..

theorem mem_of_ranking (h : c ∈ ranking cs) : c ∈ cs :=
  mem_of_bestPerNode ((ranking_perm cs).mem_iff.1 h)

theorem isBest_of_ranking (h : c ∈ ranking cs) : c.IsBest cs :=
  isBest_of_bestPerNode ((ranking_perm cs).mem_iff.1 h)

theorem exists_ranking (h : c ∈ cs) :
    ∃ b ∈ ranking cs, compare c.node b.node = .eq ∧ c.pool.freeBytes ≤ b.pool.freeBytes := by
  obtain ⟨b, hb, hbest⟩ := exists_bestPerNode h
  exact ⟨b, (ranking_perm cs).mem_iff.2 hb, hbest⟩

theorem ranking_apart (cs : List Candidate) :
    (ranking cs).Pairwise fun a b => compare a.node b.node ≠ .eq :=
  (SortedMap.apart_perm Candidate.node (ranking_perm cs)).2 (bestPerNode_pairwise cs)

/-- Of two different nodes one comes strictly before the other. -/
theorem ranking_outranks (cs : List Candidate) : (ranking cs).Pairwise Candidate.Outranks := by
  have hsorted : (ranking cs).Pairwise fun a b => a.precedes b = true :=
    List.pairwise_mergeSort Candidate.precedes_trans Candidate.precedes_total _
  refine (hsorted.and (ranking_apart cs)).imp ?_
  rintro a b ⟨hprecedes, hapart⟩
  rcases Candidate.precedes_iff.1 hprecedes with hlt | ⟨heq, hle⟩
  · exact .inl hlt
  · refine .inr ⟨heq, ?_⟩
    cases hc : compare a.node b.node with
    | lt => rfl
    | eq => exact absurd hc hapart
    | gt => exact absurd hc hle

/-- A pool with more free space than all those on other nodes comes first. -/
theorem ranking_eq_cons (hfirst : ∀ c ∈ cs, c.pool.freeBytes < b.pool.freeBytes)
    (hapart : ∀ c ∈ cs, compare b.node c.node ≠ .eq) :
    ∃ rest, ranking (b :: cs) = b :: rest ∧ ∀ c ∈ rest, c ∈ cs := by
  have hpairs := ranking_outranks (b :: cs)
  obtain ⟨d, hd, hnode, -⟩ := exists_ranking (List.mem_cons_self (a := b) (l := cs))
  obtain rfl : d = b :=
    (List.mem_cons.1 (mem_of_ranking hd)).resolve_right fun hc => hapart d hc hnode
  cases hranking : ranking (d :: cs) with
  | nil => simp [hranking] at hd
  | cons head rest =>
    have hknown {c : Candidate} (hc : c ∈ head :: rest) : c ∈ d :: cs :=
      mem_of_ranking (hranking ▸ hc)
    rw [hranking] at hd hpairs
    obtain ⟨hhead, -⟩ := List.pairwise_cons.1 hpairs
    obtain rfl : head = d := by
      rcases List.mem_cons.1 (hknown List.mem_cons_self) with he | hc
      · exact he
      · have hle := (hhead d ((List.mem_cons.1 hd).resolve_left ?_)).le
        · exact absurd (hfirst head hc) (UInt64.not_lt.2 hle)
        · rintro rfl
          exact UInt64.lt_irrefl _ (hfirst d hc)
    refine ⟨rest, rfl, fun c hc => ?_⟩
    rcases List.mem_cons.1 (hknown (List.mem_cons_of_mem head hc)) with rfl | hc'
    · exact absurd (hhead c hc) (Candidate.not_outranks_self c)
    · exact hc'

/-- For every candidate one of its node in the ranking, with no less free space. -/
theorem exists_representative (cs : List Candidate) : ∃ f : Candidate → Candidate, ∀ c ∈ cs,
    f c ∈ ranking cs ∧ compare c.node (f c).node = .eq ∧
      c.pool.freeBytes ≤ (f c).pool.freeBytes := by
  refine Classical.axiomOfChoice (r := fun c b => c ∈ cs → b ∈ ranking cs ∧
    compare c.node b.node = .eq ∧ c.pool.freeBytes ≤ b.pool.freeBytes) fun c => ?_
  by_cases hc : c ∈ cs
  · obtain ⟨b, hb, hrest⟩ := exists_ranking hc
    exact ⟨b, fun _ => ⟨hb, hrest⟩⟩
  · exact ⟨c, fun h => absurd h hc⟩

section Representatives

variable {f : Candidate → Candidate} {picked : List Candidate}
  (hf : ∀ c ∈ cs, f c ∈ ranking cs ∧ compare c.node (f c).node = .eq)
  (hmem : ∀ c ∈ picked, c ∈ cs)
  (hapart : picked.Pairwise fun a b => compare a.node b.node ≠ .eq)

include hf hmem hapart

/-- Candidates of different nodes have representatives of different nodes. -/
theorem representatives_apart :
    (picked.map f).Pairwise fun a b => compare a.node b.node ≠ .eq := by
  refine List.pairwise_map.2 (hapart.imp_of_mem fun {a b} ha hb hab hsame => hab ?_)
  have hb' := Std.OrientedCmp.eq_symm (hf b (hmem b hb)).2
  exact Std.TransCmp.eq_trans (Std.TransCmp.eq_trans (hf a (hmem a ha)).2 hsame) hb'

theorem representatives_subperm : (picked.map f).Subperm (ranking cs) := by
  have hnodup : (picked.map f).Nodup := by
    refine (representatives_apart hf hmem hapart).imp fun hab he => hab ?_
    exact he ▸ Std.ReflCmp.compare_self
  refine List.subperm_of_subset hnodup fun b hb => ?_
  obtain ⟨c, hc, rfl⟩ := List.mem_map.1 hb
  exact (hf c (hmem c hc)).1

end Representatives

theorem select_eq (cs : List Candidate) (count : Nat) (k : Constraints) :
    select cs count k =
      if (pick count k (ranking cs)).length < count then none
      else some (pick count k (ranking cs)) := rfl

theorem select_eq_none_iff {count : Nat} :
    select cs count k = none ↔ (pick count k (ranking cs)).length < count := by
  rw [select_eq]
  split
  next hlt => exact iff_of_true rfl hlt
  next hle => exact iff_of_false (Option.some_ne_none _) hle

theorem eq_pick_ranking {count : Nat} {picked : List Candidate}
    (h : select cs count k = some picked) : picked = pick count k (ranking cs) := by
  rw [select_eq] at h
  split at h
  next => cases h
  next => exact (Option.some.inj h).symm

/-! ## What a ranking shows -/

/-- The node of a candidate, whatever its spelling, and the free space there. -/
def Candidate.mark (c : Candidate) : String × UInt64 := (c.node.value, c.pool.freeBytes)

theorem Candidate.compare_node_eq_iff : compare a.node b.node = .eq ↔ a.mark.1 = b.mark.1 :=
  Name.compare_eq_iff ..

/-- The marks in a ranking are those of the best candidates. -/
theorem mem_marks_ranking {m : String × UInt64} :
    m ∈ (ranking cs).map Candidate.mark ↔ ∃ c ∈ cs, c.IsBest cs ∧ c.mark = m := by
  constructor
  · intro hm
    obtain ⟨c, hc, hmark⟩ := List.mem_map.1 hm
    exact ⟨c, mem_of_ranking hc, isBest_of_ranking hc, hmark⟩
  · rintro ⟨c, hc, hbest, rfl⟩
    obtain ⟨b, hb, hnode, hle⟩ := exists_ranking hc
    have hge : b.pool.freeBytes ≤ c.pool.freeBytes :=
      hbest b (mem_of_ranking hb) (Std.OrientedCmp.eq_symm hnode)
    refine List.mem_map.2 ⟨b, hb, Prod.ext ?_ (UInt64.le_antisymm hge hle)⟩
    exact (Candidate.compare_node_eq_iff.1 hnode).symm

theorem Candidate.outranks_iff : a.Outranks b ↔
    b.mark.2 < a.mark.2 ∨ a.mark.2 = b.mark.2 ∧ compare a.mark.1 b.mark.1 = .lt := by
  rw [Outranks, Name.compare_eq_compareOn, Name.compareOn_value]
  exact Iff.rfl

theorem marks_ranking_pairwise (cs : List Candidate) :
    ((ranking cs).map Candidate.mark).Pairwise fun m n =>
      n.2 < m.2 ∨ m.2 = n.2 ∧ compare m.1 n.1 = .lt :=
  List.pairwise_map.2 ((ranking_outranks cs).imp Candidate.outranks_iff.1)

theorem marks_ranking_nodup (cs : List Candidate) :
    ((ranking cs).map Candidate.mark).Nodup := by
  refine List.pairwise_map.2 ((ranking_apart cs).imp fun {a b} hapart hmark => hapart ?_)
  exact Candidate.compare_node_eq_iff.2 (congrArg Prod.fst hmark)

/-- The order in which candidates are listed does not matter for the marks. -/
theorem marks_ranking_congr (h : cs.Perm ds) :
    (ranking cs).map Candidate.mark = (ranking ds).map Candidate.mark := by
  have hbest (c : Candidate) : c.IsBest cs ↔ c.IsBest ds := by
    simp only [Candidate.IsBest, h.mem_iff]
  have hperm : ((ranking cs).map Candidate.mark).Perm ((ranking ds).map Candidate.mark) := by
    refine (List.perm_ext_iff_of_nodup (marks_ranking_nodup cs) (marks_ranking_nodup ds)).2 ?_
    intro m
    simp only [mem_marks_ranking, h.mem_iff, hbest]
  refine hperm.eq_of_pairwise ?_ (marks_ranking_pairwise cs) (marks_ranking_pairwise ds)
  rintro ⟨x, m⟩ ⟨y, n⟩ - - (hmn | ⟨rfl, hxy⟩) (hnm | ⟨hnm, hyx⟩)
  · exact absurd hmn (UInt64.lt_asymm hnm)
  · exact absurd hmn (hnm ▸ UInt64.lt_irrefl _)
  · exact absurd hnm (UInt64.lt_irrefl _)
  · rw [Std.OrientedCmp.gt_iff_lt.2 hyx] at hxy
    cases hxy

end StorageCluster
