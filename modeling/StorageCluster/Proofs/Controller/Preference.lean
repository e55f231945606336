import Mathlib.Algebra.GroupWithZero.Nat
import Mathlib.Algebra.Order.BigOperators.Group.List
import Mathlib.Algebra.Order.Group.Nat
import Mathlib.Data.List.Dedup
import StorageCluster.Proofs.Controller.Atomicity
import StorageCluster.Proofs.Controller.Ranking

/-!
# Preference for free space

Without constraints the first nodes of the ranking are taken, so no choice of as many pools on
different nodes has more free space. With constraints, too, what is chosen depends on the ranking
alone: the same nodes with the same free space are found in whatever order the candidates are
listed.
-/
namespace StorageCluster

variable {cs ds : List Candidate} {count : Nat} {k : Constraints}

/-- How many different nodes the candidates have. -/
def nodeCount (cs : List Candidate) : Nat := (cs.map fun c => c.node.value).dedup.length

/-- The free space of all candidates together. -/
def freeTotal (cs : List Candidate) : Nat := (cs.map fun c => c.pool.freeBytes.toNat).sum

/-- What is picked has as much free space as pools on so many nodes can have. -/
structure TakesMost (cs : List Candidate) (count : Nat) (picked : List Candidate) : Prop where
  length : picked.length = count
  apart : picked.Pairwise fun a b => compare a.node b.node ≠ .eq
  known : ∀ c ∈ picked, c ∈ cs
  /-- On each node that is picked, a best pool. -/
  best : ∀ c ∈ picked, c.IsBest cs
  /-- A node that is not picked has less free space or, with as much, the greater name. -/
  first : ∀ d ∈ cs, (∀ c ∈ picked, compare d.node c.node ≠ .eq) → ∀ c ∈ picked, c.Outranks d
  most : ∀ other, (∀ c ∈ other, c ∈ cs) →
    (other.Pairwise fun a b => compare a.node b.node ≠ .eq) → other.length = count →
    freeTotal other ≤ freeTotal picked

theorem length_ranking (cs : List Candidate) : (ranking cs).length = nodeCount cs := by
  have hnodup : ((ranking cs).map fun c => c.node.value).Nodup :=
    List.pairwise_map.2 ((ranking_apart cs).imp fun hab he => hab ((Name.compare_eq_iff _ _).2 he))
  have hperm : ((ranking cs).map fun c => c.node.value).Perm
      (cs.map fun c => c.node.value).dedup := by
    refine (List.perm_ext_iff_of_nodup hnodup (List.nodup_dedup _)).2 fun value => ?_
    rw [List.mem_dedup, List.mem_map, List.mem_map]
    constructor
    · rintro ⟨c, hc, rfl⟩
      exact ⟨c, mem_of_ranking hc, rfl⟩
    · rintro ⟨c, hc, rfl⟩
      obtain ⟨b, hb, hnode, -⟩ := exists_ranking hc
      exact ⟨b, hb, ((Name.compare_eq_iff _ _).1 hnode).symm⟩
  rw [nodeCount, ← hperm.length_eq, List.length_map]

/-! ## Without constraints -/

theorem pick_unconstrained (hsame : k.sameProps = []) (hdifferent : k.differentProps = [])
    (count : Nat) (cs : List Candidate) : pick count k cs = cs.take count := by
  induction cs generalizing count k with
  | nil => cases count <;> rfl
  | cons c rest ih =>
    cases count with
    | zero => rfl
    | succ n =>
      have hallow : k.allow c.nodeProps = true := by
        rw [Constraints.allow, hsame, hdifferent]
        rfl
      rw [pick, if_pos hallow, List.take_succ_cons, ih (k := k.occupy c.nodeProps) hsame hdifferent]

theorem sum_take_le_cons {a : Nat} {rest : List Nat} (h : ∀ b ∈ rest, b ≤ a) (n : Nat) :
    (rest.take n).sum ≤ ((a :: rest).take n).sum := by
  cases n with
  | zero => exact Nat.le_refl _
  | succ n =>
    have hlast : rest[n]?.toList.sum ≤ a := by
      cases hb : rest[n]? with
      | none => exact Nat.zero_le a
      | some b => simpa using h b (List.mem_of_getElem? hb)
    rw [List.take_succ_cons, List.sum_cons, List.take_add_one, List.sum_append]
    omega

/-- In falling order the first numbers have the greatest sum. -/
theorem sum_le_sum_take {all few : List Nat} (hfalling : all.Pairwise fun a b => b ≤ a)
    (h : few.Subperm all) : few.sum ≤ (all.take few.length).sum := by
  obtain ⟨part, hperm, hsub⟩ := h
  rw [← hperm.sum_eq, ← hperm.length_eq]
  clear hperm
  induction hsub with
  | slnil => exact Nat.le_refl _
  | @cons part rest a _ ih =>
    obtain ⟨ha, hrest⟩ := List.pairwise_cons.1 hfalling
    exact (ih hrest).trans (sum_take_le_cons ha part.length)
  | @cons_cons part rest a _ ih =>
    rw [List.sum_cons, List.length_cons, List.take_succ_cons, List.sum_cons]
    exact Nat.add_le_add_left (ih (List.pairwise_cons.1 hfalling).2) a

/-- No pools on as many different nodes have more free space than the first of the ranking. -/
theorem freeTotal_le_take {other : List Candidate} (hmem : ∀ c ∈ other, c ∈ cs)
    (hapart : other.Pairwise fun a b => compare a.node b.node ≠ .eq) :
    freeTotal other ≤ freeTotal ((ranking cs).take other.length) := by
  obtain ⟨f, hf⟩ := exists_representative cs
  have hfalling : ((ranking cs).map fun c => c.pool.freeBytes.toNat).Pairwise fun m n => n ≤ m := by
    refine List.pairwise_map.2 ((ranking_outranks cs).imp ?_)
    rintro a b (hlt | ⟨heq, -⟩)
    · exact Nat.le_of_lt hlt
    · exact Nat.le_of_eq (congrArg UInt64.toNat heq.symm)
  obtain ⟨part, hperm, hsub⟩ :=
    representatives_subperm (fun c hc => ⟨(hf c hc).1, (hf c hc).2.1⟩) hmem hapart
  let free (c : Candidate) : Nat := c.pool.freeBytes.toNat
  calc freeTotal other
    _ ≤ freeTotal (other.map f) := by
      rw [freeTotal, freeTotal, List.map_map]
      exact List.sum_le_sum fun c hc => (hf c (hmem c hc)).2.2
    _ ≤ freeTotal ((ranking cs).take other.length) := by
      have hle := sum_le_sum_take hfalling ⟨part.map free, hperm.map free, hsub.map free⟩
      rwa [List.length_map, List.length_map, ← List.map_take] at hle

/-- What comes after the first nodes of a ranking. -/
theorem outranked_of_not_taken {d : Candidate} (hd : d ∈ cs)
    (hnew : ∀ c ∈ (ranking cs).take count, compare d.node c.node ≠ .eq) :
    ∀ c ∈ (ranking cs).take count, c.Outranks d := by
  intro c hc
  obtain ⟨b, hb, hnode, hle⟩ := exists_ranking hd
  have hlater : b ∈ (ranking cs).drop count := by
    rw [← List.take_append_drop count (ranking cs)] at hb
    rcases List.mem_append.1 hb with hb | hb
    · exact absurd hnode (hnew b hb)
    · exact hb
  have hpairs := ranking_outranks cs
  rw [← List.take_append_drop count (ranking cs)] at hpairs
  rcases (List.pairwise_append.1 hpairs).2.2 c hc b hlater with hlt | ⟨heq, hname⟩
  · exact .inl (UInt64.lt_of_le_of_lt hle hlt)
  · have hright : compare c.node d.node = compare c.node b.node := Std.TransCmp.congr_right hnode
    have hname' : compare c.node d.node = .lt := hright.trans hname
    rcases UInt64.lt_or_eq_of_le hle with hlt | heq'
    · exact .inl (heq ▸ hlt)
    · exact .inr ⟨heq.trans heq'.symm, hname'⟩

theorem take_ranking_takesMost (hcount : count ≤ nodeCount cs) :
    TakesMost cs count ((ranking cs).take count) where
  length := List.length_take_of_le (length_ranking cs ▸ hcount)
  apart := (ranking_apart cs).sublist (List.take_sublist ..)
  known _ hc := mem_of_ranking (List.mem_of_mem_take hc)
  best _ hc := isBest_of_ranking (List.mem_of_mem_take hc)
  first _ hd hnew := outranked_of_not_taken hd hnew
  most _ hmem hapart hlength := hlength ▸ freeTotal_le_take hmem hapart

theorem select_unconstrained (hsame : k.sameProps = []) (hdifferent : k.differentProps = [])
    (cs : List Candidate) (count : Nat) :
    select cs count k =
      if count ≤ nodeCount cs then some ((ranking cs).take count) else none := by
  rw [select_eq, pick_unconstrained hsame hdifferent, List.length_take, length_ranking]
  split
  next hlt => rw [if_neg (by omega)]
  next hle => rw [if_pos (by omega)]

/-! ## With constraints -/

/-- Candidates between which no constraint and no ranking can tell. -/
def Candidate.Alike (a b : Candidate) : Prop := a.mark = b.mark ∧ a.nodeProps = b.nodeProps

theorem pick_alike (h : cs.Forall₂ Candidate.Alike ds) (count : Nat) (k : Constraints) :
    (pick count k cs).map Candidate.mark = (pick count k ds).map Candidate.mark := by
  induction h generalizing count k with
  | nil => rfl
  | @cons a b cs ds hab _ ih =>
    cases count with
    | zero => rfl
    | succ n =>
      rw [pick, pick, hab.2]
      split
      next => rw [List.map_cons, List.map_cons, hab.1, ih]
      next => exact ih (n + 1) k

/-- The rankings of the same candidates in different order are alike. -/
theorem rankings_alike (hu : Candidate.Uniform cs) (h : cs.Perm ds) :
    (ranking cs).Forall₂ Candidate.Alike (ranking ds) := by
  have hmarks : ((ranking cs).map Candidate.mark).Forall₂ (· = ·)
      ((ranking ds).map Candidate.mark) := by
    rw [List.forall₂_eq_eq_eq]
    exact marks_ranking_congr h
  rw [List.forall₂_map_left_iff, List.forall₂_map_right_iff, List.forall₂_iff_zip] at hmarks
  refine List.forall₂_iff_zip.2 ⟨hmarks.1, fun {a b} hab => ?_⟩
  have hmark : a.mark = b.mark := hmarks.2 hab
  have ha := mem_of_ranking (List.of_mem_zip hab).1
  have hb := h.mem_iff.2 (mem_of_ranking (List.of_mem_zip hab).2)
  exact ⟨hmark, hu a ha b hb (Candidate.compare_node_eq_iff.2 (congrArg Prod.fst hmark))⟩

/-- Without constraints a choice is found just if there are enough nodes, and it takes the most
free space. Whatever the constraints, the order of the candidates has no influence on the nodes
that are chosen and on the free space found there. -/
theorem select_prefers_space (hu : Candidate.Uniform cs) (count : Nat) :
    (∀ k : Constraints, k.sameProps = [] → k.differentProps = [] →
      ((∃ picked, select cs count k = some picked) ↔ count ≤ nodeCount cs) ∧
        ∀ picked, select cs count k = some picked → TakesMost cs count picked) ∧
      ∀ (k : Constraints) (ds : List Candidate), cs.Perm ds →
        (select ds count k).map (·.map Candidate.mark) =
          (select cs count k).map (·.map Candidate.mark) := by
  constructor
  · intro k hsame hdifferent
    rw [select_unconstrained hsame hdifferent]
    split
    next hcount =>
      refine ⟨iff_of_true ⟨_, rfl⟩ hcount, fun picked hpicked => ?_⟩
      cases hpicked
      exact take_ranking_takesMost hcount
    next hcount =>
      refine ⟨iff_of_false ?_ hcount, fun picked hpicked => ?_⟩
      · rintro ⟨picked, hpicked⟩
        cases hpicked
      · cases hpicked
  · intro k ds hperm
    have hmarks := pick_alike (rankings_alike hu hperm) count k
    have hlength : (pick count k (ranking cs)).length = (pick count k (ranking ds)).length := by
      rw [← List.length_map (f := Candidate.mark), hmarks, List.length_map]
    rw [select_eq, select_eq, hlength]
    split
    next => rfl
    next => exact congrArg some hmarks.symm

namespace Sample

def bulk : PoolName := ⟨"bulk", by decide⟩

def spare (node : NodeName) (pool : PoolName) (freeBytes : UInt64) : Candidate :=
  ⟨.new default pool node .lvm freeBytes, .empty⟩

/-- `alpha` has two pools, and `bravo` and `charlie` have as much free space as each other. -/
def spares : List Candidate :=
  [spare alpha pool1 100, spare charlie pool1 300, spare alpha bulk 500, spare bravo pool1 300]

end Sample

open Sample in
theorem select_prefers_space_of_spares :
    Candidate.Uniform spares ∧
      (∃ picked, select spares 2 {} = some picked ∧ TakesMost spares 2 picked) ∧
      select spares 4 {} = none ∧
      ∀ k : Constraints, (select spares.reverse 2 k).map (·.map Candidate.mark) =
        (select spares 2 k).map (·.map Candidate.mark) := by
  have hu : Candidate.Uniform spares := by
    intro a ha b hb _
    simp only [spares, List.mem_cons, List.not_mem_nil, or_false] at ha hb
    rcases ha with rfl | rfl | rfl | rfl <;> rcases hb with rfl | rfl | rfl | rfl <;> rfl
  obtain ⟨hfound, hmost⟩ := (select_prefers_space hu 2).1 {} rfl rfl
  obtain ⟨picked, hpicked⟩ := hfound.2 (by decide +kernel)
  refine ⟨hu, ⟨picked, hpicked, hmost picked hpicked⟩, ?_, fun k => ?_⟩
  · have hfew : ¬4 ≤ nodeCount spares := by decide +kernel
    refine Option.eq_none_iff_forall_ne_some.2 fun picked hpicked => hfew ?_
    exact ((select_prefers_space hu 4).1 {} rfl rfl).1.1 ⟨picked, hpicked⟩
  · exact (select_prefers_space hu 2).2 k _ (List.reverse_perm spares).symm

end StorageCluster
