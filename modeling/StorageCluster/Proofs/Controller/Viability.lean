import StorageCluster.Proofs.Controller.Preference
import StorageCluster.Proofs.Controller.Spread

/-!
# When every viable selection is found

Nodes are tried once, in the order of their ranking, and a node that was picked is never given up
again. So a selection may exist that is not found: a node with much free space may rule out others
that would have gone together. This cannot happen, whatever the free space of the nodes, just if a
node rules out only nodes that it cannot go together with, and not going together is transitive.
Main result: `select_complete_iff`.
-/
namespace StorageCluster

namespace Constraints

variable {k : Constraints} {node a b : Props}

/-- Nodes that cannot both hold a replica: they differ in what has to be the same, or have in common
what has to be different. -/
def Clash (k : Constraints) (a b : Props) : Prop :=
  (∃ key ∈ k.sameProps, ∃ v w, a.get? key none = some v ∧ b.get? key none = some w ∧ v ≠ w) ∨
    ∃ key ∈ k.differentProps, ∃ v, a.get? key none = some v ∧ b.get? key none = some v

/-- What a node keeps away once it is picked: also nodes that lack what has to be the same. -/
def Blocks (k : Constraints) (a b : Props) : Prop :=
  (∃ key ∈ k.sameProps, ∃ v, a.get? key none = some v ∧ b.get? key none ≠ some v) ∨
    ∃ key ∈ k.differentProps, ∃ v, a.get? key none = some v ∧ b.get? key none = some v

theorem Clash.symm (h : k.Clash a b) : k.Clash b a := by
  rcases h with ⟨key, hk, v, w, hv, hw, hne⟩ | ⟨key, hk, v, hv, hw⟩
  · exact .inl ⟨key, hk, w, v, hw, hv, hne.symm⟩
  · exact .inr ⟨key, hk, v, hw, hv⟩

theorem Clash.blocks (h : k.Clash a b) : k.Blocks a b := by
  rcases h with ⟨key, hk, v, w, hv, hw, hne⟩ | hdifferent
  · exact .inl ⟨key, hk, v, hv, fun he => hne (Option.some.inj (he.symm.trans hw))⟩
  · exact .inr hdifferent

/-- A node is allowed that has the values that are fixed and none that is taken. -/
theorem allow_iff : k.allow node = true ↔
    (∀ key ∈ k.sameProps, ∀ v, k.same.find? key = some v → node.get? key none = some v) ∧
      ∀ key ∈ k.differentProps, ∀ v, node.get? key none = some v →
        v ∉ (k.taken.find? key).getD [] := by
  simp [allow, Option.all_eq_true]

/-- A node that is picked leaves those that it does not block. -/
theorem allow_occupy (ha : k.allow a = true) :
    (k.occupy a).allow b = true ↔ k.allow b = true ∧ ¬k.Blocks a b := by
  have hsame {key : String} (hk : key ∈ k.sameProps) :
      (k.occupy a).same.find? key = (k.same.find? key).or (a.get? key none) :=
    (find?_foldl_fixSame a k.sameProps k.same key).trans (if_pos hk)
  have htaken {key v : String} (hk : key ∈ k.differentProps) :
      v ∈ ((k.occupy a).taken.find? key).getD [] ↔
        v ∈ (k.taken.find? key).getD [] ∨ a.get? key none = some v := by
    refine (mem_foldl_takeDifferent a k.differentProps k.taken key v).trans ?_
    rw [and_iff_right hk]
  rw [allow_iff] at ha
  rw [allow_iff, allow_iff]
  constructor
  · rintro ⟨hfixed, hfree⟩
    refine ⟨⟨fun key hk v hv => ?_, fun key hk v hv ht => ?_⟩, ?_⟩
    · exact hfixed key hk v (by rw [hsame hk, hv, Option.some_or])
    · exact hfree key hk v hv ((htaken hk).2 (.inl ht))
    · rintro (⟨key, hk, v, hav, hbv⟩ | ⟨key, hk, v, hav, hbv⟩)
      · refine hbv (hfixed key hk v ?_)
        rw [hsame hk]
        cases hold : k.same.find? key with
        | none => rw [Option.none_or, hav]
        | some old => rw [Option.some_or, ← ha.1 key hk old hold, hav]
      · exact hfree key hk v hbv ((htaken hk).2 (.inr hav))
  · rintro ⟨⟨hfixed, hfree⟩, hblocks⟩
    refine ⟨fun key hk v hv => ?_, fun key hk v hv ht => ?_⟩
    · rw [hsame hk, Option.or_eq_some_iff] at hv
      rcases hv with hv | ⟨-, hav⟩
      · exact hfixed key hk v hv
      · by_contra hne
        exact hblocks (.inl ⟨key, hk, v, hav, hne⟩)
    · rcases (htaken hk).1 ht with ht | hav
      · exact hfree key hk v hv ht
      · exact hblocks (.inr ⟨key, hk, v, hav, hv⟩)

end Constraints

open Constraints (Clash Blocks)

variable {cs ds picked : List Candidate} {count : Nat} {k : Constraints}

/-! ## Viable selections -/

/-- As many candidates as wanted on different nodes that go together, with the values that are fixed
and without those that are taken. -/
structure Constraints.Viable (k : Constraints) (cs : List Candidate) (count : Nat)
    (picked : List Candidate) : Prop where
  length : picked.length = count
  known : ∀ c ∈ picked, c ∈ cs
  apart : picked.Pairwise fun a b => compare a.node b.node ≠ .eq
  fixed : ∀ key ∈ k.sameProps, ∀ v, k.same.find? key = some v →
    ∀ c ∈ picked, c.nodeProps.get? key none = some v
  shared : ∀ key ∈ k.sameProps, ∀ a ∈ picked, ∀ b ∈ picked, ∀ v w,
    a.nodeProps.get? key none = some v → b.nodeProps.get? key none = some w → v = w
  untaken : ∀ key ∈ k.differentProps, ∀ c ∈ picked, ∀ v, c.nodeProps.get? key none = some v →
    v ∉ (k.taken.find? key).getD []
  different : ∀ key ∈ k.differentProps,
    (picked.filterMap fun c => c.nodeProps.get? key none).Nodup

namespace Constraints

/-- Candidates that could be picked first. -/
def eligible (k : Constraints) (cs : List Candidate) : List Candidate :=
  cs.filter fun c => k.allow c.nodeProps

theorem mem_eligible {c : Candidate} : c ∈ k.eligible cs ↔ c ∈ cs ∧ k.allow c.nodeProps = true :=
  List.mem_filter

/-- What is viable is told by each candidate alone and by each two of them. -/
theorem viable_iff : k.Viable cs count picked ↔
    picked.length = count ∧ (∀ c ∈ picked, c ∈ k.eligible cs) ∧
      (picked.Pairwise fun a b => compare a.node b.node ≠ .eq) ∧
      picked.Pairwise fun a b => ¬k.Clash a.nodeProps b.nodeProps := by
  constructor
  · intro h
    refine ⟨h.length, fun c hc => mem_eligible.2 ⟨h.known c hc, allow_iff.2 ⟨?_, ?_⟩⟩, h.apart, ?_⟩
    · exact fun key hk v hv => h.fixed key hk v hv c hc
    · exact fun key hk v hv => h.untaken key hk c hc v hv
    · refine List.pairwise_iff_forall_sublist.2 fun {a b} hab => ?_
      have ha : a ∈ picked := hab.subset List.mem_cons_self
      have hb : b ∈ picked := hab.subset (List.mem_cons_of_mem a List.mem_cons_self)
      rintro (⟨key, hk, v, w, hv, hw, hne⟩ | ⟨key, hk, v, hv, hw⟩)
      · exact hne (h.shared key hk a ha b hb v w hv hw)
      · have hpair := List.pairwise_filterMap.1 (h.different key hk)
        exact List.pairwise_iff_forall_sublist.1 hpair hab v hv v hw rfl
  · rintro ⟨hlength, heligible, hapart, hclash⟩
    have hallow {c : Candidate} (hc : c ∈ picked) := allow_iff.1 (mem_eligible.1 (heligible c hc)).2
    refine ⟨hlength, fun c hc => (mem_eligible.1 (heligible c hc)).1, hapart, ?_, ?_, ?_, ?_⟩
    · exact fun key hk v hv c hc => (hallow hc).1 key hk v hv
    · intro key hk
      let Agree (a b : Candidate) : Prop := ∀ v w, a.nodeProps.get? key none = some v →
        b.nodeProps.get? key none = some w → v = w
      have : Std.Symm Agree := ⟨fun a b hab v w hv hw => (hab w v hw hv).symm⟩
      have hself (c : Candidate) (_ : c ∈ picked) : Agree c c :=
        fun v w hv hw => Option.some.inj (hv.symm.trans hw)
      have hpairs : picked.Pairwise Agree := hclash.imp fun hab v w hv hw =>
        not_not.1 fun hne => hab (.inl ⟨key, hk, v, w, hv, hw, hne⟩)
      exact fun a ha b hb => hpairs.forall_of_forall hself ha hb
    · exact fun key hk c hc v hv => (hallow hc).2 key hk v hv
    · intro key hk
      refine List.pairwise_filterMap.2 (hclash.imp fun hab v hv w hw he => hab (.inr ?_))
      exact ⟨key, hk, v, hv, he ▸ hw⟩

/-- Where a single pass cannot go wrong, whatever the free space. -/
structure Coherent (k : Constraints) (cs : List Candidate) : Prop where
  /-- What a node blocks cannot go together with it. -/
  clash : ∀ a ∈ k.eligible cs, ∀ b ∈ k.eligible cs, compare a.node b.node ≠ .eq →
    k.Blocks a.nodeProps b.nodeProps → k.Clash a.nodeProps b.nodeProps
  trans : ∀ a ∈ k.eligible cs, ∀ b ∈ k.eligible cs, ∀ c ∈ k.eligible cs,
    compare a.node b.node ≠ .eq → compare b.node c.node ≠ .eq → compare a.node c.node ≠ .eq →
    k.Clash a.nodeProps b.nodeProps → k.Clash b.nodeProps c.nodeProps →
    k.Clash a.nodeProps c.nodeProps

theorem Coherent.mono (h : k.Coherent cs) (hmem : ∀ c ∈ k.eligible ds, c ∈ k.eligible cs) :
    k.Coherent ds :=
  ⟨fun a ha b hb => h.clash a (hmem a ha) b (hmem b hb),
    fun a ha b hb c hc => h.trans a (hmem a ha) b (hmem b hb) c (hmem c hc)⟩

theorem Coherent.occupy (h : k.Coherent cs) {node : Props} (ha : k.allow node = true) :
    (k.occupy node).Coherent cs := by
  have hmem (c : Candidate) (hc : c ∈ (k.occupy node).eligible cs) : c ∈ k.eligible cs := by
    obtain ⟨hc, hallow⟩ := mem_eligible.1 hc
    exact mem_eligible.2 ⟨hc, ((allow_occupy ha).1 hallow).1⟩
  exact ⟨fun a ha b hb => h.clash a (hmem a ha) b (hmem b hb),
    fun a ha b hb c hc => h.trans a (hmem a ha) b (hmem b hb) c (hmem c hc)⟩

/-- It is enough that all that has to be the same is fixed, and that only one thing has to be
different. -/
theorem Coherent.of_single (cs : List Candidate) (key : String)
    (hfixed : ∀ other ∈ k.sameProps, k.same.contains other = true)
    (hsingle : ∀ other ∈ k.differentProps, other = key) : k.Coherent cs := by
  have hshare {a b : Candidate} (ha : a ∈ k.eligible cs) (hb : b ∈ k.eligible cs)
      (hblocks : k.Blocks a.nodeProps b.nodeProps) : key ∈ k.differentProps ∧
        ∃ v, a.nodeProps.get? key none = some v ∧ b.nodeProps.get? key none = some v := by
    rcases hblocks with ⟨other, hk, v, hav, hbv⟩ | ⟨other, hk, hv⟩
    · obtain ⟨old, hold⟩ := Option.isSome_iff_exists.1 (hfixed other hk)
      have hao := (allow_iff.1 (mem_eligible.1 ha).2).1 other hk old hold
      have hbo := (allow_iff.1 (mem_eligible.1 hb).2).1 other hk old hold
      exact absurd (hbo.trans (hao.symm.trans hav)) hbv
    · obtain rfl := hsingle other hk
      exact ⟨hk, hv⟩
  refine ⟨fun a ha b hb _ hab => ?_, fun a ha b hb c hc _ _ _ hab hbc => ?_⟩
  · obtain ⟨hk, hv⟩ := hshare ha hb hab
    exact .inr ⟨key, hk, hv⟩
  · obtain ⟨hk, v, hav, hbv⟩ := hshare ha hb hab.blocks
    obtain ⟨-, w, hbw, hcw⟩ := hshare hb hc hbc.blocks
    exact .inr ⟨key, hk, v, hav, by rw [hcw, ← hbw, hbv]⟩

end Constraints

open Constraints (mem_eligible)

/-! ## What a pass picks -/

/-- What is picked is allowed, and nothing of it is blocked by what was picked before. -/
theorem pick_unblocked (count : Nat) (k : Constraints) (cs : List Candidate) :
    (∀ c ∈ pick count k cs, k.allow c.nodeProps = true) ∧
      (pick count k cs).Pairwise fun a b => ¬k.Blocks a.nodeProps b.nodeProps := by
  induction cs generalizing count k with
  | nil => cases count <;> exact ⟨by simp [pick], .nil⟩
  | cons c rest ih =>
    cases count with
    | zero => exact ⟨by simp [pick], .nil⟩
    | succ n =>
      unfold pick
      split
      next ha =>
        obtain ⟨hallow, hblocks⟩ := ih n (k.occupy c.nodeProps)
        refine ⟨List.forall_mem_cons.2 ⟨ha, fun d hd => ?_⟩, .cons (fun d hd => ?_) hblocks⟩
        · exact ((Constraints.allow_occupy ha).1 (hallow d hd)).1
        · exact ((Constraints.allow_occupy ha).1 (hallow d hd)).2
      next => exact ih (n + 1) k

theorem pick_eq_nil (count : Nat) (h : ∀ c ∈ cs, k.allow c.nodeProps ≠ true) :
    pick count k cs = [] := by
  induction cs with
  | nil => cases count <;> rfl
  | cons c rest ih =>
    cases count with
    | zero => rfl
    | succ n =>
      obtain ⟨hc, hrest⟩ := List.forall_mem_cons.1 h
      rw [pick, if_neg hc, ih hrest]

theorem viable_of_select (h : select cs count k = some picked) : k.Viable cs count picked := by
  obtain ⟨hlength, hmem, hapart⟩ := select_some h
  obtain ⟨hallow, hblocks⟩ := pick_unblocked count k (ranking cs)
  rw [← eq_pick_ranking h] at hallow hblocks
  refine Constraints.viable_iff.2 ⟨hlength, fun c hc => mem_eligible.2 ⟨hmem c hc, hallow c hc⟩,
    hapart, hblocks.imp fun hab hclash => hab hclash.blocks⟩

/-! ## How much a pass picks -/

/-- If no two of those that a filter drops go together, it drops at most one of a selection. -/
theorem length_le_filter_add_one {p : Candidate → Bool} {r : Candidate → Candidate → Prop}
    (hpicked : picked.Pairwise r)
    (hlost : ∀ a ∈ picked, ∀ b ∈ picked, p a = false → p b = false → ¬r a b) :
    picked.length ≤ (picked.filter p).length + 1 := by
  have hrest := hpicked.sublist (List.filter_sublist (p := fun c => !p c))
  have hfew : (picked.filter fun c => !p c).length ≤ 1 := by
    match hl : picked.filter fun c => !p c with
    | [] => exact Nat.zero_le 1
    | [_] => exact Nat.le_refl 1
    | a :: b :: more =>
      have hmem {c : Candidate} (hc : c ∈ a :: b :: more) : c ∈ picked ∧ p c = false := by
        rw [← hl, List.mem_filter] at hc
        exact ⟨hc.1, by simpa using hc.2⟩
      have ha := hmem List.mem_cons_self
      have hb := hmem (List.mem_cons_of_mem a List.mem_cons_self)
      rw [hl] at hrest
      have hab := (List.pairwise_cons.1 hrest).1 b List.mem_cons_self
      exact absurd hab (hlost a ha.1 b hb.1 ha.2 hb.2)
  have hsplit := List.length_eq_length_filter_add (l := picked) p
  omega

theorem filter_subperm_rest {c : Candidate} {p : Candidate → Bool} (hp : p c = false)
    (h : picked.Subperm (c :: cs)) : (picked.filter p).Subperm cs := by
  have hfilter := h.filter p
  rw [List.filter_cons_of_neg (by simp [hp])] at hfilter
  exact hfilter.trans List.filter_sublist.subperm

/-- Another candidate that is still allowed once `c` is picked. -/
def Constraints.spares (k : Constraints) (c d : Candidate) : Bool :=
  (k.occupy c.nodeProps).allow d.nodeProps && d != c

/-- Picking a candidate costs a selection no more than one of its own: that candidate or one that it
clashes with. -/
theorem length_le_spared {c : Candidate} (hc : c ∈ k.eligible cs) (hcoherent : k.Coherent cs)
    (hapart : ∀ d ∈ cs, d ≠ c → compare c.node d.node ≠ .eq)
    (heligible : ∀ d ∈ picked, d ∈ k.eligible cs)
    (hviable : picked.Pairwise fun a b =>
      compare a.node b.node ≠ .eq ∧ ¬k.Clash a.nodeProps b.nodeProps) :
    picked.length ≤ (picked.filter (k.spares c)).length + 1 := by
  have hlost {d : Candidate} (hd : d ∈ picked) (hspares : k.spares c d = false) :
      d = c ∨ compare c.node d.node ≠ .eq ∧ k.Clash c.nodeProps d.nodeProps := by
    refine or_iff_not_imp_left.2 fun hdc => ?_
    obtain ⟨hmem, hallow⟩ := mem_eligible.1 (heligible d hd)
    have hcd := hapart d hmem hdc
    refine ⟨hcd, hcoherent.clash c hc d (heligible d hd) hcd (not_not.1 fun hfree => ?_)⟩
    have hstays := (Constraints.allow_occupy (mem_eligible.1 hc).2).2 ⟨hallow, hfree⟩
    simp [Constraints.spares, hstays, hdc] at hspares
  refine length_le_filter_add_one hviable ?_
  rintro a ha b hb hla hlb ⟨hab, hfree⟩
  rcases hlost ha hla with rfl | ⟨hca, hclash⟩
  · rcases hlost hb hlb with rfl | ⟨-, hclash⟩
    · exact hab Std.ReflCmp.compare_self
    · exact hfree hclash
  · rcases hlost hb hlb with rfl | ⟨hcb, hclash'⟩
    · exact hfree hclash.symm
    · have hac : compare a.node c.node ≠ .eq := fun he => hca (Std.OrientedCmp.eq_symm he)
      exact hfree (hcoherent.trans a (heligible a ha) c hc b (heligible b hb) hac hcb hab
        hclash.symm hclash')

/-- Of nodes that go together no more can be found than a pass picks. -/
theorem min_length_le_pick (hapart : cs.Pairwise fun a b => compare a.node b.node ≠ .eq)
    (hcoherent : k.Coherent cs) (hpicked : picked.Subperm cs)
    (hallow : ∀ c ∈ picked, k.allow c.nodeProps = true)
    (hviable : picked.Pairwise fun a b =>
      compare a.node b.node ≠ .eq ∧ ¬k.Clash a.nodeProps b.nodeProps) (count : Nat) :
    min count picked.length ≤ (pick count k cs).length := by
  induction cs generalizing k picked count with
  | nil =>
    rw [List.subperm_nil.1 hpicked, List.length_nil, Nat.min_zero]
    exact Nat.zero_le _
  | cons c rest ih =>
    cases count with
    | zero => exact Nat.min_le_left ..
    | succ n =>
      obtain ⟨hc, hrest⟩ := List.pairwise_cons.1 hapart
      have hlater : k.Coherent rest := hcoherent.mono fun d hd =>
        mem_eligible.2 ⟨List.mem_cons_of_mem c (mem_eligible.1 hd).1, (mem_eligible.1 hd).2⟩
      unfold pick
      split
      next ha =>
        have hcost : picked.length ≤ (picked.filter (k.spares c)).length + 1 := by
          refine length_le_spared (mem_eligible.2 ⟨List.mem_cons_self, ha⟩) hcoherent ?_ ?_ hviable
          · exact fun d hd hdc => hc d ((List.mem_cons.1 hd).resolve_left hdc)
          · exact fun d hd => mem_eligible.2 ⟨hpicked.subset hd, hallow d hd⟩
        have hspared : (picked.filter (k.spares c)).Subperm rest :=
          filter_subperm_rest (by simp [Constraints.spares]) hpicked
        have hstays (d : Candidate) (hd : d ∈ picked.filter (k.spares c)) :
            (k.occupy c.nodeProps).allow d.nodeProps = true :=
          (Bool.and_eq_true_iff.1 (List.mem_filter.1 hd).2).1
        have hpick := ih hrest (hlater.occupy ha) hspared hstays
          (hviable.sublist List.filter_sublist) n
        rw [List.length_cons]
        omega
      next ha =>
        have hself : (picked.filter fun d => k.allow d.nodeProps) = picked :=
          List.filter_eq_self.2 hallow
        have hsub : picked.Subperm rest := by
          rw [← hself]
          exact filter_subperm_rest (by simpa using ha) hpicked
        exact ih hrest hlater hsub hallow hviable (n + 1)

/-- Under coherent constraints nothing is missed. -/
theorem select_ne_none (hu : Candidate.Uniform cs) (hcoherent : k.Coherent cs)
    (h : k.Viable cs count picked) : select cs count k ≠ none := by
  obtain ⟨hlength, heligible, hapart, hclash⟩ := Constraints.viable_iff.1 h
  obtain ⟨f, hf⟩ := exists_representative cs
  have hmem (c : Candidate) (hc : c ∈ picked) : c ∈ cs := (mem_eligible.1 (heligible c hc)).1
  have hprops {c : Candidate} (hc : c ∈ picked) : (f c).nodeProps = c.nodeProps := by
    obtain ⟨hranked, hnode, -⟩ := hf c (hmem c hc)
    exact (hu c (hmem c hc) (f c) (mem_of_ranking hranked) hnode).symm
  have hsame (c : Candidate) (hc : c ∈ cs) : f c ∈ ranking cs ∧ compare c.node (f c).node = .eq :=
    ⟨(hf c hc).1, (hf c hc).2.1⟩
  have hranked : k.Coherent (ranking cs) := hcoherent.mono fun c hc =>
    mem_eligible.2 ⟨mem_of_ranking (mem_eligible.1 hc).1, (mem_eligible.1 hc).2⟩
  have hallow (b : Candidate) (hb : b ∈ picked.map f) : k.allow b.nodeProps = true := by
    obtain ⟨c, hc, rfl⟩ := List.mem_map.1 hb
    rw [hprops hc]
    exact (mem_eligible.1 (heligible c hc)).2
  have hviable : (picked.map f).Pairwise fun a b =>
      compare a.node b.node ≠ .eq ∧ ¬k.Clash a.nodeProps b.nodeProps := by
    refine (representatives_apart hsame hmem hapart).and (List.pairwise_map.2 ?_)
    refine hclash.imp_of_mem fun {a b} ha hb hab => ?_
    rwa [hprops ha, hprops hb]
  have hpick := min_length_le_pick (ranking_apart cs) hranked
    (representatives_subperm hsame hmem hapart) hallow hviable count
  rw [List.length_map, hlength, Nat.min_self] at hpick
  rw [ne_eq, select_eq_none_iff]
  omega

/-! ## What a pass misses -/

/-- The node with the most free space may keep all others away. -/
theorem select_two_eq_none {b : Candidate} {others : List Candidate}
    (hfirst : ∀ c ∈ others, c.pool.freeBytes < b.pool.freeBytes)
    (hapart : ∀ c ∈ others, compare b.node c.node ≠ .eq) (hallow : k.allow b.nodeProps = true)
    (hblocks : ∀ c ∈ others, k.Blocks b.nodeProps c.nodeProps) :
    select (b :: others) 2 k = none := by
  obtain ⟨rest, hranking, hrest⟩ := ranking_eq_cons hfirst hapart
  have hlast : pick 1 (k.occupy b.nodeProps) rest = [] :=
    pick_eq_nil 1 fun c hc hstays =>
      ((Constraints.allow_occupy hallow).1 hstays).2 (hblocks c (hrest c hc))
  rw [select_eq_none_iff, hranking, pick, if_pos hallow, hlast]
  exact Nat.lt_succ_self 1

theorem viable_pair {a b : Candidate} (ha : a ∈ k.eligible cs) (hb : b ∈ k.eligible cs)
    (hapart : compare a.node b.node ≠ .eq) (hfree : ¬k.Clash a.nodeProps b.nodeProps) :
    k.Viable cs 2 [a, b] :=
  Constraints.viable_iff.2 ⟨rfl, by simp [ha, hb], List.pairwise_pair.2 hapart,
    List.pairwise_pair.2 hfree⟩

namespace Candidate

/-- The same pool with other free space. -/
def withFree (c : Candidate) (freeBytes : UInt64) : Candidate :=
  { c with pool := { c.pool with freeBytes } }

/-- Candidates on the nodes of others, whatever their pools. -/
def OnNodesOf (cs ds : List Candidate) : Prop :=
  ∀ d ∈ ds, ∃ c ∈ cs, d.node = c.node ∧ d.nodeProps = c.nodeProps

theorem OnNodesOf.uniform (h : OnNodesOf cs ds) (hu : Uniform cs) : Uniform ds := by
  intro a ha b hb hnode
  obtain ⟨c, hc, hac, haprops⟩ := h a ha
  obtain ⟨d, hd, hbd, hbprops⟩ := h b hb
  rw [hac, hbd] at hnode
  rw [haprops, hbprops, hu c hc d hd hnode]

theorem OnNodesOf.coherent (h : OnNodesOf cs ds) (hcoherent : k.Coherent cs) : k.Coherent ds := by
  have hstand {d : Candidate} (hd : d ∈ k.eligible ds) :
      ∃ c ∈ k.eligible cs, d.node = c.node ∧ d.nodeProps = c.nodeProps := by
    obtain ⟨hd, hallow⟩ := mem_eligible.1 hd
    obtain ⟨c, hc, hnode, hprops⟩ := h d hd
    exact ⟨c, mem_eligible.2 ⟨hc, hprops ▸ hallow⟩, hnode, hprops⟩
  constructor
  · intro a ha b hb
    obtain ⟨a', ha', hanode, haprops⟩ := hstand ha
    obtain ⟨b', hb', hbnode, hbprops⟩ := hstand hb
    rw [hanode, hbnode, haprops, hbprops]
    exact hcoherent.clash a' ha' b' hb'
  · intro a ha b hb c hc
    obtain ⟨a', ha', hanode, haprops⟩ := hstand ha
    obtain ⟨b', hb', hbnode, hbprops⟩ := hstand hb
    obtain ⟨c', hc', hcnode, hcprops⟩ := hstand hc
    rw [hanode, hbnode, hcnode, haprops, hbprops, hcprops]
    exact hcoherent.trans a' ha' b' hb' c' hc'

end Candidate

/-- If nothing is ever missed on some nodes, the constraints are coherent there. -/
theorem coherent_of_complete (h : ∀ ds, Candidate.OnNodesOf cs ds → ∀ picked,
    k.Viable ds 2 picked → select ds 2 k ≠ none) : k.Coherent cs := by
  have hknown {c : Candidate} (hc : c ∈ k.eligible cs) (freeBytes : UInt64) :
      ∃ d ∈ cs, (c.withFree freeBytes).node = d.node ∧
        (c.withFree freeBytes).nodeProps = d.nodeProps :=
    ⟨c, (mem_eligible.1 hc).1, rfl, rfl⟩
  have hless : (0 : UInt64) < 1 := by decide
  constructor
  · intro a ha b hb hab hblocks
    by_contra hfree
    let ds := [a.withFree 1, b.withFree 0]
    have hon : Candidate.OnNodesOf cs ds := by
      simp [ds, Candidate.OnNodesOf, hknown ha, hknown hb]
    refine h ds hon ds (viable_pair ?_ ?_ hab hfree) ?_
    · exact mem_eligible.2 ⟨by simp [ds], (mem_eligible.1 ha).2⟩
    · exact mem_eligible.2 ⟨by simp [ds], (mem_eligible.1 hb).2⟩
    · refine select_two_eq_none ?_ ?_ (mem_eligible.1 ha).2 ?_
      · exact List.forall_mem_singleton.2 hless
      · exact List.forall_mem_singleton.2 hab
      · exact List.forall_mem_singleton.2 hblocks
  · intro a ha b hb c hc hab hbc hac hclash hclash'
    by_contra hfree
    let ds := [b.withFree 1, a.withFree 0, c.withFree 0]
    have hon : Candidate.OnNodesOf cs ds := by
      simp [ds, Candidate.OnNodesOf, hknown ha, hknown hb, hknown hc]
    refine h ds hon [a.withFree 0, c.withFree 0] (viable_pair ?_ ?_ hac hfree) ?_
    · exact mem_eligible.2 ⟨by simp [ds], (mem_eligible.1 ha).2⟩
    · exact mem_eligible.2 ⟨by simp [ds], (mem_eligible.1 hc).2⟩
    · have hba : compare b.node a.node ≠ .eq := fun he => hab (Std.OrientedCmp.eq_symm he)
      refine select_two_eq_none ?_ ?_ (mem_eligible.1 hb).2 ?_
      · exact List.forall_mem_cons.2 ⟨hless, List.forall_mem_singleton.2 hless⟩
      · exact List.forall_mem_cons.2 ⟨hba, List.forall_mem_singleton.2 hbc⟩
      · exact List.forall_mem_cons.2
          ⟨hclash.symm.blocks, List.forall_mem_singleton.2 hclash'.blocks⟩

/-- The answer "none" means that there is no viable selection, however much space the nodes have
free, just if the constraints are coherent there. -/
theorem select_complete_iff (hu : Candidate.Uniform cs) (k : Constraints) :
    (∀ ds, Candidate.OnNodesOf cs ds → ∀ count,
      select ds count k = none ↔ ¬∃ picked, k.Viable ds count picked) ↔ k.Coherent cs := by
  constructor
  · intro h
    refine coherent_of_complete fun ds hon picked hviable hnone => ?_
    exact (h ds hon 2).1 hnone ⟨picked, hviable⟩
  · intro hcoherent ds hon count
    constructor
    · rintro hnone ⟨picked, hviable⟩
      exact select_ne_none (hon.uniform hu) (hon.coherent hcoherent) hviable hnone
    · intro hviable
      refine Option.eq_none_iff_forall_ne_some.2 fun picked hpicked => hviable ?_
      exact ⟨picked, viable_of_select hpicked⟩

namespace Sample

/-- A pool on a node at some site and in some rack. -/
def located (node : NodeName) (freeBytes : UInt64) (site rack : String) : Candidate :=
  ⟨.new default pool1 node .lvm freeBytes, .ofList [("Site", site), ("Rack", rack)]⟩

/-- The node with the most free space is alone at its site. -/
def sites : List Candidate :=
  [located alpha 500 "a" "1", located bravo 400 "b" "1", located charlie 300 "b" "2"]

/-- Replicas at the same site. -/
def together : Constraints := { sameProps := ["Site"] }

/-- Replicas at one given site in different racks. -/
def atSite : Constraints :=
  { sameProps := ["Site"], differentProps := ["Rack"], same := .ofList [("Site", "b")] }

end Sample

open Sample in
theorem Sample.sites_uniform : Candidate.Uniform sites := by
  intro a ha b hb
  simp only [sites, List.mem_cons, List.not_mem_nil, or_false] at ha hb
  rcases ha with rfl | rfl | rfl <;> rcases hb with rfl | rfl | rfl <;> decide +kernel

open Sample in
theorem select_complete_at_site :
    Candidate.Uniform sites ∧ atSite.Coherent sites ∧
      (select sites 2 atSite = none ↔ ¬∃ picked, atSite.Viable sites 2 picked) := by
  have hcoherent : atSite.Coherent sites :=
    .of_single sites "Rack" (by decide +kernel) (by decide +kernel)
  have hon : Candidate.OnNodesOf sites sites := fun d hd => ⟨d, hd, rfl, rfl⟩
  have hcomplete := (select_complete_iff sites_uniform atSite).2 hcoherent sites hon 2
  exact ⟨sites_uniform, hcoherent, hcomplete⟩

open Sample in
/-- `bravo` and `charlie` are at the same site, but `alpha` is picked first and keeps both away. -/
theorem select_misses_pair :
    Candidate.Uniform sites ∧ select sites 2 together = none ∧
      together.Viable sites 2 [located bravo 400 "b" "1", located charlie 300 "b" "2"] := by
  have hsite {c : Candidate} (hc : c ∈ sites.tail) :
      c.nodeProps.get? "Site" none = some "b" := by
    simp only [sites, List.tail_cons, List.mem_cons, List.not_mem_nil, or_false] at hc
    rcases hc with rfl | rfl <;> decide +kernel
  have hknown {c : Candidate} (hc : c ∈ sites.tail) : c ∈ together.eligible sites :=
    mem_eligible.2 ⟨List.mem_of_mem_tail hc, rfl⟩
  refine ⟨sites_uniform, select_two_eq_none ?_ ?_ rfl fun c hc => ?_, viable_pair ?_ ?_ ?_ ?_⟩
  · decide +kernel
  · decide +kernel
  · refine .inl ⟨"Site", List.mem_singleton_self _, "a", by decide +kernel, ?_⟩
    rw [hsite hc]
    decide
  · exact hknown (by simp [sites])
  · exact hknown (by simp [sites])
  · decide +kernel
  · rintro (⟨key, hk, v, w, hv, hw, hne⟩ | ⟨key, hk, -⟩)
    · cases List.mem_singleton.1 hk
      rw [hsite (by simp [sites])] at hv hw
      exact hne (Option.some.inj (hv.symm.trans hw))
    · cases hk

end StorageCluster
