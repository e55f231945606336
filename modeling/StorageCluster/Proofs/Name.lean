import StorageCluster.Name
import StorageCluster.Proofs.SortedMap

/-!
# Sameness of names

Names are the same for `==` when they are the same in the order that maps use, and pairs of them
when both their parts are.
-/
namespace StorageCluster

theorem Name.beq_self {kind : NameKind} (a : Name kind) : (a == a) = true :=
  (beq_iff a a).2 rfl

theorem Name.beq_comm {kind : NameKind} (a b : Name kind) : (a == b) = (b == a) := by
  rw [Bool.eq_iff_iff, beq_iff, beq_iff]
  exact eq_comm

theorem Name.beq_iff_compare {kind : NameKind} (a b : Name kind) :
    (a == b) = true ↔ compare a b = .eq := by
  rw [beq_iff, compare_eq_iff]

theorem Name.beq_eq_false_iff {kind : NameKind} (a b : Name kind) :
    (a == b) = false ↔ compare a b ≠ .eq := by
  rw [← Bool.not_eq_true, beq_iff_compare]

/-- A map compares the name that is looked up with the key that is there, in this order. -/
theorem Name.compare_ne_of_beq {kind : NameKind} {a b : Name kind} (h : (a == b) = false) :
    compare b a ≠ .eq := by
  rwa [beq_comm, beq_eq_false_iff] at h

/-- Pairs are the same when both their parts are. -/
theorem pair_compare_eq_iff {α β : Type} [Ord α] [Ord β] (a b : α × β) :
    compare a b = .eq ↔ compare a.1 b.1 = .eq ∧ compare a.2 b.2 = .eq :=
  Ordering.then_eq_eq

end StorageCluster
