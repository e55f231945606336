import Mathlib.Data.Nat.Bitwise
import StorageCluster.Flags

/-!
# Sets of flags

Flags intersect a union when they intersect one of its parts, and they intersect a single flag when
they contain it.
-/
namespace StorageCluster

namespace Flags

variable {kind : FlagKind}

theorem intersects_union (a b c : Flags kind) :
    a.intersects (b.union c) = (a.intersects b || a.intersects c) := by
  have hor : a.bits &&& (b.bits ||| c.bits) = a.bits &&& b.bits ||| a.bits &&& c.bits := by
    refine UInt64.toNat_inj.1 ?_
    simp only [UInt64.toNat_and, UInt64.toNat_or, Nat.and_or_distrib_left]
  rw [Bool.eq_iff_iff, Bool.or_eq_true]
  simp only [intersects, union, hor, bne_iff_ne, ne_eq, UInt64.or_eq_zero_iff]
  exact Decidable.not_and_iff_or_not

theorem intersects_eq_contains {b : Flags kind} {i : Nat} (hb : b.bits.toNat = 2 ^ i)
    (a : Flags kind) : a.intersects b = a.contains b := by
  have hand : (a.bits &&& b.bits).toNat = (a.bits.toNat.testBit i).toNat * 2 ^ i := by
    rw [UInt64.toNat_and, hb, Nat.and_two_pow]
  have hpos : 2 ^ i ≠ 0 := (Nat.two_pow_pos i).ne'
  unfold intersects contains
  rw [Bool.eq_iff_iff, bne_iff_ne, beq_iff_eq, ne_eq, ← UInt64.toNat_inj, ← UInt64.toNat_inj, hand,
    hb]
  cases a.bits.toNat.testBit i
  · simpa using hpos.symm
  · simp

end Flags

end StorageCluster
