/-!
# Reach

Which places of a text can be reached from which: for each place a row of bits, one for each place
that is reached. Relations are composed row by row, and powers are taken by squaring, so the work
does not grow with the number of ways from one place to another.
-/
namespace StorageCluster

structure Reach where
  rows : List Nat
  deriving DecidableEq

namespace Reach

def bit (place : Nat) : Nat := 1 <<< place

/-- Each place is reached from itself. -/
def identity (places : Nat) : Reach := ⟨(List.range places).map bit⟩

/-- From each place that is marked, only itself is reached. -/
def stays (marks : List Bool) : Reach :=
  ⟨marks.zipIdx.map fun (mark, place) => if mark then bit place else 0⟩

/-- From each place that is marked, only the next one is reached. -/
def steps (marks : List Bool) : Reach :=
  ⟨marks.zipIdx.map fun (mark, place) => if mark then bit (place + 1) else 0⟩

def isEmpty (r : Reach) : Bool := r.rows.all (· == 0)

def union (r s : Reach) : Reach := ⟨r.rows.zipWith (· ||| ·) s.rows⟩

/-- What is reached from the places of a row. -/
def image (r : Reach) (row : Nat) : Nat :=
  r.rows.zipIdx.foldl
    (fun found (next, place) => if row.testBit place then found ||| next else found) 0

/-- First along `r`, then along `s`. -/
def compose (r s : Reach) : Reach := ⟨r.rows.map s.image⟩

def orStay (r : Reach) : Reach := r.union (identity r.rows.length)

/-- Along `r` a number of times. -/
def power (r : Reach) (count : Nat) : Reach :=
  if count = 0 then identity r.rows.length
  else
    let half := power (r.compose r) (count / 2)
    if count % 2 = 1 then r.compose half else half
termination_by count

end Reach

end StorageCluster
