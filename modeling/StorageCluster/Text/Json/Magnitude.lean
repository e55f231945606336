import StorageCluster.Text.Numeral

/-!
# Magnitudes of numbers

Whether a number literal is within the range of doubles, as a reader finds out that keeps the
leading digits in 64 bits and the rest as a power of ten: both factors are rounded to doubles and
then multiplied.
-/
namespace StorageCluster.Json

/-- The number `significand * 10 ^ power`. -/
structure Magnitude where
  significand : Nat
  power : Int
  deriving DecidableEq

namespace Magnitude

/-- Digits before the point: from the first one that has no room on, each counts as a power. -/
def whole (significand : Nat) : List Nat → Magnitude
  | [] => ⟨significand, 0⟩
  | d :: rest =>
    if significand * 10 + d < UInt64.size then whole (significand * 10 + d) rest
    else ⟨significand, rest.length + 1⟩

/-- Digits after the point: from the first one that has no room on, they are dropped. -/
def addFraction (m : Magnitude) : List Nat → Magnitude
  | [] => m
  | d :: rest =>
    if m.significand * 10 + d < UInt64.size then
      addFraction ⟨m.significand * 10 + d, m.power - 1⟩ rest
    else m

def digits (cs : List Char) : List Nat := cs.filterMap (Numeral.digit? 10)

def ofLiteral (literal : String) : Magnitude :=
  let cs := literal.toList
  let isMark := fun c => c == 'e' || c == 'E'
  let mantissa := cs.takeWhile fun c => !isMark c
  let exponent := (cs.dropWhile fun c => !isMark c).drop 1
  let m := (whole 0 (digits (mantissa.takeWhile (· != '.')))).addFraction
    (digits (mantissa.dropWhile (· != '.')))
  let size : Nat := (digits exponent).foldl (fun n d => n * 10 + d) 0
  { m with power := if exponent.head? = some '-' then m.power - size else m.power + size }

/-- The double nearest to a natural number; a tie goes to the even one. -/
def nearestDouble (n : Nat) : Nat :=
  let unit := Nat.pow 2 (n.log2 - 52)
  let below := n / unit
  let twice := 2 * (n % unit)
  if twice > unit ∨ twice = unit ∧ below % 2 = 1 then (below + 1) * unit else below * unit

/-- Half a step above the greatest double, where rounding gives infinity. -/
def doubleLimit : Nat := Nat.pow 2 1024 - Nat.pow 2 970

def isFinite (m : Magnitude) : Bool :=
  if m.significand = 0 ∨ m.power < 0 then true
  else if m.power > 308 then false
  else nearestDouble m.significand * nearestDouble (Nat.pow 10 m.power.toNat) < doubleLimit

end Magnitude

end StorageCluster.Json
