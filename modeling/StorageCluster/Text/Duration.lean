/-!
# Durations

A length of time in nanoseconds, written in the largest unit in which it is at least one, with as
many decimals as it needs.
-/
namespace StorageCluster

structure Duration where
  nanos : Nat
  deriving DecidableEq, Inhabited

namespace Duration

def ofMillis (n : Nat) : Duration := ⟨n * Nat.pow 10 6⟩

/-- The decimals of `rest / 10 ^ places`, without zeros at the end. -/
def decimals (places rest : Nat) : String :=
  let digits := Nat.toDigits 10 rest
  let padded := List.replicate (places - digits.length) '0' ++ digits
  String.ofList ((padded.reverse.dropWhile (· == '0')).reverse)

def inUnit (nanos places : Nat) (symbol : String) : String :=
  let rest := nanos % Nat.pow 10 places
  let whole := toString (nanos / Nat.pow 10 places)
  if rest = 0 then whole ++ symbol else whole ++ "." ++ decimals places rest ++ symbol

def toText (d : Duration) : String :=
  if d.nanos ≥ Nat.pow 10 9 then inUnit d.nanos 9 "s"
  else if d.nanos ≥ Nat.pow 10 6 then inUnit d.nanos 6 "ms"
  else if d.nanos ≥ Nat.pow 10 3 then inUnit d.nanos 3 "µs"
  else inUnit d.nanos 0 "ns"

end Duration

end StorageCluster
