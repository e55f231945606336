import StorageCluster.Scenario.Expression.CharSet

/-!
# Characters as bytes

A set of characters as the sequences of byte ranges that its encodings in UTF-8 run through, in
rising order. A range is split until all its characters have codes of one length whose bytes vary
independently of each other.
-/
namespace StorageCluster.CharSet

/-- How many bytes encode a character. -/
def byteCount (code : Nat) : Nat :=
  if code ≤ 0x7F then 1 else if code ≤ 0x7FF then 2 else if code ≤ 0xFFFF then 3 else 4

/-- The encoding of a character. -/
def bytes (code : Nat) : List Nat :=
  let tail (n : Nat) : Nat := 0x80 + code / Nat.pow 64 n % 64
  match byteCount code with
  | 1 => [code]
  | 2 => [0xC0 + code / 64, tail 0]
  | 3 => [0xE0 + code / Nat.pow 64 2, tail 1, tail 0]
  | _ => [0xF0 + code / Nat.pow 64 3, tail 2, tail 1, tail 0]

/-- Where the codes of `n` last bytes keep a range together: the end of its first part, if it has
to be split there. -/
def splitAt? (low high n : Nat) : Option Nat :=
  let unit := Nat.pow 64 n
  if low / unit = high / unit then none
  else if low % unit ≠ 0 then some (low / unit * unit + unit - 1)
  else if high % unit ≠ unit - 1 then some (high / unit * unit - 1)
  else none

/-- The end of the first part of a range that has to be split. -/
def split? (low high : Nat) : Option Nat :=
  ([0xD7FF, 0x7F, 0x7FF, 0xFFFF].find? fun n => low ≤ n && n < high) <|>
    if high ≤ 0x7F then none
    else splitAt? low high 1 <|> splitAt? low high 2 <|> splitAt? low high 3

/-- The byte ranges of the characters from `low` to `high`. -/
def sequences : Nat → Nat → Nat → List (List (Nat × Nat))
  | 0, _, _ => []
  | fuel + 1, low, high =>
    if high < low then []
    else match split? low high with
    | some n => sequences fuel low n ++ sequences fuel (after n) high
    | none => [(bytes low).zip (bytes high)]

/-- A split falls on one of few borders, so a range is split less than thirty-two times. -/
def byteSequences (s : CharSet) : List (List (Nat × Nat)) :=
  s.ranges.flatMap fun r => sequences 32 r.1 r.2

end StorageCluster.CharSet
