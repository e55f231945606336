import StorageCluster.Text.Numeral

/-!
# Internet addresses

Version 4 addresses are four decimal numbers without leading zeros. Version 6 addresses are eight
groups of up to four hexadecimal digits, of which one run may be left out as `::` and the last two
may be written as a version 4 address. `toText` writes the short form: lower case, the first
longest run of two or more zero groups left out, and a version 4 tail only after `::ffff:`.
-/
namespace StorageCluster

inductive Address
  | v4 (octets : List UInt8)
  | v6 (groups : List UInt16)
  deriving DecidableEq, Inhabited

namespace Address

/-- Digits at the front: their value, how many there are, and the rest. -/
def leadingNumber (base acc count : Nat) : List Char → Nat × Nat × List Char
  | c :: rest =>
    match Numeral.digit? base c with
    | some d => leadingNumber base (acc * base + d) (count + 1) rest
    | none => (acc, count, c :: rest)
  | [] => (acc, count, [])

def octet? (cs : List Char) : Option (UInt8 × List Char) :=
  let (n, count, rest) := leadingNumber 10 0 0 cs
  if count = 0 ∨ count > 3 ∨ n > 255 ∨ (count > 1 ∧ cs.head? = some '0') then none
  else some (UInt8.ofNat n, rest)

def group? (cs : List Char) : Option (UInt16 × List Char) :=
  let (n, count, rest) := leadingNumber 16 0 0 cs
  if count = 0 ∨ count > 4 then none else some (UInt16.ofNat n, rest)

/-- A separator stands before every part but the first. -/
def afterSeparator (sep : Char) (index : Nat) (cs : List Char) : Option (List Char) :=
  if index = 0 then some cs
  else match cs with
    | c :: rest => if c = sep then some rest else none
    | [] => none

def octets? : Nat → Nat → List Char → Option (List UInt8 × List Char)
  | 0, _, cs => some ([], cs)
  | n + 1, index, cs => do
    let cs ← afterSeparator '.' index cs
    let (octet, cs) ← octet? cs
    let (octets, cs) ← octets? n (index + 1) cs
    return (octet :: octets, cs)

def pairUp : List UInt8 → List UInt16
  | a :: b :: rest => (a.toUInt16 <<< 8 ||| b.toUInt16) :: pairUp rest
  | _ => []

/-- Up to `room` groups, whether they end in a version 4 address, and the rest. -/
def readGroups : Nat → Nat → List Char → List UInt16 × Bool × List Char
  | 0, _, cs => ([], false, cs)
  | room + 1, index, cs =>
    let tail := if room = 0 then none else
      (afterSeparator ':' index cs).bind (octets? 4 0)
    match tail with
    | some (octets, rest) => (pairUp octets, true, rest)
    | none =>
      match (afterSeparator ':' index cs).bind group? with
      | some (g, rest) =>
        let (groups, mixed, rest) := readGroups room (index + 1) rest
        (g :: groups, mixed, rest)
      | none => ([], false, cs)

def v6? (cs : List Char) : Option (List UInt16 × List Char) :=
  let (head, mixed, rest) := readGroups 8 0 cs
  if head.length = 8 then some (head, rest)
  else if mixed then none
  else match rest with
    | ':' :: ':' :: rest =>
      let (tail, _, rest) := readGroups (7 - head.length) 0 rest
      some (head ++ List.replicate (8 - head.length - tail.length) 0 ++ tail, rest)
    | _ => none

def ofText? (text : String) : Option Address :=
  match octets? 4 0 text.toList with
  | some (octets, []) => some (.v4 octets)
  | some _ => none
  | none =>
    match v6? text.toList with
    | some (groups, []) => some (.v6 groups)
    | _ => none

def dotted (octets : List UInt8) : String :=
  ".".intercalate (octets.map fun o => toString o.toNat)

def hexGroups (groups : List UInt16) : String :=
  ":".intercalate (groups.map fun g => Numeral.writeHex 1 g.toNat)

/-- Start and length of the first longest run of zero groups. -/
def longestZeros : Nat → List UInt16 → Nat × Nat
  | _, [] => (0, 0)
  | index, g :: rest =>
    let run := ((g :: rest).takeWhile (· == 0)).length
    let later := longestZeros (index + 1) rest
    if run ≥ later.2 then (index, run) else later

def splitOctets (g : UInt16) : List UInt8 := [(g >>> 8).toUInt8, g.toUInt8]

def toText : Address → String
  | .v4 octets => dotted octets
  | .v6 groups =>
    if groups.take 6 = [0, 0, 0, 0, 0, 0xFFFF] then
      "::ffff:" ++ dotted ((groups.drop 6).flatMap splitOctets)
    else
      let (start, run) := longestZeros 0 groups
      if run > 1 then
        hexGroups (groups.take start) ++ "::" ++ hexGroups (groups.drop (start + run))
      else hexGroups groups

end Address

end StorageCluster
