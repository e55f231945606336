/-!
# Sets of characters

A set of characters as ranges of codes, rising and apart: neither do two ranges overlap nor do they
touch. Surrogates are no characters, so the codes before and after them are neighbours.
-/
namespace StorageCluster

structure CharSet where
  ranges : List (Nat × Nat)
  deriving DecidableEq, Inhabited

namespace CharSet

def lastCode : Nat := 0x10FFFF

def after (code : Nat) : Nat := if code = 0xD7FF then 0xE000 else code + 1

def before (code : Nat) : Nat := if code = 0xE000 then 0xD7FF else code - 1

/-- Join ranges that overlap or touch; their starts rise. -/
def join : List (Nat × Nat) → List (Nat × Nat)
  | [] => []
  | r :: rest =>
    match join rest with
    | [] => [r]
    | next :: more =>
      if next.1 ≤ after r.2 then (r.1, max r.2 next.2) :: more else r :: next :: more

def ofRanges (ranges : List (Nat × Nat)) : CharSet :=
  ⟨join (ranges.mergeSort fun a b => a.1 ≤ b.1)⟩

def empty : CharSet := ⟨[]⟩

def range (low high : Nat) : CharSet := ⟨[(low, high)]⟩

def single (c : Char) : CharSet := range c.toNat c.toNat

def ofString (text : String) : CharSet := ofRanges (text.toList.map fun c => (c.toNat, c.toNat))

def isEmpty (s : CharSet) : Bool := s.ranges.isEmpty

def containsCode (s : CharSet) (code : Nat) : Bool :=
  s.ranges.any fun r => r.1 ≤ code && code ≤ r.2

def contains (s : CharSet) (c : Char) : Bool := s.containsCode c.toNat

/-- The only character of a set. -/
def only? (s : CharSet) : Option Nat :=
  match s.ranges with
  | [(low, high)] => if low = high then some low else none
  | _ => none

def union (a b : CharSet) : CharSet := ofRanges (a.ranges ++ b.ranges)

/-- What the ranges leave out from a code on. -/
def gaps (start : Nat) : List (Nat × Nat) → List (Nat × Nat)
  | [] => if start ≤ lastCode then [(start, lastCode)] else []
  | (low, high) :: rest =>
    if start < low then (start, before low) :: gaps (after high) rest else gaps (after high) rest

def complement (s : CharSet) : CharSet := ⟨gaps 0 s.ranges⟩

def inter (a b : CharSet) : CharSet := (a.complement.union b.complement).complement

def diff (a b : CharSet) : CharSet := a.inter b.complement

def symmetricDifference (a b : CharSet) : CharSet := (a.diff b).union (b.diff a)

/-! ## Classes -/

def upper : CharSet := range 0x41 0x5A

def lower : CharSet := range 0x61 0x7A

def letters : CharSet := upper.union lower

def asciiDigits : CharSet := range 0x30 0x39

def alphanumeric : CharSet := letters.union asciiDigits

/-- The characters of words in ASCII; names have no others. -/
def word : CharSet := alphanumeric.union (single '_')

/-- The blank characters of all scripts. -/
def blank : CharSet :=
  ⟨[(9, 13), (0x20, 0x20), (0x85, 0x85), (0xA0, 0xA0), (0x1680, 0x1680), (0x2000, 0x200A),
    (0x2028, 0x2029), (0x202F, 0x202F), (0x205F, 0x205F), (0x3000, 0x3000)]⟩

/-- The letters of ASCII that differ in case only, with two others that fold into them. -/
def caseClass (n : Nat) : List Nat :=
  let extra := if n = 10 then [0x212A] else if n = 18 then [0x17F] else []
  [0x41 + n, 0x61 + n] ++ extra

/-- With the other cases of the letters of ASCII. -/
def foldCase (s : CharSet) : CharSet :=
  let classes := (List.range 26).map caseClass
  let met := classes.filter fun cs => cs.any s.containsCode
  s.union (ofRanges (met.flatten.map fun n => (n, n)))

end CharSet

end StorageCluster
