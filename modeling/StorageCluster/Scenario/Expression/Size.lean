import StorageCluster.Scenario.Expression.CharSet.Bytes
import StorageCluster.Scenario.Expression

/-!
# Sizes of expressions

How much room an expression takes as a machine that reads bytes, forward to find the end of a match
and backward to find its start. Every state takes `stateSize`, an edge of a state that branches on
the byte `edgeSize` and one of a state that branches without reading `forkSize`; groups are marked
only forward, and a counted repetition holds as many copies of its body as it counts.
-/
namespace StorageCluster.Expression

inductive Direction
  | forward
  | backward
  deriving DecidableEq

def stateSize : Nat := 32

def edgeSize : Nat := 8

def forkSize : Nat := 4

/-! ## Sets of characters -/

/-- A sequence of byte ranges, each with its first and last byte. -/
abbrev ByteRanges := List (Nat × Nat)

/-- What follows a beginning in the sequences that have it. -/
def continuations (sequences : List ByteRanges) (beginning : ByteRanges) : List ByteRanges :=
  (sequences.filter beginning.isPrefixOf).map (·.drop beginning.length)

/-- Forward, beginnings with the same continuations share a state. -/
def forwardStates (sequences : List ByteRanges) : List (List ByteRanges) :=
  let beginnings := sequences.flatMap fun s => (List.range s.length).map s.take
  (beginnings.eraseDups.map (continuations sequences)).eraseDups

def forwardSetSize (sequences : List ByteRanges) : Nat :=
  (forwardStates sequences).foldl (fun n state =>
    n + stateSize + edgeSize * (state.map List.head?).eraseDups.length) stateSize

/-- Backward, only equal beginnings do. -/
def backwardSetSize (sequences : List ByteRanges) : Nat :=
  let beginnings := sequences.flatMap fun s => (List.range s.length).map fun n => s.take (n + 1)
  2 * stateSize + forkSize * sequences.length + stateSize * beginnings.eraseDups.length

/-- A single character is a chain of its bytes, a set within ASCII one state and its exit. -/
def setSize (d : Direction) (set : CharSet) : Nat :=
  match set.only? with
  | some code => stateSize * CharSet.byteCount code
  | none =>
    if set.ranges.all fun r => r.2 ≤ 0x7F then 2 * stateSize + edgeSize * set.ranges.length
    else match d with
      | .forward => forwardSetSize set.byteSequences
      | .backward => backwardSetSize set.byteSequences

/-! ## Words -/

/-- The parts of a list of words between those that end here. -/
def parts (words : List (List Nat)) : List (List (List Nat)) :=
  words.foldr (fun w found =>
    match w, found with
    | [], _ => [] :: found
    | _, [] => [[w]]
    | _, part :: more => (w :: part) :: more) [[]]

/-- The size of the state where some words branch, with all below it; a word that ends before
another one keeps its place among them. -/
def branchSize : Nat → List (List Nat) → Nat
  | 0, _ => 0
  | depth + 1, words =>
    if words.all List.isEmpty then 0
    else
      let parts := parts words
      let sizes := (parts.filter fun p => !p.isEmpty).map fun part =>
        let heads := (part.map List.head?).eraseDups
        let below := heads.map fun head =>
          branchSize depth ((part.filter fun w => w.head? == head).map (·.drop 1))
        let edges := if heads.length = 1 then 0 else edgeSize * heads.length
        stateSize + edges + below.foldl (· + ·) 0
      stateSize + forkSize * (sizes.length + (parts.length - 1)) + sizes.foldl (· + ·) 0

/-- Alternative words share their beginnings, in reading order. -/
def wordsSize (d : Direction) (words : List (List Nat)) : Nat :=
  let words := if d = .forward then words else words.map List.reverse
  stateSize + branchSize ((words.map List.length).foldl max 0 + 1) words

/-! ## Expressions -/

/-- Copies of a body of some size, followed by more of them. -/
def repeatedSize (nullable : Bool) (size least : Nat) : Option Nat → Nat
  | none =>
    if least = 0 then
      if nullable then size + 3 * stateSize + 4 * forkSize else size + stateSize + 2 * forkSize
    else least * size + stateSize + 2 * forkSize
  | some most =>
    if least = 0 ∧ most = 1 then size + 2 * stateSize + 2 * forkSize
    else if least = most then least * size
    else
      (if least = 0 then stateSize else least * size) + stateSize +
        (most - least) * (size + stateSize + 2 * forkSize)

/-- Alternatives with the total size of their bodies. -/
def forkedSize (count total : Nat) : Nat := 2 * stateSize + forkSize * count + total

/-- The alternatives of an expression: how many there are, their total size, and their bytes if all
are chains of single characters. -/
structure Outline where
  count : Nat := 1
  total : Nat
  words : Option (List (List Nat)) := none

namespace Outline

def join (a b : Outline) : Outline where
  count := a.count + b.count
  total := a.total + b.total
  words := do return (← a.words) ++ (← b.words)

def size (d : Direction) (o : Outline) : Nat :=
  if o.count = 1 then o.total
  else match o.words with
  | some words => wordsSize d words
  | none => forkedSize o.count o.total

/-- The bytes of an expression without alternatives. -/
def word? (o : Outline) : Option (List Nat) :=
  match o.words with
  | some [w] => some w
  | _ => none

end Outline

def outline (d : Direction) : Expression → Outline
  | .empty | .boundary _ => { total := stateSize }
  | .one set =>
    { total := setSize d set, words := set.only?.map fun code => [CharSet.bytes code] }
  | .group body =>
    { total := (if d = .forward then 2 * stateSize else 0) + (outline d body).size d }
  | .sequence first second =>
    let a := outline d first
    let b := outline d second
    { total := a.size d + b.size d, words := do return [(← a.word?) ++ (← b.word?)] }
  | .either left right => (outline d left).join (outline d right)
  | .repeated least most body =>
    { total := repeatedSize body.isNullable ((outline d body).size d) least most }

/-- Whether every match stands at one end of the text. -/
def isAnchored (d : Direction) : Expression → Bool
  | .boundary kind => kind == (if d = .forward then .start else .stop)
  | .group body => body.isAnchored d
  | .sequence first second =>
    if d = .forward then first.isAnchored d || (first.isVoid && second.isAnchored d)
    else second.isAnchored d || (second.isVoid && first.isAnchored d)
  | .either left right => left.isAnchored d && right.isAnchored d
  | .repeated least _ body => least > 0 && body.isAnchored d
  | _ => false

/-- The size of the whole machine: it skips bytes before a match unless it is anchored, marks the
match as a group, and ends in a state of its own. -/
def size (d : Direction) (p : Expression) : Nat :=
  let skipping := if p.isAnchored d then stateSize else 3 * stateSize + edgeSize + 2 * forkSize
  skipping + (outline d (.group p)).size d + stateSize

def sizeLimit : Nat := 10 * 1024 * 1024

def fits (p : Expression) : Bool := p.size .forward ≤ sizeLimit && p.size .backward ≤ sizeLimit

end StorageCluster.Expression
