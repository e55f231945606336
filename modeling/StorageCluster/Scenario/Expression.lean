import StorageCluster.Scenario.Expression.CharSet
import StorageCluster.Scenario.Expression.Reach

/-!
# Regular expressions

The patterns that scenarios use: expressions over single characters, with counted repetition and
assertions on the place between two characters. `matches?` asks whether some part of a text matches;
which of several ways it matches in does not show, so a lazy repetition is the same as a greedy one.
Expressions are built in a simple form: by `append`, `ofAlternatives` and `copies`.

Placement takes whatever engine it is given and knows none of this.
-/
namespace StorageCluster

/-- What holds between two characters. -/
inductive Boundary
  | start
  | stop
  | word
  | notWord
  | wordStart
  | wordEnd
  deriving DecidableEq

inductive Expression
  | empty
  | one (set : CharSet)
  | boundary (kind : Boundary)
  | group (body : Expression)
  | sequence (first second : Expression)
  | either (left right : Expression)
  | repeated (least : Nat) (most : Option Nat) (body : Expression)
  deriving Inhabited

/-! ## Matching -/

/-- A place in a text: the characters before and after it. -/
structure Place where
  before : Option Char
  after : Option Char
  deriving DecidableEq

namespace Place

/-- Every place of a text from one on. -/
def all (before : Option Char) : List Char → List Place
  | [] => [⟨before, none⟩]
  | c :: rest => ⟨before, some c⟩ :: all (some c) rest

def wordBefore (p : Place) : Bool := p.before.any CharSet.word.contains

def wordAfter (p : Place) : Bool := p.after.any CharSet.word.contains

end Place

def Boundary.holds (p : Place) : Boundary → Bool
  | .start => p.before.isNone
  | .stop => p.after.isNone
  | .word => p.wordBefore != p.wordAfter
  | .notWord => p.wordBefore == p.wordAfter
  | .wordStart => !p.wordBefore && p.wordAfter
  | .wordEnd => p.wordBefore && !p.wordAfter

namespace Expression

/-- From which place to which an expression matches. -/
def reach (places : List Place) : Expression → Reach
  | .empty => .identity places.length
  | .one set => .steps (places.map fun p => p.after.any set.contains)
  | .boundary kind => .stays (places.map fun p => Boundary.holds p kind)
  | .group body => body.reach places
  | .sequence first second => (first.reach places).compose (second.reach places)
  | .either left right => (left.reach places).union (right.reach places)
  | .repeated least most body =>
    let once := body.reach places
    let more := most.elim places.length fun most => most - least
    (once.power least).compose (once.orStay.power more)

def matches? (expression : Expression) (text : String) : Bool :=
  !(expression.reach (Place.all none text.toList)).isEmpty

/-! ## Building -/

/-- Whether nothing but the empty text can match. -/
def isVoid : Expression → Bool
  | .empty | .boundary _ => true
  | .one _ => false
  | .group body => body.isVoid
  | .sequence first second => first.isVoid && second.isVoid
  | .either left right => left.isVoid && right.isVoid
  | .repeated _ most body => most.isSome && body.isVoid

/-- Whether the empty text can match. -/
def isNullable : Expression → Bool
  | .empty | .boundary _ => true
  | .one set => set.isEmpty
  | .group body => body.isNullable
  | .sequence first second => first.isNullable && second.isNullable
  | .either left right => left.isNullable || right.isNullable
  | .repeated least _ body => least == 0 || body.isNullable

def append (first second : Expression) : Expression :=
  match first, second with
  | .empty, p | p, .empty => p
  | _, _ => .sequence first second

/-- What matches only the empty text is not repeated more than once. -/
def copies (least : Nat) (most : Option Nat) (body : Expression) : Expression :=
  let least := if body.isVoid then min least 1 else least
  let most := if body.isVoid then some (min (most.getD 1) 1) else most
  if most = some 0 then .empty
  else if least = 1 ∧ most = some 1 then body
  else .repeated least most body

/-- The alternatives of an expression, in order. -/
def branches : Expression → List Expression
  | .either left right => branches left ++ branches right
  | p => [p]

def set? : Expression → Option CharSet
  | .one set => some set
  | _ => none

def anyOf : List Expression → Expression
  | [] => .one .empty
  | [p] => p
  | p :: rest => .either p (anyOf rest)

/-- Alternatives that are all single characters or all sets of several are one set. -/
def ofAlternatives (alternatives : List Expression) : Expression :=
  let all := alternatives.flatMap branches
  match all.mapM set? with
  | some (set :: sets) =>
    let singles := (set :: sets).countP fun s => s.only?.isSome
    if singles = 0 ∨ singles = sets.length + 1 then .one (sets.foldl CharSet.union set)
    else anyOf all
  | _ => anyOf all

end Expression

end StorageCluster
