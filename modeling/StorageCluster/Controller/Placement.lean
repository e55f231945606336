import StorageCluster.Fault
import StorageCluster.Graph

/-!
# Placement

Replicas are placed on the nodes with the most free space, one on each node, in the best pool of the
node. Some properties have to be the same on all nodes that hold a replica, others different on
each. `select` makes the choice among candidates; `Graph.place` finds the candidates for a resource
definition and the constraints that its present replicas impose. Patterns of names to stay away from
are left to an engine that reads them.
-/
namespace StorageCluster

/-- A pool with the properties of its node. -/
structure Candidate where
  pool : Pool
  nodeProps : Props
  deriving DecidableEq

def Candidate.node (c : Candidate) : NodeName := c.pool.node

/-- Properties that bind replicas together or keep them apart, and their values so far. -/
structure Constraints where
  sameProps : List String := []
  differentProps : List String := []
  same : SortedMap String String := .empty
  taken : SortedMap String (List String) := .empty

namespace Constraints

/-- A node without a property is fine unless the property is already fixed to be the same. -/
def allow (k : Constraints) (node : Props) : Bool :=
  (k.sameProps.all fun key => (k.same.find? key).all fun value => node.get? key none == some value)
    && k.differentProps.all fun key =>
      (node.get? key none).all fun value => !((k.taken.find? key).getD []).contains value

def fixSame (node : Props) (same : SortedMap String String) (key : String) :
    SortedMap String String :=
  match node.get? key none with
  | some value => if same.contains key then same else same.insert key value
  | none => same

def takeDifferent (node : Props) (taken : SortedMap String (List String)) (key : String) :
    SortedMap String (List String) :=
  match node.get? key none with
  | some value => taken.upsert key fun values => values.getD [] ++ [value]
  | none => taken

/-- What holds for further replicas once there is one on a node with these properties. -/
def occupy (k : Constraints) (node : Props) : Constraints :=
  { k with
    same := k.sameProps.foldl (fixSame node) k.same
    taken := k.differentProps.foldl (takeDifferent node) k.taken }

end Constraints

/-- The pool with strictly more free space replaces the one found before it. -/
def keepBest (best : SortedMap NodeName Candidate) (c : Candidate) :
    SortedMap NodeName Candidate :=
  match best.find? c.node with
  | some other => if c.pool.freeBytes > other.pool.freeBytes then best.insert c.node c else best
  | none => best.insert c.node c

def bestPerNode (candidates : List Candidate) : List Candidate :=
  (candidates.foldl keepBest .empty).values

/-- Most free space first, the name of the node breaks ties. -/
def Candidate.precedes (a b : Candidate) : Bool :=
  a.pool.freeBytes > b.pool.freeBytes ||
    (a.pool.freeBytes == b.pool.freeBytes && compare a.node b.node != .gt)

def pick : Nat → Constraints → List Candidate → List Candidate
  | 0, _, _ => []
  | _, _, [] => []
  | n + 1, k, c :: rest =>
    if k.allow c.nodeProps then c :: pick n (k.occupy c.nodeProps) rest
    else pick (n + 1) k rest

/-- `count` candidates on different nodes that obey the constraints, or none at all. -/
def select (candidates : List Candidate) (count : Nat) (k : Constraints) :
    Option (List Candidate) :=
  let picked := pick count k ((bestPerNode candidates).mergeSort Candidate.precedes)
  if picked.length < count then none else some picked

/-- What is left of a pattern once it is compiled: whether it matches somewhere in a text. -/
structure Pattern where
  isMatch : String → Bool

/-- Whoever reads patterns. A text that is no pattern is not compiled. -/
structure PatternEngine where
  compile : String → Option Pattern

namespace Filter

def allowsNode (f : Filter) (n : Node) : Bool :=
  n.isConnected &&
    !n.flags.intersects ((NodeFlags.evicted.union NodeFlags.delete).union NodeFlags.evacuate) &&
    (f.nodes.isEmpty || f.nodes.contains n.name)

def allowsPool (f : Filter) (p : Pool) (size : UInt64) : Bool :=
  !p.isDiskless && p.freeBytes ≥ size && (f.pools.isEmpty || f.pools.contains p.name) &&
    (f.providers.isEmpty || f.providers.contains p.provider)

/-- The pattern for resources to stay away from. -/
def pattern (engine : PatternEngine) (f : Filter) : Except Fault (Option Pattern) :=
  match f.avoidPattern with
  | none => .ok none
  | some text =>
    match engine.compile text with
    | some p => .ok (some p)
    | none => .error .malformedPattern

def avoids (f : Filter) (pattern : Option Pattern) (d : Definition) : Bool :=
  f.avoidResources.contains d.name || pattern.any fun p => p.isMatch d.name.display

end Filter

/-- Nodes that hold a resource of the definition, or a live one of a resource to stay away from. -/
def excludedNodes (f : Filter) (pattern : Option Pattern) (d : Definition)
    (others : DefinitionMap) : List NodeName :=
  d.resources.keys ++ (others.values.filter (f.avoids pattern)).flatMap fun other =>
    (other.resources.values.filter fun r => !r.isDeleted).map (·.node)

namespace Graph

def candidates (g : Graph) (f : Filter) (excluded : List NodeName) (size : UInt64) :
    List Candidate :=
  g.pools.values.filterMap fun pool =>
    if excluded.contains pool.node || !f.allowsPool pool size then none
    else match g.nodes.find? pool.node with
      | some n => if f.allowsNode n then some ⟨pool, n.props⟩ else none
      | none => none

/-- The nodes of the replicas that stay. -/
def stayingNodes (g : Graph) (d : Definition) : List Node :=
  (d.resources.values.filter fun r => !r.isDeleted && !r.isDiskless).filterMap fun r =>
    (g.nodes.find? r.node).filter fun n => !n.isEvicted

/-- Pools for as many new replicas of `d` as the filter asks for. -/
def place (engine : PatternEngine) (g : Graph) (f : Filter) (d : Definition) (size : UInt64) :
    Except Fault (Option (List Pool)) := do
  let pattern ← f.pattern engine
  let candidates := g.candidates f (excludedNodes f pattern d g.definitions) size
  let start : Constraints := { sameProps := f.sameProps, differentProps := f.differentProps }
  let k := (g.stayingNodes d).foldl (fun k n => k.occupy n.props) start
  return (select candidates f.count k).map fun picked => picked.map (·.pool)

end Graph

end StorageCluster
