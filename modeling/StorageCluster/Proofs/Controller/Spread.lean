import StorageCluster.Proofs.Controller.Policy

/-!
# Replicas together and apart

The constraints of a search record the properties of all replicas so far: of those that stay, and of
those that were picked before. So the nodes that are found agree among themselves and with the old
ones in what has to be the same, and differ from each other and from the old ones in what has to be
different. With what makes a single pool eligible, this is all that a filter asks for.
-/
namespace StorageCluster

namespace Constraints

variable {k : Constraints} {before rest : List Props} {node : Props}
  {sameProps differentProps : List String}

/-! ## What is recorded of a node -/

theorem find?_fixSame (node : Props) (same : SortedMap String String) (key other : String) :
    (fixSame node same other).find? key =
      if key = other then (same.find? key).or (node.get? key none) else same.find? key := by
  unfold fixSame
  split
  next value hv =>
    cases hc : same.find? other with
    | some old =>
      rw [if_pos (SortedMap.contains_of_find? hc)]
      split
      next he => rw [he, hc, Option.some_or]
      next => rfl
    | none =>
      rw [SortedMap.contains, hc, Option.isSome_none, if_neg Bool.false_ne_true,
        SortedMap.find?_insert_eq_ite]
      split
      next he => rw [he, hc, hv, Option.none_or]
      next => rfl
  next hv =>
    split
    next he => rw [he, hv, Option.or_none]
    next => rfl

theorem find?_foldl_fixSame (node : Props) (keys : List String) (same : SortedMap String String)
    (key : String) : (keys.foldl (fixSame node) same).find? key =
      if key ∈ keys then (same.find? key).or (node.get? key none) else same.find? key := by
  induction keys generalizing same with
  | nil => rfl
  | cons other rest ih =>
    rw [List.foldl_cons, ih, find?_fixSame]
    by_cases he : key = other
    · simp [he, Option.or_assoc]
    · simp [he]

theorem mem_takeDifferent (node : Props) (taken : SortedMap String (List String))
    (key other value : String) :
    value ∈ ((takeDifferent node taken other).find? key).getD [] ↔
      value ∈ (taken.find? key).getD [] ∨ (key = other ∧ node.get? key none = some value) := by
  unfold takeDifferent
  split
  next own hv =>
    rw [SortedMap.upsert, SortedMap.find?_insert_eq_ite]
    split
    next he =>
      subst he
      simp [hv, eq_comm]
    next he => simp [he]
  next hv =>
    refine (or_iff_left ?_).symm
    rintro ⟨rfl, hvalue⟩
    rw [hv] at hvalue
    cases hvalue

theorem mem_foldl_takeDifferent (node : Props) (keys : List String)
    (taken : SortedMap String (List String)) (key value : String) :
    value ∈ ((keys.foldl (takeDifferent node) taken).find? key).getD [] ↔
      value ∈ (taken.find? key).getD [] ∨ (key ∈ keys ∧ node.get? key none = some value) := by
  induction keys generalizing taken with
  | nil => simp
  | cons other rest ih =>
    rw [List.foldl_cons, ih, mem_takeDifferent, List.mem_cons]
    grind

/-! ## What is recorded of all nodes -/

/-- The constraints say what the replicas on some nodes leave to others. -/
structure Records (k : Constraints) (nodes : List Props) : Prop where
  same : ∀ key ∈ k.sameProps, k.same.find? key = Props.firstOf nodes key none
  taken : ∀ key ∈ k.differentProps, ∀ value, value ∈ (k.taken.find? key).getD [] ↔
    ∃ node ∈ nodes, node.get? key none = some value

theorem firstOf_append_singleton (nodes : List Props) (node : Props) (key : String) :
    Props.firstOf (nodes ++ [node]) key none =
      (Props.firstOf nodes key none).or (node.get? key none) := by
  simp [Props.firstOf, List.findSome?_append]

theorem Records.start (sameProps differentProps : List String) :
    Records { sameProps, differentProps } [] :=
  ⟨fun _ _ => rfl, fun _ _ value => by simp⟩

theorem Records.occupy (h : k.Records before) (node : Props) :
    (k.occupy node).Records (before ++ [node]) := by
  constructor
  · intro key hk
    have hk : key ∈ k.sameProps := hk
    rw [firstOf_append_singleton, ← h.same key hk]
    exact (find?_foldl_fixSame node k.sameProps k.same key).trans (if_pos hk)
  · intro key hk value
    have hk : key ∈ k.differentProps := hk
    refine (mem_foldl_takeDifferent node k.differentProps k.taken key value).trans ?_
    rw [h.taken key hk]
    simp [hk, or_and_right, exists_or]

/-- A node has the values that are fixed and none of those that are taken. -/
structure Fits (sameProps differentProps : List String) (before : List Props) (node : Props) :
    Prop where
  same : ∀ key ∈ sameProps, ∀ value, Props.firstOf before key none = some value →
    node.get? key none = some value
  different : ∀ key ∈ differentProps, ∀ old ∈ before, ∀ value,
    old.get? key none = some value → node.get? key none ≠ some value

/-- Constraints allow what fits the nodes that they record. -/
theorem Records.fits (h : k.Records before) (ha : k.allow node = true) :
    Fits k.sameProps k.differentProps before node := by
  unfold allow at ha
  rw [Bool.and_eq_true, List.all_eq_true, List.all_eq_true] at ha
  constructor
  · intro key hk value hv
    have hsame := ha.1 key hk
    rw [h.same key hk, hv] at hsame
    simpa using hsame
  · intro key hk old ho value hold hnode
    have hdifferent := ha.2 key hk
    rw [hnode] at hdifferent
    have htaken := (h.taken key hk value).2 ⟨old, ho, hold⟩
    simp [htaken] at hdifferent

/-! ## What is picked -/

/-- New nodes go together with the old ones and with each other. -/
structure Spread (sameProps differentProps : List String) (before nodes : List Props) : Prop where
  /-- Nodes with a property that has to be the same all have its first value. -/
  same : ∀ key ∈ sameProps, ∀ node ∈ nodes, ∀ value, node.get? key none = some value →
    Props.firstOf (before ++ nodes) key none = some value
  /-- If an old node has such a property, so have all new ones. -/
  fixed : ∀ key ∈ sameProps, ∀ value, Props.firstOf before key none = some value →
    ∀ node ∈ nodes, node.get? key none = some value
  apart : ∀ key ∈ differentProps, (nodes.filterMap fun node => node.get? key none).Nodup
  fresh : ∀ key ∈ differentProps, ∀ old ∈ before, ∀ node ∈ nodes, ∀ value,
    old.get? key none = some value → node.get? key none ≠ some value

theorem Spread.nil (sameProps differentProps : List String) (before : List Props) :
    Spread sameProps differentProps before [] :=
  ⟨fun _ _ _ h => absurd h List.not_mem_nil, fun _ _ _ _ _ h => absurd h List.not_mem_nil,
    fun _ _ => List.nodup_nil, fun _ _ _ _ _ h => absurd h List.not_mem_nil⟩

theorem Spread.cons (hnode : Fits sameProps differentProps before node)
    (h : Spread sameProps differentProps (before ++ [node]) rest) :
    Spread sameProps differentProps before (node :: rest) := by
  constructor
  case same =>
    intro key hk other ho value hv
    rcases List.mem_cons.1 ho with rfl | ho
    · have hfirst : Props.firstOf (before ++ [other]) key none = some value := by
        rw [firstOf_append_singleton]
        cases hb : Props.firstOf before key none with
        | none => rw [hv, Option.none_or]
        | some old => rw [← hnode.same key hk old hb, hv, Option.some_or]
      rw [← List.singleton_append, ← List.append_assoc, Props.firstOf, List.findSome?_append,
        ← Props.firstOf, hfirst, Option.some_or]
    · have hfirst := h.same key hk other ho value hv
      rwa [List.append_assoc, List.singleton_append] at hfirst
  case fixed =>
    intro key hk value hv other ho
    rcases List.mem_cons.1 ho with rfl | ho
    · exact hnode.same key hk value hv
    · exact h.fixed key hk value (by rw [firstOf_append_singleton, hv, Option.some_or]) other ho
  case apart =>
    intro key hk
    cases hv : node.get? key none with
    | none =>
      rw [List.filterMap_cons, hv]
      exact h.apart key hk
    | some value =>
      rw [List.filterMap_cons, hv, List.nodup_cons]
      refine ⟨fun hm => ?_, h.apart key hk⟩
      obtain ⟨other, ho, hother⟩ := List.mem_filterMap.1 hm
      have hnode : node ∈ before ++ [node] := List.mem_append_right _ List.mem_cons_self
      exact h.fresh key hk node hnode other ho value hv hother
  case fresh =>
    intro key hk old hold other ho
    rcases List.mem_cons.1 ho with rfl | ho
    · exact hnode.different key hk old hold
    · exact h.fresh key hk old (List.mem_append_left _ hold) other ho

/-- What is picked goes together with what the constraints record, and with itself. -/
theorem Records.pick (h : k.Records before) (count : Nat) (cs : List Candidate) :
    Spread k.sameProps k.differentProps before
      ((StorageCluster.pick count k cs).map (·.nodeProps)) := by
  induction cs generalizing count k before with
  | nil => cases count <;> exact .nil ..
  | cons c rest ih =>
    cases count with
    | zero => exact .nil ..
    | succ n =>
      unfold StorageCluster.pick
      split
      -- the rest is picked against constraints that record this node too
      next ha => exact .cons (h.fits ha) (ih (h.occupy c.nodeProps) n)
      next => exact ih h (n + 1)

end Constraints

theorem eq_pick_of_select {cs picked : List Candidate} {count : Nat} {k : Constraints}
    (h : select cs count k = some picked) :
    picked = pick count k ((bestPerNode cs).mergeSort Candidate.precedes) := by
  unfold select at h
  dsimp only at h
  split at h
  · cases h
  · exact (Option.some.inj h).symm

namespace Graph

open Constraints (Records Spread)

variable {engine : PatternEngine} {g : Graph} {f : Filter} {d : Definition} {size : UInt64}
  {pattern : Option Pattern}

/-- The properties of a node, none if it is not known. -/
def propsOf (g : Graph) (name : NodeName) : Props :=
  ((g.nodes.find? name).map (·.props)).getD .empty

/-- The replicas that stay are live and diskful and lie on nodes that are not evicted. -/
theorem mem_stayingNodes {n : Node} : n ∈ g.stayingNodes d ↔ ∃ r ∈ d.resources.values,
    r.isDeleted = false ∧ r.isDiskless = false ∧ g.nodes.find? r.node = some n ∧
      n.isEvicted = false := by
  simp [stayingNodes, Option.filter_eq_some_iff, and_assoc]

theorem standing_records (g : Graph) (f : Filter) (d : Definition) :
    (g.standing f d).Records ((g.stayingNodes d).map (·.props)) := by
  have hall (nodes : List Node) {k : Constraints} {before : List Props} (h : k.Records before) :
      (nodes.foldl (fun k n => k.occupy n.props) k).Records (before ++ nodes.map (·.props)) := by
    induction nodes generalizing k before with
    | nil => simpa using h
    | cons n rest ih => simpa using ih (h.occupy n.props)
  exact hall (g.stayingNodes d) (.start f.sameProps f.differentProps)

theorem standing_props (g : Graph) (f : Filter) (d : Definition) :
    (g.standing f d).sameProps = f.sameProps ∧
      (g.standing f d).differentProps = f.differentProps := by
  refine List.foldlRecOn (g.stayingNodes d) _ (motive := fun k : Constraints =>
    k.sameProps = f.sameProps ∧ k.differentProps = f.differentProps) ⟨rfl, rfl⟩ ?_
  intro k hk n _
  exact hk

/-- All that is asked of a pool for a new replica, and of its node. -/
structure Obeys (engine : PatternEngine) (g : Graph) (f : Filter) (d : Definition) (size : UInt64)
    (p : Pool) : Prop where
  known : p ∈ g.pools.values
  diskful : p.isDiskless = false
  room : size ≤ p.freeBytes
  pool : f.pools = [] ∨ f.pools.contains p.name = true
  provider : f.providers = [] ∨ p.provider ∈ f.providers
  node : ∃ n, g.nodes.find? p.node = some n ∧ n.isConnected = true ∧
    n.flags.contains NodeFlags.evicted = false ∧ n.flags.contains NodeFlags.delete = false ∧
    n.flags.contains NodeFlags.evacuate = false ∧
    (f.nodes = [] ∨ f.nodes.contains n.name = true)
  unused : d.resources.contains p.node = false
  apart : ∀ other ∈ g.definitions.values, (f.avoidResources.contains other.name = true ∨
    ∃ text pattern, f.avoidPattern = some text ∧ engine.compile text = some pattern ∧
      pattern.isMatch other.name.display = true) →
    ∀ r ∈ other.resources.values, r.isDeleted = false → compare p.node r.node ≠ .eq

theorem obeys_of_candidate {c : Candidate} (hpattern : f.pattern engine = .ok pattern)
    (h : c ∈ g.candidates f (excludedNodes f pattern d g.definitions) size) :
    g.Obeys engine f d size c.pool := by
  obtain ⟨hknown, hunused, hpool, n, hn, hnode⟩ := suits_of_candidate h
  have hexcluded := not_excluded_of_candidate h
  simp only [Filter.allowsPool, Bool.and_eq_true, Bool.or_eq_true, Bool.not_eq_true',
    List.isEmpty_iff, decide_eq_true_eq, List.contains_iff_mem] at hpool
  obtain ⟨⟨⟨hdiskful, hroom⟩, hpools⟩, hproviders⟩ := hpool
  refine ⟨hknown, hdiskful, hroom, hpools, hproviders, ⟨n, hn, (f.allowsNode_iff n).1 hnode⟩,
    hunused, fun other ho havoid r hr hlive => apart_of_not_excluded hexcluded ho ?_ hr hlive⟩
  rw [Filter.avoids, Bool.or_eq_true, Option.any_eq_true]
  refine havoid.imp_right fun ⟨text, re, htext, hcompiled, hmatch⟩ => ⟨re, ?_, hmatch⟩
  obtain ⟨_, hsame, rfl⟩ := Filter.pattern_of_some htext hpattern
  exact hsame.symm.trans hcompiled

theorem nodeProps_of_candidate {c : Candidate} {excluded : List NodeName}
    (h : c ∈ g.candidates f excluded size) : c.nodeProps = g.propsOf c.node := by
  obtain ⟨pool, _, hc⟩ := List.mem_filterMap.1 h
  split at hc
  next => cases hc
  next =>
    split at hc
    next n hn =>
      split at hc
      next =>
        cases hc
        rw [propsOf, Candidate.node, hn]
        rfl
      next => cases hc
    next => cases hc

/-- A search finds what its filter asks for, whatever engine reads the pattern of the filter: as
many pools as wanted, each on a node of its own, all eligible, and on nodes that go together with
each other and with those of the replicas that stay. -/
theorem place_obeys {pools : List Pool} (h : g.place engine f d size = .ok (some pools)) :
    pools.length = (f.placeCount.getD 2).toNat ∧
      (pools.Pairwise fun a b => compare a.node b.node ≠ .eq) ∧
      (∀ text, f.avoidPattern = some text → ∃ pattern, engine.compile text = some pattern) ∧
      (∀ p ∈ pools, g.Obeys engine f d size p) ∧
      (∀ n, n ∈ g.stayingNodes d ↔ ∃ r ∈ d.resources.values, r.isDeleted = false ∧
        r.isDiskless = false ∧ g.nodes.find? r.node = some n ∧ n.isEvicted = false) ∧
      Spread f.sameProps f.differentProps ((g.stayingNodes d).map (·.props))
        (pools.map fun p => g.propsOf p.node) := by
  obtain ⟨pattern, picked, hpattern, hselect, rfl⟩ := place_selected h
  obtain ⟨hlength, hmem, hnodes⟩ := select_some hselect
  refine ⟨by rw [List.length_map, hlength]; rfl, List.pairwise_map.2 hnodes,
    fun text htext => ?_, fun p hp => ?_, fun _ => mem_stayingNodes, ?_⟩
  · obtain ⟨re, hcompiled, _⟩ := Filter.pattern_of_some htext hpattern
    exact ⟨re, hcompiled⟩
  · obtain ⟨c, hc, rfl⟩ := List.mem_map.1 hp
    exact obeys_of_candidate hpattern (hmem c hc)
  · have hprops : (picked.map (·.pool)).map (fun p => g.propsOf p.node) =
        picked.map (·.nodeProps) := by
      rw [List.map_map]
      exact List.map_congr_left fun c hc => (nodeProps_of_candidate (hmem c hc)).symm
    have hspread := (standing_records g f d).pick f.count
      ((bestPerNode (g.candidates f (excludedNodes f pattern d g.definitions) size)).mergeSort
        Candidate.precedes)
    rw [← eq_pick_of_select hselect, (standing_props g f d).1, (standing_props g f d).2] at hspread
    rw [hprops]
    exact hspread

end Graph

namespace Sample

def foxtrot : NodeName := ⟨"foxtrot", by decide⟩
def golf : NodeName := ⟨"golf", by decide⟩
def hotel : NodeName := ⟨"hotel", by decide⟩
def eagle : NodeName := ⟨"eagle", by decide⟩

def twin : ResourceName := ⟨"twin", by decide⟩

def racked (name : NodeName) (zone rack : String) : Node :=
  { node name with props := .ofList [("zone", zone), ("rack", rack)] }

def roomy (name : NodeName) : Pool := .new default pool1 name .lvm 16

/-- Seven nodes in two zones and six racks, one of them with `backup` and one with `twin`. -/
def racks : Graph :=
  let nodes := [racked alpha "east" "1", racked bravo "east" "2", racked charlie "west" "3",
    racked eagle "east" "6", racked foxtrot "east" "1", racked golf "east" "4",
    racked hotel "east" "5"]
  let g : Graph := nodes.foldl (fun g n => (g.setNode n).setPool (roomy n.name)) {}
  (g.setDefinition (replicated backup [.storage] 4 [bravo])).setDefinition
    (replicated twin [.storage] 4 [eagle])

/-- In one zone, in different racks, not beside `twin` and not beside what begins with `back`. -/
def acrossRacks : Filter where
  avoidResources := [twin]
  avoidPattern := some "^back"
  sameProps := ["zone"]
  differentProps := ["rack"]

end Sample

open Sample in
/-- Besides the replica on `alpha` there is room for two on `golf` and `hotel`. -/
theorem Graph.place_obeys_racks :
    let d := replicated r0 [.drbd, .storage] 4 [alpha]
    let pools := [roomy golf, roomy hotel]
    racks.place initials acrossRacks d 4 = .ok (some pools) ∧
      (∀ p ∈ pools, racks.Obeys initials acrossRacks d 4 p) ∧
      Constraints.Spread ["zone"] ["rack"] ((racks.stayingNodes d).map (·.props))
        (pools.map fun p => racks.propsOf p.node) := by
  intro d pools
  let back : Pattern := ⟨fun name => ['b', 'a', 'c', 'k'].isPrefixOf name.toList⟩
  let candidates := racks.candidates acrossRacks
    (excludedNodes acrossRacks (some back) d racks.definitions) 4
  have hsorted : (bestPerNode candidates).Pairwise fun a b => a.precedes b = true := by
    decide +kernel
  have hselect : (select candidates 2 (racks.standing acrossRacks d)).map
      (fun picked => picked.map (·.pool)) = some pools := by
    unfold select
    rw [List.mergeSort_of_pairwise hsorted]
    decide +kernel
  have h : racks.place initials acrossRacks d 4 = .ok (some pools) := congrArg Except.ok hselect
  obtain ⟨_, _, _, hobeys, _, hspread⟩ := Graph.place_obeys h
  exact ⟨h, hobeys, hspread⟩

end StorageCluster
