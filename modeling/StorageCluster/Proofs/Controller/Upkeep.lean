import StorageCluster.Controller.Loop
import StorageCluster.Controller.Primary
import StorageCluster.Proofs.Controller.Deficit
import StorageCluster.Proofs.Controller.Operations

/-!
# What a controller does to its core

A reconciliation that schedules replacements reworks one definition, and a primary request that is
granted afresh sets its properties; whatever else a controller does leaves its core alone. All of
this are steps of the core.
-/
namespace StorageCluster

namespace Definition

variable {g : Graph} {d e : Definition} {t : Transaction}

theorem Rework.tombstone (h : Rework g d t e) (node : NodeName) :
    Rework g d (Definition.tombstone (e, t) node).2 (Definition.tombstone (e, t) node).1 := by
  unfold Definition.tombstone
  dsimp only
  split
  next => exact h
  next r hr =>
    split
    · exact h
    · exact h.mark hr

theorem rework_tombstoned (g : Graph) (d : Definition) (nodes : NodeMap) :
    Rework g d (d.tombstoned nodes).2 (d.tombstoned nodes).1 := by
  have hfold (names : List NodeName) (state : Definition × Transaction)
      (h : Rework g d state.2 state.1) :
      Rework g d (names.foldl Definition.tombstone state).2
        (names.foldl Definition.tombstone state).1 := by
    induction names generalizing state with
    | nil => exact h
    | cons name rest ih => exact ih _ (h.tombstone name)
  exact hfold _ (d, []) .start

/-- Resources that fit join a reworked definition one by one. -/
theorem Rework.grow {grown : Definition} {news : List Resource} (h : Rework g d t e)
    (hg : e.Grows news grown) (hnews : ∀ r ∈ news, r.Fits d.name g) :
    Rework g d (t ++ news.flatMap Resource.changes) grown := by
  induction hg generalizing t with
  | done => simpa using h
  | @join e grown r news free _ ih =>
    have hr : r.Fits d.name g := hnews r List.mem_cons_self
    have hjoined := ih (h.join free hr) fun s hs => hnews s (List.mem_cons_of_mem r hs)
    rwa [List.append_assoc, ← List.flatMap_cons] at hjoined

end Definition

namespace Resource.Fits

variable {g : Graph} {d : Definition} {stack : List LayerKind} {r : Resource}

theorem of_diskfulIn {pool : Pool} (hg : g.Storable) (hd : d.volumes.Spelled (·.number))
    (hpool : pool ∈ g.pools.values) (h : d.DiskfulIn stack g.nodes pool r) : r.Fits d.name g := by
  obtain ⟨n, hn, _, hnode⟩ := h.host
  have hcompare : compare n.name pool.node = .eq :=
    Std.OrientedCmp.eq_symm (hg.nodes.filed pool.node n hn)
  -- each volume stands where the volume definition of its number does
  have hfilled (e : UInt32 × Volume) (he : e ∈ r.volumes.entries) :
      e.1 = e.2.number ∧ e.2.pool = pool.name := by
    have hv := h.volumes hd.filed e.1
    rw [SortedMap.find?_of_mem he, Option.map_some] at hv
    obtain ⟨v, hfind, hsame⟩ := Option.map_eq_some_iff.1 hv.symm
    simp only [Prod.mk.injEq] at hsame
    have hnumber : e.1 = v.number := hd _ (SortedMap.find?_eq_some_iff.1 hfind)
    exact ⟨hnumber.trans hsame.1, hsame.2.1.symm⟩
  constructor
  case storable =>
    refine ⟨?_, ?_, fun e he => (hfilled e he).1⟩
    · rw [h.name]
      exact Std.ReflCmp.compare_self
    · rw [h.flags]
      exact Flags.isKnown_none
  case node =>
    rw [hnode, SortedMap.contains_congr hcompare]
    exact SortedMap.contains_of_find? hn
  case pools =>
    intro v hv
    obtain ⟨e, he, rfl⟩ := List.mem_map.1 hv
    have hkey : compare (r.node, e.2.pool) (pool.node, pool.name) = .eq := by
      rw [hnode, (hfilled e he).2, pair_compare_eq_iff]
      exact ⟨hcompare, Std.ReflCmp.compare_self⟩
    rw [SortedMap.contains_congr hkey]
    exact SortedMap.contains_of_find? (hg.pools.find? hpool)

theorem of_disklessOn {n : Node} (hg : g.Storable) (hn : n ∈ g.nodes.values)
    (h : d.DisklessOn stack n r) : r.Fits d.name g := by
  constructor
  case storable =>
    refine ⟨?_, ?_, ?_⟩
    · rw [h.name]
      exact Std.ReflCmp.compare_self
    · rw [h.flags]
      decide
    · rw [h.volumes]
      exact .empty _
  case node =>
    rw [h.host.2.2]
    exact SortedMap.contains_of_find? (hg.nodes.find? hn)
  case pools =>
    intro v hv
    rw [h.volumes] at hv
    cases hv

end Resource.Fits

namespace Controller

variable {σ : Type} {team : Collaborators σ} {engine : PatternEngine}
  {accept : Definition → Graph → Prop} {c : Controller σ} {context : ManageContext}

/-- What the creator of the core makes of a search is a rework of the definition. -/
theorem Search.rework {name : ResourceName} (hteam : team.BuiltIn engine)
    (hg : c.core.graph.Storable)
    (s : Search team c name) {responses : Report} {tasks : List Task} {created : List NodeName}
    {diskful diskless : List Resource}
    (h : c.core.Created s.request (s.draft responses) tasks created diskful diskless) :
    Definition.Rework c.core.graph s.definition
      (c.core.createResources s.request (s.draft responses)).draft.transaction
      (c.core.createResources s.request (s.draft responses)).draft.definition := by
  have hmarked := s.definition.rework_tombstoned c.core.graph c.core.graph.nodes
  have hstorable : s.definition.Storable :=
    (hg.definition _ (SortedMap.mem_values.2 ⟨name, s.found⟩)).1
  have hname : (s.draft responses).definition.name = s.definition.name := by
    rw [draft, hmarked.frame]
  have hvolumes : (s.draft responses).definition.volumes.Spelled (·.number) := by
    rw [draft, hmarked.frame]
    exact hstorable.volumes
  rw [h.stores]
  refine hmarked.grow h.grows fun r hr => ?_
  rw [← hname]
  rcases List.mem_append.1 hr with hr | hr
  · obtain ⟨pool, hp, hin⟩ := exists_of_forall₂ h.inPools hr
    exact .of_diskfulIn hg hvolumes ((s.pools_suit hteam).2 pool hp).known hin
  · obtain ⟨_, n, hn, hon⟩ := h.onNodes r hr
    exact .of_disklessOn hg hn hon

theorem manage_step (hteam : team.BuiltIn engine) (hb : c.core.Backed) :
    Core.Step accept c.core (manage team c context).controller.core := by
  by_cases h : (manage team c context).outcome = .ok .scheduled
  · obtain ⟨s, store, tasks, created, hr, hc, hcore, _⟩ := manage_scheduled h
    have hcreation : s.creation context.responses =
        c.core.createResources s.request (s.draft context.responses) := by
      rw [Search.creation, hteam.create]
      rfl
    rw [hcreation] at hr hc hcore
    obtain ⟨diskful, diskless, hd⟩ := Core.createResources_ok hr
    have hg : (c.diskfulAgain context.name).core.graph.Storable := hb.storable
    rw [hcore]
    exact .moved (.rework s.found (s.rework hteam hg hd)) hc
  · exact .untouched ((manage_exit team c context).untouched h)

/-- A claim is stored as properties of the definition. -/
theorem grantPrimary_step {name : ResourceName} {d : Definition}
    (hd : c.core.graph.definitions.find? name = some d) (node : NodeName) :
    Core.Step accept c.core (c.grantPrimary team name (d.setPrimary node)).1.core := by
  have hstep : Core.Step accept c.core
      (c.core.persist [Change.ofColumn d Column.props (d.setPrimary node).props.toColumn] fun g =>
        { g with definitions := g.definitions.insert name (d.setPrimary node) }).1 :=
    Core.persist_step fun _ _ => .props hd
  unfold grantPrimary
  dsimp only
  split
  · exact hstep
  · exact hstep

theorem handlePrimary_step (team : Collaborators σ) (c : Controller σ) (who : AccessContext)
    (node : NodeName) (request : PrimaryRequest) :
    Core.Step accept c.core (c.handlePrimary team who node request).1.core := by
  unfold handlePrimary
  dsimp only
  split
  · exact .untouched (.refl _)
  · split
    · exact .untouched (.refl _)
    next d hd =>
      split
      · exact .untouched (.refl _)
      · exact .untouched (.refl _)
      · exact grantPrimary_step hd node

end Controller

end StorageCluster
