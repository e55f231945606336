import StorageCluster.Proofs.Controller.Planning
import StorageCluster.Proofs.Controller.Pushes

/-!
# The discipline of the queue

Definitions enter the queue through events only, and leave it in cycles only: when they are gone,
when they need nothing, or when a replacement was committed and its whole pipeline came through.
Those without connected diskful replica stay in the queue, and the counter of them moves only when
another one is noted.
-/
namespace StorageCluster

namespace Tracking

variable {t : Tracking} {name : ResourceName}

theorem foldl_release (names : List ResourceName) (t : Tracking) (name : ResourceName) :
    (names.foldl release t).isTracked name = true ↔
      t.isTracked name = true ∧ ∀ other ∈ names, compare name other ≠ .eq := by
  induction names generalizing t with
  | nil => simp
  | cons other rest ih =>
    rw [List.foldl_cons, ih, isTracked_release, List.forall_mem_cons, Bool.and_eq_true, bne_iff_ne,
      and_comm (a := compare name other ≠ .eq), and_assoc]

theorem Nested.release (h : t.Nested) (name : ResourceName) : (t.release name).Nested := by
  intro other hother
  have hlacks : (compare other name != .eq && t.lacksDiskful other) = true :=
    (SortedMap.contains_erase t.needsDiskful name other).symm.trans hother
  rw [Bool.and_eq_true] at hlacks
  rw [isTracked_release, h other hlacks.2, Bool.and_true]
  exact hlacks.1

theorem Nested.foldl_release (h : t.Nested) (names : List ResourceName) :
    (names.foldl Tracking.release t).Nested :=
  List.foldlRecOn names _ (motive := Nested) h fun _ ht name _ => ht.release name

/-- Definitions that were not noted to have no diskful replica are none of the noted ones. -/
theorem foldl_release_needsDiskful {names : List ResourceName}
    (h : ∀ name ∈ names, t.lacksDiskful name = false) :
    (names.foldl release t).needsDiskful = t.needsDiskful := by
  refine List.foldlRecOn names _
    (motive := fun after => needsDiskful after = t.needsDiskful) rfl fun after ha name hname => ?_
  have hnot : after.needsDiskful.contains name = false := by
    rw [ha]
    exact h name hname
  exact (SortedMap.erase_eq_self hnot).trans ha

end Tracking

theorem Convoy.mem_ofPipelines {pipelines : List Pipeline} {j : Job} :
    j ∈ (ofPipelines pipelines).waiting ↔ ∃ p, pipelines[j.place]? = some p ∧
      j = { place := j.place, tasks := p.tasks, eviction := p.eviction } := by
  simp only [ofPipelines, List.mem_map, Prod.exists, List.mk_mem_zipIdx_iff_getElem?]
  constructor
  · rintro ⟨p, place, hp, rfl⟩
    exact ⟨p, hp, rfl⟩
  · rintro ⟨p, hp, hj⟩
    exact ⟨p, j.place, hp, hj.symm⟩

theorem Convoy.places_ofPipelines (pipelines : List Pipeline) :
    ((ofPipelines pipelines).waiting.map (·.place)).Nodup := by
  have hplaces : (ofPipelines pipelines).waiting.map (·.place) =
      List.range' 0 pipelines.length := by
    rw [ofPipelines, List.map_map, ← List.zipIdx_map_snd]
    rfl
  rw [hplaces]
  exact List.nodup_range'

namespace Controller

variable {σ : Type} {team : Collaborators σ} {c : Controller σ} {name : ResourceName}
  {place : Nat} {p : Pipeline}

/-- The turns that are taken in a cycle. -/
def cycleTurns (team : Collaborators σ) (c : Controller σ) : List (Controller σ × Job) :=
  let (c, plan) := planCycle [manage team] c
  turnLog team (CyclePlan.convoy plan).turns c (CyclePlan.convoy plan)

/-- The turns of one pipeline, by its place in the plan. -/
def turnsAt (team : Collaborators σ) (c : Controller σ) (place : Nat) :
    List (Controller σ × Job) :=
  (cycleTurns team c).filter fun t => t.2.place == place

/-- The pushes that are made in a cycle. -/
def cyclePushes (team : Collaborators σ) (c : Controller σ) : List Sent :=
  (cycleTurns team c).filterMap (sent? team)

/-- The controller and the convoy when all pipelines of a cycle have run. -/
def drained (team : Collaborators σ) (c : Controller σ) : Controller σ × Convoy :=
  let (c, plan) := planCycle [manage team] c
  runConvoy team (CyclePlan.convoy plan).turns c (CyclePlan.convoy plan)

/-- A replacement was committed, which made the definition `d`. Afterwards all that its tasks
activate was pushed and then `d` as it is stored, and none of these pushes failed. -/
structure Completes (team : Collaborators σ) (c : Controller σ) (log : List Sent)
    (name : ResourceName) (place : Nat) (p : Pipeline) (d : Definition) : Prop where
  plan : (planCycle [manage team] c).2.pipelines[place]? = some (name, p)
  replaces : ∃ before after, c.core.graph.definitions.keys = before ++ name :: after ∧
    Replaces team (planned team c before).1 name p d
  stored : (planCycle [manage team] c).1.core.graph.definitions.find? name = some d
  pushed : (sentAt log place).map Sent.definition = p.tasks.filterMap Task.pushed? ++ [d]
  fine : p.fails (sentAt log place) = false

theorem cycle_drains (team : Collaborators σ) (c : Controller σ) :
    Drains team (planCycle [manage team] c).1
      (CyclePlan.convoy (planCycle [manage team] c).2) (cycleTurns team c)
      (drained team c).1 (drained team c).2 :=
  runConvoy_drains (Nat.le_refl _)

theorem plan_apart (c : Controller σ) :
    c.core.graph.definitions.keys.Pairwise fun a b => compare a b ≠ .eq :=
  c.core.graph.definitions.keys_pairwise

/-- The jobs of a cycle are the pipelines of its plan, by their places. -/
theorem mem_convoy {plan : CyclePlan} {j : Job} :
    j ∈ (CyclePlan.convoy plan).waiting ↔ ∃ name p, plan.pipelines[j.place]? = some (name, p) ∧
      j = { place := j.place, tasks := p.tasks, eviction := p.eviction } := by
  rw [CyclePlan.convoy, Convoy.mem_ofPipelines, exists_comm]
  simp

/-- A planned pipeline takes its course, and ends in failure if one of its pushes does. -/
theorem course_at (hp : (planCycle [manage team] c).2.pipelines[place]? = some (name, p)) :
    ∃ result, (drained team c).2.results.find? place = some result ∧
      Course team { place, tasks := p.tasks, eviction := p.eviction } (turnsAt team c place)
        result ∧ result.isOk = !p.fails (sentAt (cyclePushes team c) place) := by
  let j : Job := { place, tasks := p.tasks, eviction := p.eviction }
  obtain ⟨result, hresult, hcourse⟩ := (cycle_drains team c).course
    (Convoy.places_ofPipelines _) (mem_convoy.2 ⟨name, p, hp, rfl⟩ : j ∈ _)
  refine ⟨result, hresult, hcourse, ?_⟩
  have hstart : j.report.isOk = true := rfl
  rw [hcourse.isOk, hstart, Bool.true_and, Pipeline.fails, cyclePushes, sentAt_filterMap,
    Bool.not_or, List.not_any_eq_all_not, List.not_any_eq_all_not]
  simp only [Bool.not_not]
  rfl

/-- A planned pipeline pushes what its tasks activate, in their order, and then the definition it is
for; it leaves out nothing if nothing fails. -/
theorem pushes_at (hp : (planCycle [manage team] c).2.pipelines[place]? = some (name, p)) :
    ∃ d left, (planCycle [manage team] c).1.core.graph.definitions.find? name = some d ∧
      (sentAt (cyclePushes team c) place).map Sent.definition ++ left =
        p.tasks.filterMap Task.pushed? ++ [d] ∧
      (p.fails (sentAt (cyclePushes team c) place) = false → left = []) := by
  obtain ⟨⟨_, _, d, _, hreplaces, hstored⟩, _⟩ :=
    planned_replaces (plan_apart c) (List.mem_of_getElem? hp)
  obtain ⟨s, _, _, _, _, _, heviction⟩ := hreplaces.committed
  obtain ⟨result, _, hcourse, hok⟩ := course_at hp
  have hcore : ∀ t ∈ turnsAt team c place, t.1.core = (planCycle [manage team] c).1.core :=
    fun t ht => (cycle_drains team c).core_of_mem t (List.mem_filter.1 ht).1
  obtain ⟨left, hleft, hnone⟩ := hcourse.pushes hcore heviction
  have hfound : (planCycle [manage team] c).1.core.graph.definitions.find? name = some d := hstored
  rw [hfound] at hleft
  refine ⟨d, left, hfound, ?_, fun hfine => hnone (by rw [hok, hfine]; rfl)⟩
  rw [cyclePushes, sentAt_filterMap]
  exact hleft

/-- Nobody pushes but the pipelines of the plan. -/
theorem exists_pipeline {s : Sent} (hs : s ∈ cyclePushes team c) :
    ∃ name p, (planCycle [manage team] c).2.pipelines[s.place]? = some (name, p) := by
  obtain ⟨t, ht, hsent⟩ := List.mem_filterMap.1 hs
  have hplace : t.2.place ∈ (CyclePlan.convoy (planCycle [manage team] c).2).waiting.map
      (·.place) := by
    by_contra hnot
    exact ((cycle_drains team c).elsewhere hnot).1 t ht rfl
  obtain ⟨j, hj, hsame⟩ := List.mem_map.1 hplace
  obtain ⟨name, p, hplan, _⟩ := mem_convoy.1 hj
  refine ⟨name, p, ?_⟩
  rw [place_of_sent? hsent, ← hsame]
  exact hplan

/-- A pipeline whose definition leaves the queue while pipelines run has come through. -/
theorem completes_of_released {t : Controller σ × Job} (ht : t ∈ cycleTurns team c)
    (hreleased : released? team t = some name) :
    ∃ place p d, Completes team c (cyclePushes team c) name place p d := by
  obtain ⟨report, evicted, hends, heviction⟩ := released?_eq_some.1 hreleased
  obtain ⟨j, hj, _, hsame, hresult⟩ :=
    (cycle_drains team c).ends (Convoy.places_ofPipelines _) ht hends
  obtain ⟨key, p, hplan, hjob⟩ := mem_convoy.1 hj
  have hnotice : p.eviction = some (name, evicted) := by
    rw [← heviction, ← hsame, hjob]
  obtain ⟨⟨before, after, d, hsplit, hreplaces, hstored⟩, _⟩ :=
    planned_replaces (plan_apart c) (List.mem_of_getElem? hplan)
  have hkey : key = name := by
    obtain ⟨_, _, _, _, _, _, hown⟩ := hreplaces.committed
    exact congrArg Prod.fst (Option.some.inj (hown.symm.trans hnotice))
  subst hkey
  obtain ⟨result, hresult', _, hok⟩ := course_at hplan
  obtain rfl : result = .ok report := Option.some.inj (hresult'.symm.trans hresult)
  have hfine : p.fails (sentAt (cyclePushes team c) j.place) = false := by
    simpa [Except.isOk, Except.toBool] using hok
  obtain ⟨d', left, hfound, hpushed, hnone⟩ := pushes_at hplan
  obtain rfl : d' = d := Option.some.inj (hfound.symm.trans hstored)
  rw [hnone hfine, List.append_nil] at hpushed
  exact ⟨j.place, p, d', hplan, ⟨before, after, hsplit, hreplaces⟩, hfound, hpushed, hfine⟩

/-! ## Cycles -/

/-- What a cycle does to the queue, and what it reports of failures. The satellites change by the
pushes of the log and by nothing else, and each of these is made for a pipeline of the plan: for the
tasks of the pipeline, in their order, and last for the definition as it is stored. -/
structure CycleInOrder (team : Collaborators σ) (c : Controller σ) (log : List Sent) : Prop where
  pushes : Sends team (planCycle [manage team] c).1.core c.satellites log
    (runCycle team [manage team] c).1.satellites
  owned : ∀ s ∈ log, ∃ name p, (planCycle [manage team] c).2.pipelines[s.place]? = some (name, p)
  inTurn : ∀ place name (p : Pipeline),
    (planCycle [manage team] c).2.pipelines[place]? = some (name, p) →
    ∃ d, (planCycle [manage team] c).1.core.graph.definitions.find? name = some d ∧
      (sentAt log place).map Sent.definition <+: p.tasks.filterMap Task.pushed? ++ [d]
  enters : ∀ name, (runCycle team [manage team] c).1.tracking.isTracked name = true →
    c.tracking.isTracked name = true
  leaves : ∀ name, c.tracking.isTracked name = true →
    (runCycle team [manage team] c).1.tracking.isTracked name = false →
      c.core.graph.definitions.find? name = none ∨ c.core.Whole name ∨
        ∃ key place p d, compare name key = .eq ∧ Completes team c log key place p d
  stays : ∀ place name (p : Pipeline),
    (planCycle [manage team] c).2.pipelines[place]? = some (name, p) →
    p.fails (sentAt log place) = true →
      (runCycle team [manage team] c).1.tracking.isTracked name = true
  failures : (runCycle team [manage team] c).2.failures =
    ((planCycle [manage team] c).2.pipelines.zipIdx.filter
      fun e => e.1.2.fails (sentAt log e.2)).length
  counted : (runCycle team [manage team] c).1.metrics.needsDiskful =
    c.metrics.needsDiskful +
      (c.tracking.newlyNoted (runCycle team [manage team] c).1.tracking).length

theorem runCycle_tracking (team : Collaborators σ) (c : Controller σ) :
    (runCycle team [manage team] c).1.tracking =
      ((cycleTurns team c).filterMap (released? team)).foldl Tracking.release
        (planned team c c.core.graph.definitions.keys).1.tracking :=
  (cycle_drains team c).tracking

theorem runCycle_isTracked (team : Collaborators σ) (c : Controller σ) (name : ResourceName) :
    (runCycle team [manage team] c).1.tracking.isTracked name = true ↔
      (planned team c c.core.graph.definitions.keys).1.tracking.isTracked name = true ∧
        ∀ t ∈ cycleTurns team c, ∀ other, released? team t = some other →
          compare name other ≠ .eq := by
  rw [runCycle_tracking, Tracking.foldl_release]
  simp only [List.mem_filterMap, forall_exists_index, and_imp]
  refine and_congr_right fun _ => ⟨fun h t ht other hother => h other t ht hother, ?_⟩
  exact fun h other t ht hother => h t ht other hother

theorem place_unique {other : ResourceName} {place' : Nat} {p' : Pipeline}
    (h : (planCycle [manage team] c).2.pipelines[place]? = some (name, p))
    (h' : (planCycle [manage team] c).2.pipelines[place']? = some (other, p'))
    (hsame : compare name other = .eq) : place = place' := by
  have hapart : (planCycle [manage team] c).2.pipelines.Pairwise
      fun a b => compare a.1 b.1 ≠ .eq := planned_apart (plan_apart c)
  rw [List.pairwise_iff_getElem] at hapart
  obtain ⟨hlt, hget⟩ := List.getElem?_eq_some_iff.1 h
  obtain ⟨hlt', hget'⟩ := List.getElem?_eq_some_iff.1 h'
  rcases Nat.lt_trichotomy place place' with hbefore | heq | hafter
  · have hne := hapart place place' hlt hlt' hbefore
    rw [hget, hget'] at hne
    exact absurd hsame hne
  · exact heq
  · have hne := hapart place' place hlt' hlt hafter
    rw [hget, hget'] at hne
    exact absurd (Std.OrientedCmp.eq_symm hsame) hne

theorem foldl_addResult_failures (results : SortedMap Nat (Except Fault Report))
    (entries : List ((ResourceName × Pipeline) × Nat)) (r : CycleReport) :
    (entries.foldl (addResult results) r).failures =
      r.failures + (entries.filter fun e => (results.find? e.2).any fun x => !x.isOk).length := by
  induction entries generalizing r with
  | nil => rfl
  | cons e rest ih =>
    rw [List.foldl_cons, ih, List.filter_cons]
    unfold addResult
    split
    next hresult => simp [hresult, Except.isOk, Except.toBool]
    next hresult =>
      simp only [hresult, Option.any_some, Except.isOk, Except.toBool, Bool.not_false, if_true,
        List.length_cons]
      omega
    next hresult => simp [hresult]

theorem runCycle_failures (team : Collaborators σ) (c : Controller σ) :
    (runCycle team [manage team] c).2.failures =
      ((planCycle [manage team] c).2.pipelines.zipIdx.filter
        fun e => e.1.2.fails (sentAt (cyclePushes team c) e.2)).length := by
  have hconclude : (runCycle team [manage team] c).2 =
      CyclePlan.conclude (planCycle [manage team] c).2 (drained team c).2 := rfl
  have hnone : (planCycle [manage team] c).2.report.failures = 0 := planned_failures team c _
  rw [hconclude, CyclePlan.conclude, foldl_addResult_failures]
  dsimp only
  rw [hnone, Nat.zero_add]
  refine congrArg List.length (List.filter_congr fun e he => ?_)
  obtain ⟨result, hresult, _, hok⟩ := course_at (List.mk_mem_zipIdx_iff_getElem?.1 he)
  rw [hresult, Option.any_some, hok, Bool.not_not]

theorem runCycle_counted (team : Collaborators σ) (c : Controller σ) :
    (runCycle team [manage team] c).1.metrics.needsDiskful =
      c.metrics.needsDiskful +
        (c.tracking.newlyNoted (runCycle team [manage team] c).1.tracking).length := by
  have hmetrics : (runCycle team [manage team] c).1.metrics.needsDiskful =
      (planned team c c.core.graph.definitions.keys).1.metrics.needsDiskful :=
    have hdrained := (cycle_drains team c).metrics
    (congrArg ReconcileMetrics.needsDiskful hdrained :
      (drained team c).1.metrics.needsDiskful = _)
  have hnoted : (runCycle team [manage team] c).1.tracking.needsDiskful =
      (planned team c c.core.graph.definitions.keys).1.tracking.needsDiskful := by
    rw [runCycle_tracking]
    refine Tracking.foldl_release_needsDiskful fun name hname => ?_
    obtain ⟨t, ht, hreleased⟩ := List.mem_filterMap.1 hname
    obtain ⟨place, p, d, hcompletes⟩ := completes_of_released ht hreleased
    exact (planned_replaces (plan_apart c) (List.mem_of_getElem? hcompletes.plan)).2.2
  rw [hmetrics, planned_counted (plan_apart c), Tracking.newlyNoted, Tracking.newlyNoted, hnoted]

theorem runCycle_inOrder (team : Collaborators σ) (c : Controller σ) :
    CycleInOrder team c (cyclePushes team c) := by
  constructor
  case pushes =>
    have hsends := (cycle_drains team c).sends
    rwa [show (planCycle [manage team] c).1.satellites = c.satellites from
      planned_satellites team c _] at hsends
  case owned => exact fun s hs => exists_pipeline hs
  case inTurn =>
    intro place name p hplan
    obtain ⟨d, left, hfound, hpushed, _⟩ := pushes_at hplan
    exact ⟨d, hfound, left, hpushed⟩
  case enters =>
    intro name hname
    exact planned_isTracked_of ((runCycle_isTracked team c name).1 hname).1
  case leaves =>
    intro name htracked hgone
    cases hmid : (planned team c c.core.graph.definitions.keys).1.tracking.isTracked name with
    | false => exact (planned_why (plan_apart c) htracked hmid).imp_right .inl
    | true =>
      by_contra hnot
      refine absurd ?_ (Bool.eq_false_iff.1 hgone)
      refine (runCycle_isTracked team c name).2 ⟨hmid, fun t ht other hother hsame => hnot ?_⟩
      obtain ⟨place, p, d, hcompletes⟩ := completes_of_released ht hother
      exact .inr (.inr ⟨other, place, p, d, hsame, hcompletes⟩)
  case stays =>
    intro place name p hplan hfails
    have hmid := (planned_replaces (plan_apart c) (List.mem_of_getElem? hplan)).2.1
    refine (runCycle_isTracked team c name).2 ⟨hmid, fun t ht other hother hsame => ?_⟩
    obtain ⟨place', p', d, hcompletes⟩ := completes_of_released ht hother
    obtain rfl := place_unique hplan hcompletes.plan hsame
    obtain rfl : p = p' := congrArg Prod.snd (Option.some.inj (hplan.symm.trans hcompletes.plan))
    exact absurd (hfails.symm.trans hcompletes.fine) (by decide)
  case failures => exact runCycle_failures team c
  case counted => exact runCycle_counted team c

theorem runCycle_nested (team : Collaborators σ) (hc : c.tracking.Nested) :
    (runCycle team [manage team] c).1.tracking.Nested := by
  rw [runCycle_tracking]
  exact (planned_nested team _ hc).foldl_release _

/-! ## Runs of the scheduler -/

/-- What an event does to the queue. -/
structure EventInOrder (c : Controller σ) (e : TopologyEvent) : Prop where
  enters : ∀ name, (c.handleEvent e).1.tracking.isTracked name = true ↔
    c.tracking.isTracked name = true ∨ ∃ d ∈ c.core.graph.definitions.values,
      ∃ r, d.resource? e.node = some r ∧ compare name r.name = .eq
  noted : (c.handleEvent e).1.tracking.needsDiskful = c.tracking.needsDiskful
  counted : (c.handleEvent e).1.metrics = c.metrics

/-- Events are handled and cycles are run, with other collaborators each time; what happens
meanwhile leaves the queue and the counters alone. -/
inductive Scheduled (start : Controller σ) : Controller σ → Prop
  | start : Scheduled start start
  | event {c : Controller σ} (before : Scheduled start c) (e : TopologyEvent) :
    Scheduled start (c.handleEvent e).1
  | cycle {c : Controller σ} (before : Scheduled start c) (team : Collaborators σ) :
    Scheduled start (runCycle team [manage team] c).1
  | meanwhile {c c' : Controller σ} (before : Scheduled start c)
    (tracking : c'.tracking = c.tracking) (metrics : c'.metrics = c.metrics) :
    Scheduled start c'

theorem Scheduled.nested {start : Controller σ} (h : Scheduled start c)
    (hstart : start.tracking.Nested) : c.tracking.Nested := by
  induction h with
  | start => exact hstart
  | @event c _ e ih =>
    intro name hname
    refine (handleEvent_isTracked c e name).2 (.inl (ih name ?_))
    rwa [Tracking.lacksDiskful, handleEvent_needsDiskful] at hname
  | cycle _ team ih => exact runCycle_nested team ih
  | meanwhile _ tracking _ ih =>
    rw [tracking]
    exact ih

/-- In every run of the scheduler, definitions without connected diskful replica are in the queue,
and whatever comes next keeps to the order: an event only adds the definitions of its node, and a
cycle only takes out what is gone, whole or replaced, and counts what fails and what it notes. -/
theorem Scheduled.keeps_order {start : Controller σ} (h : Scheduled start c)
    (hstart : start.tracking.Nested) :
    c.tracking.Nested ∧ (∀ e, EventInOrder c e) ∧
      ∀ team : Collaborators σ, ∃ log, CycleInOrder team c log :=
  ⟨h.nested hstart,
    fun e => ⟨handleEvent_isTracked c e, handleEvent_needsDiskful c e, rfl⟩,
    fun team => ⟨cyclePushes team c, runCycle_inOrder team c⟩⟩

end Controller

namespace Sample

/-- Satellites that count the pushes; some of these fail, by their number. -/
def counting (fails : Nat → Bool) : Collaborators Nat where
  access := team.access
  place := team.place
  create := team.create
  push s _ _ _ := ⟨s + 1, none, if fails s then .error (.notConnected "satellites") else .ok []⟩
  rest := id

/-- `r0` lies on `alpha` and `charlie`; nothing is in the queue yet. -/
def unaware : Controller Nat where
  core := core [alpha, charlie]
  satellites := 0
  events := .ofCapacity 1

/-- The loop learns that `alpha` was evicted. -/
def aware : Controller Nat := (unaware.handleEvent (.nodeEvicted alpha)).1

/-- A cycle in which some pushes fail. -/
def cycled (fails : Nat → Bool) : Controller Nat × CycleReport :=
  Controller.runCycle (counting fails) [Controller.manage (counting fails)] aware

end Sample

open Sample in
/-- A replacement for `r0` is committed. If both pushes come through, `r0` leaves the queue. If the
first one fails there is no second, and `r0` stays; so it does if only the second one fails. -/
theorem keeps_order_of_r0 :
    Controller.Scheduled unaware aware ∧ aware.tracking.Nested ∧
      (∃ log, Controller.CycleInOrder (counting fun _ => false) aware log) ∧
      (∃ log, Controller.CycleInOrder (counting (· == 0)) aware log) ∧
      (∃ log, Controller.CycleInOrder (counting (· == 1)) aware log) ∧
      ((cycled fun _ => false).1.satellites = 2 ∧ (cycled fun _ => false).2.failures = 0 ∧
        (cycled fun _ => false).1.tracking.isTracked r0 = false) ∧
      ((cycled (· == 0)).1.satellites = 1 ∧ (cycled (· == 0)).2.failures = 1 ∧
        (cycled (· == 0)).1.tracking.isTracked r0 = true) ∧
      (cycled (· == 1)).1.satellites = 2 ∧ (cycled (· == 1)).2.failures = 1 ∧
        (cycled (· == 1)).1.tracking.isTracked r0 = true := by
  have hscheduled : Controller.Scheduled unaware aware := .event .start (.nodeEvicted alpha)
  have hstart : unaware.tracking.Nested := fun _ h => nomatch h
  obtain ⟨hnested, _, hcycle⟩ := hscheduled.keeps_order hstart
  exact ⟨hscheduled, hnested, hcycle _, hcycle _, hcycle _, by decide +kernel, by decide +kernel,
    by decide +kernel⟩

end StorageCluster
