import StorageCluster.Proofs.Controller.Cycles
import StorageCluster.Proofs.Controller.Deficit

/-!
# The queue of definitions to reconcile

What a single act does to the tracked definitions: an event adds the definitions of a node, managing
a definition takes it out or notes that it has no connected diskful replica, and the turn of a
pipeline takes its definition out when the pipeline is through.
-/
namespace StorageCluster

namespace Tracking

variable {name other : ResourceName}

/-- Definitions without connected diskful replica are among those to reconcile. -/
def Nested (t : Tracking) : Prop := ∀ name, t.lacksDiskful name = true → t.isTracked name = true

theorem isTracked_mark (t : Tracking) (name other : ResourceName) :
    (t.mark name).isTracked other = (compare other name == .eq || t.isTracked other) :=
  SortedMap.contains_insert ..

theorem isTracked_release (t : Tracking) (name other : ResourceName) :
    (t.release name).isTracked other = (compare other name != .eq && t.isTracked other) :=
  SortedMap.contains_erase ..

theorem isTracked_congr (h : compare name other = .eq) (t : Tracking) :
    t.isTracked name = t.isTracked other :=
  SortedMap.contains_congr h _

theorem foldl_mark (resources : List Resource) (t : Tracking) (name : ResourceName) :
    (resources.foldl (fun t r => t.mark r.name) t).isTracked name = true ↔
      t.isTracked name = true ∨ ∃ r ∈ resources, compare name r.name = .eq := by
  induction resources generalizing t with
  | nil => simp
  | cons r rest ih => simp [ih, isTracked_mark, or_assoc, or_left_comm]

theorem foldl_mark_needsDiskful (resources : List Resource) (t : Tracking) :
    (resources.foldl (fun t r => t.mark r.name) t).needsDiskful = t.needsDiskful :=
  List.foldlRecOn _ _ (motive := fun after => needsDiskful after = t.needsDiskful) rfl
    fun _ h _ _ => h

end Tracking

/-! ## What is known about a definition -/

namespace Core

variable {c c' : Core} {name other : ResourceName}

/-- The replica counts of a definition, if it and its group exist. -/
def counts? (c : Core) (name : ResourceName) : Option ReplicaCounts :=
  match c.graph.definitions.find? name with
  | none => none
  | some d => (c.graph.groups.find? d.group).map fun group =>
    d.countReplicas group c.graph.nodes c.props

theorem counts?_congr (h : compare name other = .eq) (c : Core) :
    c.counts? name = c.counts? other := by
  rw [counts?, counts?, SortedMap.find?_congr h]

/-- A definition has as many replicas as it needs, and a diskful resource that is connected. -/
def Whole (c : Core) (name : ResourceName) : Prop :=
  ∃ counts, c.counts? name = some counts ∧ counts.diskfulConnected ≠ 0 ∧ counts.deficit = 0

theorem Whole.congr (h : compare name other = .eq) (hw : c.Whole name) : c.Whole other := by
  rwa [Whole, counts?_congr h] at hw

/-- What the counts of a definition depend on is the same in two cores. -/
structure SameFor (name : ResourceName) (c c' : Core) : Prop where
  definition : c'.graph.definitions.find? name = c.graph.definitions.find? name
  nodes : c'.graph.nodes = c.graph.nodes
  groups : c'.graph.groups = c.graph.groups
  props : c'.props = c.props

namespace SameFor

theorem refl (name : ResourceName) (c : Core) : SameFor name c c := ⟨rfl, rfl, rfl, rfl⟩

theorem trans {c'' : Core} (h : SameFor name c c') (h' : SameFor name c' c'') :
    SameFor name c c'' where
  definition := h'.definition.trans h.definition
  nodes := h'.nodes.trans h.nodes
  groups := h'.groups.trans h.groups
  props := h'.props.trans h.props

theorem counts? (h : SameFor name c c') : c'.counts? name = c.counts? name := by
  simp only [Core.counts?, h.definition, h.nodes, h.groups, h.props]

theorem whole (h : SameFor name c c') (hw : c'.Whole name) : c.Whole name := by
  rwa [Whole, h.counts?] at hw

theorem of_graph (hgraph : c'.graph = c.graph) (hprops : c'.props = c.props)
    (name : ResourceName) : SameFor name c c' :=
  ⟨by rw [hgraph], by rw [hgraph], by rw [hgraph], hprops⟩

end SameFor

end Core

namespace Controller

variable {σ : Type} {team : Collaborators σ} {c : Controller σ} {name other : ResourceName}
  {context : ManageContext}

theorem counts?_of_assess {d : Definition} {counts : ReplicaCounts} {policy : Filter}
    (hd : c.core.graph.definitions.find? name = some d)
    (h : assess team c d = .ok (counts, policy)) : c.core.counts? name = some counts := by
  obtain ⟨group, hg, hc, _⟩ := assess_ok h
  simp only [Core.counts?, hd, hg, Option.map_some, hc]

/-! ## Events -/

theorem mem_resourcesOn {core : Core} {node : NodeName} {r : Resource} :
    r ∈ core.resourcesOn node ↔
      ∃ d ∈ core.graph.definitions.values, d.resource? node = some r :=
  List.mem_filterMap

/-- An event adds the definitions that have a resource on its node, and only those. -/
theorem handleEvent_isTracked (c : Controller σ) (e : TopologyEvent) (name : ResourceName) :
    (c.handleEvent e).1.tracking.isTracked name = true ↔
      c.tracking.isTracked name = true ∨
        ∃ d ∈ c.core.graph.definitions.values, ∃ r, d.resource? e.node = some r ∧
          compare name r.name = .eq := by
  have hmarked := Tracking.foldl_mark (c.core.resourcesOn e.node) c.tracking name
  refine hmarked.trans (or_congr_right ?_)
  constructor
  · rintro ⟨r, hr, hname⟩
    obtain ⟨d, hd, hrd⟩ := mem_resourcesOn.1 hr
    exact ⟨d, hd, r, hrd, hname⟩
  · rintro ⟨d, hd, r, hrd, hname⟩
    exact ⟨r, mem_resourcesOn.2 ⟨d, hd, hrd⟩, hname⟩

theorem handleEvent_needsDiskful (c : Controller σ) (e : TopologyEvent) :
    (c.handleEvent e).1.tracking.needsDiskful = c.tracking.needsDiskful :=
  Tracking.foldl_mark_needsDiskful ..

/-! ## Managing -/

/-- What managing a definition does to the queue and to the counter of definitions without
connected diskful replica. -/
inductive QueueStep (c : Controller σ) (name : ResourceName) (c' : Controller σ) : Prop
  | kept (tracking : c'.tracking = c.tracking)
    (counted : c'.metrics.needsDiskful = c.metrics.needsDiskful)
  | noted (tracked : c.tracking.isTracked name = true)
    (new : c.tracking.lacksDiskful name = false)
    (tracking : c'.tracking =
      ⟨c.tracking.needsReconciliation, c.tracking.needsDiskful.insert name ()⟩)
    (counted : c'.metrics.needsDiskful = c.metrics.needsDiskful + 1)
  | eased (tracking : c'.tracking =
      ⟨c.tracking.needsReconciliation, c.tracking.needsDiskful.erase name⟩)
    (counted : c'.metrics.needsDiskful = c.metrics.needsDiskful)
  | released (why : c.core.graph.definitions.find? name = none ∨ c.core.Whole name)
    (tracking : c'.tracking = c.tracking.release name)
    (counted : c'.metrics.needsDiskful = c.metrics.needsDiskful)

theorem PlacementExit.frame {responses : Report} {r : Replaced σ}
    (h : PlacementExit team c responses name r) :
    r.controller.metrics = c.metrics ∧ r.controller.events = c.events ∧
      r.controller.satellites = c.satellites := by
  cases h <;> exact ⟨rfl, rfl, rfl⟩

theorem concludeReplacement_frame (context : ManageContext) (r : Replaced σ) :
    (concludeReplacement context r).controller.events = r.controller.events ∧
      (concludeReplacement context r).controller.satellites = r.controller.satellites := by
  unfold concludeReplacement
  split <;> exact ⟨rfl, rfl⟩

theorem concludeReplacement_queue (context : ManageContext) {r : Replaced σ}
    (h : r.step ≠ .ok .satisfied) :
    (concludeReplacement context r).controller.tracking = r.controller.tracking ∧
      (concludeReplacement context r).controller.metrics.needsDiskful =
        r.controller.metrics.needsDiskful := by
  unfold concludeReplacement
  split
  next hs => exact absurd hs h
  all_goals exact ⟨rfl, rfl⟩

/-- A definition that lacks replicas is not found satisfied a moment later. -/
theorem PlacementExit.not_satisfied {responses : Report} {r : Replaced σ} {d : Definition}
    {counts : ReplicaCounts} {policy : Filter} (h : PlacementExit team c responses name r)
    (found : c.core.graph.definitions.find? name = some d)
    (assessed : assess team c d = .ok (counts, policy)) (lacking : 0 < counts.deficit) :
    r.step ≠ .ok .satisfied := by
  intro hs
  cases h with
  | vanished hnone => simp [hnone] at found
  | satisfied hd ha enough =>
    obtain rfl := Option.some.inj (hd.symm.trans found)
    rw [assessed] at ha
    cases ha
    omega
  | faulty | noSearch | noCandidate | refusedCreation | refusedCommit | created => cases hs

theorem noteNeedsDiskful_queueStep (tracked : c.tracking.isTracked name = true) :
    QueueStep c name ((c.mapMetrics ReconcileMetrics.recordManage).noteNeedsDiskful name) := by
  have htracking : (c.mapMetrics ReconcileMetrics.recordManage).tracking = c.tracking := rfl
  unfold noteNeedsDiskful
  rw [htracking]
  split
  next => exact .kept rfl rfl
  next hnew => exact .noted tracked (Bool.eq_false_iff.2 hnew) rfl rfl

theorem manage_queueStep (team : Collaborators σ) (c : Controller σ) (context : ManageContext) :
    QueueStep c context.name (manage team c context).controller := by
  have he := manage_exit team c context
  generalize manage team c context = m at he
  cases he with
  | untracked | faulty => exact .kept rfl rfl
  | vanished _ hnone => exact .released (.inl hnone) rfl rfl
  | needsDiskful tracked => exact noteNeedsDiskful_queueStep tracked
  | converged _ found assessed some enough =>
    refine .released (.inr ⟨_, counts?_of_assess found assessed, some, enough⟩) ?_ rfl
    simp only [converge, diskfulAgain, mapTracking, mapMetrics, Tracking.release,
      SortedMap.erase_erase]
  | replacing _ found assessed _ lacking =>
    have hp := placeReplacements_exit team (c.diskfulAgain context.name) context.responses
      context.name
    have hs := hp.not_satisfied found assessed lacking
    obtain ⟨htracking, hmetrics⟩ := concludeReplacement_queue context hs
    refine .eased ?_ ?_
    · rw [htracking, hp.tracking]
      rfl
    · rw [hmetrics, hp.frame.1]
      rfl

/-- A definition whose replacement is scheduled stays in the queue. -/
theorem manage_scheduled_tracking (h : (manage team c context).outcome = .ok .scheduled) :
    (manage team c context).controller.tracking =
        ⟨c.tracking.needsReconciliation, c.tracking.needsDiskful.erase context.name⟩ ∧
      c.tracking.isTracked context.name = true := by
  have he := manage_exit team c context
  generalize manage team c context = m at he h
  cases he with
  | untracked | vanished | faulty | needsDiskful | converged => cases h
  | replacing tracked found assessed _ lacking =>
    have hp := placeReplacements_exit team (c.diskfulAgain context.name) context.responses
      context.name
    have hs := hp.not_satisfied found assessed lacking
    refine ⟨?_, tracked⟩
    rw [(concludeReplacement_queue context hs).1, hp.tracking]
    rfl

/-- Managing a definition sends no event and pushes nothing. -/
theorem manage_frame (team : Collaborators σ) (c : Controller σ) (context : ManageContext) :
    (manage team c context).controller.events = c.events ∧
      (manage team c context).controller.satellites = c.satellites := by
  have he := manage_exit team c context
  generalize manage team c context = m at he
  cases he with
  | untracked | vanished | faulty | converged => exact ⟨rfl, rfl⟩
  | needsDiskful =>
    unfold noteNeedsDiskful
    split <;> exact ⟨rfl, rfl⟩
  | replacing =>
    obtain ⟨hevents, hsatellites⟩ := concludeReplacement_frame context
      (placeReplacements team (c.diskfulAgain context.name) context.responses context.name)
    obtain ⟨_, hplaced⟩ := (placeReplacements_exit team (c.diskfulAgain context.name)
      context.responses context.name).frame
    exact ⟨hevents.trans hplaced.1, hsatellites.trans hplaced.2⟩

/-- Managing a definition changes nothing that matters for another one. -/
theorem manage_sameFor (team : Collaborators σ) (c : Controller σ) {context : ManageContext}
    (h : compare name context.name ≠ .eq) :
    Core.SameFor name c.core (manage team c context).controller.core := by
  by_cases hs : (manage team c context).outcome = .ok .scheduled
  · obtain ⟨s, store, tasks, nodes, _, _, hcore, _⟩ := manage_scheduled hs
    rw [hcore]
    exact ⟨by rw [replaceDefinition, SortedMap.find?_insert, if_neg h], rfl, rfl, rfl⟩
  · have hu := (manage_exit team c context).untouched hs
    exact .of_graph hu.graph hu.props name

/-- Only the pipeline of a scheduled replacement is left to run. -/
theorem manage_pipelines (team : Collaborators σ) (c : Controller σ) (context : ManageContext) :
    (manage team c context).context.pipelines = context.pipelines ∨
      (manage team c context).outcome = .ok .scheduled ∧ ∃ tasks evicted,
        (manage team c context).context.pipelines =
          context.pipelines ++ [{ tasks, eviction := some (context.name, evicted) }] := by
  by_cases hs : (manage team c context).outcome = .ok .scheduled
  · obtain ⟨s, _, tasks, _, _, _, _, hpipelines⟩ := manage_scheduled hs
    exact .inr ⟨hs, tasks, s.evicted, hpipelines⟩
  · exact .inl ((manage_exit team c context).pipelines hs)

/-- What the reconciler leaves to a cycle when it manages one definition. -/
theorem manageAll_single (team : Collaborators σ) (c : Controller σ) (plan : CyclePlan)
    (name : ResourceName) :
    let m := manage team c { name }
    let after := manageAll [manage team] (c, plan) name
    after.1 = m.controller ∧
      after.2.pipelines = plan.pipelines ++ m.context.pipelines.map (fun p => (name, p)) ∧
      after.2.report.failures = plan.report.failures := by
  intro m after
  unfold after manageAll consult
  dsimp only [List.foldl_cons, List.foldl_nil]
  split <;> exact ⟨rfl, rfl, rfl⟩

/-! ## Turns of pipelines -/

theorem joinReports_isOk (first second : Except Fault Report) :
    (joinReports first second).isOk = (first.isOk && second.isOk) := by
  cases first <;> cases second <;> rfl

/-- What came of the task that is run in a turn or, after the tasks, of the eviction notice. -/
def turnAnswer (team : Collaborators σ) (c : Controller σ) (j : Job) : Except Fault Report :=
  match j.tasks, j.eviction with
  | task :: _, _ => (runTask team c task).2.2
  | [], some (name, evicted) => (runEviction team c name evicted).2.2
  | [], none => .ok []

/-- How the turn of a job ends: there is more to do, the job has failed, or it is through. -/
inductive TurnExit (team : Collaborators σ) (c : Controller σ) (j : Job) (turn : Turn σ) : Prop
  | more (busy : j.tasks ≠ [])
    (next : turn.next = .inl { j with
      tasks := j.tasks.tail, report := joinReports j.report (turnAnswer team c j) })
    (tracking : turn.controller.tracking = c.tracking)
  | failed {fault : Fault} (next : turn.next = .inr (.error fault))
    (failing : (joinReports j.report (turnAnswer team c j)).isOk = false)
    (last : j.tasks.tail = []) (tracking : turn.controller.tracking = c.tracking)
  | unannounced {report : Report} (next : turn.next = .inr (.ok report))
    (fine : (joinReports j.report (turnAnswer team c j)).isOk = true)
    (last : j.tasks.tail = []) (eviction : j.eviction = none)
    (tracking : turn.controller.tracking = c.tracking)
  | through {report : Report} {name : ResourceName} {evicted : List NodeName}
    (next : turn.next = .inr (.ok report))
    (fine : (joinReports j.report (turnAnswer team c j)).isOk = true)
    (done : j.tasks = []) (eviction : j.eviction = some (name, evicted))
    (tracking : turn.controller.tracking = c.tracking.release name)

theorem runTask_frame (team : Collaborators σ) (c : Controller σ) (task : Task) :
    (runTask team c task).1 = { c with satellites := (runTask team c task).1.satellites } := by
  cases task <;> rfl

theorem runEviction_frame (team : Collaborators σ) (c : Controller σ) (name : ResourceName)
    (evicted : List NodeName) : (runEviction team c name evicted).1 =
      { c with satellites := (runEviction team c name evicted).1.satellites } := by
  unfold runEviction
  split <;> rfl

theorem takeTurn_exit (team : Collaborators σ) (c : Controller σ) (j : Job) :
    TurnExit team c j (takeTurn team c j) := by
  obtain ⟨place, tasks, eviction, report⟩ := j
  cases tasks with
  | cons task rest =>
    have htracking : (runTask team c task).1.tracking = c.tracking := by rw [runTask_frame]
    unfold takeTurn
    dsimp only
    split
    next hreport => exact .failed rfl (by rw [turnAnswer, hreport]; rfl) rfl htracking
    next hreport => exact .unannounced rfl (by rw [turnAnswer, hreport]; rfl) rfl rfl htracking
    next => exact .more (List.cons_ne_nil _ _) rfl htracking
  | nil =>
    unfold takeTurn
    dsimp only
    split
    next entries name evicted =>
      have htracking : (runEviction team c name evicted).1.tracking = c.tracking := by
        rw [runEviction_frame]
      split
      next hreport =>
        refine .through rfl (by rw [turnAnswer, hreport]; rfl) rfl rfl ?_
        rw [mapTracking, htracking]
      next hreport => exact .failed rfl (by rw [turnAnswer, hreport]; rfl) rfl htracking
    next unended =>
      cases report with
      | error fault => exact .failed rfl rfl rfl rfl
      | ok entries =>
        cases eviction with
        | none => exact .unannounced rfl rfl rfl rfl rfl
        | some notice => exact absurd rfl (unended entries notice.1 notice.2 rfl)

/-- A job that goes on has done one task. -/
theorem takeTurn_inl {j j' : Job} (h : (takeTurn team c j).next = .inl j') :
    j.tasks ≠ [] ∧ j' = { j with
      tasks := j.tasks.tail, report := joinReports j.report (turnAnswer team c j) } := by
  have hexit := takeTurn_exit team c j
  generalize takeTurn team c j = turn at h hexit
  cases hexit with
  | more busy next =>
    rw [next] at h
    exact ⟨busy, (Sum.inl.inj h).symm⟩
  | failed next | unannounced next | through next =>
    rw [next] at h
    cases h

theorem takeTurn_frame (team : Collaborators σ) (c : Controller σ) (j : Job) :
    (takeTurn team c j).controller.events = c.events ∧
      (takeTurn team c j).controller.metrics = c.metrics := by
  unfold takeTurn
  split
  next task _ _ =>
    dsimp only
    split <;> (dsimp only; rw [runTask_frame]; exact ⟨rfl, rfl⟩)
  next =>
    split
    next name evicted _ _ =>
      dsimp only
      split <;> (dsimp only [mapTracking]; rw [runEviction_frame]; exact ⟨rfl, rfl⟩)
    next => exact ⟨rfl, rfl⟩

/-- The job in front takes its turn; it leaves the convoy with its result or waits for another
turn. -/
theorem convoyStep_cases (team : Collaborators σ) (c : Controller σ) {v : Convoy} {j : Job}
    {rest : List Job} (hv : v.waiting = j :: rest) :
    let turn := takeTurn team c j
    let after := convoyStep team c v
    after.1 = turn.controller ∧
      ((∃ result, turn.next = .inr result ∧ after.2.1.waiting = rest ∧
          after.2.1.results = v.results.insert j.place result) ∨
        ∃ j', turn.next = .inl j' ∧ after.2.1.waiting.Perm (j' :: rest) ∧
          after.2.1.results = v.results) := by
  intro turn after
  simp only [after, convoyStep, hv]
  refine ⟨rfl, ?_⟩
  split
  next result hnext => exact .inl ⟨result, hnext, rfl, rfl⟩
  next j' hnext =>
    refine .inr ⟨j', hnext, ?_, rfl⟩
    dsimp only
    split
    · exact List.perm_append_comm
    · exact .refl _

end Controller

end StorageCluster
