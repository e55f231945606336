import Mathlib.Algebra.GroupWithZero.Nat
import StorageCluster.Proofs.Controller.Tracking

/-!
# The turns of a convoy

A convoy runs until no job is left, and every job ends with a result at its place, after turns of
its own. A definition leaves the queue in the last turn of its job, if nothing has failed.
-/
namespace StorageCluster

namespace Controller

variable {σ : Type} {team : Collaborators σ} {c c' : Controller σ} {v v' : Convoy} {j j' : Job}
  {log turns : List (Controller σ × Job)} {result : Except Fault Report}

/-- The turns that are taken in a convoy: whose, and from which controller on. -/
def turnLog (team : Collaborators σ) : Nat → Controller σ → Convoy → List (Controller σ × Job)
  | 0, _, _ => []
  | fuel + 1, c, v =>
    match v.waiting with
    | [] => []
    | j :: _ => (c, j) :: turnLog team fuel (convoyStep team c v).1 (convoyStep team c v).2.1

/-- A convoy runs from one controller to another until nobody waits. -/
inductive Drains (team : Collaborators σ) :
    Controller σ → Convoy → List (Controller σ × Job) → Controller σ → Convoy → Prop
  | done {c : Controller σ} {v : Convoy} (empty : v.waiting = []) : Drains team c v [] c v
  | turn {c c' : Controller σ} {v v' : Convoy} {j : Job} {rest : List Job}
    {log : List (Controller σ × Job)} (front : v.waiting = j :: rest)
    (next : Drains team (convoyStep team c v).1 (convoyStep team c v).2.1 log c' v') :
    Drains team c v ((c, j) :: log) c' v'

/-- The turns of one job, and what came of it. -/
inductive Course (team : Collaborators σ) :
    Job → List (Controller σ × Job) → Except Fault Report → Prop
  | last {c : Controller σ} {j : Job} {result : Except Fault Report}
    (ends : (takeTurn team c j).next = .inr result) : Course team j [(c, j)] result
  | more {c : Controller σ} {j j' : Job} {turns : List (Controller σ × Job)}
    {result : Except Fault Report} (goesOn : (takeTurn team c j).next = .inl j')
    (next : Course team j' turns result) : Course team j ((c, j) :: turns) result

/-! ## A convoy comes to its end -/

theorem turns_eq (v : Convoy) : v.turns = (v.waiting.map fun j => j.tasks.length + 1).sum := by
  unfold Convoy.turns
  induction v.waiting with
  | nil => rfl
  | cons j rest ih => rw [List.foldr_cons, ih, List.map_cons, List.sum_cons]

theorem turns_convoyStep {rest : List Job} (hv : v.waiting = j :: rest) :
    (convoyStep team c v).2.1.turns < v.turns := by
  obtain ⟨_, hnext⟩ := convoyStep_cases team c hv
  rw [turns_eq, turns_eq, hv, List.map_cons, List.sum_cons]
  rcases hnext with ⟨_, _, hwaiting, _⟩ | ⟨j', hj, hwaiting, _⟩
  · rw [hwaiting]
    omega
  · obtain ⟨hbusy, rfl⟩ := takeTurn_inl hj
    have hlength : 0 < j.tasks.length := List.length_pos_iff.2 hbusy
    rw [(hwaiting.map _).sum_nat, List.map_cons, List.sum_cons, List.length_tail]
    omega

theorem runConvoy_drains {fuel : Nat} (h : v.turns ≤ fuel) :
    Drains team c v (turnLog team fuel c v) (runConvoy team fuel c v).1
      (runConvoy team fuel c v).2 := by
  induction fuel generalizing c v with
  | zero =>
    rcases hv : v.waiting with _ | ⟨j, rest⟩
    · exact .done hv
    · rw [turns_eq, hv, List.map_cons, List.sum_cons] at h
      omega
  | succ fuel ih =>
    rcases hv : v.waiting with _ | ⟨j, rest⟩
    · have hrun : runConvoy team (fuel + 1) c v = (c, v) := by simp [runConvoy, hv]
      have hlog : turnLog team (fuel + 1) c v = [] := by simp [turnLog, hv]
      rw [hrun, hlog]
      exact .done hv
    · have hfewer : (convoyStep team c v).2.1.turns < v.turns := turns_convoyStep hv
      have hrun : runConvoy team (fuel + 1) c v =
          runConvoy team fuel (convoyStep team c v).1 (convoyStep team c v).2.1 := by
        simp [runConvoy, hv]
      have hlog : turnLog team (fuel + 1) c v = (c, j) ::
          turnLog team fuel (convoyStep team c v).1 (convoyStep team c v).2.1 := by
        simp [turnLog, hv]
      rw [hrun, hlog]
      exact .turn hv (ih (by omega))

/-! ## The course of a job -/

/-- What a turn that ends a job says of the job. -/
theorem takeTurn_inr (h : (takeTurn team c j).next = .inr result) :
    result.isOk = (joinReports j.report (turnAnswer team c j)).isOk ∧ j.tasks.tail = [] ∧
      (result.isOk = true → j.eviction.isSome = true → j.tasks = []) := by
  have hexit := takeTurn_exit team c j
  generalize takeTurn team c j = turn at h hexit
  cases hexit with
  | more _ next =>
    rw [next] at h
    cases h
  | failed next failing last =>
    obtain rfl := Sum.inr.inj (next.symm.trans h)
    exact ⟨failing.symm, last, fun hok => nomatch hok⟩
  | unannounced next fine last eviction =>
    obtain rfl := Sum.inr.inj (next.symm.trans h)
    exact ⟨fine.symm, last, fun _ hsome => by simp [eviction] at hsome⟩
  | through next fine done =>
    obtain rfl := Sum.inr.inj (next.symm.trans h)
    exact ⟨fine.symm, by rw [done]; rfl, fun _ _ => done⟩

namespace Course

theorem same (h : Course team j turns result) :
    ∀ t ∈ turns, t.2.place = j.place ∧ t.2.eviction = j.eviction := by
  induction h with
  | last => simp
  | more goesOn _ ih =>
    obtain ⟨_, rfl⟩ := takeTurn_inl goesOn
    exact List.forall_mem_cons.2 ⟨⟨rfl, rfl⟩, ih⟩

/-- Only the last turn brings a result. -/
theorem ends (h : Course team j turns result) {t : Controller σ × Job} (ht : t ∈ turns)
    {other : Except Fault Report} (hends : (takeTurn team t.1 t.2).next = .inr other) :
    other = result := by
  induction h with
  | last ends =>
    rw [List.mem_singleton.1 ht] at hends
    exact Sum.inr.inj (hends.symm.trans ends)
  | more goesOn _ ih =>
    rcases List.mem_cons.1 ht with rfl | ht
    · rw [goesOn] at hends
      cases hends
    · exact ih ht

end Course

namespace Drains

/-- Jobs of a convoy do not touch the other places. -/
theorem elsewhere (h : Drains team c v log c' v') {place : Nat}
    (hplace : place ∉ v.waiting.map (·.place)) :
    (∀ t ∈ log, t.2.place ≠ place) ∧ v'.results.find? place = v.results.find? place := by
  induction h with
  | done => exact ⟨List.forall_mem_nil _, rfl⟩
  | @turn c c' v v' j rest log front next ih =>
    rw [front, List.map_cons, List.mem_cons, not_or] at hplace
    obtain ⟨hother, hrest⟩ := hplace
    obtain ⟨_, hnext⟩ := convoyStep_cases team c front
    rcases hnext with ⟨result, _, hwaiting, hresults⟩ | ⟨j', hj, hwaiting, hresults⟩
    · obtain ⟨hlog, hkept⟩ := ih (by rwa [hwaiting])
      refine ⟨List.forall_mem_cons.2 ⟨Ne.symm hother, hlog⟩, ?_⟩
      rw [hkept, hresults, SortedMap.find?_insert_eq_ite, if_neg hother]
    · obtain ⟨_, rfl⟩ := takeTurn_inl hj
      have hnot : place ∉ (convoyStep team c v).2.1.waiting.map (·.place) := by
        rw [(hwaiting.map _).mem_iff, List.map_cons, List.mem_cons, not_or]
        exact ⟨hother, hrest⟩
      obtain ⟨hlog, hkept⟩ := ih hnot
      exact ⟨List.forall_mem_cons.2 ⟨Ne.symm hother, hlog⟩, hkept.trans (by rw [hresults])⟩

/-- Every job ends with a result at its place; its course is made of the turns at that place. -/
theorem course (h : Drains team c v log c' v') (hplaces : (v.waiting.map (·.place)).Nodup)
    (hj : j ∈ v.waiting) : ∃ result, v'.results.find? j.place = some result ∧
      Course team j (log.filter fun t => t.2.place == j.place) result := by
  induction h generalizing j with
  | done empty =>
    rw [empty] at hj
    cases hj
  | @turn c c' v v' front rest log hfront next ih =>
    rw [hfront, List.map_cons, List.nodup_cons] at hplaces
    obtain ⟨hunique, hrest⟩ := hplaces
    obtain ⟨_, hnext⟩ := convoyStep_cases team c hfront
    rw [hfront] at hj
    -- another job than the one in front is where it was, and the turn is not its own
    have hother (hj : j ∈ rest) : ((c, front) :: log).filter (fun t => t.2.place == j.place) =
        log.filter fun t => t.2.place == j.place := by
      have hne : front.place ≠ j.place := fun h => hunique (List.mem_map.2 ⟨j, hj, h.symm⟩)
      rw [List.filter_cons_of_neg]
      simpa using hne
    rcases hnext with ⟨result, hends, hwaiting, hresults⟩ | ⟨j', hgoesOn, hwaiting, hresults⟩
    · rcases List.mem_cons.1 hj with rfl | hj
      · obtain ⟨hlog, hkept⟩ := next.elsewhere (by rwa [hwaiting])
        have hnone : log.filter (fun t => t.2.place == j.place) = [] :=
          List.filter_eq_nil_iff.2 fun t ht => by simpa using hlog t ht
        refine ⟨result, ?_, ?_⟩
        · rw [hkept, hresults, SortedMap.find?_insert_self]
        · rw [List.filter_cons_of_pos (by simp), hnone]
          exact .last hends
      · rw [hother hj]
        exact ih (by rwa [hwaiting]) (by rwa [hwaiting])
    · obtain ⟨_, hsame⟩ := takeTurn_inl hgoesOn
      have hplace : j'.place = front.place := by rw [hsame]
      have hplaces : ((convoyStep team c v).2.1.waiting.map (·.place)).Nodup := by
        rw [(hwaiting.map _).nodup_iff, List.map_cons, hplace, List.nodup_cons]
        exact ⟨hunique, hrest⟩
      rcases List.mem_cons.1 hj with rfl | hj
      · obtain ⟨result, hresult, hcourse⟩ :=
          ih hplaces (hwaiting.mem_iff.2 List.mem_cons_self)
        rw [hplace] at hresult hcourse
        refine ⟨result, hresult, ?_⟩
        rw [List.filter_cons_of_pos (by simp)]
        exact .more hgoesOn hcourse
      · rw [hother hj]
        exact ih hplaces (hwaiting.mem_iff.2 (List.mem_cons_of_mem _ hj))

/-- A turn that ends a job brings the result at the place of the job. -/
theorem ends (h : Drains team c v log c' v') (hplaces : (v.waiting.map (·.place)).Nodup)
    {t : Controller σ × Job} (ht : t ∈ log)
    (hends : (takeTurn team t.1 t.2).next = .inr result) :
    ∃ j ∈ v.waiting, j.place = t.2.place ∧ j.eviction = t.2.eviction ∧
      v'.results.find? j.place = some result := by
  have hplace : t.2.place ∈ v.waiting.map (·.place) := by
    by_contra hnot
    exact (h.elsewhere hnot).1 t ht rfl
  obtain ⟨j, hj, hsame⟩ := List.mem_map.1 hplace
  obtain ⟨other, hother, hcourse⟩ := h.course hplaces hj
  have hown : t ∈ log.filter fun t => t.2.place == j.place :=
    List.mem_filter.2 ⟨ht, by simp [hsame]⟩
  refine ⟨j, hj, hsame, (hcourse.same t hown).2.symm, ?_⟩
  rw [hother, hcourse.ends hown hends]

end Drains

/-! ## What a convoy takes out of the queue -/

/-- The definition that leaves the queue in a turn. -/
def released? (team : Collaborators σ) (t : Controller σ × Job) : Option ResourceName :=
  match (takeTurn team t.1 t.2).next, t.2.eviction with
  | .inr (.ok _), some (name, _) => some name
  | _, _ => none

theorem released?_eq_some {t : Controller σ × Job} {name : ResourceName} :
    released? team t = some name ↔ ∃ report evicted,
      (takeTurn team t.1 t.2).next = .inr (.ok report) ∧ t.2.eviction = some (name, evicted) := by
  unfold released?
  split
  next report other evicted hnext heviction => simp [hnext, heviction, eq_comm]
  next hnot =>
    constructor
    · intro h
      cases h
    · rintro ⟨report, evicted, hnext, heviction⟩
      exact absurd heviction (hnot report name evicted hnext)

theorem takeTurn_tracking (team : Collaborators σ) (c : Controller σ) (j : Job) :
    (takeTurn team c j).controller.tracking =
      (released? team (c, j)).toList.foldl Tracking.release c.tracking := by
  have hexit := takeTurn_exit team c j
  unfold released?
  dsimp only
  generalize takeTurn team c j = turn at hexit
  cases hexit with
  | more _ next tracking | failed next _ _ tracking => simp [next, tracking]
  | unannounced next _ _ eviction tracking => simp [next, eviction, tracking]
  | through next _ _ eviction tracking => simp [next, eviction, tracking]

namespace Drains

theorem tracking (h : Drains team c v log c' v') :
    c'.tracking = (log.filterMap (released? team)).foldl Tracking.release c.tracking := by
  induction h with
  | done => rfl
  | @turn c _ v _ j _ _ front _ ih =>
    obtain ⟨hcontroller, _⟩ := convoyStep_cases team c front
    rw [ih, hcontroller, takeTurn_tracking]
    cases hreleased : released? team (c, j) with
    | none => simp [hreleased]
    | some name => simp [hreleased]

theorem metrics (h : Drains team c v log c' v') : c'.metrics = c.metrics := by
  induction h with
  | done => rfl
  | @turn c _ v _ j _ _ front _ ih =>
    obtain ⟨hcontroller, _⟩ := convoyStep_cases team c front
    rw [ih, hcontroller, (takeTurn_frame team c j).2]

end Drains

end Controller

end StorageCluster
