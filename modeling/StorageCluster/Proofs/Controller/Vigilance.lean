import StorageCluster.Proofs.Controller.Announcements

/-!
# No eviction is lost

A definition that lacks replicas because of an evicted node is tracked, or an event is on its way
that makes the loop track it: one on a node that it has a resource on, or the news that events were
dropped. Pipelines that are under way are excused from this only as long as such news are pending,
so a definition that they stop tracking is tracked again before the channel has run empty.
-/
namespace StorageCluster

namespace Controller

variable {σ : Type} {team : Collaborators σ} {engine : PatternEngine} {c c' : Controller σ}
  {due : List (ResourceName × List NodeName)}

/-- Every definition is tracked or excused, and those whose pipelines are under way are excused, as
they are not tracked any more when the pipelines are through. -/
structure Watchful (c : Controller σ) (due : List (ResourceName × List NodeName)) : Prop where
  proper : c.core.graph.Proper
  listening : c.events.listening = true
  watched : ∀ name, c.tracking.isTracked name = true ∨ c.Excused name
  due : ∀ notice ∈ due, c.Excused notice.1

theorem Watchful.occur (h : c.Watchful due) (o : Occurrence) : (c.occur o).1.Watchful due := by
  have hhappening := c.occur_happening o
  have hexcused (name : ResourceName) (he : c.Excused name) : (c.occur o).1.Excused name :=
    hhappening.excused h.proper.wellFiled h.listening he
  exact
    { proper := hhappening.proper h.proper
      listening := hhappening.listening h.listening
      watched := fun name => (h.watched name).imp (c.occur_isTracked o) (hexcused name)
      due := fun notice hnotice => hexcused notice.1 (h.due notice hnotice) }

theorem Watchful.manage (hteam : team.BuiltIn engine) (h : c.Watchful due) (name : ResourceName) :
    let m := manage team c { name }
    m.controller.Watchful (due ++ m.context.pipelines.filterMap (·.eviction)) := by
  intro m
  have hexcused (other : ResourceName) (he : c.Excused other) : m.controller.Excused other :=
    manage_excused hteam h.proper.wellFiled he
  constructor
  case proper => exact manage_proper hteam h.proper
  case listening =>
    rw [(manage_frame team c _).1]
    exact h.listening
  case watched =>
    intro other
    rcases h.watched other with ht | he
    · refine ((manage_queueStep team c { name }).isTracked_or ht).imp_right fun hwhole => ?_
      exact hexcused other fun hlacks => absurd hlacks hwhole
    · exact .inr (hexcused other he)
  case due =>
    intro notice hnotice
    rcases List.mem_append.1 hnotice with hold | hnew
    · exact hexcused notice.1 (h.due notice hold)
    · rcases manage_pipelines team c { name } with hnone | ⟨hs, tasks, evicted, hpipelines⟩
      · rw [hnone] at hnew
        cases hnew
      · rw [hpipelines] at hnew
        obtain rfl : notice = (name, evicted) := by simpa using hnew
        exact fun hlacks => absurd hlacks (not_lacks_of_scheduled hteam h.proper.wellFiled hs)

end Controller

/-! ## Cycles -/

/-- The eviction notices that are left to send. -/
def Convoy.notices (v : Convoy) : List (ResourceName × List NodeName) :=
  v.waiting.filterMap (·.eviction)

theorem Convoy.notices_ofPipelines (pipelines : List Pipeline) :
    (ofPipelines pipelines).notices = pipelines.filterMap (·.eviction) := by
  have hfst : (fun j : Job => j.eviction) ∘ (fun e : Pipeline × Nat =>
      ({ place := e.2, tasks := e.1.tasks, eviction := e.1.eviction } : Job)) =
      (fun p : Pipeline => p.eviction) ∘ Prod.fst := rfl
  rw [notices, ofPipelines, List.filterMap_map, hfst, ← List.filterMap_map,
    List.zipIdx_map_fst]

namespace Controller

variable {σ : Type} {name : ResourceName}

theorem foldl_handleEvent_isTracked (nodes : List NodeName) (c : Controller σ) :
    (nodes.foldl (fun c node => (c.handleEvent (.nodeRestored node)).1) c).tracking.isTracked
        name = true ↔
      c.tracking.isTracked name = true ∨ ∃ node ∈ nodes,
        ∃ d ∈ c.core.graph.definitions.values, ∃ r, d.resource? node = some r ∧
          compare name r.name = .eq := by
  induction nodes generalizing c with
  | nil => simp
  | cons node rest ih =>
    rw [List.foldl_cons, ih, handleEvent_isTracked]
    simp only [List.exists_mem_cons_iff, or_assoc]
    rfl

/-- After events were lost, all definitions are tracked that have a resource on a known node. -/
theorem handleLag_isTracked (c : Controller σ) (name : ResourceName) :
    c.handleLag.tracking.isTracked name = true ↔
      c.tracking.isTracked name = true ∨ ∃ node ∈ c.core.graph.nodes.keys,
        ∃ d ∈ c.core.graph.definitions.values, ∃ r, d.resource? node = some r ∧
          compare name r.name = .eq :=
  foldl_handleEvent_isTracked _ c

theorem handleLag_events (c : Controller σ) : c.handleLag.events = c.events :=
  List.foldlRecOn _ _ (motive := fun after => events after = c.events) rfl fun _ h _ _ => h

end Controller

namespace Controller.Watchful

variable {σ : Type} {team : Collaborators σ} {engine : PatternEngine} {c : Controller σ}
  {due : List (ResourceName × List NodeName)}

theorem mono {fewer : List (ResourceName × List NodeName)} (h : c.Watchful due)
    (hsub : ∀ notice ∈ fewer, notice ∈ due) : c.Watchful fewer :=
  { h with due := fun notice hnotice => h.due notice (hsub notice hnotice) }

/-- Satellites and counters do not matter. -/
theorem of_eq {c' : Controller σ} (h : c.Watchful due) (hcore : c'.core = c.core)
    (hevents : c'.events = c.events) (htracking : c'.tracking = c.tracking) :
    c'.Watchful due := by
  have hexcused (name : ResourceName) (he : c.Excused name) : c'.Excused name := by
    rwa [Excused, Announced, hcore, hevents]
  constructor
  · rw [hcore]
    exact h.proper
  · rw [hevents]
    exact h.listening
  · intro name
    rw [htracking]
    exact (h.watched name).imp_right (hexcused name)
  · exact fun notice hnotice => hexcused notice.1 (h.due notice hnotice)

theorem planCycle (hteam : team.BuiltIn engine) (h : c.Watchful []) :
    let planned := Controller.planCycle [Controller.manage team] c
    planned.1.Watchful (CyclePlan.convoy planned.2).notices := by
  intro planned
  have hplanned : planned.1.Watchful (planned.2.pipelines.filterMap fun p => p.2.eviction) := by
    refine List.foldlRecOn c.core.graph.definitions.keys _ (b := (c, {}))
      (motive := fun state : Controller σ × CyclePlan =>
        Watchful state.1 (state.2.pipelines.filterMap fun p => p.2.eviction)) h ?_
    intro state hstate name _
    obtain ⟨hcontroller, hpipelines, _⟩ := manageAll_single team state.1 state.2 name
    rw [hcontroller, hpipelines, List.filterMap_append, List.filterMap_map]
    exact hstate.manage hteam name
  rw [CyclePlan.convoy, Convoy.notices_ofPipelines, List.filterMap_map]
  exact hplanned

theorem takeTurn {j : Job} (h : c.Watchful due)
    (hj : ∀ notice, j.eviction = some notice → notice ∈ due) :
    (Controller.takeTurn team c j).controller.Watchful due := by
  have hcore := takeTurn_core team c j
  have hevents := (takeTurn_frame team c j).1
  have hexit := takeTurn_exit team c j
  generalize Controller.takeTurn team c j = turn at hcore hevents hexit
  cases hexit with
  | more _ _ tracking | failed _ _ _ tracking | unannounced _ _ _ _ tracking =>
    exact h.of_eq hcore hevents tracking
  | @through _ name evicted _ _ _ eviction tracking =>
    have hname : c.Excused name := h.due (name, evicted) (hj _ eviction)
    have hreleased : Watchful { c with tracking := c.tracking.release name } due := by
      refine { h with watched := fun other => ?_ }
      by_cases hother : compare other name = .eq
      · exact .inr (hname.congr (Std.OrientedCmp.eq_symm hother))
      · refine (h.watched other).imp_left fun ht => ?_
        rw [Tracking.isTracked_release, ht, Bool.and_true, bne_iff_ne]
        exact hother
    exact hreleased.of_eq hcore hevents tracking

theorem convoyStep {v : Convoy} (h : c.Watchful v.notices) :
    let after := Controller.convoyStep team c v
    after.1.Watchful after.2.1.notices := by
  intro after
  rcases hv : v.waiting with _ | ⟨j, rest⟩
  · have hsame : after = (c, v, 0) := by simp only [after, Controller.convoyStep, hv]
    rw [hsame]
    exact h
  · have hturn : (Controller.takeTurn team c j).controller.Watchful v.notices := by
      refine h.takeTurn fun notice hnotice => ?_
      exact List.mem_filterMap.2 ⟨j, by simp [hv], hnotice⟩
    obtain ⟨hcontroller, hnext⟩ := convoyStep_cases team c hv
    have hfront : v.notices = (j :: rest).filterMap (·.eviction) := by rw [Convoy.notices, hv]
    refine (hcontroller ▸ hturn).mono fun notice hnotice => ?_
    rw [hfront]
    rcases hnext with ⟨result, _, hwaiting, _⟩ | ⟨j', hj, hwaiting, _⟩
    · rw [Convoy.notices, hwaiting] at hnotice
      obtain ⟨other, hother, heviction⟩ := List.mem_filterMap.1 hnotice
      exact List.mem_filterMap.2 ⟨other, List.mem_cons_of_mem j hother, heviction⟩
    · obtain ⟨other, hother, heviction⟩ := List.mem_filterMap.1 hnotice
      rcases List.mem_cons.1 (hwaiting.mem_iff.1 hother) with rfl | hother
      · obtain ⟨_, rfl⟩ := takeTurn_inl hj
        exact List.mem_filterMap.2 ⟨j, List.mem_cons_self, heviction⟩
      · exact List.mem_filterMap.2 ⟨other, List.mem_cons_of_mem j hother, heviction⟩

theorem handleEvent {e : TopologyEvent} (h : c.Watchful [])
    (hreceived : c.events.receive.2 = .event e) :
    (Controller.handleEvent { c with events := c.events.receive.1 } e).1.Watchful [] := by
  obtain ⟨hdropped, hpending⟩ := Channel.receive_event hreceived
  constructor
  case proper => exact h.proper
  case listening =>
    exact (Channel.listening_receive c.events).trans h.listening
  case watched =>
    intro name
    rw [handleEvent_isTracked]
    by_cases hhosts : c.core.Hosts name e.node
    · obtain ⟨d, r, hd, hr⟩ := hhosts
      refine .inl (.inr ⟨d, SortedMap.mem_values.2 ⟨name, hd⟩, r, hr, ?_⟩)
      exact h.proper.named name d hd e.node r hr
    · refine (h.watched name).imp .inl fun he hlacks => ?_
      rcases he hlacks with hlost | ⟨other, hother, hhosts'⟩
      · omega
      · rw [hpending] at hother
        rcases List.mem_cons.1 hother with rfl | hrest
        · exact absurd hhosts' hhosts
        · exact .inr ⟨other, hrest, hhosts'⟩
  case due => exact List.forall_mem_nil _

/-- An evicted node is known, so the definitions with a resource on it are tracked. -/
theorem handleLag (h : c.Watchful []) :
    (Controller.handleLag { c with events := c.events.receive.1 }).Watchful [] := by
  constructor
  case proper =>
    rw [handleLag_core]
    exact h.proper
  case listening =>
    rw [handleLag_events]
    exact (Channel.listening_receive c.events).trans h.listening
  case watched =>
    intro name
    by_cases hlacks : c.core.Lacks name
    · refine .inl ?_
      obtain ⟨node, ⟨d, r, hd, hr⟩, hevicted⟩ := hlacks.evicted
      obtain ⟨n, hn, _⟩ := Option.any_eq_true _ _ |>.1 hevicted
      obtain ⟨key, hkey, hsame⟩ := SortedMap.mem_of_lookup hn
      rw [handleLag_isTracked]
      refine .inr ⟨key, List.mem_map.2 ⟨(key, n), hkey, rfl⟩, d,
        SortedMap.mem_values.2 ⟨name, hd⟩, r, ?_, ?_⟩
      · exact (SortedMap.find?_congr hsame _).symm.trans hr
      · exact h.proper.named name d hd node r hr
    · refine .inr fun hlacks' => absurd ?_ hlacks
      rwa [handleLag_core] at hlacks'
  case due => exact List.forall_mem_nil _

end Controller.Watchful

/-! ## The loop -/

namespace LoopState

open Controller (manage)

variable {σ : Type} {team : Collaborators σ} {engine : PatternEngine} {s : LoopState σ}
  {due : List (ResourceName × List NodeName)}

theorem catchUp_watchful (fuel : Nat) (h : s.controller.Watchful due) :
    (catchUp fuel s).controller.Watchful due := by
  induction fuel generalizing s with
  | zero => exact h
  | succ fuel ih =>
    unfold catchUp
    split
    next due o rest _ =>
      split
      · exact ih (h.occur o)
      · exact h
    next => exact h

theorem drainConvoy_watchful (fuel : Nat) {v : Convoy} (h : s.controller.Watchful v.notices) :
    (drainConvoy team fuel s v).controller.Watchful [] := by
  induction fuel generalizing s v with
  | zero => exact h.mono (List.forall_mem_nil _)
  | succ fuel ih =>
    unfold drainConvoy
    split
    · exact h.mono (List.forall_mem_nil _)
    · exact ih (catchUp_watchful _ h.convoyStep)

theorem cycle_watchful (hteam : team.BuiltIn engine) (h : s.controller.Watchful []) :
    (cycle team [manage team] s).controller.Watchful [] := by
  have hplanned := h.planCycle hteam
  unfold cycle
  generalize Controller.planCycle [manage team] s.controller = planned at hplanned ⊢
  dsimp only at hplanned ⊢
  set convoy := Controller.CyclePlan.convoy planned.2
  have hdrained : (drainConvoy team convoy.turns { s with controller := planned.1 }
      convoy).controller.Watchful [] := drainConvoy_watchful _ hplanned
  exact hdrained.of_eq rfl rfl rfl

theorem step_watchful (hteam : team.BuiltIn engine) (interval horizon : Nat)
    (h : s.controller.Watchful []) :
    (step team [manage team] interval horizon s).controller.Watchful [] := by
  unfold step
  split
  · exact cycle_watchful hteam h
  · dsimp only
    split
    next e hreceived => exact cycle_watchful hteam (h.handleEvent hreceived)
    next => exact h.handleLag
    next => exact h.of_eq rfl rfl rfl

end LoopState

namespace Controller

variable {σ : Type} {engine : PatternEngine} {start c : Controller σ}
  {due : List (ResourceName × List NodeName)}

/-- What becomes of a controller whose loop goes on and to which things happen in between. An
iteration of the loop may find a tick that is due, an event, or the news that events were dropped;
more things may happen while its pipelines wait for satellites. -/
inductive Looped (start : Controller σ) : Controller σ → Prop
  | start : Looped start start
  | occur {c : Controller σ} (before : Looped start c) (o : Occurrence) : Looped start (c.occur o).1
  | iterate {s : LoopState σ} (before : Looped start s.controller) {team : Collaborators σ}
    {engine : PatternEngine} (builtIn : team.BuiltIn engine) (interval horizon : Nat) :
    Looped start (LoopState.step team [manage team] interval horizon s).controller

/-- The loop of the controller is such a run. -/
theorem Looped.go {s : LoopState σ} (h : Looped start s.controller) {team : Collaborators σ}
    (hteam : team.BuiltIn engine) (interval horizon fuel : Nat) :
    Looped start (LoopState.go team [manage team] interval horizon fuel s).controller := by
  have hcatchUp (fuel : Nat) (s : LoopState σ) (h : Looped start s.controller) :
      Looped start (LoopState.catchUp fuel s).controller := by
    induction fuel generalizing s with
    | zero => exact h
    | succ fuel ih =>
      unfold LoopState.catchUp
      split
      next due o rest _ =>
        split
        · exact ih _ (h.occur o)
        · exact h
      next => exact h
  induction fuel generalizing s with
  | zero => exact h
  | succ fuel ih =>
    have hsettled : Looped start s.settle.controller := hcatchUp _ s h
    unfold LoopState.go
    dsimp only
    split
    · exact hsettled
    · exact ih (hsettled.iterate hteam interval horizon)

theorem Looped.watchful (h : Looped start c) (hstart : start.Watchful []) : c.Watchful [] := by
  induction h with
  | start => exact hstart
  | occur _ o ih => exact ih.occur o
  | iterate _ builtIn interval horizon ih =>
    exact LoopState.step_watchful builtIn interval horizon ih

theorem watchful_of_tracked (hproper : c.core.graph.Proper) (hlistening : c.events.listening = true)
    (htracked : ∀ name, c.core.Lacks name → c.tracking.isTracked name = true) : c.Watchful [] := by
  refine ⟨hproper, hlistening, fun name => ?_, List.forall_mem_nil _⟩
  by_cases hname : c.core.Lacks name
  · exact .inl (htracked name hname)
  · exact .inr fun hlacks => absurd hlacks hname

/-- Nobody is excused when nothing is left to receive. -/
theorem Watchful.isTracked (h : c.Watchful due) (hquiet : c.events.receive.2 = .nothing)
    {name : ResourceName} (hlacks : c.core.Lacks name) : c.tracking.isTracked name = true := by
  obtain ⟨hdropped, hpending⟩ := Channel.receive_nothing hquiet
  rcases h.watched name with ht | he
  · exact ht
  · rcases he hlacks with hlost | ⟨e, hmem, _⟩
    · omega
    · rw [hpending] at hmem
      cases hmem

/-- No eviction is lost: when nothing is left to receive, all definitions are tracked that have a
resource on an evicted node and too few replicas. -/
theorem Looped.tracks_lacking (h : Looped start c) (hproper : start.core.graph.Proper)
    (hlistening : start.events.listening = true)
    (htracked : ∀ name, start.core.Lacks name → start.tracking.isTracked name = true)
    (hquiet : c.events.receive.2 = .nothing) (name : ResourceName) (hlacks : c.core.Lacks name) :
    c.tracking.isTracked name = true :=
  (h.watchful (watchful_of_tracked hproper hlistening htracked)).isTracked hquiet hlacks

/-- The loop of the program, with what happens outside at its times, loses none either when it
starts on a graph that can be stored. -/
theorem go_tracks_lacking {s : LoopState σ} {team : Collaborators σ} (hteam : team.BuiltIn engine)
    (hstorable : s.controller.core.graph.Storable)
    (hlistening : s.controller.events.listening = true)
    (htracked : ∀ name, s.controller.core.Lacks name →
      s.controller.tracking.isTracked name = true) (interval horizon fuel : Nat) :
    let c := (LoopState.go team [manage team] interval horizon fuel s).controller
    c.events.receive.2 = .nothing →
      ∀ name, c.core.Lacks name → c.tracking.isTracked name = true := by
  intro c hquiet name hlacks
  have hlooped : Looped s.controller c := Looped.start.go hteam interval horizon fuel
  have hstart := watchful_of_tracked hstorable.proper hlistening htracked
  exact (hlooped.watchful hstart).isTracked hquiet hlacks

end Controller

namespace Sample

/-- `r0` lies on `charlie`, and the loop has just subscribed. -/
def attentive : Controller Unit where
  core := core [charlie]
  satellites := ()
  events := (Channel.ofCapacity 1).subscribe

/-- `charlie` is evicted, and before the loop knows also `bravo`, the only place left. -/
def unattended : Controller Unit := ((attentive.occur (.evict charlie)).1.occur (.evict bravo)).1

def iterate (c : Controller Unit) : Controller Unit :=
  (LoopState.step team [Controller.manage team] 10 100
    { controller := c, nextTick := 10, ahead := [] }).controller

theorem attentive_proper : attentive.core.graph.Proper := by
  refine ⟨core_wellFiled [charlie], fun name d hd node r hr => ?_⟩
  have hfiled := (core_wellFiled [charlie]).definitions name d hd
  have hnamed : ∀ d ∈ attentive.core.graph.definitions.values, ∀ r ∈ d.resources.values,
      compare d.name r.name = .eq := by decide +kernel
  exact Std.TransCmp.eq_trans hfiled
    (hnamed d (SortedMap.mem_values.2 ⟨name, hd⟩) r (SortedMap.mem_values.2 ⟨node, hr⟩))

theorem attentive_whole (name : ResourceName) : ¬ attentive.core.Lacks name := by
  intro hlacks
  obtain ⟨node, ⟨d, _, hd, _⟩, _⟩ := hlacks.evicted
  obtain ⟨key, hkey, hsame⟩ := SortedMap.mem_of_lookup hd
  have hall : ∀ key ∈ attentive.core.graph.definitions.keys,
      (attentive.core.counts? key).all (·.deficit == 0) = true := by decide +kernel
  obtain ⟨counts, hcounts, hshort⟩ := (hlacks.congr hsame).short
  have henough := hall key (List.mem_map.2 ⟨(key, d), hkey, rfl⟩)
  rw [hcounts, Option.all_some, beq_iff_eq] at henough
  omega

theorem unattended_lacks : (iterate (iterate unattended)).core.Lacks r0 := by
  have hhosts : ((iterate (iterate unattended)).core.graph.definitions.find? r0).any
      (fun d => (d.resource? charlie).isSome) = true := by decide +kernel
  obtain ⟨d, hd, hr⟩ := Option.any_eq_true _ _ |>.1 hhosts
  obtain ⟨r, hr⟩ := Option.isSome_iff_exists.1 hr
  exact ⟨⟨charlie, ⟨d, r, hd, hr⟩, by decide +kernel⟩, ⟨1, 1, 1, 0⟩, by decide +kernel,
    by decide⟩

end Sample

open Sample in
/-- The eviction of `charlie` is dropped from the channel, and `r0` is tracked all the same. -/
theorem tracks_lacking_after_lag :
    let c := iterate (iterate unattended)
    unattended.events.dropped = 1 ∧ c.core.Lacks r0 ∧ c.tracking.isTracked r0 = true := by
  intro c
  have hteam : team.BuiltIn initials := ⟨rfl, rfl⟩
  have hiterate (c : Controller Unit) (h : Controller.Looped attentive c) :
      Controller.Looped attentive (iterate c) :=
    .iterate (s := { controller := c, nextTick := 10, ahead := [] }) h hteam 10 100
  have hlooped : Controller.Looped attentive c :=
    hiterate _ (hiterate _ (.occur (.occur .start (.evict charlie)) (.evict bravo)))
  refine ⟨by decide +kernel, unattended_lacks, ?_⟩
  exact hlooped.tracks_lacking attentive_proper rfl (fun name h => absurd h (attentive_whole name))
    (by decide +kernel) r0 unattended_lacks

end StorageCluster
