import StorageCluster.Proofs.Controller.Lacking

/-!
# Announcements

What is sent to the loop waits in the channel, or the loop is told that events were dropped. So
whatever happens outside the loop, a definition that comes to lack replicas is announced: the change
of the node that it has a resource on is, or dropped events are.
-/
namespace StorageCluster

namespace Channel

variable {c : Channel}

/-- What is sent arrives, unless events are dropped; then the receiver is told so. -/
theorem mem_pending_send (h : c.listening = true) (e : TopologyEvent) :
    e ∈ (c.send e).pending := by
  unfold send
  split
  · simp_all
  · split <;> simp

theorem send_keeps (c : Channel) (e : TopologyEvent) : c.dropped ≤ (c.send e).dropped ∧
    ∀ other ∈ c.pending, 0 < (c.send e).dropped ∨ other ∈ (c.send e).pending := by
  unfold send
  split
  · exact ⟨Nat.le_refl _, fun _ => .inr⟩
  · split
    · exact ⟨Nat.le_refl _, fun _ ho => .inr (List.mem_append_left _ ho)⟩
    · exact ⟨Nat.le_succ _, fun _ _ => .inl (Nat.succ_pos _)⟩

theorem listening_send (e : TopologyEvent) : (c.send e).listening = c.listening := by
  unfold send
  split
  · rfl
  · split <;> rfl

theorem receive_nothing (h : c.receive.2 = .nothing) : c.dropped = 0 ∧ c.pending = [] := by
  unfold receive at h
  split at h
  · cases h
  · cases h
  next hdropped hpending => exact ⟨hdropped, hpending⟩

theorem receive_event {e : TopologyEvent} (h : c.receive.2 = .event e) :
    c.dropped = 0 ∧ c.pending = e :: c.receive.1.pending := by
  unfold receive at h ⊢
  split at h
  · cases h
  next hdropped hpending =>
    cases h
    exact ⟨hdropped, hpending⟩
  · cases h

theorem listening_receive (c : Channel) : c.receive.1.listening = c.listening := by
  unfold receive
  split <;> rfl

end Channel

namespace Controller

variable {σ : Type} {team : Collaborators σ} {engine : PatternEngine} {c c' : Controller σ}
  {name other : ResourceName} {context : ManageContext}

/-- News are pending that make the loop track the definition. -/
def Announced (c : Controller σ) (name : ResourceName) : Prop :=
  0 < c.events.dropped ∨ ∃ e ∈ c.events.pending, c.core.Hosts name e.node

/-- The definition need not be tracked at the moment. -/
def Excused (c : Controller σ) (name : ResourceName) : Prop :=
  c.core.Lacks name → c.Announced name

theorem Excused.congr (h : compare name other = .eq) (he : c.Excused name) : c.Excused other := by
  intro hlacks
  refine (he (hlacks.congr (Std.OrientedCmp.eq_symm h))).imp id ?_
  rintro ⟨e, hpending, hhosts⟩
  exact ⟨e, hpending, hhosts.congr h⟩

/-! ## What happens outside the loop -/

/-- What happens to the core and the channel: nothing, or an event is sent, or a node changes and
the change is announced. -/
inductive Happening (c c' : Controller σ) : Prop
  | quiet (graph : c'.core.graph = c.core.graph) (props : c'.core.props = c.core.props)
    (events : c'.events = c.events)
  | sent (e : TopologyEvent) (graph : c'.core.graph = c.core.graph)
    (props : c'.core.props = c.core.props) (events : c'.events = c.events.send e)
  | changed (e : TopologyEvent) (change : c.core.graph.NodeChange e.node c'.core.graph)
    (filed : c.core.graph.WellFiled → c'.core.graph.WellFiled)
    (props : c'.core.props = c.core.props) (events : c'.events = c.events.send e)

theorem nodeChange_modify (g : Graph) (node : NodeName) (f : Node → Node) :
    g.NodeChange node { g with nodes := g.nodes.modify node f } := by
  refine ⟨rfl, rfl, fun other ho => ?_⟩
  rw [SortedMap.find?_modify, if_neg ho]

theorem setNodeFlags_happening (c : Controller σ) (set clear : NodeFlags) (e : TopologyEvent) :
    Happening c (c.setNodeFlags e.node set clear e).1 := by
  have hfiled (h : c.core.graph.WellFiled) := Core.updateNodeFlags_wellFiled h e.node set clear
  cases hn : c.core.graph.nodes.find? e.node with
  | none =>
    simp only [setNodeFlags, Core.updateNodeFlags, hn]
    exact .quiet rfl rfl rfl
  | some n =>
    simp only [Core.updateNodeFlags, hn, Core.persist] at hfiled
    simp only [setNodeFlags, Core.updateNodeFlags, hn, Core.persist]
    split at hfiled
    next =>
      simp only [Except.map]
      exact .changed e (nodeChange_modify ..) hfiled rfl rfl
    next =>
      simp only [Except.map]
      exact .quiet rfl rfl rfl

theorem occur_happening (c : Controller σ) (o : Occurrence) : Happening c (c.occur o).1 := by
  cases o with
  | evict node =>
    rw [occur, ofUnit_fst]
    exact c.setNodeFlags_happening _ _ (.nodeEvicted node)
  | restore node =>
    rw [occur, ofUnit_fst]
    exact c.setNodeFlags_happening _ _ (.nodeRestored node)
  | connect node status =>
    have hfiled (h : c.core.graph.WellFiled) :=
      Core.setConnectionStatus_wellFiled h node status
    unfold Core.setConnectionStatus at hfiled
    rw [occur, ofUnit_fst]
    unfold setConnectionStatus Core.setConnectionStatus
    split at hfiled
    next hknown =>
      simp only [hknown, if_true]
      exact .changed (.connectionChanged node status) (nodeChange_modify ..) hfiled rfl rfl
    next hunknown =>
      simp only [hunknown]
      exact .quiet rfl rfl rfl
  | mark => exact .quiet rfl rfl rfl
  | publish e => exact .sent e rfl rfl rfl
  | fault => exact .quiet rfl rfl rfl

theorem setNodeFlags_tracking (c : Controller σ) (node : NodeName) (set clear : NodeFlags)
    (e : TopologyEvent) : (c.setNodeFlags node set clear e).1.tracking = c.tracking := by
  unfold setNodeFlags
  dsimp only
  split <;> rfl

theorem occur_isTracked (c : Controller σ) (o : Occurrence)
    (h : c.tracking.isTracked name = true) : (c.occur o).1.tracking.isTracked name = true := by
  cases o with
  | evict | restore =>
    rw [occur, ofUnit_fst]
    exact (congrArg (Tracking.isTracked · name) (setNodeFlags_tracking ..)).trans h
  | connect node status =>
    rw [occur, ofUnit_fst]
    unfold setConnectionStatus
    split <;> exact h
  | mark marked =>
    refine (Tracking.isTracked_mark ..).trans ?_
    rw [h, Bool.or_true]
  | publish | fault => exact h

theorem Announced.of_eq
    (hd : c'.core.graph.definitions.find? name = c.core.graph.definitions.find? name)
    (hevents : c'.events = c.events) (h : c.Announced name) : c'.Announced name := by
  rw [Announced, hevents]
  exact h.imp_right fun ⟨e, hpending, hhosts⟩ => ⟨e, hpending, hhosts.of_eq hd⟩

theorem Announced.send {e : TopologyEvent}
    (hd : c'.core.graph.definitions = c.core.graph.definitions)
    (hevents : c'.events = c.events.send e) (h : c.Announced name) : c'.Announced name := by
  obtain ⟨hdropped, hkept⟩ := c.events.send_keeps e
  rw [Announced, hevents]
  rcases h with hlost | ⟨other, hpending, hhosts⟩
  · exact .inl (Nat.lt_of_lt_of_le hlost hdropped)
  · exact (hkept other hpending).imp_right fun h => ⟨other, h, hhosts.of_eq (by rw [hd])⟩

theorem Excused.of_sameFor (hsame : Core.SameFor name c.core c'.core)
    (hevents : c'.events = c.events) (he : c.Excused name) : c'.Excused name :=
  fun hlacks => (he (hlacks.of_sameFor hsame)).of_eq hsame.definition hevents

namespace Happening

theorem proper (h : Happening c c') (hg : c.core.graph.Proper) : c'.core.graph.Proper := by
  cases h with
  | quiet graph | sent _ graph => rwa [graph]
  | changed e change filed =>
    refine ⟨filed hg.wellFiled, ?_⟩
    rw [change.definitions]
    exact hg.named

theorem listening (h : Happening c c') (hl : c.events.listening = true) :
    c'.events.listening = true := by
  cases h with
  | quiet _ _ events => rwa [events]
  | sent e _ _ events | changed e _ _ _ events => rwa [events, Channel.listening_send]

/-- A definition that comes to lack replicas has a resource on the node that the event names. -/
theorem excused (h : Happening c c') (hg : c.core.graph.WellFiled)
    (hl : c.events.listening = true) (he : c.Excused name) : c'.Excused name := by
  cases h with
  | quiet graph props events => exact he.of_sameFor (.of_graph graph props name) events
  | sent e graph props events =>
    intro hlacks
    exact (he (hlacks.of_sameFor (.of_graph graph props name))).send (by rw [graph]) events
  | changed e change filed props events =>
    intro hlacks
    by_cases hhosts : c.core.Hosts name e.node
    · refine .inr ⟨e, ?_, hhosts.of_eq (by rw [change.definitions])⟩
      rw [events]
      exact Channel.mem_pending_send hl e
    · exact (he (hlacks.of_nodeChange hg change props hhosts)).send change.definitions events

end Happening

theorem manage_excused (hteam : team.BuiltIn engine) (hw : c.core.graph.WellFiled)
    (he : c.Excused name) : (manage team c context).controller.Excused name := by
  have hevents := (manage_frame team c context).1
  by_cases hs : (manage team c context).outcome = .ok .scheduled
  · by_cases hn : compare name context.name = .eq
    · intro hlacks
      exact absurd (hlacks.congr hn) (not_lacks_of_scheduled hteam hw hs)
    · exact he.of_sameFor (manage_sameFor team c hn) hevents
  · have hu := (manage_exit team c context).untouched hs
    exact he.of_sameFor (.of_graph hu.graph hu.props name) hevents

end Controller

end StorageCluster
