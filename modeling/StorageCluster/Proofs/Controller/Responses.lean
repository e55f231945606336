import StorageCluster.Controller.Peers
import StorageCluster.Proofs.Controller.Policy
import StorageCluster.Proofs.Satellite.Answers

/-!
# Responses to a push

A push meets every node that the filter lets pass once: its own resource and the snapshots on it are
exchanged for a reply if the node is connected and registered, and nothing is sent otherwise. In
whatever order the responses come in, the report gives account of each of them, and it has an error
just if a satellite answered with one or one did not answer in time.
-/
namespace StorageCluster

namespace Peers

variable {σ : Type} {p : Peers σ} {nodes : SortedMap NodeName Node} {d : Definition} {s s' : σ}
  {rounds : List (Resource × Reply)}

/-! ## What is sent -/

/-- A node that a message can be sent to: it is connected and registered. -/
def Reachable (p : Peers σ) (nodes : SortedMap NodeName Node) (node : NodeName) : Prop :=
  p.isRegistered node = true ∧ ∃ n ∈ nodes.values, n.isConnected = true ∧ (n.name == node) = true

/-- What becomes of one resource. -/
inductive Meets (p : Peers σ) (nodes : SortedMap NodeName Node) (d : Definition) (s : σ)
    (r : Resource) : Reply → σ → Prop
  | exchanged {s' : σ} {waited : Option Nat} {reply : Reply} (hreach : p.Reachable nodes r.node)
      (hreply : p.exchange s r.node
        { isFullSync := false
          resources := [r]
          snapshots := d.snapshots.values.filter fun snap => snap.node == r.node } =
        (s', waited, reply)) : Meets p nodes d s r reply s'
  | unreachable (hreach : ¬p.Reachable nodes r.node) : Meets p nodes d s r .lost s

/-- What becomes of resources, one after the other. -/
inductive Rounds (p : Peers σ) (nodes : SortedMap NodeName Node) (d : Definition) :
    σ → List (Resource × Reply) → σ → Prop
  | none (s : σ) : Rounds p nodes d s [] s
  | next {s s' s'' : σ} {r : Resource} {reply : Reply} {rounds : List (Resource × Reply)}
      (hfirst : Meets p nodes d s r reply s') (hrest : Rounds p nodes d s' rounds s'') :
      Rounds p nodes d s ((r, reply) :: rounds) s''

def response (p : Peers σ) (round : Resource × Reply) : NodeResponse :=
  ⟨round.1.node, p.outcome round.1.node round.2⟩

theorem isConnected_iff {node : NodeName} : isConnected nodes node = true ↔
    ∃ n ∈ nodes.values, n.isConnected = true ∧ (n.name == node) = true := by
  simp [isConnected]

theorem applyOn_unreachable {waited : Option Nat} {responses : List NodeResponse} {r : Resource}
    (hreach : ¬p.Reachable nodes r.node) :
    p.applyOn nodes d (s, waited, responses) r =
      (s, longer waited none, responses ++ [p.response (r, .lost)]) := by
  rw [Reachable, ← isConnected_iff, not_and_or, Bool.not_eq_true, Bool.not_eq_true] at hreach
  cases hconnected : isConnected nodes r.node with
  | false => simp [applyOn, hconnected, response]
  | true =>
    have hregistered : p.isRegistered r.node = false := by simpa [hconnected] using hreach
    simp [applyOn, send, hconnected, hregistered, response]

theorem applyOn_reachable {waited wait : Option Nat} {responses : List NodeResponse} {r : Resource}
    {reply : Reply} (hreach : p.Reachable nodes r.node)
    (hreply : p.exchange s r.node (deliveryFor d r) = (s', wait, reply)) :
    p.applyOn nodes d (s, waited, responses) r =
      (s', longer waited wait, responses ++ [p.response (r, reply)]) := by
  simp [applyOn, send, isConnected_iff.2 hreach.2, hreach.1, hreply, response]

theorem applyOn_meets (p : Peers σ) (nodes : SortedMap NodeName Node) (d : Definition)
    (state : σ × Option Nat × List NodeResponse) (r : Resource) :
    ∃ reply, p.Meets nodes d state.1 r reply (p.applyOn nodes d state r).1 ∧
      (p.applyOn nodes d state r).2.2 = state.2.2 ++ [p.response (r, reply)] := by
  obtain ⟨s, waited, responses⟩ := state
  by_cases hreach : p.Reachable nodes r.node
  · rcases hreply : p.exchange s r.node (deliveryFor d r) with ⟨s', wait, reply⟩
    rw [applyOn_reachable hreach hreply]
    exact ⟨reply, .exchanged hreach hreply, rfl⟩
  · rw [applyOn_unreachable hreach]
    exact ⟨.lost, .unreachable hreach, rfl⟩

theorem foldl_applyOn_rounds (p : Peers σ) (nodes : SortedMap NodeName Node) (d : Definition)
    (state : σ × Option Nat × List NodeResponse) (rs : List Resource) :
    ∃ rounds, rounds.map (·.1) = rs ∧
      p.Rounds nodes d state.1 rounds (rs.foldl (p.applyOn nodes d) state).1 ∧
      (rs.foldl (p.applyOn nodes d) state).2.2 = state.2.2 ++ rounds.map p.response := by
  induction rs generalizing state with
  | nil => exact ⟨[], rfl, .none state.1, by simp⟩
  | cons r rest ih =>
    obtain ⟨reply, hfirst, hresponse⟩ := applyOn_meets p nodes d state r
    obtain ⟨rounds, hrounds, hrest, hresponses⟩ := ih (p.applyOn nodes d state r)
    refine ⟨(r, reply) :: rounds, by rw [List.map_cons, hrounds], .next hfirst hrest, ?_⟩
    rw [List.foldl_cons, hresponses, hresponse, List.append_assoc]
    rfl

/-- Every reply comes from an exchange with its own node, if the node can be reached. -/
theorem Rounds.reply_of_reachable (h : p.Rounds nodes d s rounds s') {r : Resource} {reply : Reply}
    (hr : (r, reply) ∈ rounds) (hreach : p.Reachable nodes r.node) :
    ∃ before, (p.exchange before r.node (deliveryFor d r)).2.2 = reply := by
  induction h with
  | none => cases hr
  | next hfirst _ ih =>
    rcases List.mem_cons.1 hr with hr | hr
    · cases hr
      cases hfirst with
      | exchanged _ hreply => exact ⟨_, congrArg (·.2.2) hreply⟩
      | unreachable hlost => exact absurd hreach hlost
    · exact ih hr

end Peers

/-! ## The report -/

namespace Entry

theorem find?_withRef (e : Entry) (key value : String) :
    (e.withRef key value).refs.find? key = some value :=
  SortedMap.find?_insert_self ..

theorem find?_aboutDefinition (e : Entry) (name : String) :
    (e.aboutDefinition name).refs.find? "Node" = e.refs.find? "Node" := by
  rw [aboutDefinition, withRef, SortedMap.find?_insert, if_neg (by decide)]

theorem not_isError_of_isWarning {e : Entry} (h : e.isWarning = true) : e.isError = false := by
  rw [isWarning, beq_iff_eq] at h
  rw [isError, h]
  rfl

end Entry

namespace NodeResponse

/-- A report that gives account of responses, one after the other: it keeps what a satellite
answered, and has one more entry that names the node. -/
inductive Accounts (resource : ResourceName) (listed : List NodeName)
    (listedText otherText : String) : List NodeResponse → Report → Prop
  | none : Accounts resource listed listedText otherText [] []
  | answered {node : NodeName} {report more : Report} {own : Entry} {rest : List NodeResponse}
      (text : own.message =
        fillTemplate (if listed.contains node then listedText else otherText) node resource)
      (names : own.refs.find? "Node" = some node.display) (fine : own.isError = false)
      (hrest : Accounts resource listed listedText otherText rest more) :
      Accounts resource listed listedText otherText (⟨node, .ok report⟩ :: rest)
        (report ++ own :: more)
  | unreachable {node : NodeName} {more : Report} {own : Entry} {rest : List NodeResponse}
      (text : own.message = "No connection to satellite '" ++ node.display ++ "'")
      (names : own.refs.find? "Node" = some node.display) (warns : own.isWarning = true)
      (hrest : Accounts resource listed listedText otherText rest more) :
      Accounts resource listed listedText otherText
        (⟨node, .error (.notConnected node.display)⟩ :: rest) (own :: more)
  | timedOut {node : NodeName} {after : Duration} {more : Report} {own : Entry}
      {rest : List NodeResponse} (text : own.message = (Fault.timeout node.display after).message)
      (names : own.refs.find? "Node" = some node.display) (errs : own.isError = true)
      (hrest : Accounts resource listed listedText otherText rest more) :
      Accounts resource listed listedText otherText
        (⟨node, .error (.timeout node.display after)⟩ :: rest) (own :: more)

variable {resource : ResourceName} {listed : List NodeName} {listedText otherText : String}
  {responses : List NodeResponse}

theorem unreachable_warns (node : NodeName) (resource : ResourceName) :
    (unreachable node resource).isWarning = true := by
  have hcode : (unreachable node resource).code = Code.notConnectedWarning := rfl
  rw [Entry.isWarning, Entry.severity, hcode]
  rfl

theorem timeout_errs (node : NodeName) (name : String) (after : Duration) :
    (failed node (.timeout name after)).isError = true := by
  have hcode : (failed node (.timeout name after)).code = Code.notConnected := rfl
  rw [Entry.isError_eq, hcode]
  rfl

theorem combineResponses_accounts (p : Peers σ)
    (h : ∀ r ∈ responses, ∃ reply, r.result = p.outcome r.node reply) :
    Accounts resource listed listedText otherText responses
      (combineResponses resource listed listedText otherText responses) := by
  induction responses with
  | nil => exact .none
  | cons r rest ih =>
    obtain ⟨⟨reply, hreply⟩, hrest⟩ := List.forall_mem_cons.1 h
    obtain ⟨node, result⟩ := r
    obtain rfl : result = p.outcome node reply := hreply
    rw [combineResponses, List.flatMap_cons]
    cases reply with
    | report report =>
      rw [entries, Peers.outcome, List.append_assoc]
      refine .answered rfl ?_ (modified_not_isError rfl) (ih hrest)
      exact (Entry.find?_aboutDefinition ..).trans (Entry.find?_withRef ..)
    | lost => exact .unreachable rfl (Entry.find?_withRef ..) (unreachable_warns ..) (ih hrest)
    | timedOut => exact .timedOut rfl (Entry.find?_withRef ..) (timeout_errs ..) (ih hrest)

/-- A satellite answered with an error or did not answer in time. -/
def Fails (r : NodeResponse) : Prop :=
  (∃ report, r.result = .ok report ∧ report.hasErrors = true) ∨
    ∃ node after, r.result = .error (.timeout node after)

theorem Accounts.hasErrors_iff {report : Report}
    (h : Accounts resource listed listedText otherText responses report) :
    report.hasErrors = true ↔ ∃ r ∈ responses, r.Fails := by
  have hcons (own : Entry) (more : Report) :
      Report.hasErrors (own :: more) = (own.isError || more.hasErrors) := rfl
  induction h with
  | none => simp [Report.hasErrors]
  | answered _ _ hfine _ ih =>
    rw [Report.hasErrors_append, hcons, hfine, Bool.false_or]
    exact (or_congr_right ih).trans (by simp [Fails])
  | unreachable _ _ hwarns _ ih =>
    rw [hcons, Entry.not_isError_of_isWarning hwarns, Bool.false_or]
    exact ih.trans (by simp [Fails])
  | timedOut _ _ herrs _ _ =>
    rw [hcons, herrs]
    simp [Fails]

theorem fails_response_iff (p : Peers σ) (round : Resource × Reply) :
    (p.response round).Fails ↔ round.2 = .timedOut ∨
      ∃ answer, round.2 = .report answer ∧ answer.hasErrors = true := by
  obtain ⟨r, reply⟩ := round
  cases reply <;> simp [Fails, Peers.response, Peers.outcome]

end NodeResponse

open NodeResponse (Accounts fails_response_iff)

/-- However satellites behave, each node that the filter lets pass is met once, and the report gives
account of each. -/
theorem Peers.push_accounts (p : Peers σ) (s : σ) (core : Core) (d : Definition)
    (allow : NodeName → Bool) :
    ∃ rounds : List (Resource × Reply),
      rounds.map (·.1) = d.resources.values.filter (fun r => allow r.node) ∧
      p.Rounds core.graph.nodes d s rounds (p.push s core d allow).satellites ∧
      (p.push s core d allow).answer = .ok (rounds.map p.response) ∧
      (d.WellFiled → (rounds.map p.response).Pairwise fun a b => compare a.node b.node ≠ .eq) ∧
      ∀ order, order.Perm (rounds.map p.response) → ∀ resource listed listedText otherText,
        let report := combineResponses resource listed listedText otherText order
        Accounts resource listed listedText otherText order report ∧
          (report.hasErrors = true ↔ ∃ round ∈ rounds, round.2 = .timedOut ∨
            ∃ answer, round.2 = .report answer ∧ answer.hasErrors = true) := by
  obtain ⟨rounds, htargets, hrounds, hresponses⟩ :=
    foldl_applyOn_rounds p core.graph.nodes d (s, none, []) (targets d allow)
  refine ⟨rounds, htargets, hrounds, congrArg Except.ok hresponses, fun hd => ?_, ?_⟩
  · have hapart := hd.resources.values_pairwise.sublist
      (List.filter_sublist (p := fun r => allow r.node))
    rw [← targets, ← htargets, List.pairwise_map] at hapart
    exact List.pairwise_map.2 hapart
  · intro order horder resource listed listedText otherText report
    have houtcome (r : NodeResponse) (hr : r ∈ order) :
        ∃ reply, r.result = p.outcome r.node reply := by
      obtain ⟨round, -, rfl⟩ := List.mem_map.1 (horder.mem_iff.1 hr)
      exact ⟨round.2, rfl⟩
    have haccounts : Accounts resource listed listedText otherText order report :=
      NodeResponse.combineResponses_accounts p houtcome
    refine ⟨haccounts, haccounts.hasErrors_iff.trans ?_⟩
    simp only [horder.mem_iff, List.mem_map, exists_exists_and_eq_and, fails_response_iff]

/-! Three satellites: the one of `alpha` cannot do what it is told, the one of `bravo` loses its
reply, and the one of `charlie` does not answer. -/
namespace Sample

def trouble : Entry := { code := Code.storageLayer, message := "no space left" }

def moody : Peers Unit where
  isRegistered _ := true
  timeout := .ofMillis 10000
  exchange _ node _ :=
    if node == alpha then ((), some 5, .report [trouble])
    else if node == bravo then ((), some 0, .lost)
    else ((), some 10000, .timedOut)

def trio : Definition := replicated r0 [.drbd, .storage] 4 [alpha, bravo, charlie]

end Sample

open Sample in
theorem push_accounts_for_trio :
    trio.WellFiled ∧ ∃ responses,
      (moody.push () (coreWith [trio] {}) trio fun node => node != bravo).answer = .ok responses ∧
      responses.map (·.node) = [alpha, charlie] ∧
      (responses.Pairwise fun a b => compare a.node b.node ≠ .eq) ∧
      ∀ order, order.Perm responses →
        (combineResponses r0 [alpha] "listed {0}" "other {0}" order).hasErrors = true := by
  have hd : trio.WellFiled := replicated_wellFiled ..
  obtain ⟨rounds, htargets, hrounds, hanswer, hapart, hreport⟩ :=
    Peers.push_accounts moody () (coreWith [trio] {}) trio fun node => node != bravo
  refine ⟨hd, _, hanswer, ?_, hapart hd, fun order horder => ?_⟩
  · have hnodes := congrArg (List.map Resource.node) htargets
    rw [List.map_map] at hnodes ⊢
    exact hnodes.trans (by decide +kernel)
  · have hcharlie : resource charlie ∈ rounds.map (·.1) := by
      rw [htargets]
      decide +kernel
    obtain ⟨⟨_, reply⟩, hround, rfl⟩ := List.mem_map.1 hcharlie
    have hconnected : Peers.isConnected (coreWith [trio] {}).graph.nodes charlie = true := by
      decide +kernel
    obtain ⟨before, hreply⟩ :=
      hrounds.reply_of_reachable hround ⟨rfl, Peers.isConnected_iff.1 hconnected⟩
    have htimeout : reply = .timedOut := hreply.symm
    exact (hreport order horder r0 [alpha] _ _).2.2 ⟨_, hround, .inl htimeout⟩

end StorageCluster
