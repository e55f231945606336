import StorageCluster.Proofs.Controller.Convoys

/-!
# What a cycle pushes

While pipelines run, the satellites change by pushes and by nothing else: `Drains.sends`. A job
pushes what its tasks activate and, if all of that came off, its definition as it is stored by then,
so that the satellites learn which of its resources were lost. It fails just if one of its pushes
does, or a task that has none.
-/
namespace StorageCluster

/-- A push: for which pipeline, of what, and what came of it. -/
structure Sent where
  place : Nat
  definition : Definition
  answer : Except Fault (List NodeResponse)

/-- One push after the other, each of them to all nodes, takes the satellites from one state to
another. -/
inductive Sends {σ : Type} (team : Collaborators σ) (core : Core) : σ → List Sent → σ → Prop
  | done {s : σ} : Sends team core s [] s
  | push {s s' : σ} {log : List Sent} (place : Nat) (d : Definition)
    (next : Sends team core (team.push s core d Controller.allNodes).satellites log s') :
    Sends team core s (⟨place, d, (team.push s core d Controller.allNodes).answer⟩ :: log) s'

/-- What a task pushes; a settled one pushes nothing. -/
def Task.pushed? : Task → Option Definition
  | .activate d _ => some d
  | .settled _ => none

/-- A task that needs no push may have failed beforehand. -/
def Task.hasFailed : Task → Bool
  | .settled (.error _) => true
  | _ => false

/-- The pushes for one pipeline. -/
def sentAt (log : List Sent) (place : Nat) : List Sent := log.filter fun s => s.place == place

/-- A pipeline fails if one of its pushes does, or one of its tasks had. -/
def Pipeline.fails (p : Pipeline) (sent : List Sent) : Bool :=
  p.tasks.any Task.hasFailed || sent.any fun s => !s.answer.isOk

/-- What a job pushes in its next turn. -/
def Job.pushes? (core : Core) (j : Job) : Option Definition :=
  match j.tasks, j.report, j.eviction with
  | task :: _, _, _ => task.pushed?
  | [], .ok _, some (name, _) => core.graph.definitions.find? name
  | [], _, _ => none

theorem Sends.trans {σ : Type} {team : Collaborators σ} {core : Core} {s s' s'' : σ}
    {log log' : List Sent} (h : Sends team core s log s') (h' : Sends team core s' log' s'') :
    Sends team core s (log ++ log') s'' := by
  induction h with
  | done => exact h'
  | push place d _ ih => exact .push place d (ih h')

namespace Controller

variable {σ : Type} {team : Collaborators σ} {c c' : Controller σ} {v v' : Convoy} {j : Job}
  {log turns : List (Controller σ × Job)} {result : Except Fault Report} {core : Core}

/-- The push of a turn. -/
def sent? (team : Collaborators σ) (t : Controller σ × Job) : Option Sent :=
  (t.2.pushes? t.1.core).map fun d =>
    ⟨t.2.place, d, (team.push t.1.satellites t.1.core d allNodes).answer⟩

theorem place_of_sent? {t : Controller σ × Job} {s : Sent} (h : sent? team t = some s) :
    s.place = t.2.place := by
  obtain ⟨_, _, rfl⟩ := Option.map_eq_some_iff.1 h
  rfl

theorem map_definition_cons (t : Controller σ × Job) (log : List (Controller σ × Job)) :
    ((t :: log).filterMap (sent? team)).map Sent.definition =
      (t.2.pushes? t.1.core).toList ++ (log.filterMap (sent? team)).map Sent.definition := by
  cases h : t.2.pushes? t.1.core <;> simp [sent?, h]

theorem sentAt_filterMap (log : List (Controller σ × Job)) (place : Nat) :
    sentAt (log.filterMap (sent? team)) place =
      (log.filter fun t => t.2.place == place).filterMap (sent? team) := by
  rw [sentAt, List.filter_filterMap, List.filterMap_filter]
  refine List.filterMap_congr fun t _ => ?_
  cases hsent : sent? team t with
  | none => simp
  | some s => simp [Option.filter, place_of_sent? hsent]

theorem takeTurn_busy {task : Task} {rest : List Task} (h : j.tasks = task :: rest) :
    (takeTurn team c j).controller = (runTask team c task).1 := by
  simp only [takeTurn, h]
  split <;> rfl

theorem runEviction_sends (team : Collaborators σ) (c : Controller σ) (place : Nat)
    (name : ResourceName) (evicted : List NodeName) :
    Sends team c.core c.satellites
      ((c.core.graph.definitions.find? name).map fun d =>
        Sent.mk place d (team.push c.satellites c.core d allNodes).answer).toList
      (runEviction team c name evicted).1.satellites := by
  unfold runEviction
  cases c.core.graph.definitions.find? name with
  | none => exact .done
  | some d => exact .push place d .done

/-- A turn makes its push and leaves the satellites alone otherwise. -/
theorem takeTurn_sends (team : Collaborators σ) (c : Controller σ) (j : Job) :
    Sends team c.core c.satellites (sent? team (c, j)).toList
      (takeTurn team c j).controller.satellites := by
  obtain ⟨place, tasks, eviction, report⟩ := j
  cases tasks with
  | cons task rest =>
    rw [takeTurn_busy rfl]
    cases task with
    | activate d created => exact .push place d .done
    | settled result => exact .done
  | nil =>
    cases report with
    | error fault => exact .done
    | ok entries =>
      cases eviction with
      | none => exact .done
      | some notice =>
        have hsends := runEviction_sends team c place notice.1 notice.2
        unfold takeTurn
        dsimp only
        split <;> exact hsends

/-- Nothing of a job has failed after a turn if nothing had before it, and neither does its task nor
its push. -/
theorem turnAnswer_isOk (team : Collaborators σ) (c : Controller σ) (j : Job) :
    (joinReports j.report (turnAnswer team c j)).isOk =
      (j.report.isOk && (j.tasks.head?.all fun task => !task.hasFailed) &&
        (sent? team (c, j)).all fun s => s.answer.isOk) := by
  have hmap {α β : Type} (f : α → β) (x : Except Fault α) : (x.map f).isOk = x.isOk := by
    cases x <;> rfl
  obtain ⟨place, tasks, eviction, report⟩ := j
  rw [joinReports_isOk]
  cases report with
  | error fault => rfl
  | ok entries =>
    cases tasks with
    | cons task rest =>
      cases task with
      | activate d created => exact hmap ..
      | settled result => cases result <;> rfl
    | nil =>
      cases eviction with
      | none => rfl
      | some notice =>
        simp only [turnAnswer, runEviction, sent?, Job.pushes?]
        cases c.core.graph.definitions.find? notice.1 with
        | none => rfl
        | some d => exact hmap ..

namespace Course

/-- A job fails just if one of its pushes does, or one of its tasks had. -/
theorem isOk (h : Course team j turns result) :
    result.isOk = (j.report.isOk && (j.tasks.all fun task => !task.hasFailed) &&
      (turns.filterMap (sent? team)).all fun s => s.answer.isOk) := by
  induction h with
  | @last c j result ends =>
    obtain ⟨hresult, hlast, _⟩ := takeTurn_inr ends
    rw [hresult, turnAnswer_isOk]
    cases htasks : j.tasks <;> cases hsent : sent? team (c, j) <;> simp_all
  | @more c j _ turns _ goesOn _ ih =>
    obtain ⟨hbusy, rfl⟩ := takeTurn_inl goesOn
    obtain ⟨task, rest, htasks⟩ := List.exists_cons_of_ne_nil hbusy
    rw [ih, turnAnswer_isOk, htasks]
    cases hsent : sent? team (c, j) <;>
      simp [hsent, Bool.and_assoc, Bool.and_comm, Bool.and_left_comm]

/-- A job pushes what its tasks activate, in their order, and then its definition; it leaves out
nothing if it does not fail. -/
theorem pushes (h : Course team j turns result) (hcore : ∀ t ∈ turns, t.1.core = core)
    {name : ResourceName} {evicted : List NodeName}
    (heviction : j.eviction = some (name, evicted)) :
    ∃ left, (turns.filterMap (sent? team)).map Sent.definition ++ left =
        j.tasks.filterMap Task.pushed? ++ (core.graph.definitions.find? name).toList ∧
      (result.isOk = true → left = []) := by
  have htask (task : Task) (rest : List Task) : (task :: rest).filterMap Task.pushed? =
      task.pushed?.toList ++ rest.filterMap Task.pushed? := by
    cases h : task.pushed? <;> simp [h]
  induction h with
  | @last c j result ends =>
    obtain ⟨hresult, hlast, hdone⟩ := takeTurn_inr ends
    obtain rfl : c.core = core := hcore (c, j) List.mem_cons_self
    rw [map_definition_cons, Job.pushes?]
    cases htasks : j.tasks with
    | nil =>
      cases hreport : j.report with
      | error fault =>
        refine ⟨(c.core.graph.definitions.find? name).toList, rfl, fun hok => ?_⟩
        rw [hresult, turnAnswer_isOk, hreport] at hok
        cases hok
      | ok entries => exact ⟨[], by simp [heviction], fun _ => rfl⟩
    | cons task rest =>
      obtain rfl : rest = [] := by simpa [htasks] using hlast
      refine ⟨(c.core.graph.definitions.find? name).toList, by simp [htask], fun hok => ?_⟩
      have hnone : j.tasks = [] := hdone hok (by rw [heviction]; rfl)
      rw [hnone] at htasks
      cases htasks
  | @more c j _ turns _ goesOn _ ih =>
    obtain ⟨hbusy, rfl⟩ := takeTurn_inl goesOn
    obtain ⟨task, rest, htasks⟩ := List.exists_cons_of_ne_nil hbusy
    obtain ⟨left, hleft, hnone⟩ := ih (List.forall_mem_cons.1 hcore).2 heviction
    rw [htasks, List.tail_cons] at hleft
    refine ⟨left, ?_, hnone⟩
    rw [map_definition_cons, Job.pushes?, htasks, htask, List.append_assoc, hleft,
      List.append_assoc]

end Course

namespace Drains

theorem core_of_mem (h : Drains team c v log c' v') : ∀ t ∈ log, t.1.core = c.core := by
  induction h with
  | done => exact List.forall_mem_nil _
  | turn _ _ ih =>
    refine List.forall_mem_cons.2 ⟨rfl, fun t ht => ?_⟩
    rw [ih t ht, convoyStep_core]

/-- The turns of a convoy make their pushes one after the other, and nobody else makes any. -/
theorem sends (h : Drains team c v log c' v') :
    Sends team c.core c.satellites (log.filterMap (sent? team)) c'.satellites := by
  induction h with
  | done => exact .done
  | @turn c _ v _ j _ log front _ ih =>
    obtain ⟨hcontroller, _⟩ := convoyStep_cases team c front
    rw [hcontroller, takeTurn_core] at ih
    have hlog : ((c, j) :: log).filterMap (sent? team) =
        (sent? team (c, j)).toList ++ log.filterMap (sent? team) := by
      cases hsent : sent? team (c, j) <;> simp [hsent]
    rw [hlog]
    exact (takeTurn_sends team c j).trans ih

end Drains

end Controller

end StorageCluster
