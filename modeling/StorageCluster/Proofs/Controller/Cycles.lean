import StorageCluster.Controller.Loop

/-!
# What cycles keep

A cycle reaches the core of a controller only through its helpers, and the loop only through cycles
and through what happens outside. So a property of the core that those keep is kept by whole cycles
and by the loop: pipelines, pushes, events and counters leave the core alone.
-/
namespace StorageCluster

variable {σ : Type} {team : Collaborators σ} {helpers : List (Helper σ)} {P : Core → Prop}

/-- A property of the core that helpers keep, and whatever happens outside. -/
structure Controller.Kept (helpers : List (Helper σ)) (P : Core → Prop) : Prop where
  managed : ∀ helper ∈ helpers, ∀ c context, P c.core → P (helper c context).controller.core
  occurred : ∀ (c : Controller σ) o, P c.core → P (c.occur o).1.core

namespace Controller

theorem ofUnit_fst (x : Controller σ × Except Fault Unit) : (ofUnit x).1 = x.1 := by
  unfold ofUnit
  split <;> rfl

/-! ## Pipelines -/

theorem runTask_core (team : Collaborators σ) (c : Controller σ) (task : Task) :
    (runTask team c task).1.core = c.core := by
  cases task <;> rfl

theorem runEviction_core (team : Collaborators σ) (c : Controller σ) (name : ResourceName)
    (evicted : List NodeName) : (runEviction team c name evicted).1.core = c.core := by
  unfold runEviction
  split <;> rfl

theorem takeTurn_core (team : Collaborators σ) (c : Controller σ) (j : Job) :
    (takeTurn team c j).controller.core = c.core := by
  unfold takeTurn
  split
  · dsimp only
    split <;> exact runTask_core ..
  · split
    · dsimp only
      split <;> exact runEviction_core ..
    · rfl

theorem convoyStep_core (team : Collaborators σ) (c : Controller σ) (v : Convoy) :
    (convoyStep team c v).1.core = c.core := by
  unfold convoyStep
  split
  · rfl
  · exact takeTurn_core ..

theorem runConvoy_core (team : Collaborators σ) (fuel : Nat) (c : Controller σ) (v : Convoy) :
    (runConvoy team fuel c v).1.core = c.core := by
  induction fuel generalizing c v with
  | zero => rfl
  | succ fuel ih =>
    unfold runConvoy
    split
    · rfl
    · exact (ih _ _).trans (convoyStep_core ..)

/-! ## Cycles -/

section Managed

variable (h : ∀ helper ∈ helpers, ∀ c context, P c.core → P (helper c context).controller.core)

include h

theorem foldl_consult_keeps {state : Controller σ × ManageContext × List ManageOutcome × Report}
    (hs : P state.1.core) : P (helpers.foldl (fun s helper => consult helper s) state).1.core := by
  refine List.foldlRecOn helpers _ (motive := fun state => P (core (Prod.fst state))) hs ?_
  intro state hs helper hm
  have hmanaged := h helper hm state.1 state.2.1 hs
  unfold consult
  dsimp only
  split <;> exact hmanaged

theorem planCycle_keeps {c : Controller σ} (hc : P c.core) : P (planCycle helpers c).1.core := by
  refine List.foldlRecOn _ _ (motive := fun state => P (core (Prod.fst state))) hc ?_
  exact fun state hs _ _ => foldl_consult_keeps h hs

theorem runCycle_keeps {c : Controller σ} (hc : P c.core) :
    P (runCycle team helpers c).1.core := by
  have hplan := planCycle_keeps h hc
  unfold runCycle
  dsimp only
  rwa [mapMetrics, runConvoy_core]

end Managed

theorem handleLag_core (c : Controller σ) : c.handleLag.core = c.core :=
  List.foldlRecOn _ _ (motive := fun after => core after = c.core) rfl fun _ h _ _ => h

end Controller

/-! ## The loop -/

namespace LoopState

open Controller (Kept)

theorem catchUp_keeps (h : Kept helpers P) (fuel : Nat) {s : LoopState σ}
    (hs : P s.controller.core) : P (catchUp fuel s).controller.core := by
  induction fuel generalizing s with
  | zero => exact hs
  | succ fuel ih =>
    unfold catchUp
    split
    next due o rest _ =>
      split
      · exact ih (h.occurred s.controller o hs)
      · exact hs
    next => exact hs

theorem drainConvoy_keeps (h : Kept helpers P) (fuel : Nat) {s : LoopState σ} (v : Convoy)
    (hs : P s.controller.core) : P (drainConvoy team fuel s v).controller.core := by
  induction fuel generalizing s v with
  | zero => exact hs
  | succ fuel ih =>
    unfold drainConvoy
    split
    · exact hs
    · have hstep : P (Controller.convoyStep team s.controller v).1.core := by
        rwa [Controller.convoyStep_core]
      exact ih _ (catchUp_keeps h _ hstep)

theorem cycle_keeps (h : Kept helpers P) {s : LoopState σ} (hs : P s.controller.core) :
    P (cycle team helpers s).controller.core :=
  drainConvoy_keeps h _ _ (Controller.planCycle_keeps h.managed hs)

theorem step_keeps (h : Kept helpers P) (interval horizon : Nat) {s : LoopState σ}
    (hs : P s.controller.core) : P (step team helpers interval horizon s).controller.core := by
  unfold step
  split
  · exact cycle_keeps h hs
  · dsimp only
    split
    · exact cycle_keeps h hs
    · rwa [Controller.handleLag_core]
    · exact hs

theorem go_keeps (h : Kept helpers P) (interval horizon fuel : Nat) {s : LoopState σ}
    (hs : P s.controller.core) : P (go team helpers interval horizon fuel s).controller.core := by
  induction fuel generalizing s with
  | zero => exact hs
  | succ fuel ih =>
    have hsettled : P s.settle.controller.core := catchUp_keeps h _ hs
    unfold go
    dsimp only
    split
    · exact hsettled
    · exact ih (step_keeps h interval horizon hsettled)

end LoopState

theorem Controller.runLoop_keeps (h : Kept helpers P) (interval horizon : Nat)
    (ahead : List (Nat × Occurrence)) {c : Controller σ} (hc : P c.core) :
    P (runLoop team helpers interval horizon ahead c).1.core :=
  LoopState.go_keeps h interval horizon _ hc

end StorageCluster
