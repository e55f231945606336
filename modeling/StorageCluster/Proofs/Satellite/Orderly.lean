import StorageCluster.Proofs.Satellite.Chain
import StorageCluster.Satellite.Drbd
import StorageCluster.Satellite.Luks
import StorageCluster.Satellite.Storage

/-!
# Orderly handlers

A handler is orderly when it fails only with faults of layers and reports no error itself, provided
that the layers below it do. The built-in layers are. In a linked arena every layer can then be
processed in that way: no layer is unknown, and none lies below itself.
-/
namespace StorageCluster

/-- Faults that a layer may raise. -/
def Fault.isLayerFault : Fault → Bool
  | .storage _ | .resourceLayer _ | .volumeLayer _ | .layerStack _ => true
  | _ => false

theorem Entry.isError_eq (e : Entry) :
    e.isError = (e.code &&& Code.severityMask == Code.error) := rfl

theorem Entry.not_isError {e : Entry} (code : UInt64) (he : e.code = code)
    (h : (code &&& Code.severityMask == Code.error) = false) : e.isError = false := by
  rw [isError_eq, he]
  exact h

theorem Fault.isError_toEntry {fault : Fault} (h : fault.isLayerFault = true) :
    fault.toEntry.isError = true := by
  rw [Entry.isError_eq]
  cases fault with
  | storage f =>
    have hc : (storage f).toEntry.code = Code.storageLayer := rfl
    rw [hc]
    rfl
  | resourceLayer f =>
    have hc : (resourceLayer f).toEntry.code = Code.resourceLayer := rfl
    rw [hc]
    rfl
  | volumeLayer f =>
    have hc : (volumeLayer f).toEntry.code = Code.volumeLayer := rfl
    rw [hc]
    rfl
  | layerStack text =>
    have hc : (layerStack text).toEntry.code = Code.invalidLayerStack := rfl
    rw [hc]
    rfl
  | _ => cases h

variable {δ : Type}

structure Act.Orderly {α : Type} (act : Act δ α) : Prop where
  fault : ∀ s f, s.2.hasErrors = false → (act.run s).1 = .error f → f.isLayerFault = true
  entries : ∀ s, s.2.hasErrors = false → (act.run s).2.2.hasErrors = false

structure LayerHandler.Orderly (h : LayerHandler δ) : Prop where
  process : ∀ layer descend, Act.Orderly descend → (h.process layer descend).Orderly

def Registry.Orderly (r : Registry δ) : Prop :=
  ∀ kind h, r.find? kind = some h → h.Orderly

theorem Registry.Orderly.empty : Registry.Orderly (.empty : Registry δ) := by
  intro kind h hf
  cases hf

theorem Registry.Orderly.register {r : Registry δ} (hr : r.Orderly) {h : LayerHandler δ}
    (hh : h.Orderly) : (r.register h).Orderly := by
  intro kind found hf
  rw [Registry.register, SortedMap.find?_insert] at hf
  split at hf
  · cases hf
    exact hh
  · exact hr kind found hf

namespace Act.Orderly

variable {α β : Type}

/-- An action that never fails and reports nothing. -/
theorem of_silent {act : Act δ α} (hok : ∀ s, ∃ a, (act.run s).1 = .ok a)
    (hentries : ∀ s, (act.run s).2.2 = s.2) : act.Orderly := by
  constructor
  · intro s f _ hf
    obtain ⟨a, ha⟩ := hok s
    rw [ha] at hf
    cases hf
  · intro s hs
    rwa [hentries]

theorem pure (a : α) : Orderly (Pure.pure a : Act δ α) :=
  of_silent (fun _ => ⟨a, rfl⟩) fun _ => rfl

theorem throw {f : Fault} (h : f.isLayerFault = true) : Orderly (throw f : Act δ α) := by
  constructor
  · intro s f' _ hf
    cases hf
    exact h
  · intro s hs
    exact hs

theorem devices : Orderly (Act.devices : Act δ δ) :=
  of_silent (fun s => ⟨s.1, rfl⟩) fun _ => rfl

theorem update (g : δ → δ) : Orderly (Act.update g) :=
  of_silent (fun _ => ⟨(), rfl⟩) fun _ => rfl

theorem report {e : Entry} (h : e.isError = false) : Orderly (Act.report e : Act δ Unit) := by
  constructor
  · intro s f _ hf
    cases hf
  · intro s hs
    change Report.hasErrors (s.2 ++ [e]) = false
    unfold Report.hasErrors at hs ⊢
    simp [hs, h]

theorem run_bind (x : Act δ α) (next : α → Act δ β) (s : δ × Report) :
    (x >>= next).run s =
      match x.run s with
      | (.ok a, s') => (next a).run s'
      | (.error f, s') => (.error f, s') := by
  change (match x.run s with
    | (result, s') => (ExceptT.bindCont next result).run s') = _
  rcases x.run s with ⟨_ | _, s'⟩ <;> rfl

theorem bind {x : Act δ α} {next : α → Act δ β} (hx : x.Orderly) (hn : ∀ a, (next a).Orderly) :
    Orderly (x >>= next) := by
  constructor
  · intro s f hs hf
    have hentries := hx.entries s hs
    have hfault := hx.fault s f hs
    rw [run_bind] at hf
    rcases hr : x.run s with ⟨f' | a, s'⟩
    · rw [hr] at hf hfault
      refine hfault ?_
      cases hf
      rfl
    · rw [hr] at hf hentries
      exact (hn a).fault s' f hentries hf
  · intro s hs
    have hentries := hx.entries s hs
    rw [run_bind]
    rcases hr : x.run s with ⟨f' | a, s'⟩
    · rw [hr] at hentries
      exact hentries
    · rw [hr] at hentries
      exact (hn a).entries s' hentries

theorem forM {items : List α} {f : α → Act δ Unit}
    (h : ∀ a ∈ items, (f a).Orderly) : Orderly (items.forM f) := by
  induction items with
  | nil => exact pure ()
  | cons a rest ih =>
    exact bind (h a List.mem_cons_self) fun _ => ih fun b hb => h b (List.mem_cons_of_mem a hb)

end Act.Orderly

theorem modified_not_isError {e : Entry} (h : e.code = Code.resource ||| Code.modified) :
    e.isError = false :=
  e.not_isError (Code.resource ||| Code.modified) h rfl

theorem deleted_not_isError {e : Entry} (h : e.code = Code.resource ||| Code.deleted) :
    e.isError = false :=
  e.not_isError (Code.resource ||| Code.deleted) h rfl

theorem drbdLayer_orderly : drbdLayer.Orderly := by
  constructor
  intro layer descend hd
  change (Drbd.process layer descend).Orderly
  have hbelow {next : Act Devices Unit} (hn : next.Orderly) :
      Act.Orderly (if (!layer.resource.isDiskless) = true then do descend; next else next) := by
    split
    · exact hd.bind fun _ => hn
    · exact hn
  unfold Drbd.process
  dsimp only
  split
  · refine hbelow ((Act.Orderly.update _).bind fun _ => .report ?_)
    exact deleted_not_isError rfl
  · refine .bind ?_ fun minor => hbelow (.report (modified_not_isError rfl))
    exact Act.Orderly.devices.bind fun _ => (Act.Orderly.update _).bind fun _ => .pure _

theorem luksLayer_orderly : luksLayer.Orderly := by
  constructor
  intro layer descend hd
  change (Luks.process layer descend).Orderly
  unfold Luks.process
  dsimp only
  split
  · exact (Act.Orderly.update _).bind fun _ => hd
  · refine Act.Orderly.devices.bind fun d => ?_
    split
    · exact .throw rfl
    · refine hd.bind fun _ => (Act.Orderly.update _).bind fun _ => .report ?_
      exact modified_not_isError rfl

/-- Volumes that cannot be added are a fault of their layer. -/
theorem StorageState.addVolumes_fault {s : StorageState} {name : ResourceName}
    {volumes : List Volume} {fault : Fault} (h : (s.addVolumes name volumes).2 = .error fault) :
    fault.isLayerFault = true := by
  induction volumes generalizing s with
  | nil => cases h
  | cons v rest ih =>
    unfold StorageState.addVolumes at h
    split at h
    · exact ih h
    next fault' hv =>
      cases h
      unfold addVolume at hv
      dsimp only at hv
      split at hv
      · cases hv
      · split at hv
        · cases hv
          rfl
        · split at hv
          · cases hv
            rfl
          · cases hv

theorem storageLayer_orderly : storageLayer.Orderly := by
  constructor
  intro layer descend _
  change (Storage.process layer descend).Orderly
  unfold Storage.process
  dsimp only
  split
  · refine Act.Orderly.devices.bind fun _ => (Act.Orderly.update _).bind fun _ => .report ?_
    exact deleted_not_isError rfl
  · split
    · exact .pure ()
    · refine .bind ?_ fun _ => .report ?_
      · refine Act.Orderly.devices.bind fun d => (Act.Orderly.update _).bind fun _ => ?_
        split
        · exact .pure ()
        next fault hf => exact .throw (StorageState.addVolumes_fault hf)
      · exact modified_not_isError rfl

variable {registry : Registry δ} {a : Arena}

theorem processLayer_orderly (hr : registry.Orderly) (ha : a.Linked) (fuel : Nat) {i : Nat}
    {l : LayerResource} (hl : a.layers[i]? = some l) (hf : a.size ≤ i + fuel) :
    (processLayer registry a fuel ⟨i⟩).Orderly := by
  induction fuel generalizing i l with
  | zero =>
    have hi : i < a.size := (List.getElem?_eq_some_iff.1 hl).1
    omega
  | succ fuel ih =>
    have hget : a.get? ⟨i⟩ = some l := hl
    simp only [processLayer, hget]
    cases hk : registry.find? l.kind with
    | none => exact .throw rfl
    | some handler =>
      refine (hr l.kind handler hk).process l _ (.forM ?_)
      intro c hc
      obtain ⟨hlt, down, hd⟩ := ha.children i l hl c hc
      exact ih hd (by omega)

theorem processTree_orderly (hr : registry.Orderly) (ha : a.Linked) {l : LayerResource}
    (hl : l ∈ a.layers) : (processTree registry a l.id).Orderly := by
  obtain ⟨i, hi⟩ := List.getElem?_of_mem hl
  rw [processTree, ha.place i l hi]
  exact processLayer_orderly hr ha (a.size + 1) hi (by omega)

end StorageCluster
