import Mathlib.Logic.Relation
import StorageCluster.Proofs.Satellite.Capacity
import StorageCluster.Proofs.Satellite.Chain

/-!
# What the built-in layers do

In an arena of chains, processing the top of a chain is the work of its stack: the built-in layers
one within the other. `work_steps` says all that this work can do to the devices: it makes some of
the changes of the layers that it reaches, for its own resource and no other.
-/
namespace StorageCluster

/-- The layers that every satellite has. -/
def Registry.builtIn : Registry Devices :=
  [drbdLayer, luksLayer, storageLayer].foldl Registry.register .empty

theorem Registry.find?_builtIn (kind : LayerKind) :
    Registry.builtIn.find? kind = match kind with
      | .drbd => some drbdLayer
      | .luks => some luksLayer
      | .nvme => none
      | .storage => some storageLayer := by
  cases kind <;> rfl

theorem Registry.builtIn_orderly : Registry.builtIn.Orderly :=
  ((Registry.Orderly.empty.register drbdLayer_orderly).register luksLayer_orderly).register
    storageLayer_orderly

namespace Resource

/-- A resource as a layer of some kind, apart from any arena. -/
def layer (r : Resource) (kind : LayerKind) : LayerResource := { id := ⟨0⟩, kind, resource := r }

/-- What the layers of a stack do for a resource, from top to bottom. -/
def work (r : Resource) : List LayerKind → Act Devices Unit
  | [] => return ()
  | .drbd :: rest => Drbd.process (r.layer .drbd) (work r rest)
  | .luks :: rest => Luks.process (r.layer .luks) (work r rest)
  | .nvme :: _ => throw (.layerStack ("No device layer registered for " ++ LayerKind.nvme.name))
  | .storage :: rest => Storage.process (r.layer .storage) (work r rest)

/-- The layers that the work on a resource gets to. -/
def reached (r : Resource) : List LayerKind → List LayerKind
  | [] => []
  | .drbd :: rest => .drbd :: if r.isDiskless then [] else reached r rest
  | .luks :: rest => .luks :: reached r rest
  | .nvme :: _ => [.nvme]
  | .storage :: _ => [.storage]

theorem reached_subset (r : Resource) (stack : List LayerKind) : r.reached stack ⊆ stack := by
  induction stack with
  | nil => exact List.Subset.refl _
  | cons kind rest ih =>
    cases kind with
    | drbd =>
      rw [reached]
      split
      · exact List.cons_subset_cons _ (List.nil_subset _)
      · exact List.cons_subset_cons _ ih
    | luks => exact List.cons_subset_cons _ ih
    | nvme => exact List.cons_subset_cons _ (List.nil_subset _)
    | storage => exact List.cons_subset_cons _ (List.nil_subset _)

end Resource

/-! ## Chains -/

namespace Arena

variable {a : Arena} {r : Resource}

/-- The chain of a resource stands in the arena, its first layer at the given index. -/
def Holds (a : Arena) (r : Resource) : Nat → List LayerKind → Prop
  | _, [] => True
  | index, kind :: rest =>
    (∃ l, a.get? ⟨index⟩ = some l ∧ l.kind = kind ∧ l.resource = r ∧
      l.children = if rest.isEmpty then [] else [⟨index + 1⟩]) ∧ a.Holds r (index + 1) rest

theorem Holds.of_layers {b : Arena} {index : Nat} {stack : List LayerKind}
    (h : a.Holds r index stack)
    (hsame : ∀ id l, a.get? id = some l → ∃ l', b.get? id = some l' ∧ l'.kind = l.kind ∧
      l'.resource = l.resource ∧ l'.children = l.children) : b.Holds r index stack := by
  induction stack generalizing index with
  | nil => trivial
  | cons kind rest ih =>
    obtain ⟨⟨l, hl, hkind, hr, hc⟩, hrest⟩ := h
    obtain ⟨l', hl', hkind', hr', hc'⟩ := hsame _ l hl
    exact ⟨⟨l', hl', hkind'.trans hkind, hr'.trans hr, hc'.trans hc⟩, ih hrest⟩

theorem Holds.append {index : Nat} {stack : List LayerKind} (h : a.Holds r index stack)
    (more : List LayerResource) : Holds ⟨a.layers ++ more⟩ r index stack := by
  exact h.of_layers fun id l hl => ⟨l, get?_append hl more, rfl, rfl, rfl⟩

theorem holds_chain (r : Resource) (before : List LayerResource) (parent : Option LayerId)
    (stack : List LayerKind) :
    Holds ⟨before ++ chain r before.length parent stack⟩ r before.length stack := by
  induction stack generalizing before parent with
  | nil => trivial
  | cons kind rest ih =>
    let top : LayerResource :=
      { id := ⟨before.length⟩, kind, resource := r, parent
        children := if rest.isEmpty then [] else [⟨before.length + 1⟩] }
    refine ⟨⟨top, ?_, rfl, rfl, rfl⟩, ?_⟩
    · rw [get?, chain, List.getElem?_append_right (Nat.le_refl _), Nat.sub_self]
      rfl
    · have hrest := ih (before ++ [top]) (some ⟨before.length⟩)
      rw [List.append_assoc, List.length_append] at hrest
      exact hrest

theorem Holds.length_le {index : Nat} {stack : List LayerKind} (h : a.Holds r index stack)
    (hi : index ≤ a.size) : index + stack.length ≤ a.size := by
  induction stack generalizing index with
  | nil => exact hi
  | cons kind rest ih =>
    obtain ⟨⟨l, hl, _⟩, hrest⟩ := h
    have hlt : index < a.layers.length := (List.getElem?_eq_some_iff.1 hl).1
    have hle := ih hrest hlt
    rw [List.length_cons]
    omega

/-- Processing the top of a chain is the work of its stack. -/
theorem Holds.processLayer_eq {index fuel : Nat} {stack : List LayerKind}
    (h : a.Holds r index stack) (hne : stack ≠ []) (hf : stack.length ≤ fuel) :
    processLayer Registry.builtIn a fuel ⟨index⟩ = r.work stack := by
  induction stack generalizing index fuel with
  | nil => exact absurd rfl hne
  | cons kind rest ih =>
    obtain ⟨⟨l, hl, hkind, hr, hc⟩, hrest⟩ := h
    obtain ⟨fuel, rfl⟩ : ∃ n, fuel = n + 1 := ⟨fuel - 1, by simp at hf; omega⟩
    have hbelow : l.children.forM (processLayer Registry.builtIn a fuel) = r.work rest := by
      rw [hc]
      cases rest with
      | nil => rfl
      | cons next more =>
        have hnext := ih hrest (List.cons_ne_nil _ _) (Nat.le_of_succ_le_succ hf)
        simp [hnext]
    subst hr hkind
    simp only [processLayer, hl, Registry.find?_builtIn]
    rw [hbelow]
    cases hk : l.kind <;> rfl

end Arena

/-! ## The runs of the layers -/

theorem Act.devices_run {δ : Type} (d : δ) (entries : Report) :
    (Act.devices : Act δ δ).run (d, entries) = (.ok d, d, entries) :=
  rfl

theorem Drbd.allocateMinor_run (name : ResourceName) (d : Devices) (entries : Report) :
    (allocateMinor name).run (d, entries) =
      (.ok (d.drbd.allocate name).1, { d with drbd := (d.drbd.allocate name).2 }, entries) :=
  rfl

/-- Below a diskless resource there is nothing to do. -/
def Resource.under (r : Resource) (descend : Act Devices Unit) : Act Devices Unit :=
  if r.isDiskless then return () else descend

theorem Drbd.process_run (l : LayerResource) (descend : Act Devices Unit) (d : Devices)
    (entries : Report) :
    (process l descend).run (d, entries) =
      if l.resource.isDeleted then
        match (l.resource.under descend).run (d, entries) with
        | (.ok (), d, entries) =>
          (.ok (), { d with drbd := d.drbd.release l.resource.name },
            entries ++ [shutDown l.resource.name])
        | (.error fault, after) => (.error fault, after)
      else
        let allocated := d.drbd.allocate l.resource.name
        match (l.resource.under descend).run ({ d with drbd := allocated.2 }, entries) with
        | (.ok (), d, entries) =>
          (.ok (), d, entries ++ [adjusted l.resource.name allocated.1])
        | (.error fault, after) => (.error fault, after) := by
  unfold process Resource.under
  dsimp only
  cases l.resource.isDeleted <;> cases l.resource.isDiskless
  · simp only [Bool.not_false, if_true, if_false, Bool.false_eq_true, Act.Orderly.run_bind,
      allocateMinor_run]
    rcases descend.run _ with ⟨_ | _, _⟩ <;> rfl
  · rfl
  · simp only [Bool.not_false, if_true, if_false, Bool.false_eq_true, Act.Orderly.run_bind]
    rcases descend.run (d, entries) with ⟨_ | _, _⟩ <;> rfl
  · rfl

theorem Luks.process_run (l : LayerResource) (descend : Act Devices Unit) (d : Devices)
    (entries : Report) :
    (process l descend).run (d, entries) =
      if l.resource.isDeleted then
        descend.run
          ({ d with luks := { d.luks with opened := d.luks.opened.erase l.resource.name } },
            entries)
      else if d.luks.masterKey.isNone then (.error (keyMissing l.resource.name), d, entries)
      else
        match descend.run (d, entries) with
        | (.ok (), d, entries) =>
          (.ok (),
            { d with luks := { d.luks with opened := d.luks.opened.insert l.resource.name () } },
            entries ++ [opened l.resource.name])
        | (.error fault, after) => (.error fault, after) := by
  unfold process
  dsimp only
  cases l.resource.isDeleted
  · simp only [if_false, Bool.false_eq_true, Act.Orderly.run_bind, Act.devices_run]
    cases d.luks.masterKey.isNone
    · simp only [if_false, Bool.false_eq_true, Act.Orderly.run_bind]
      rcases descend.run (d, entries) with ⟨_ | _, _⟩ <;> rfl
    · rfl
  · rfl

namespace Resource

theorem work_drbd (r : Resource) (rest : List LayerKind) (d : Devices) (entries : Report) :
    (r.work (.drbd :: rest)).run (d, entries) =
      if r.isDeleted then
        match (r.under (r.work rest)).run (d, entries) with
        | (.ok (), d, entries) =>
          (.ok (), { d with drbd := d.drbd.release r.name }, entries ++ [Drbd.shutDown r.name])
        | (.error fault, after) => (.error fault, after)
      else
        let allocated := d.drbd.allocate r.name
        match (r.under (r.work rest)).run ({ d with drbd := allocated.2 }, entries) with
        | (.ok (), d, entries) => (.ok (), d, entries ++ [Drbd.adjusted r.name allocated.1])
        | (.error fault, after) => (.error fault, after) :=
  Drbd.process_run (r.layer .drbd) (r.work rest) d entries

theorem work_luks (r : Resource) (rest : List LayerKind) (d : Devices) (entries : Report) :
    (r.work (.luks :: rest)).run (d, entries) =
      if r.isDeleted then
        (r.work rest).run
          ({ d with luks := { d.luks with opened := d.luks.opened.erase r.name } }, entries)
      else if d.luks.masterKey.isNone then (.error (Luks.keyMissing r.name), d, entries)
      else
        match (r.work rest).run (d, entries) with
        | (.ok (), d, entries) =>
          (.ok (), { d with luks := { d.luks with opened := d.luks.opened.insert r.name () } },
            entries ++ [Luks.opened r.name])
        | (.error fault, after) => (.error fault, after) :=
  Luks.process_run (r.layer .luks) (r.work rest) d entries

theorem work_storage (r : Resource) (rest : List LayerKind) (d : Devices) (entries : Report) :
    (r.work (.storage :: rest)).run (d, entries) =
      if r.isDeleted then
        (.ok (), { d with storage := d.storage.release r.name },
          entries ++ [Storage.deleted r.name (d.storage.volumesOf r.name).length])
      else if r.isDiskless then (.ok (), d, entries)
      else
        let added := d.storage.addVolumes r.name r.volumes.values
        match added.2 with
        | .ok () => (.ok (), { d with storage := added.1 }, entries ++ [Storage.ready r.name])
        | .error fault => (.error fault, { d with storage := added.1 }, entries) := by
  obtain ⟨l, hl, rfl⟩ : ∃ l, r.layer .storage = l ∧ l.resource = r := ⟨_, rfl, rfl⟩
  rw [work, hl, Storage.process]
  dsimp only
  cases l.resource.isDeleted
  · cases l.resource.isDiskless
    · simp only [if_false, Bool.false_eq_true, Act.Orderly.run_bind, Storage.addVolumes_run]
      rcases d.storage.addVolumes l.resource.name l.resource.volumes.values with ⟨_, _ | _⟩ <;> rfl
    · rfl
  · rfl

/-- The work on a resource fails with faults of layers only, and reports no errors itself. -/
theorem work_orderly (r : Resource) (stack : List LayerKind) : (r.work stack).Orderly := by
  induction stack with
  | nil => exact .pure ()
  | cons kind rest ih =>
    cases kind with
    | drbd => exact drbdLayer_orderly.process (r.layer .drbd) (r.work rest) ih
    | luks => exact luksLayer_orderly.process (r.layer .luks) (r.work rest) ih
    | nvme => exact .throw rfl
    | storage => exact storageLayer_orderly.process (r.layer .storage) (r.work rest) ih

/-! ## Steps -/

variable {r : Resource} {kind : LayerKind} {kinds : List LayerKind} {d d' : Devices}

/-- The changes that the built-in layers make to the devices for a resource. -/
inductive Step (r : Resource) : LayerKind → Devices → Devices → Prop
  | allocate {d : Devices} (live : r.isDeleted = false) :
    r.Step .drbd d { d with drbd := (d.drbd.allocate r.name).2 }
  | surrender {d : Devices} (deleted : r.isDeleted = true) :
    r.Step .drbd d { d with drbd := d.drbd.release r.name }
  | unlock {d : Devices} (live : r.isDeleted = false) :
    r.Step .luks d { d with luks := { d.luks with opened := d.luks.opened.insert r.name () } }
  | lock {d : Devices} (deleted : r.isDeleted = true) :
    r.Step .luks d { d with luks := { d.luks with opened := d.luks.opened.erase r.name } }
  | create {d : Devices} (live : r.isDeleted = false) (diskful : r.isDiskless = false) :
    r.Step .storage d
      { d with storage := (d.storage.addVolumes r.name r.volumes.values).1 }
  | remove {d : Devices} (deleted : r.isDeleted = true) :
    r.Step .storage d { d with storage := d.storage.release r.name }

/-- Any number of changes for a resource in some of its layers. -/
def Steps (r : Resource) (kinds : List LayerKind) : Devices → Devices → Prop :=
  Relation.ReflTransGen fun d d' => ∃ kind ∈ kinds, r.Step kind d d'

theorem Step.masterKey_eq (h : r.Step kind d d') : d'.luks.masterKey = d.luks.masterKey := by
  cases h <;> rfl

namespace Steps

theorem single (h : r.Step kind d d') (hk : kind ∈ kinds) : r.Steps kinds d d' :=
  Relation.ReflTransGen.single (r := fun d d' => ∃ kind ∈ kinds, r.Step kind d d') ⟨kind, hk, h⟩

theorem refl (r : Resource) (kinds : List LayerKind) (d : Devices) : r.Steps kinds d d :=
  Relation.ReflTransGen.refl

theorem trans {d'' : Devices} (h : r.Steps kinds d d') (h' : r.Steps kinds d' d'') :
    r.Steps kinds d d'' :=
  Relation.ReflTransGen.trans h h'

/-- What holds after each change if it held before it holds after any number of them. -/
theorem keeps {P : Devices → Prop} (h : r.Steps kinds d d')
    (hstep : ∀ kind ∈ kinds, ∀ d d', r.Step kind d d' → P d → P d') (hd : P d) : P d' := by
  induction h with
  | refl => exact hd
  | tail _ hlast ih =>
    obtain ⟨kind, hk, hs⟩ := hlast
    exact hstep kind hk _ _ hs ih

theorem mono {more : List LayerKind} (h : r.Steps kinds d d') (hsub : kinds ⊆ more) :
    r.Steps more d d' :=
  h.keeps (P := r.Steps more d) (fun _ hk _ _ hs ih => ih.trans (single hs (hsub hk)))
    (refl r more d)

theorem masterKey_eq (h : r.Steps kinds d d') : d'.luks.masterKey = d.luks.masterKey :=
  h.keeps (P := fun now => now.luks.masterKey = d.luks.masterKey)
    (fun _ _ _ _ hs ih => hs.masterKey_eq.trans ih) rfl

end Steps

/-! ## The steps of a layer around those below it -/

section Steps

variable {rest : List LayerKind}

theorem drbd_steps (htop : .drbd ∈ kinds)
    (hbelow : ∀ d entries, r.Steps kinds d ((r.under (r.work rest)).run (d, entries)).2.1)
    (d : Devices) (entries : Report) :
    r.Steps kinds d ((r.work (.drbd :: rest)).run (d, entries)).2.1 := by
  rw [work_drbd]
  cases hdeleted : r.isDeleted
  · have h := (Steps.single (d := d) (.allocate hdeleted) htop).trans (hbelow _ entries)
    simp only [Bool.false_eq_true, if_false]
    generalize (r.under (r.work rest)).run _ = after at h ⊢
    rcases after with ⟨fault | _, d', more⟩
    · exact h
    · exact h
  · have h := hbelow d entries
    simp only [if_true]
    generalize (r.under (r.work rest)).run (d, entries) = after at h ⊢
    rcases after with ⟨fault | _, d', more⟩
    · exact h
    · exact h.trans (.single (.surrender hdeleted) htop)

theorem luks_steps (htop : .luks ∈ kinds)
    (hbelow : ∀ d entries, r.Steps kinds d ((r.work rest).run (d, entries)).2.1)
    (d : Devices) (entries : Report) :
    r.Steps kinds d ((r.work (.luks :: rest)).run (d, entries)).2.1 := by
  rw [work_luks]
  cases hdeleted : r.isDeleted
  · simp only [Bool.false_eq_true, if_false]
    cases d.luks.masterKey.isNone
    · have h := hbelow d entries
      simp only [Bool.false_eq_true, if_false]
      generalize (r.work rest).run (d, entries) = after at h ⊢
      rcases after with ⟨fault | _, d', more⟩
      · exact h
      · exact h.trans (.single (.unlock hdeleted) htop)
    · exact .refl r _ d
  · exact (Steps.single (.lock hdeleted) htop).trans (hbelow _ entries)

theorem storage_steps (htop : .storage ∈ kinds) (d : Devices) (entries : Report) :
    r.Steps kinds d ((r.work (.storage :: rest)).run (d, entries)).2.1 := by
  rw [work_storage]
  cases hdeleted : r.isDeleted
  · cases hdiskless : r.isDiskless
    · have h := Steps.single (d := d) (.create hdeleted hdiskless) htop
      simp only [Bool.false_eq_true, if_false]
      generalize d.storage.addVolumes r.name r.volumes.values = added at h ⊢
      rcases added with ⟨storage, fault | _⟩
      · exact h
      · exact h
    · exact .refl r _ d
  · exact .single (.remove hdeleted) htop

end Steps

/-- The work on a resource makes changes for it in the layers that it reaches, and no others,
however it ends. -/
theorem work_steps (r : Resource) (stack : List LayerKind) (d : Devices) (entries : Report) :
    r.Steps (r.reached stack) d ((r.work stack).run (d, entries)).2.1 := by
  induction stack generalizing d entries with
  | nil => exact .refl r _ d
  | cons kind rest ih =>
    cases kind with
    | drbd =>
      have htop : LayerKind.drbd ∈ r.reached (.drbd :: rest) := List.mem_cons_self
      refine drbd_steps htop (fun d entries => ?_) d entries
      unfold under reached
      cases r.isDiskless
      · exact (ih d entries).mono (List.subset_cons_self ..)
      · exact .refl r _ d
    | luks =>
      refine luks_steps List.mem_cons_self (fun d entries => ?_) d entries
      exact (ih d entries).mono (List.subset_cons_self ..)
    | nvme => exact .refl r _ d
    | storage => exact storage_steps List.mem_cons_self d entries

/-- Work that comes through made some of the changes. -/
theorem steps_of_run {stack : List LayerKind} {entries more : Report} {outcome : Except Fault Unit}
    (h : (r.work stack).run (d, entries) = (outcome, d', more)) :
    r.Steps (r.reached stack) d d' := by
  have hsteps := r.work_steps stack d entries
  rwa [h] at hsteps

end Resource

end StorageCluster
